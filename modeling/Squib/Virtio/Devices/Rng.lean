import Squib.Virtio.Buffers

/-!
# virtio-rng

One queue: every write-only buffer of a chain is filled from the entropy source.
-/

namespace Squib.RngDevice

open Checked

variable {η : Type}

def queueMaxSize : UInt16 := 256

structure EntropySource (η : Type) where
  fill : (len : ℕ) → η → Vector UInt8 len × η

def fillBuffers (source : EntropySource η) :
    List Descriptor → (bytesWritten : UInt32) → World η → UInt32 × World η
  | [], bytesWritten, w => (bytesWritten, w)
  | desc :: descs, bytesWritten, w =>
    if desc.flags &&& virtqDescFWrite == 0 then fillBuffers source descs bytesWritten w
    else
      let (buf, host) := source.fill desc.len.toNat w.host
      match World.write { w with host } desc.addr buf.toList with
      | .error _ => (bytesWritten, { w with host })
      | .ok w => fillBuffers source descs (saturatingAdd bytesWritten desc.len) w

def processQueue (source : EntropySource η) (fuel : ℕ) (queueIndex : UInt16) : Prog Unit η :=
  if queueIndex ≠ 0 then .skip
  else
    drain fuel 0 <| onChain fun descs own w =>
      let (bytesWritten, w) := fillBuffers source descs 0 w
      .ok (.complete bytesWritten, own, w)

def readConfig (len : ℕ) : Except Panic (List UInt8) := return List.replicate len 0

def withSource (source : EntropySource η) : DeviceModel Unit η where
  deviceType := .rng
  avail := 0
  queueMaxSizes := [queueMaxSize]
  own := ()
  activeState := .full
  readConfig _ _ _ len := readConfig len
  processQueue := processQueue source

/-! ## Keeping to the contract -/

variable (source : EntropySource η)

theorem fillBuffers_touches : ∀ (descs : List Descriptor) (bytesWritten : UInt32) (w : World η),
    w.Touches (WriteOnlySpan descs) (fillBuffers source descs bytesWritten w).2
  | [], _, w => .refl _ w
  | desc :: descs, bytesWritten, w => by
    have hrest : ∀ bytesWritten w, World.Touches (WriteOnlySpan (desc :: descs)) w
        (fillBuffers source descs bytesWritten w).2 := fun bytesWritten w =>
      (fillBuffers_touches descs bytesWritten w).mono fun _ ha =>
        ha.mono (List.subset_cons_self desc descs)
    unfold fillBuffers
    split
    · exact hrest bytesWritten w
    next hd =>
    dsimp only
    split
    · exact w.touches_host _ _
    · next w' hw =>
      refine ((w.touches_host _ _).trans (touches_writeOnly _ hw (by simp) ?_ (by simp))).trans
        (hrest _ w')
      simpa [Descriptor.isWriteOnly] using hd

theorem processQueue_meets (fuel : ℕ) (queueIndex : UInt16) :
    Meets .buffers 1 fuel [0] (processQueue source fuel queueIndex) := by
  unfold processQueue
  split_ifs
  · exact skip_meets
  · refine drain_meets (onChain_meets fun descs own w => ?_) Nat.one_pos
    exact returns_ok ⟨fillBuffers_touches source descs 0 w, by simp [Action.completes]⟩

theorem processQueue_fuelMono (queueIndex : UInt16) :
    FuelMono fun fuel => processQueue source fuel queueIndex := by
  unfold processQueue
  split_ifs
  · exact fuelMono_const _
  · exact fuelMono_drain _ _

end Squib.RngDevice
