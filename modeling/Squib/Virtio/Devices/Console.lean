import Squib.Virtio.Buffers

/-!
# virtio-console

Queue 0 receives and is parked; the readable buffers of queue 1 go to the sink.
-/

namespace Squib.ConsoleDevice

open Checked

variable {η : Type}

def rxQueue : ℕ := 0
def txQueue : ℕ := 1
def queueMaxSize : UInt16 := 64

inductive ConsoleSink (η : Type) where
  | discard
  | writer (writeAll : List UInt8 → η → Except String Unit × η)

def ConsoleSink.write : ConsoleSink η → List UInt8 → η → η
  | .discard, _, host => host
  | .writer writeAll, buf, host => (writeAll buf host).2

def writeBuffers (sink : ConsoleSink η) :
    List Descriptor → (written : UInt32) → World η → UInt32 × World η
  | [], written, w => (written, w)
  | desc :: descs, written, w =>
    if desc.isWriteOnly then writeBuffers sink descs written w
    else if desc.len = 0 then writeBuffers sink descs written w
    else
      match w.mem.read desc.addr desc.len.toNat with
      | .error _ => writeBuffers sink descs written w
      | .ok buf =>
        writeBuffers sink descs (saturatingAdd written desc.len)
          { w with host := sink.write buf w.host }

def drainTx (sink : ConsoleSink η) (fuel : ℕ) : Prog Unit η :=
  drain fuel txQueue <| onChain fun descs own w =>
    let (written, w) := writeBuffers sink descs 0 w
    .ok (.complete written, own, w)

def processQueue (sink : ConsoleSink η) (fuel : ℕ) (queueIndex : UInt16) : Prog Unit η :=
  if queueIndex.toNat = txQueue then drainTx sink fuel else .skip

def readConfig (len : ℕ) : Except Panic (List UInt8) := return List.replicate len 0

def new (sink : ConsoleSink η) : DeviceModel Unit η where
  deviceType := .console
  avail := 0
  queueMaxSizes := [queueMaxSize, queueMaxSize]
  own := ()
  activeState := .full
  readConfig _ _ _ len := readConfig len
  processQueue := processQueue sink

/-! ## Keeping to the contract -/

def contract : Contract := .ofChains (fun _ _ _ => True) fun _ _ _ => False

variable (sink : ConsoleSink η)

theorem writeBuffers_touches (A : ℕ → Prop) : ∀ (descs : List Descriptor) (written : UInt32)
    (w : World η), w.Touches A (writeBuffers sink descs written w).2
  | [], _, w => .refl _ w
  | desc :: descs, written, w => by
    unfold writeBuffers
    split
    · exact writeBuffers_touches A descs written w
    split
    · exact writeBuffers_touches A descs written w
    split
    · exact writeBuffers_touches A descs written w
    · exact (w.touches_host _ _).trans (writeBuffers_touches A descs _ _)

theorem processQueue_meets (fuel : ℕ) (queueIndex : UInt16) :
    Meets contract 2 fuel [1] (processQueue sink fuel queueIndex) := by
  unfold processQueue
  split_ifs
  · refine drain_meets (onChain_meets fun descs own w => ?_) (by decide)
    exact returns_ok ⟨writeBuffers_touches sink _ descs 0 w, by simp [Action.completes]⟩
  · exact skip_meets

theorem processQueue_fuelMono (queueIndex : UInt16) :
    FuelMono fun fuel => processQueue sink fuel queueIndex := by
  unfold processQueue
  split_ifs
  · exact fuelMono_drain _ _
  · exact fuelMono_const _

end Squib.ConsoleDevice
