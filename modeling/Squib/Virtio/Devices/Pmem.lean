import Squib.Virtio.Buffers

/-!
# virtio-pmem

One queue of flush requests; the device acknowledges a flush and refuses anything else.
-/

namespace Squib.PmemDevice

open Checked Bytes

variable {η : Type}

def reqTypeFlush : UInt32 := 0
def respTypeOk : UInt32 := 0
def respTypeEio : UInt32 := 1

def reqQueue : ℕ := 0
def queueMaxSize : UInt16 := 64

structure PmemConfig where
  guestBase : UInt64
  sizeBytes : UInt64
  deriving DecidableEq, Repr

def handleRequest (descs : List Descriptor) (w : World η) : UInt32 × World η :=
  match reqResp descs with
  | none => (0, w)
  | some (req, resp) =>
    let reqType := (w.mem.readU32Le req.addr).toOption.getD 0xFFFFFFFF
    let result := if reqType = reqTypeFlush then respTypeOk else respTypeEio
    match w.write resp.addr (leBytes 4 result.toNat) with
    | .ok w => (4, w)
    | .error _ => (0, w)

def drainRequests (fuel : ℕ) : Prog Unit η :=
  drain fuel reqQueue <| onChain fun descs own w =>
    let (written, w) := handleRequest descs w
    .ok (.complete written, own, w)

def processQueue (fuel : ℕ) (queueIndex : UInt16) : Prog Unit η :=
  if queueIndex.toNat = reqQueue then drainRequests fuel else .skip

def readConfig (config : PmemConfig) (offset : UInt64) (len : ℕ) : Except Panic (List UInt8) := do
  let full := List.replicate 16 0
  let full ← copyFromSlice full 0 8 (leBytes 8 config.guestBase.toNat)
  let full ← copyFromSlice full 8 16 (leBytes 8 config.sizeBytes.toNat)
  return configBytes full offset len

def new (config : PmemConfig) : DeviceModel Unit η where
  deviceType := .pmem
  avail := 0
  queueMaxSizes := [queueMaxSize]
  own := ()
  activeState := .full
  readConfig _ _ offset len := readConfig config offset len
  processQueue := processQueue

/-! ## Keeping to the contract -/

def contract : Contract := .ofChains (fun _ _ _ => True) fun _ descs => RespSpan 4 descs

theorem handleRequest_touches (descs : List Descriptor) (w : World η) :
    w.Touches (RespSpan 4 descs) (handleRequest descs w).2 := by
  unfold handleRequest
  split
  · exact .refl _ w
  next req resp hr =>
  dsimp only
  split
  · next w' hw => exact (World.touches_write hw).mono fun a ha => ⟨req, resp, hr, by simpa using ha⟩
  · exact .refl _ w

theorem processQueue_meets (fuel : ℕ) (queueIndex : UInt16) :
    Meets contract 1 fuel [0] (processQueue fuel queueIndex : Prog Unit η) := by
  unfold processQueue
  split_ifs
  · refine drain_meets (onChain_meets fun descs own w => ?_) Nat.one_pos
    exact returns_ok ⟨handleRequest_touches descs w, by simp [Action.completes]⟩
  · exact skip_meets

theorem processQueue_fuelMono (queueIndex : UInt16) :
    FuelMono fun fuel => (processQueue fuel queueIndex : Prog Unit η) := by
  unfold processQueue
  split_ifs
  · exact fuelMono_drain _ _
  · exact fuelMono_const _

theorem readConfig_returns (config : PmemConfig) (offset : UInt64) (len : ℕ) :
    Returns (readConfig config offset len) fun _ => True := by
  unfold readConfig
  refine (returns_copyFromSlice (by omega) (by simp) (by simp)).bind fun full h => ?_
  refine (returns_copyFromSlice (by omega) (by simp [h]) (by simp)).bind fun full' _ => ?_
  exact returns_pure trivial

end Squib.PmemDevice
