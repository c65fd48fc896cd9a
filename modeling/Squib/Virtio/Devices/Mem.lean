import Squib.Virtio.Buffers

/-!
# virtio-mem
-/

namespace Squib.MemDevice

open Checked Bytes

variable {η : Type}

def reqPlug : UInt16 := 0
def reqUnplug : UInt16 := 1
def reqUnplugAll : UInt16 := 2
def reqState : UInt16 := 3

def respAck : UInt16 := 0
def respNack : UInt16 := 1
def respError : UInt16 := 3

def blockSize : UInt64 := 2 * 1024 * 1024

def reqQueue : ℕ := 0
def queueMaxSize : UInt16 := 64

structure MemConfig where
  regionBase : UInt64
  regionSize : UInt64
  requestedSize : UInt64
  deriving DecidableEq, Repr

structure MemHotplugBackend (η : Type) where
  plug : (guestBase len : UInt64) → η → Except String Unit × η
  unplug : (guestBase len : UInt64) → η → Except String Unit × η

abbrev Plugged := List Bool

def blockIndexOf (regionBase guestAddr : UInt64) : Option ℕ :=
  if guestAddr < regionBase then none
  else
    let offset := guestAddr - regionBase
    if offset % blockSize ≠ 0 then none else some (offset / blockSize).toNat

def changeRange (act : UInt64 → UInt64 → η → Except String Unit × η) (value : Bool)
    (regionBase guestBase : UInt64) (nbBlocks : UInt16) (plugged : Plugged) (host : η) :
    Except Panic (UInt16 × Plugged × η) :=
  if nbBlocks = 0 then .ok (respAck, plugged, host)
  else
    let len := nbBlocks.toUInt64 * blockSize
    match blockIndexOf regionBase guestBase with
    | none => .ok (respNack, plugged, host)
    | some start =>
      let stop := start + nbBlocks.toNat
      if plugged.length < stop then .ok (respNack, plugged, host)
      else
        match act guestBase len host with
        | (.error _, host) => .ok (respError, plugged, host)
        | (.ok (), host) => do
          let plugged ← fillSlice plugged start stop value
          .ok (respAck, plugged, host)

def plugInner (backend : MemHotplugBackend η) := changeRange backend.plug true

def unplugInner (backend : MemHotplugBackend η) := changeRange backend.unplug false

def unplugFrom (backend : MemHotplugBackend η) (regionBase : UInt64) :
    (idx : ℕ) → Plugged → η → Bool × Plugged × η
  | _, [], host => (false, [], host)
  | idx, slot :: plugged, host =>
    if slot then
      let base := regionBase + UInt64.ofNat idx * blockSize
      match backend.unplug base blockSize host with
      | (.error _, host) =>
        let (_, plugged, host) := unplugFrom backend regionBase (idx + 1) plugged host
        (true, true :: plugged, host)
      | (.ok (), host) =>
        let (failed, plugged, host) := unplugFrom backend regionBase (idx + 1) plugged host
        (failed, false :: plugged, host)
    else
      let (failed, plugged, host) := unplugFrom backend regionBase (idx + 1) plugged host
      (failed, false :: plugged, host)

def unplugAllInner (backend : MemHotplugBackend η) (regionBase : UInt64) (plugged : Plugged)
    (host : η) : UInt16 × Plugged × η :=
  let (anyFailed, plugged, host) := unplugFrom backend regionBase 0 plugged host
  (if anyFailed then respError else respAck, plugged, host)

def dispatchRequest (backend : MemHotplugBackend η) (regionBase : UInt64) (reqType : UInt16)
    (reqAddr : UInt64) (nbBlocks : UInt16) (plugged : Plugged) (host : η) :
    Except Panic (UInt16 × Plugged × η) :=
  if reqType = reqPlug then plugInner backend regionBase reqAddr nbBlocks plugged host
  else if reqType = reqUnplug then unplugInner backend regionBase reqAddr nbBlocks plugged host
  else if reqType = reqUnplugAll then .ok (unplugAllInner backend regionBase plugged host)
  else if reqType = reqState then .ok (respNack, plugged, host)
  else .ok (respError, plugged, host)

def reqAddrAddr (req : Descriptor) : GuestAddress := req.addr + 8

def nbBlocksAddr (req : Descriptor) : GuestAddress := req.addr + 16

def handleRequest (backend : MemHotplugBackend η) (config : MemConfig) (descs : List Descriptor)
    (plugged : Plugged) (w : World η) : Except Panic (UInt32 × Plugged × World η) :=
  match reqResp descs with
  | none => .ok (0, plugged, w)
  | some (req, resp) => do
    let reqType := (w.mem.readU16Le req.addr).toOption.getD 0xFFFF
    let reqAddr := (w.mem.readU64Le (reqAddrAddr req)).toOption.getD 0
    let nbBlocks := (w.mem.readU16Le (nbBlocksAddr req)).toOption.getD 0
    let (respType, plugged, host) ←
      dispatchRequest backend config.regionBase reqType reqAddr nbBlocks plugged w.host
    match World.write { w with host } resp.addr (leBytes 2 respType.toNat) with
    | .ok w => .ok (2, plugged, w)
    | .error _ => .ok (0, plugged, { w with host })

def drainRequests (backend : MemHotplugBackend η) (config : MemConfig) (fuel : ℕ) :
    Prog Plugged η :=
  drain fuel reqQueue <| onChain fun descs plugged w => do
    let (written, plugged, w) ← handleRequest backend config descs plugged w
    .ok (.complete written, plugged, w)

def processQueue (backend : MemHotplugBackend η) (config : MemConfig) (fuel : ℕ)
    (queueIndex : UInt16) : Prog Plugged η :=
  if queueIndex.toNat = reqQueue then drainRequests backend config fuel else .skip

def pluggedBlockCount (plugged : Plugged) : ℕ := plugged.count true

def readConfig (config : MemConfig) (plugged : Plugged) (offset : UInt64) (len : ℕ) :
    Except Panic (List UInt8) := do
  let pluggedSize := UInt64.ofNat (pluggedBlockCount plugged) * blockSize
  let full := List.replicate 56 0
  let full ← copyFromSlice full 0 8 (leBytes 8 blockSize.toNat)
  let full ← copyFromSlice full 16 24 (leBytes 8 config.regionBase.toNat)
  let full ← copyFromSlice full 24 32 (leBytes 8 config.regionSize.toNat)
  let full ← copyFromSlice full 32 40 (leBytes 8 config.regionSize.toNat)
  let full ← copyFromSlice full 40 48 (leBytes 8 pluggedSize.toNat)
  let full ← copyFromSlice full 48 56 (leBytes 8 config.requestedSize.toNat)
  return configBytes full offset len

def new (config : MemConfig) (backend : MemHotplugBackend η) : DeviceModel Plugged η where
  deviceType := .mem
  avail := 0
  queueMaxSizes := [queueMaxSize]
  own := List.replicate (config.regionSize / blockSize).toNat false
  activeState := .full
  readConfig plugged _ offset len := readConfig config plugged offset len
  processQueue := processQueue backend config

/-! ## Keeping to the contract -/

def contract : Contract := .ofChains (fun _ _ _ => True) fun _ descs => RespSpan 2 descs

theorem changeRange_returns (act : UInt64 → UInt64 → η → Except String Unit × η) (value : Bool)
    (regionBase guestBase : UInt64) (nbBlocks : UInt16) (plugged : Plugged) (host : η) :
    Returns (changeRange act value regionBase guestBase nbBlocks plugged host) fun _ => True := by
  unfold changeRange
  dsimp only
  split
  · exact returns_ok trivial
  split
  · exact returns_ok trivial
  split
  · exact returns_ok trivial
  next hlen =>
  split
  · exact returns_ok trivial
  · exact (returns_fillSlice (by omega) (not_lt.1 hlen)).bind fun _ _ => returns_ok trivial

variable (backend : MemHotplugBackend η) (config : MemConfig)

theorem dispatchRequest_returns (regionBase : UInt64) (reqType : UInt16) (reqAddr : UInt64)
    (nbBlocks : UInt16) (plugged : Plugged) (host : η) :
    Returns (dispatchRequest backend regionBase reqType reqAddr nbBlocks plugged host)
      fun _ => True := by
  unfold dispatchRequest plugInner unplugInner
  split_ifs <;> first | exact changeRange_returns _ _ _ _ _ _ _ | exact returns_ok trivial

theorem handleRequest_returns (descs : List Descriptor) (plugged : Plugged) (w : World η) :
    Returns (handleRequest backend config descs plugged w) fun r =>
      w.Touches (RespSpan 2 descs) r.2.2 := by
  unfold handleRequest
  split
  · exact returns_ok (.refl _ w)
  next req resp hr =>
  refine (dispatchRequest_returns backend _ _ _ _ plugged w.host).bind fun r _ => ?_
  dsimp only
  split
  · next w' hw =>
    refine returns_ok ((w.touches_host _ _).trans ((World.touches_write hw).mono fun a ha => ?_))
    exact ⟨req, resp, hr, by simpa using ha⟩
  · exact returns_ok (w.touches_host _ _)

theorem processQueue_meets (fuel : ℕ) (queueIndex : UInt16) :
    Meets contract 1 fuel [0] (processQueue backend config fuel queueIndex) := by
  unfold processQueue
  split_ifs
  · refine drain_meets (onChain_meets fun descs plugged w => ?_) Nat.one_pos
    refine (handleRequest_returns backend config descs plugged w).bind fun r hr => ?_
    exact returns_ok ⟨hr, by simp [Action.completes]⟩
  · exact skip_meets

theorem processQueue_fuelMono (queueIndex : UInt16) :
    FuelMono fun fuel => processQueue backend config fuel queueIndex := by
  unfold processQueue
  split_ifs
  · exact fuelMono_drain _ _
  · exact fuelMono_const _

theorem readConfig_returns (plugged : Plugged) (offset : UInt64) (len : ℕ) :
    Returns (readConfig config plugged offset len) fun _ => True := by
  unfold readConfig
  have h0 : (List.replicate 56 (0 : UInt8)).length = 56 := by simp
  refine (returns_copyFromSlice (by omega) (by omega) (by simp)).bind fun f1 h1 => ?_
  refine (returns_copyFromSlice (by omega) (by omega) (by simp)).bind fun f2 h2 => ?_
  refine (returns_copyFromSlice (by omega) (by omega) (by simp)).bind fun f3 h3 => ?_
  refine (returns_copyFromSlice (by omega) (by omega) (by simp)).bind fun f4 h4 => ?_
  refine (returns_copyFromSlice (by omega) (by omega) (by simp)).bind fun f5 h5 => ?_
  refine (returns_copyFromSlice (by omega) (by omega) (by simp)).bind fun f6 h6 => ?_
  exact returns_pure trivial

end Squib.MemDevice
