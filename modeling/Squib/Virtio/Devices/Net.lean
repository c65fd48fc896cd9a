import Squib.Virtio.Buffers

/-!
# virtio-net
-/

namespace Squib.NetDevice

open Checked Bytes

variable {η : Type}

def fMac : UInt64 := (1 : UInt64) <<< (5 : UInt64)
def fMtu : UInt64 := (1 : UInt64) <<< (3 : UInt64)

def rxQueue : ℕ := 0
def txQueue : ℕ := 1
def queueMaxSize : UInt16 := 256
def virtioNetHdrLen : ℕ := 12

abbrev Frame := List UInt8

structure NetConfig where
  guestMac : Option (Vector UInt8 6)
  mtu : Option UInt16

structure NetBackend (η : Type) where
  send : Frame → η → η
  recv : η → List Frame × η

structure FrameInterceptor (η : Type) where
  interceptTx : Frame → η → Bool × η
  drainRx : η → List Frame × η

def transmit (backend : NetBackend η) (interceptor : FrameInterceptor η) (frame : Frame)
    (host : η) : η :=
  match interceptor.interceptTx frame host with
  | (true, host) => host
  | (false, host) => backend.send frame host

def drainTx (backend : NetBackend η) (interceptor : FrameInterceptor η) (fuel : ℕ) : Prog Unit η :=
  drain fuel txQueue <| onChain fun descs own w =>
    let frameBytes := gather w.mem descs
    if virtioNetHdrLen < frameBytes.length then do
      let payload ← slice frameBytes virtioNetHdrLen frameBytes.length
      .ok (.complete 0, own, { w with host := transmit backend interceptor payload w.host })
    else .ok (.skip, own, w)

def fetchRx (backend : NetBackend η) (interceptor : FrameInterceptor η) (own : Unit) (w : World η) :
    List Frame × Unit × World η :=
  let (frames, host) := interceptor.drainRx w.host
  let (frames', host) := backend.recv host
  (frames ++ frames', own, { w with host })

def drainRx (backend : NetBackend η) (interceptor : FrameInterceptor η) : Prog Unit η :=
  deliver rxQueue (fetchRx backend interceptor)
    (fun frame => onChain fun descs own w => do
      let wire := List.replicate virtioNetHdrLen 0 ++ frame
      let (written, w) ← scatter wire descs 0 0 w
      .ok (.complete written, own, w))
    -- A frame that finds no chain is dropped.
    fun _ own => own

def processQueue (backend : NetBackend η) (interceptor : FrameInterceptor η) (fuel : ℕ)
    (queueIndex : UInt16) : Prog Unit η :=
  if queueIndex.toNat = txQueue then
    (drainTx backend interceptor fuel).andThen (drainRx backend interceptor)
  else if queueIndex.toNat = rxQueue then drainRx backend interceptor
  else .skip

def readConfig (config : NetConfig) (offset : UInt64) (len : ℕ) : Except Panic (List UInt8) := do
  let full := List.replicate 16 0
  let full ← config.guestMac.elim (.ok full) fun mac => copyFromSlice full 0 6 mac.toList
  let full ← config.mtu.elim (.ok full) fun mtu => copyFromSlice full 12 14 (leBytes 2 mtu.toNat)
  return configBytes full offset len

def availFeatures (config : NetConfig) : UInt64 :=
  let avail := if config.guestMac.isSome then fMac else 0
  if config.mtu.isSome then avail ||| fMtu else avail

def new (config : NetConfig) (backend : NetBackend η) (interceptor : FrameInterceptor η) :
    DeviceModel Unit η where
  deviceType := .net
  avail := availFeatures config
  queueMaxSizes := [queueMaxSize, queueMaxSize]
  own := ()
  activeState := .full
  readConfig _ _ offset len := readConfig config offset len
  processQueue := processQueue backend interceptor

/-! ## Keeping to the contract -/

def contract : Contract :=
  .ofChains (fun i m descs => i = txQueue → virtioNetHdrLen < (gather m descs).length)
    fun i descs a => i = rxQueue ∧ WriteOnlySpan descs a

variable (backend : NetBackend η) (interceptor : FrameInterceptor η)

theorem drainTx_meets (fuel : ℕ) :
    Meets contract 2 fuel [1] (drainTx backend interceptor fuel) := by
  refine drain_meets (onChain_meets fun descs own w => ?_) (by decide)
  dsimp only
  split_ifs with hlen
  · refine (returns_slice hlen.le le_rfl).bind fun payload _ => ?_
    exact returns_ok ⟨w.touches_host _ _, by simp [Action.completes, hlen]⟩
  · exact returns_ok ⟨.refl _ w, by simp [Action.completes, hlen, txQueue]⟩

theorem drainRx_meets (fuel : ℕ) : Meets contract 2 fuel [0] (drainRx backend interceptor) := by
  refine deliver_meets (fun own w => w.touches_host _ _)
    (fun frame => onChain_meets fun descs own w => ?_) (by decide)
  refine (scatter_returns _ descs 0 0 w (Nat.zero_le _)).bind fun r hr => ?_
  exact returns_ok ⟨hr.mono fun a ha => ⟨rfl, ha⟩, by simp [Action.completes, txQueue]⟩

theorem processQueue_meets (fuel : ℕ) (queueIndex : UInt16) :
    Meets contract 2 fuel [1, 0] (processQueue backend interceptor fuel queueIndex) := by
  unfold processQueue
  split_ifs
  · exact andThen_meets (drainTx_meets backend interceptor fuel)
      (drainRx_meets backend interceptor fuel) (by decide)
  · exact (drainRx_meets backend interceptor fuel).mono (by decide)
  · exact skip_meets

theorem processQueue_fuelMono (queueIndex : UInt16) :
    FuelMono fun fuel => processQueue backend interceptor fuel queueIndex := by
  unfold processQueue
  split_ifs
  · exact (fuelMono_drain _ _).andThen (fuelMono_const _)
  · exact fuelMono_const _
  · exact fuelMono_const _

theorem readConfig_returns (config : NetConfig) (offset : UInt64) (len : ℕ) :
    Returns (readConfig config offset len) fun _ => True := by
  have hmac : Returns (config.guestMac.elim (.ok (List.replicate 16 0)) fun mac =>
      copyFromSlice (List.replicate 16 0) 0 6 mac.toList) fun full => full.length = 16 := by
    cases config.guestMac with
    | none => exact returns_ok (by simp)
    | some mac =>
      exact (returns_copyFromSlice (by omega) (by simp) (by simp)).mono fun _ h => by simpa using h
  refine hmac.bind fun full h => ?_
  cases config.mtu with
  | none => exact returns_ok trivial
  | some mtu =>
    exact (returns_copyFromSlice (by omega) (by simp [h]) (by simp)).bind
      fun _ _ => returns_pure trivial

end Squib.NetDevice
