import Squib.Virtio.Buffers

/-!
# virtio-balloon
-/

namespace Squib.BalloonDevice

open Checked Bytes

variable {η : Type}

def inflateQueue : ℕ := 0
def deflateQueue : ℕ := 1
def statsQueue : ℕ := 2

def fStatsVq : UInt64 := (1 : UInt64) <<< (1 : UInt64)
def fDeflateOnOom : UInt64 := (1 : UInt64) <<< (2 : UInt64)

def queueMaxSize : UInt16 := 128

structure BalloonConfig where
  targetMib : UInt32
  statsPollingIntervalS : UInt16
  deriving DecidableEq, Repr

abbrev Pfns := List UInt32

def swapRemove (pfns : Pfns) (pos : ℕ) : Except Panic Pfns :=
  if pos < pfns.length then .ok ((pfns.set pos (pfns.getLast?.getD 0)).dropLast)
  else .error .indexOutOfRange

def pfnAddr (desc : Descriptor) (i : ℕ) : GuestAddress := desc.addr + UInt64.ofNat i * 4

def drainPfn (queueIndex : ℕ) (m : GuestMemory) (desc : Descriptor) (pfns : Pfns) (i : ℕ) :
    Except Panic Pfns :=
  match m.readU32Le (pfnAddr desc i) with
  | .error _ => .ok pfns
  | .ok pfn =>
    if queueIndex = inflateQueue then .ok (pfns ++ [pfn])
    else
      match pfns.findIdx? (· == pfn) with
      | some pos => swapRemove pfns pos
      | none => .ok pfns

def drainPfns (queueIndex : ℕ) (m : GuestMemory) (pfns : Pfns) (desc : Descriptor) :
    Except Panic Pfns :=
  let entries := desc.len.toNat / 4
  (List.range entries).foldlM (drainPfn queueIndex m desc) pfns

def pfnHandler (queueIndex : ℕ) : Handler Pfns η :=
  onChain fun descs pfns w => do
    let pfns ← descs.foldlM (drainPfns queueIndex w.mem) pfns
    .ok (.complete 0, pfns, w)

def statsHandler : Handler Pfns η := fun _ pfns w => .ok (.complete 0, pfns, w)

def drainPfnQueue (fuel queueIndex : ℕ) : Prog Pfns η :=
  drain fuel queueIndex (pfnHandler queueIndex)

def drainStatsQueue (fuel : ℕ) : Prog Pfns η := drain fuel statsQueue statsHandler

def processQueue (fuel : ℕ) (queueIndex : UInt16) : Prog Pfns η :=
  let qi := queueIndex.toNat
  if qi = inflateQueue ∨ qi = deflateQueue then drainPfnQueue fuel qi
  else if qi = statsQueue then drainStatsQueue fuel
  else .skip

def readConfig (config : BalloonConfig) (pfns : Pfns) (offset : UInt64) (len : ℕ) :
    Except Panic (List UInt8) := do
  let targetPages := min (config.targetMib.toNat * 256) (2 ^ 32 - 1)
  let actualPages := min pfns.length (2 ^ 32 - 1)
  let full := List.replicate 16 0
  let full ← copyFromSlice full 0 4 (leBytes 4 targetPages)
  let full ← copyFromSlice full 4 8 (leBytes 4 actualPages)
  return configBytes full offset len

def new (config : BalloonConfig) : DeviceModel Pfns η where
  deviceType := .balloon
  avail :=
    if 0 < config.statsPollingIntervalS then fDeflateOnOom ||| fStatsVq else fDeflateOnOom
  queueMaxSizes :=
    if 0 < config.statsPollingIntervalS then [queueMaxSize, queueMaxSize, queueMaxSize]
    else [queueMaxSize, queueMaxSize]
  own := []
  activeState := .full
  readConfig pfns _ offset len := readConfig config pfns offset len
  processQueue := processQueue

/-! ## Keeping to the contract -/

def contract : Contract where
  Accepts i _ r := i = statsQueue ∨ ∃ descs, r = .ok descs
  Writes _ _ _ := False

theorem foldlM_returns {α β : Type} {f : β → α → Except Panic β}
    (h : ∀ b a, Returns (f b a) fun _ => True) :
    ∀ (l : List α) (b : β), Returns (l.foldlM f b) fun _ => True
  | [], _ => returns_pure trivial
  | a :: l, b => (h b a).bind fun b' _ => foldlM_returns h l b'

theorem drainPfn_returns (queueIndex : ℕ) (m : GuestMemory) (desc : Descriptor) (pfns : Pfns)
    (i : ℕ) : Returns (drainPfn queueIndex m desc pfns i) fun _ => True := by
  unfold drainPfn
  split
  · exact returns_ok trivial
  split
  · exact returns_ok trivial
  split
  · next pos hpos =>
    obtain ⟨hlt, -⟩ := List.findIdx?_eq_some_iff_getElem.1 hpos
    exact ⟨_, if_pos hlt, trivial⟩
  · exact returns_ok trivial

theorem pfnHandler_meets {qi : ℕ} (hs : qi ≠ statsQueue) :
    HandlerMeets contract qi (pfnHandler qi : Handler Pfns η) := fun r pfns w => by
  cases r with
  | error e => exact returns_ok ⟨.refl _ w, by simp [Action.completes, contract, hs]⟩
  | ok descs =>
    refine (foldlM_returns (fun pfns desc => ?_) descs pfns).bind fun pfns' _ => ?_
    · exact foldlM_returns (drainPfn_returns qi w.mem desc) _ pfns
    · exact returns_ok ⟨.refl _ w, by simp [Action.completes, contract]⟩

theorem statsHandler_meets : HandlerMeets contract statsQueue (statsHandler : Handler Pfns η) :=
  fun _ _ w => returns_ok ⟨.refl _ w, by simp [Action.completes, contract]⟩

theorem processQueue_keeps (fuel : ℕ) (queueIndex : UInt16) :
    Keeps contract fuel [queueIndex.toNat] (processQueue fuel queueIndex : Prog Pfns η) := by
  unfold processQueue inflateQueue deflateQueue
  dsimp only
  split_ifs with hq hs
  · exact drain_keeps (pfnHandler_meets (by unfold statsQueue; omega))
  · rw [hs]
    exact drain_keeps statsHandler_meets
  · exact skip_keeps

theorem processQueue_meets {n : ℕ} (fuel : ℕ) (queueIndex : UInt16) (hn : 2 ≤ n)
    (hstats : queueIndex.toNat = statsQueue → 3 ≤ n) :
    Meets contract n fuel [queueIndex.toNat] (processQueue fuel queueIndex : Prog Pfns η) := by
  unfold processQueue inflateQueue deflateQueue
  dsimp only
  split_ifs with hq hs
  · exact drain_meets (pfnHandler_meets (by unfold statsQueue; omega)) (by omega)
  · rw [hs]
    exact drain_meets statsHandler_meets (hstats hs)
  · exact skip_meets

theorem processQueue_fuelMono (queueIndex : UInt16) :
    FuelMono fun fuel => (processQueue fuel queueIndex : Prog Pfns η) := by
  unfold processQueue
  dsimp only
  split_ifs
  · exact fuelMono_drain _ _
  · exact fuelMono_drain _ _
  · exact fuelMono_const _

theorem readConfig_returns (config : BalloonConfig) (pfns : Pfns) (offset : UInt64) (len : ℕ) :
    Returns (readConfig config pfns offset len) fun _ => True := by
  unfold readConfig
  refine (returns_copyFromSlice (by omega) (by simp) (by simp)).bind fun full h => ?_
  refine (returns_copyFromSlice (by omega) (by simp [h]) (by simp)).bind fun full' _ => ?_
  exact returns_pure trivial

end Squib.BalloonDevice
