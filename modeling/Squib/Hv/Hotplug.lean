import Mathlib.Data.List.Pairwise
import Squib.Lib.Run
import Squib.Virtio.Devices.Mem

/-!
# The hypervisor backend of virtio-mem
-/

namespace Squib.HvfMemBackend

open MemDevice Checked

/-! ## The backend -/

structure Mapping where
  base : UInt64
  len : UInt64
  deriving DecidableEq, Repr

namespace Mapping

def Holds (m : Mapping) (a : ℕ) : Prop := m.base.toNat ≤ a ∧ a < m.base.toNat + m.len.toNat

def Overlaps (m m' : Mapping) : Prop :=
  m.base.toNat < m'.base.toNat + m'.len.toNat ∧ m'.base.toNat < m.base.toNat + m.len.toNat

instance (m : Mapping) (a : ℕ) : Decidable (m.Holds a) := instDecidableAnd

instance (m m' : Mapping) : Decidable (m.Overlaps m') := instDecidableAnd

end Mapping

structure Backend where
  regions : List Mapping := []
  mapped : List Mapping := []
  deriving DecidableEq, Repr

structure HvfVm where
  others : List Mapping := []
  denied : String := "Denied"

def hex (n : UInt64) : String := "0x" ++ String.ofList (Nat.toDigits 16 n.toNat)

def callText (name : String) (guestBase len : UInt64) : String :=
  "HvfMemBackend::" ++ name ++ "(" ++ hex guestBase ++ ", " ++ toString len.toNat ++ "): "

def plug (vm : HvfVm) (guestBase len : UInt64) (h : Backend) : Except String Unit × Backend :=
  let mem : Mapping := ⟨guestBase, len⟩
  if ∃ m ∈ vm.others ++ h.mapped, m.Overlaps mem then
    (.error (callText "plug" guestBase len ++ "map: " ++ vm.denied), h)
  else
    let h := { h with mapped := mem :: h.mapped }
    match h.regions.find? (·.base = guestBase) with
    | some old =>
      (.error ("HvfMemBackend::plug: guest_base " ++ hex guestBase ++
          " already mapped (virtio-mem invariant violation)"),
        { regions := mem :: h.regions.filter (·.base ≠ guestBase)
          mapped := h.mapped.filter (· ≠ old) })
    | none => (.ok (), { h with regions := mem :: h.regions })

def unplug (guestBase len : UInt64) (h : Backend) : Except String Unit × Backend :=
  match h.regions.find? (·.base = guestBase) with
  | none => (.error (callText "unplug" guestBase len ++ "not plugged"), h)
  | some mem =>
    (.ok (), { regions := h.regions.filter (·.base ≠ guestBase)
               mapped := h.mapped.filter (· ≠ mem) })

def backend (vm : HvfVm) : MemHotplugBackend Backend where
  plug := plug vm
  unplug := unplug

/-! ## The device over the backend -/

structure Request where
  reqType : UInt16
  reqAddr : UInt64
  nbBlocks : UInt16
  deriving DecidableEq, Repr

structure State where
  plugged : Plugged
  host : Backend
  deriving DecidableEq, Repr

def step (config : MemConfig) (vm : HvfVm) (s : State) (r : Request) : Option State :=
  match dispatchRequest (backend vm) config.regionBase r.reqType r.reqAddr r.nbBlocks s.plugged
    s.host with
  | .error _ => none
  | .ok (_, plugged, host) => some { plugged, host }

def start (config : MemConfig) (vm : HvfVm) : State where
  plugged := (MemDevice.new config (backend vm)).own
  host := {}

def blockBytes : ℕ := 2 * 1024 * 1024

theorem toNat_blockSize : blockSize.toNat = blockBytes := rfl

def InPlugged (config : MemConfig) (plugged : Plugged) (a : ℕ) : Prop :=
  ∃ i, plugged[i]? = some true ∧ config.regionBase.toNat + i * blockBytes ≤ a ∧
    a < config.regionBase.toNat + (i + 1) * blockBytes

def Agrees (config : MemConfig) (s : State) : Prop :=
  ∀ a, (∃ m ∈ s.host.mapped, m.Holds a) ↔ InPlugged config s.plugged a

def Mapping.HasBlock (config : MemConfig) (m : Mapping) (i : ℕ) : Prop :=
  m.Holds (config.regionBase.toNat + i * blockBytes)

structure Request.Names (config : MemConfig) (s : State) (r : Request) (first : ℕ) : Prop where
  some : r.nbBlocks ≠ 0
  block : blockIndexOf config.regionBase r.reqAddr = .some first
  inside : first + r.nbBlocks.toNat ≤ s.plugged.length

def Matching (config : MemConfig) (s : State) (r : Request) : Prop :=
  (r.reqType = reqUnplug → ∀ first, r.Names config s first →
    ∀ m ∈ s.host.regions, m.base = r.reqAddr → ∀ i, s.plugged[i]? = some true →
      (m.HasBlock config i ↔ first ≤ i ∧ i < first + r.nbBlocks.toNat)) ∧
  (r.reqType = reqUnplugAll → ∀ m ∈ s.host.regions, m.len = blockSize)

section Blocks

variable {config : MemConfig} {m m' : Mapping}

structure Mapping.Blocks (config : MemConfig) (m : Mapping) (first n : ℕ) : Prop where
  base : m.base.toNat = config.regionBase.toNat + first * blockBytes
  len : m.len.toNat = n * blockBytes

variable {first n : ℕ} {i a : ℕ} {s : State} {r : Request}

theorem Mapping.Blocks.hasBlock_iff (h : m.Blocks config first n) :
    m.HasBlock config i ↔ first ≤ i ∧ i < first + n := by
  rw [HasBlock, Holds, h.base, h.len]
  unfold blockBytes
  omega

theorem Mapping.Blocks.holds_iff (h : m.Blocks config first n) :
    m.Holds a ↔ config.regionBase.toNat ≤ a ∧
      m.HasBlock config ((a - config.regionBase.toNat) / blockBytes) := by
  rw [h.hasBlock_iff, Holds, h.base, h.len]
  unfold blockBytes
  omega

theorem inPlugged_iff {plugged : Plugged} :
    InPlugged config plugged a ↔ config.regionBase.toNat ≤ a ∧
      plugged[(a - config.regionBase.toNat) / blockBytes]? = some true := by
  constructor
  · rintro ⟨i, hi, hle, hlt⟩
    have : (a - config.regionBase.toNat) / blockBytes = i := by
      unfold blockBytes at *
      omega
    rw [this]
    exact ⟨by omega, hi⟩
  · rintro ⟨hle, hi⟩
    refine ⟨_, hi, ?_, ?_⟩ <;> unfold blockBytes <;> omega

theorem Mapping.Blocks.base_eq_iff (h : m.Blocks config first n)
    (hfirst : first * blockBytes < 2 ^ 64) (hi : i * blockBytes < 2 ^ 64) :
    m.base = config.regionBase + UInt64.ofNat i * blockSize ↔ i = first := by
  have hm := m.base.toNat_lt
  have hbase := h.base
  rw [← UInt64.toNat_inj, UInt64.toNat_add, UInt64.toNat_mul, UInt64.toNat_ofNat', toNat_blockSize]
  unfold blockBytes at *
  omega

theorem toNat_of_blockIndexOf {regionBase addr : UInt64}
    (h : blockIndexOf regionBase addr = some first) :
    addr.toNat = regionBase.toNat + first * blockBytes := by
  rw [blockIndexOf] at h
  dsimp only at h
  split_ifs at h with hlt hmod
  cases h
  have hle : regionBase ≤ addr := UInt64.not_lt.1 hlt
  have hsub := UInt64.toNat_sub_of_le _ _ hle
  have hmod' : (addr - regionBase).toNat % blockBytes = 0 :=
    (UInt64.toNat_mod _ _).symm.trans (congrArg UInt64.toNat (not_not.1 hmod))
  rw [UInt64.le_iff_toNat_le] at hle
  rw [UInt64.toNat_div, toNat_blockSize]
  unfold blockBytes at *
  omega

theorem Request.Names.pos (h : r.Names config s first) : 0 < r.nbBlocks.toNat :=
  Nat.pos_of_ne_zero fun hzero => h.some (UInt16.toNat_inj.1 hzero)

theorem Request.Names.blocks (h : r.Names config s first) :
    Mapping.Blocks config ⟨r.reqAddr, r.nbBlocks.toUInt64 * blockSize⟩ first r.nbBlocks.toNat := by
  have hlt := r.nbBlocks.toNat_lt
  refine ⟨toNat_of_blockIndexOf h.block, ?_⟩
  rw [UInt64.toNat_mul, UInt16.toNat_toUInt64, toNat_blockSize]
  unfold blockBytes
  omega

end Blocks

/-! ## The objects of the map -/

section Laid

variable {config : MemConfig} {h : Backend} {s : State} {r : Request} {m m' : Mapping}

structure Backend.Sound (h : Backend) : Prop where
  mapped : h.mapped = h.regions
  apart : h.regions.Pairwise fun m m' => ¬ m.Overlaps m'
  pos : ∀ m ∈ h.regions, 0 < m.len.toNat

theorem Mapping.Overlaps.symm (hm : m.Overlaps m') : m'.Overlaps m := ⟨hm.2, hm.1⟩

theorem Mapping.overlaps_of_holds {a : ℕ} (hm : m.Holds a) (hm' : m'.Holds a) : m.Overlaps m' :=
  ⟨hm.1.trans_lt hm'.2, hm'.1.trans_lt hm.2⟩

theorem Backend.Sound.eq_of_overlaps (hh : h.Sound) (hm : m ∈ h.regions) (hm' : m' ∈ h.regions)
    (hover : m.Overlaps m') : m = m' := by
  have : Std.Symm fun m m' : Mapping => ¬ m.Overlaps m' := ⟨fun _ _ hn ho => hn ho.symm⟩
  by_contra hne
  exact hh.apart.forall hm hm' hne hover

theorem Backend.Sound.eq_of_base (hh : h.Sound) (hm : m ∈ h.regions) (hm' : m' ∈ h.regions)
    (hbase : m.base = m'.base) : m = m' := by
  have hpos := hh.pos m hm
  have hpos' := hh.pos m' hm'
  refine hh.eq_of_overlaps hm hm' ?_
  rw [Mapping.Overlaps, hbase]
  omega

variable {h' : Backend} {first idx : ℕ} {l : Plugged}

theorem Backend.Sound.sublist (hh : h.Sound) (hmapped : h'.mapped = h'.regions)
    (hsub : h'.regions.Sublist h.regions) : h'.Sound :=
  ⟨hmapped, hh.apart.sublist hsub, fun m hm => hh.pos m (hsub.subset hm)⟩

theorem unplug_cases (hh : h.Sound) (guestBase len : UInt64) :
    (∃ e, unplug guestBase len h = (.error e, h) ∧ ∀ m ∈ h.regions, m.base ≠ guestBase) ∨
      ∃ m ∈ h.regions, m.base = guestBase ∧ ∃ h', unplug guestBase len h = (.ok (), h') ∧
        h'.Sound ∧ h'.regions = h.regions.filter (·.base ≠ guestBase) := by
  rw [unplug]
  cases hfind : h.regions.find? (·.base = guestBase) with
  | none => exact .inl ⟨_, rfl, by simpa using hfind⟩
  | some m =>
    have hm : m ∈ h.regions := List.mem_of_find?_eq_some hfind
    have hbase : m.base = guestBase := by simpa using List.find?_some hfind
    refine .inr ⟨m, hm, hbase, _, rfl, hh.sublist ?_ List.filter_sublist, rfl⟩
    rw [hh.mapped]
    refine List.filter_congr fun m' hm' => ?_
    rw [← hbase, decide_eq_decide]
    exact not_congr ⟨congrArg _, hh.eq_of_base hm' hm⟩

theorem plug_cases (vm : HvfVm) (hh : h.Sound) {guestBase len : UInt64} (hlen : 0 < len.toNat) :
    (∃ e, plug vm guestBase len h = (.error e, h)) ∨
      ∃ h', plug vm guestBase len h = (.ok (), h') ∧ h'.Sound ∧
        h'.regions = ⟨guestBase, len⟩ :: h.regions := by
  rw [plug]
  dsimp only
  split_ifs with hover
  · exact .inl ⟨_, rfl⟩
  · have hfree : ∀ m ∈ h.regions, ¬ m.Overlaps ⟨guestBase, len⟩ := by
      intro m hm ho
      rw [← hh.mapped] at hm
      exact hover ⟨m, List.mem_append_right _ hm, ho⟩
    cases hfind : h.regions.find? (·.base = guestBase) with
    | some m =>
      -- An object with this key would have been mapped over.
      have hm : m ∈ h.regions := List.mem_of_find?_eq_some hfind
      have hbase : m.base = guestBase := by simpa using List.find?_some hfind
      have hpos := hh.pos m hm
      refine absurd ?_ (hfree m hm)
      rw [Mapping.Overlaps, hbase]
      exact ⟨by dsimp only; omega, by dsimp only; omega⟩
    | none =>
      refine .inr ⟨_, rfl, ⟨congrArg _ hh.mapped, ?_, ?_⟩, rfl⟩
      · exact hh.apart.cons fun m hm ho => hfree m hm ho.symm
      · exact List.forall_mem_cons.2 ⟨hlen, hh.pos⟩

structure Laid (config : MemConfig) (s : State) : Prop extends s.host.Sound where
  blocks : ∀ m ∈ s.host.regions, ∃ first n, 0 < n ∧ first + n ≤ s.plugged.length ∧
    m.Blocks config first n
  length : s.plugged.length * blockBytes < 2 ^ 64

theorem agrees_iff (hs : Laid config s) :
    Agrees config s ↔
      ∀ i, (∃ m ∈ s.host.regions, m.HasBlock config i) ↔ s.plugged[i]? = some true := by
  rw [Agrees, hs.mapped]
  constructor
  · intro hagree i
    have hi : (config.regionBase.toNat + i * blockBytes - config.regionBase.toNat) / blockBytes = i := by
      unfold blockBytes
      omega
    have hfirst := hagree (config.regionBase.toNat + i * blockBytes)
    rw [inPlugged_iff, hi, and_iff_right (Nat.le_add_right _ _)] at hfirst
    exact hfirst
  · intro hagree a
    rw [inPlugged_iff, ← hagree]
    constructor
    · rintro ⟨m, hm, ha⟩
      obtain ⟨first, n, -, -, hblocks⟩ := hs.blocks m hm
      rw [hblocks.holds_iff] at ha
      exact ⟨ha.1, m, hm, ha.2⟩
    · rintro ⟨ha, m, hm, hblock⟩
      obtain ⟨first, n, -, -, hblocks⟩ := hs.blocks m hm
      exact ⟨m, hm, hblocks.holds_iff.2 ⟨ha, hblock⟩⟩

/-! ## Requests for a range -/

def answer (config : MemConfig) (act : UInt64 → UInt64 → Backend → Except String Unit × Backend)
    (value : Bool) (s : State) (r : Request) : Except Panic (UInt16 × Plugged × Backend) :=
  changeRange act value config.regionBase r.reqAddr r.nbBlocks s.plugged s.host

structure Filled (plugged plugged' : Plugged) (first n : ℕ) (value : Bool) : Prop where
  length : plugged'.length = plugged.length
  getElem? : ∀ i, plugged'[i]? = if first ≤ i ∧ i < first + n then some value else plugged[i]?

section Range

variable {η : Type} (act : UInt64 → UInt64 → η → Except String Unit × η) (value : Bool) (host : η)

theorem changeRange_of_not_names (h : ∀ first, ¬ r.Names config s first) :
    ∃ resp, changeRange act value config.regionBase r.reqAddr r.nbBlocks s.plugged host =
      .ok (resp, s.plugged, host) ∧ (resp = respAck → r.nbBlocks = 0) := by
  rw [changeRange]
  split_ifs with hzero
  · exact ⟨_, rfl, fun _ => hzero⟩
  cases hblock : blockIndexOf config.regionBase r.reqAddr with
  | none => exact ⟨_, rfl, fun e => absurd e (by decide)⟩
  | some first =>
    have hlen : s.plugged.length < first + r.nbBlocks.toNat := by
      by_contra hle
      exact h first ⟨hzero, hblock, by omega⟩
    exact ⟨_, if_pos hlen, fun e => absurd e (by decide)⟩

theorem changeRange_of_names (h : r.Names config s first) :
    ∃ plugged, Filled s.plugged plugged first r.nbBlocks.toNat value ∧
      changeRange act value config.regionBase r.reqAddr r.nbBlocks s.plugged host =
        match act r.reqAddr (r.nbBlocks.toUInt64 * blockSize) host with
        | (.error _, host) => .ok (respError, s.plugged, host)
        | (.ok (), host) => .ok (respAck, plugged, host) := by
  obtain ⟨plugged, hfill, hlength⟩ :=
    returns_fillSlice (Nat.le_add_right first r.nbBlocks.toNat) h.inside
  refine ⟨plugged, ⟨hlength, getElem?_of_fillSlice hfill⟩, ?_⟩
  rw [changeRange, if_neg h.some, h.block]
  dsimp only
  rw [if_neg (not_lt.2 h.inside), hfill]
  rfl

end Range

/-! ## Steps -/

theorem plug_step (vm : HvfVm) (hs : Laid config s) (hr : r.reqType = reqPlug) :
    step config vm s r = some s ∨
      ∃ first s', step config vm s r = some s' ∧ r.Names config s first ∧ s'.host.Sound ∧
        s'.host.regions = ⟨r.reqAddr, r.nbBlocks.toUInt64 * blockSize⟩ :: s.host.regions ∧
        Filled s.plugged s'.plugged first r.nbBlocks.toNat true := by
  have hdispatch : dispatchRequest (backend vm) config.regionBase r.reqType r.reqAddr r.nbBlocks
      s.plugged s.host = answer config (plug vm) true s r := by
    rw [hr]
    rfl
  rw [step, hdispatch, answer]
  by_cases hnames : ∃ first, r.Names config s first
  · obtain ⟨first, hnames⟩ := hnames
    have hlen : 0 < (r.nbBlocks.toUInt64 * blockSize).toNat := by
      rw [hnames.blocks.len]
      exact Nat.mul_pos hnames.pos (by decide)
    obtain ⟨plugged, hfilled, hanswer⟩ := changeRange_of_names (plug vm) true s.host hnames
    rw [hanswer]
    obtain ⟨e, h⟩ | ⟨host, h, hsound, hregions⟩ := plug_cases vm hs.toSound hlen
    · rw [h]
      exact .inl rfl
    · rw [h]
      exact .inr ⟨first, _, rfl, hnames, hsound, hregions, hfilled⟩
  · obtain ⟨resp, h, -⟩ := changeRange_of_not_names (plug vm) true s.host (not_exists.1 hnames)
    rw [h]
    exact .inl rfl

theorem unplug_step (vm : HvfVm) (hs : Laid config s) (hr : r.reqType = reqUnplug) :
    (step config vm s r = some s ∧
        ∀ first, r.Names config s first → ∀ m ∈ s.host.regions, m.base ≠ r.reqAddr) ∨
      ∃ first s', step config vm s r = some s' ∧ r.Names config s first ∧ s'.host.Sound ∧
        (∃ m ∈ s.host.regions, m.base = r.reqAddr) ∧
        s'.host.regions = s.host.regions.filter (·.base ≠ r.reqAddr) ∧
        Filled s.plugged s'.plugged first r.nbBlocks.toNat false := by
  have hdispatch : dispatchRequest (backend vm) config.regionBase r.reqType r.reqAddr r.nbBlocks
      s.plugged s.host = answer config unplug false s r := by
    rw [hr]
    rfl
  rw [step, hdispatch, answer]
  by_cases hnames : ∃ first, r.Names config s first
  · obtain ⟨first, hnames⟩ := hnames
    obtain ⟨plugged, hfilled, hanswer⟩ := changeRange_of_names unplug false s.host hnames
    rw [hanswer]
    obtain ⟨e, h, hno⟩ | ⟨m, hm, hbase, host, h, hsound, hregions⟩ :=
      unplug_cases hs.toSound r.reqAddr (r.nbBlocks.toUInt64 * blockSize)
    · rw [h]
      exact .inl ⟨rfl, fun _ _ => hno⟩
    · rw [h]
      exact .inr ⟨first, _, rfl, hnames, hsound, ⟨m, hm, hbase⟩, hregions, hfilled⟩
  · obtain ⟨resp, h, -⟩ := changeRange_of_not_names unplug false s.host (not_exists.1 hnames)
    rw [h]
    exact .inl ⟨rfl, fun first hfirst => absurd ⟨first, hfirst⟩ hnames⟩

def blockAddr (config : MemConfig) (i : ℕ) : UInt64 :=
  config.regionBase + UInt64.ofNat i * blockSize

theorem unplugFrom_cons {η : Type} {backend : MemHotplugBackend η} {host host' : η}
    {res : Except String Unit}
    (h : backend.unplug (blockAddr config idx) blockSize host = (res, host')) :
    unplugFrom backend config.regionBase idx (true :: l) host =
      let rest := unplugFrom backend config.regionBase (idx + 1) l host'
      (!res.isOk || rest.1, (!res.isOk) :: rest.2.1, rest.2.2) := by
  unfold blockAddr at h
  rw [unplugFrom]
  dsimp only
  rw [h]
  cases res <;> rfl

variable {i n : ℕ} {b : Bool} {l' : Plugged}

theorem blockAddr_inj {j : ℕ} (hi : i * blockBytes < 2 ^ 64) (hj : j * blockBytes < 2 ^ 64)
    (h : blockAddr config i = blockAddr config j) : i = j := by
  rw [blockAddr, blockAddr, ← UInt64.toNat_inj, UInt64.toNat_add, UInt64.toNat_add,
    UInt64.toNat_mul, UInt64.toNat_mul, UInt64.toNat_ofNat', UInt64.toNat_ofNat', toNat_blockSize] at h
  unfold blockBytes at *
  omega

theorem forall_true_cons {P : ℕ → Prop} :
    (∀ j, (b :: l)[j]? = some true → P j) ↔
      (b = true → P 0) ∧ ∀ j, l[j]? = some true → P (j + 1) := by
  rw [← Nat.and_forall_add_one]
  simp

structure Swept (config : MemConfig) (idx : ℕ) (l l' : Plugged) (h h' : Backend) : Prop where
  sound : h'.Sound
  length : l'.length = l.length
  regions : ∀ m, m ∈ h'.regions ↔
    m ∈ h.regions ∧ ∀ j, l[j]? = some true → m.base ≠ blockAddr config (idx + j)
  blocks : ∀ j, l'[j]? = some true ↔
    l[j]? = some true ∧ ∀ m ∈ h.regions, m.base ≠ blockAddr config (idx + j)

theorem Swept.keep (hswept : Swept config (idx + 1) l l' h h')
    (hno : b = true → ∀ m ∈ h.regions, m.base ≠ blockAddr config idx) :
    Swept config idx (b :: l) (b :: l') h h' := by
  have hidx : ∀ j, idx + 1 + j = idx + (j + 1) := by omega
  refine ⟨hswept.sound, by simp [hswept.length], fun m => ?_, fun j => ?_⟩
  · rw [hswept.regions, forall_true_cons]
    simp only [hidx]
    exact and_congr_right fun hm => (and_iff_right fun hb => hno hb m hm).symm
  · cases j with
    | zero => simpa using hno
    | succ j => simpa only [hidx, List.getElem?_cons_succ] using hswept.blocks j

theorem Swept.remove {h₁ : Backend} (hswept : Swept config (idx + 1) l l' h₁ h')
    (hm : m ∈ h.regions) (hbase : m.base = blockAddr config idx)
    (h₁_regions : h₁.regions = h.regions.filter (·.base ≠ blockAddr config idx))
    (hlen : (idx + (l.length + 1)) * blockBytes < 2 ^ 64) :
    Swept config idx (true :: l) (false :: l') h h' := by
  have hidx : ∀ j, idx + 1 + j = idx + (j + 1) := by omega
  refine ⟨hswept.sound, by simp [hswept.length], fun m => ?_, fun j => ?_⟩
  · rw [hswept.regions, forall_true_cons, h₁_regions]
    simp [hidx, and_assoc]
  · cases j with
    | zero => simpa using ⟨m, hm, hbase⟩
    | succ j =>
      rw [List.getElem?_cons_succ, hswept.blocks j, hidx, h₁_regions]
      refine and_congr_right fun hj => ⟨fun hall m' hm' hb => ?_, fun hall m' hm' => ?_⟩
      · have hjlt : j < l.length := (List.getElem?_eq_some_iff.1 hj).1
        refine hall m' (List.mem_filter.2 ⟨hm', ?_⟩) hb
        rw [decide_eq_true_eq, hb]
        intro heq
        have hle : ∀ i ≤ idx + (l.length + 1), i * blockBytes < 2 ^ 64 :=
          fun i hi => (Nat.mul_le_mul_right _ hi).trans_lt hlen
        have := blockAddr_inj (hle _ (by omega)) (hle _ (by omega)) heq
        omega
      · exact hall m' (List.mem_filter.1 hm').1

theorem unplugFrom_swept (vm : HvfVm) (hh : h.Sound) (hlen : (idx + l.length) * blockBytes < 2 ^ 64) :
    ∃ failed l' h', unplugFrom (backend vm) config.regionBase idx l h = (failed, l', h') ∧
      Swept config idx l l' h h' := by
  induction l generalizing idx h with
  | nil => exact ⟨false, [], h, rfl, hh, rfl, by simp, by simp⟩
  | cons b l ih =>
    have hlen' : (idx + 1 + l.length) * blockBytes < 2 ^ 64 := by
      rwa [Nat.add_assoc, Nat.add_comm 1]
    cases b with
    | false =>
      obtain ⟨failed, l', h', heq, hswept⟩ := ih hh hlen'
      refine ⟨failed, false :: l', h', ?_, hswept.keep (by simp)⟩
      rw [unplugFrom, heq]
      rfl
    | true =>
      obtain ⟨e, hcall, hno⟩ | ⟨m, hm, hbase, h₁, hcall, hsound, hregions⟩ :=
        unplug_cases hh (blockAddr config idx) blockSize
      · obtain ⟨failed, l', h', heq, hswept⟩ := ih hh hlen'
        refine ⟨true, true :: l', h', ?_, hswept.keep fun _ => hno⟩
        rw [unplugFrom_cons hcall, heq]
        rfl
      · obtain ⟨failed, l', h', heq, hswept⟩ := ih hsound hlen'
        refine ⟨failed, false :: l', h', ?_, hswept.remove hm hbase hregions hlen⟩
        rw [unplugFrom_cons hcall, heq]
        rfl

theorem unplugAll_step (vm : HvfVm) (hs : Laid config s) (hr : r.reqType = reqUnplugAll) :
    ∃ s', step config vm s r = some s' ∧
      Swept config 0 s.plugged s'.plugged s.host s'.host := by
  obtain ⟨failed, l', h', heq, hswept⟩ :=
    unplugFrom_swept vm hs.toSound (by rw [Nat.zero_add]; exact hs.length)
  refine ⟨⟨l', h'⟩, ?_, hswept⟩
  rw [step, dispatchRequest, hr, if_neg (by decide), if_neg (by decide), if_pos rfl, unplugAllInner,
    heq]

theorem other_step (vm : HvfVm) (hplug : r.reqType ≠ reqPlug) (hunplug : r.reqType ≠ reqUnplug)
    (hall : r.reqType ≠ reqUnplugAll) : step config vm s r = some s := by
  rw [step, dispatchRequest, if_neg hplug, if_neg hunplug, if_neg hall]
  split_ifs <;> rfl

theorem laid_step (vm : HvfVm) (hs : Laid config s) (r : Request) :
    ∃ s', step config vm s r = some s' ∧ Laid config s' := by
  by_cases hplug : r.reqType = reqPlug
  · obtain h | ⟨first, s', h, hnames, hsound, hregions, hfilled⟩ := plug_step vm hs hplug
    · exact ⟨s, h, hs⟩
    · refine ⟨s', h, hsound, ?_, by rw [hfilled.length]; exact hs.length⟩
      rw [hregions, hfilled.length]
      refine List.forall_mem_cons.2 ⟨⟨first, _, hnames.pos, hnames.inside, hnames.blocks⟩, hs.blocks⟩
  by_cases hunplug : r.reqType = reqUnplug
  · obtain ⟨h, -⟩ | ⟨first, s', h, hnames, hsound, -, hregions, hfilled⟩ := unplug_step vm hs hunplug
    · exact ⟨s, h, hs⟩
    · refine ⟨s', h, hsound, fun m hm => ?_, by rw [hfilled.length]; exact hs.length⟩
      rw [hregions] at hm
      rw [hfilled.length]
      exact hs.blocks m (List.mem_filter.1 hm).1
  by_cases hall : r.reqType = reqUnplugAll
  · obtain ⟨s', h, hswept⟩ := unplugAll_step vm hs hall
    refine ⟨s', h, hswept.sound, fun m hm => ?_, by rw [hswept.length]; exact hs.length⟩
    rw [hswept.length]
    exact hs.blocks m ((hswept.regions m).1 hm).1
  · exact ⟨s, other_step vm hplug hunplug hall, hs⟩

/-! ## Agreement -/

variable {s' : State}

theorem agrees_plug (hs : Laid config s) (hagree : Agrees config s) (hs' : Laid config s')
    (hnames : r.Names config s first)
    (hregions : s'.host.regions = ⟨r.reqAddr, r.nbBlocks.toUInt64 * blockSize⟩ :: s.host.regions)
    (hfilled : Filled s.plugged s'.plugged first r.nbBlocks.toNat true) : Agrees config s' := by
  rw [agrees_iff hs] at hagree
  rw [agrees_iff hs']
  intro i
  simp only [hregions, List.mem_cons, exists_eq_or_imp]
  rw [hnames.blocks.hasBlock_iff, hagree, hfilled.getElem?]
  split_ifs with hi
  · simp [hi]
  · exact or_iff_right hi

theorem agrees_unplug_iff (hs : Laid config s) (hagree : Agrees config s) (hs' : Laid config s')
    (hm : m ∈ s.host.regions) (hregions : s'.host.regions = s.host.regions.filter (·.base ≠ m.base))
    (hfilled : Filled s.plugged s'.plugged first n false) :
    Agrees config s' ↔ ∀ i, s.plugged[i]? = some true →
      (m.HasBlock config i ↔ first ≤ i ∧ i < first + n) := by
  rw [agrees_iff hs] at hagree
  rw [agrees_iff hs']
  -- The other objects hold the plugged blocks that this one does not.
  have hrest : ∀ i, (∃ m' ∈ s'.host.regions, m'.HasBlock config i) ↔
      s.plugged[i]? = some true ∧ ¬ m.HasBlock config i := by
    intro i
    rw [← hagree, hregions]
    constructor
    · rintro ⟨m', hm', hi⟩
      simp only [List.mem_filter, decide_eq_true_eq] at hm'
      refine ⟨⟨m', hm'.1, hi⟩, fun hi' => hm'.2 ?_⟩
      rw [hs.eq_of_overlaps hm'.1 hm (Mapping.overlaps_of_holds hi hi')]
    · rintro ⟨⟨m', hm', hi⟩, hno⟩
      refine ⟨m', List.mem_filter.2 ⟨hm', ?_⟩, hi⟩
      rw [decide_eq_true_eq]
      intro hbase
      rw [hs.eq_of_base hm' hm hbase] at hi
      exact hno hi
  refine forall_congr' fun i => ?_
  rw [hrest, hfilled.getElem?]
  split_ifs with hi
  · simp [hi]
  · simp [hi]

theorem Laid.base_eq_iff (hs : Laid config s) (hblocks : m.Blocks config first n)
    (hfirst : first < s.plugged.length) (hi : i < s.plugged.length) :
    m.base = blockAddr config i ↔ i = first := by
  have hlen : ∀ i < s.plugged.length, i * blockBytes < 2 ^ 64 :=
    fun i hi => (Nat.mul_le_mul_right _ hi.le).trans_lt hs.length
  exact hblocks.base_eq_iff (hlen first hfirst) (hlen i hi)

theorem one_block_iff (hs : Laid config s) (hagree : Agrees config s) :
    (∀ m ∈ s.host.regions, m.len = blockSize) ↔
      ∀ i, s.plugged[i]? = some true → ∃ m ∈ s.host.regions, m.base = blockAddr config i := by
  rw [agrees_iff hs] at hagree
  have hlt : ∀ {i : ℕ}, s.plugged[i]? = some true → i < s.plugged.length :=
    fun hi => (List.getElem?_eq_some_iff.1 hi).1
  constructor
  · intro hone i hi
    obtain ⟨m, hm, hblock⟩ := (hagree i).2 hi
    obtain ⟨first, n, hn, hin, hblocks⟩ := hs.blocks m hm
    refine ⟨m, hm, (hs.base_eq_iff hblocks (by omega) (hlt hi)).2 ?_⟩
    have hlen := hblocks.len
    rw [hone m hm, toNat_blockSize] at hlen
    rw [hblocks.hasBlock_iff] at hblock
    unfold blockBytes at hlen
    omega
  · intro hstart m hm
    obtain ⟨first, n, hn, hin, hblocks⟩ := hs.blocks m hm
    -- An object of two blocks would overlap the one that starts at its second block.
    have hone : n = 1 := by
      by_contra hne
      have hsecond : m.HasBlock config (first + 1) := hblocks.hasBlock_iff.2 (by omega)
      obtain ⟨m', hm', hbase⟩ := hstart (first + 1) ((hagree _).1 ⟨m, hm, hsecond⟩)
      obtain ⟨first', n', hn', hin', hblocks'⟩ := hs.blocks m' hm'
      have hfirst' := (hs.base_eq_iff hblocks' (by omega) (by omega)).1 hbase
      have hsecond' : m'.HasBlock config (first + 1) := hblocks'.hasBlock_iff.2 (by omega)
      have heq := hs.eq_of_overlaps hm hm' (Mapping.overlaps_of_holds hsecond hsecond')
      rw [← heq] at hbase
      have := (hs.base_eq_iff hblocks (by omega) (by omega)).1 hbase
      omega
    rw [← UInt64.toNat_inj, hblocks.len, hone, one_mul, toNat_blockSize]

theorem agrees_unplugAll_iff (hs : Laid config s) (hagree : Agrees config s) (hs' : Laid config s')
    (hswept : Swept config 0 s.plugged s'.plugged s.host s'.host) :
    Agrees config s' ↔ ∀ m ∈ s.host.regions, m.len = blockSize := by
  rw [one_block_iff hs hagree, agrees_iff hs']
  rw [agrees_iff hs] at hagree
  -- Every object starts at a plugged block, so none is left.
  have hnone : ∀ m, m ∉ s'.host.regions := by
    intro m hm
    obtain ⟨hm, hno⟩ := (hswept.regions m).1 hm
    obtain ⟨first, n, hn, hin, hblocks⟩ := hs.blocks m hm
    have hfirst : m.HasBlock config first := hblocks.hasBlock_iff.2 (by omega)
    refine hno first ((hagree first).1 ⟨m, hm, hfirst⟩) ?_
    rw [Nat.zero_add]
    exact (hs.base_eq_iff hblocks (by omega) (by omega)).2 rfl
  refine forall_congr' fun i => ?_
  have hleft : ¬ ∃ m ∈ s'.host.regions, m.HasBlock config i := by simp [hnone]
  rw [iff_false_intro hleft, false_iff, hswept.blocks, Nat.zero_add]
  push Not
  rfl

end Laid

/-! ## Runs -/

theorem laid_start (config : MemConfig) (vm : HvfVm) : Laid config (start config vm) where
  mapped := rfl
  apart := .nil
  pos := by simp [start]
  blocks := by simp [start]
  length := by
    have hsize := config.regionSize.toNat_lt
    simp only [start, MemDevice.new, List.length_replicate]
    exact (Nat.div_mul_le_self _ _).trans_lt hsize

theorem agrees_start (config : MemConfig) (vm : HvfVm) : Agrees config (start config vm) := by
  rw [agrees_iff (laid_start config vm)]
  simp [start, MemDevice.new, List.getElem?_replicate]

variable {config : MemConfig} {vm : HvfVm}

theorem agrees_step_iff {s : State} {r : Request} (hagree : Agrees config s) (hs : Laid config s) :
    (∀ s', step config vm s r = some s' → Agrees config s') ↔ Matching config s r := by
  obtain ⟨s', hstep, hs'⟩ := laid_step vm hs r
  have hone : (∀ s', step config vm s r = some s' → Agrees config s') ↔ Agrees config s' := by
    simp [hstep]
  rw [hone, Matching]
  by_cases hunplug : r.reqType = reqUnplug
  · have hall : r.reqType ≠ reqUnplugAll := by
      rw [hunplug]
      decide
    rw [and_iff_left fun h => absurd h hall, forall_prop_of_true hunplug]
    obtain ⟨h, hno⟩ | ⟨first, s₁, h, hnames, -, ⟨m, hm, hbase⟩, hregions, hfilled⟩ :=
      unplug_step vm hs hunplug
    · cases hstep.symm.trans h
      exact iff_of_true hagree fun first hnames m hm hbase => absurd hbase (hno first hnames m hm)
    · cases hstep.symm.trans h
      rw [← hbase] at hregions
      rw [agrees_unplug_iff hs hagree hs' hm hregions hfilled]
      constructor
      · intro hcleared first' hnames' m' hm' hbase'
        cases hnames.block.symm.trans hnames'.block
        rw [hs.eq_of_base hm' hm (hbase'.trans hbase.symm)]
        exact hcleared
      · exact fun hmatching => hmatching first hnames m hm hbase
  by_cases hall : r.reqType = reqUnplugAll
  · rw [and_iff_right fun h => absurd h hunplug, forall_prop_of_true hall]
    obtain ⟨s₁, h, hswept⟩ := unplugAll_step vm hs hall
    cases hstep.symm.trans h
    exact agrees_unplugAll_iff hs hagree hs' hswept
  · refine iff_of_true ?_ ⟨fun h => absurd h hunplug, fun h => absurd h hall⟩
    by_cases hplug : r.reqType = reqPlug
    · obtain h | ⟨first, s₁, h, hnames, -, hregions, hfilled⟩ := plug_step vm hs hplug
      · cases hstep.symm.trans h
        exact hagree
      · cases hstep.symm.trans h
        exact agrees_plug hs hagree hs' hnames hregions hfilled
    · cases hstep.symm.trans (other_step vm hplug hunplug hall)
      exact hagree

/-- **Blocks and mappings.** The backend maps the bytes of the plugged blocks after each request
exactly if each request matches. -/
theorem mapped_eq_plugged_iff (config : MemConfig) (vm : HvfVm) (requests : List Request) :
    (Run.run (step config vm) requests (start config vm)).isSome ∧
      (Run.Along (step config vm) (fun s r => ∀ s', step config vm s r = some s' → Agrees config s')
          requests (start config vm) ↔
        Run.Along (step config vm) (Matching config) requests (start config vm)) := by
  have hlaid : ∀ s r s', Laid config s → step config vm s r = some s' → Laid config s' := by
    intro s r s' hs hstep
    obtain ⟨s₁, h, hs₁⟩ := laid_step vm hs r
    cases hstep.symm.trans h
    exact hs₁
  constructor
  · refine (Run.run_isSome_iff hlaid (fun s r hs => ?_) requests
      (laid_start config vm)).2 (Run.Along.of_forall (fun _ _ _ => trivial) _)
    obtain ⟨s₁, h, -⟩ := laid_step vm hs r
    simp [h]
  · exact Run.along_keeps_iff (fun s r => agrees_step_iff)
      (Run.Along.of_invariant hlaid requests (laid_start config vm)) (agrees_start config vm)

theorem dispatchRequest_step (config : MemConfig) (vm : HvfVm) (reqType : UInt16) (reqAddr : UInt64)
    (nbBlocks : UInt16) (plugged : Plugged) (host : Backend) :
    Returns (dispatchRequest (backend vm) config.regionBase reqType reqAddr nbBlocks plugged host)
      fun x => step config vm ⟨plugged, host⟩ ⟨reqType, reqAddr, nbBlocks⟩ = some ⟨x.2.1, x.2.2⟩ := by
  obtain ⟨x, hx, -⟩ := dispatchRequest_returns (backend vm) config.regionBase reqType reqAddr nbBlocks
    plugged host
  refine ⟨x, hx, ?_⟩
  rw [step, hx]

theorem drainRequests_run {fuel : ℕ} {fd fd' : Frontend Plugged} {w w' : World Backend} {b : Bool}
    (h : drainRequests (backend vm) config fuel fd w = .ok (b, fd', w')) :
    ∃ requests, Run.run (step config vm) requests ⟨fd.own, w.host⟩ = some ⟨fd'.own, w'.host⟩ := by
  refine drain_relates (fun x x' : Plugged × Backend => ∃ requests,
    Run.run (step config vm) requests ⟨x.1, x.2⟩ = some ⟨x'.1, x'.2⟩) (fun x => ⟨[], rfl⟩) ?_ ?_ h
  · rintro x y z ⟨rs, hrs⟩ ⟨rs', hrs'⟩
    refine ⟨rs ++ rs', ?_⟩
    rw [Run.run_append, hrs]
    exact hrs'
  · intro r plugged w
    cases r with
    | error e => exact returns_ok ⟨[], rfl⟩
    | ok descs =>
      refine Returns.bind (P := fun x => ∃ requests, Run.run (step config vm) requests
        ⟨plugged, w.host⟩ = some ⟨x.2.1, x.2.2.host⟩) ?_ fun x hx => returns_ok hx
      rw [handleRequest]
      split
      · exact returns_ok ⟨[], rfl⟩
      next req resp _ =>
      refine (dispatchRequest_step config vm _ _ _ plugged w.host).bind fun x hx => ?_
      dsimp only
      split
      · next w' hw =>
        refine returns_ok ⟨[_], (Run.run_cons hx).trans ?_⟩
        rw [World.host_of_write hw]
        rfl
      · exact returns_ok ⟨[_], Run.run_cons hx⟩

section Scenario

def twoBlocks : MemConfig := ⟨0x100000000, 0x400000, 0⟩

theorem mapped_ne_plugged :
    ∃ s, Run.run (step twoBlocks {}) [⟨reqPlug, 0x100000000, 2⟩, ⟨reqUnplug, 0x100000000, 1⟩]
        (start twoBlocks {}) = some s ∧
      s.host.mapped = [] ∧ s.plugged = [false, true] ∧ ¬ Agrees twoBlocks s := by
  refine ⟨⟨[false, true], {}⟩, by decide, rfl, rfl, fun h => ?_⟩
  have hbyte : InPlugged twoBlocks [false, true] (0x100000000 + 0x200000) :=
    ⟨1, rfl, by decide, by decide⟩
  obtain ⟨m, hm, -⟩ := (h _).2 hbyte
  cases hm

end Scenario

end Squib.HvfMemBackend
