import Squib.Hv.Hotplug

/-!
# Requests of virtio-mem
-/

namespace Squib.MemDevice

open Checked Bytes HvfMemBackend

variable {η : Type}

/-! ## Calls -/

structure HotplugCall where
  plug : Bool
  base : UInt64
  len : UInt64
  ok : Bool
  deriving DecidableEq, Repr

def MemHotplugBackend.recorded (backend : MemHotplugBackend η) :
    MemHotplugBackend (η × List HotplugCall) where
  plug base len h :=
    let x := backend.plug base len h.1
    (x.1, x.2, h.2 ++ [⟨true, base, len, x.1.isOk⟩])
  unplug base len h :=
    let x := backend.unplug base len h.1
    (x.1, x.2, h.2 ++ [⟨false, base, len, x.1.isOk⟩])

variable (backend : MemHotplugBackend η) (config : MemConfig)

def rangeCalls (act : UInt64 → UInt64 → η → Except String Unit × η) (plug : Bool) (r : Request)
    (plugged : Plugged) (host : η) : List (HotplugCall × Plugged) :=
  if r.nbBlocks = 0 then []
  else
    let len := r.nbBlocks.toUInt64 * blockSize
    match blockIndexOf config.regionBase r.reqAddr with
    | none => []
    | some first =>
      if plugged.length < first + r.nbBlocks.toNat then []
      else [(⟨plug, r.reqAddr, len, (act r.reqAddr len host).1.isOk⟩, plugged)]

def sweepCalls : (done rest : Plugged) → η → List (HotplugCall × Plugged)
  | _, [], _ => []
  | done, slot :: rest, host =>
    if slot then
      let x := backend.unplug (blockAddr config done.length) blockSize host
      (⟨false, blockAddr config done.length, blockSize, x.1.isOk⟩, done ++ slot :: rest) ::
        sweepCalls (done ++ [!x.1.isOk]) rest x.2
    else sweepCalls (done ++ [false]) rest host

def calls (r : Request) (plugged : Plugged) (host : η) : List (HotplugCall × Plugged) :=
  if r.reqType = reqPlug then rangeCalls config backend.plug true r plugged host
  else if r.reqType = reqUnplug then rangeCalls config backend.unplug false r plugged host
  else if r.reqType = reqUnplugAll then sweepCalls backend config [] plugged host
  else []

variable (done rest : Plugged) (host : η)

theorem unplugFrom_recorded (log : List HotplugCall) :
    unplugFrom backend.recorded config.regionBase done.length rest (host, log) =
      ((unplugFrom backend config.regionBase done.length rest host).1,
        (unplugFrom backend config.regionBase done.length rest host).2.1,
        (unplugFrom backend config.regionBase done.length rest host).2.2,
        log ++ (sweepCalls backend config done rest host).map Prod.fst) := by
  induction rest generalizing done host log with
  | nil => simp [unplugFrom, sweepCalls]
  | cons slot rest ih =>
    have hnext (b : Bool) (host : η) (log : List HotplugCall) := ih (done ++ [b]) host log
    simp only [List.length_append, List.length_singleton] at hnext
    cases slot with
    | false =>
      simp only [unplugFrom, sweepCalls, Bool.false_eq_true, if_false]
      rw [hnext false]
    | true =>
      cases hx : backend.unplug (blockAddr config done.length) blockSize host with
      | mk res h =>
      have hcall : backend.recorded.unplug (blockAddr config done.length) blockSize (host, log) =
          (res, h, log ++ [⟨false, blockAddr config done.length, blockSize, res.isOk⟩]) := by
        simp only [MemHotplugBackend.recorded, hx]
      rw [unplugFrom_cons hcall, unplugFrom_cons hx, hnext (!res.isOk)]
      simp [sweepCalls, hx]

theorem dispatchRequest_recorded (r : Request) (plugged : Plugged) (host : η)
    (log : List HotplugCall) :
    dispatchRequest backend.recorded config.regionBase r.reqType r.reqAddr r.nbBlocks plugged
        (host, log) =
      (dispatchRequest backend config.regionBase r.reqType r.reqAddr r.nbBlocks plugged host).map
        fun x => (x.1, x.2.1, x.2.2, log ++ (calls backend config r plugged host).map Prod.fst) := by
  have hrange (act : UInt64 → UInt64 → η → Except String Unit × η) (value : Bool) :
      changeRange (fun base len h => ((act base len h.1).1, (act base len h.1).2,
          h.2 ++ [(⟨value, base, len, (act base len h.1).1.isOk⟩ : HotplugCall)])) value
          config.regionBase r.reqAddr r.nbBlocks plugged (host, log) =
        (changeRange act value config.regionBase r.reqAddr r.nbBlocks plugged host).map fun x =>
          (x.1, x.2.1, x.2.2, log ++ (rangeCalls config act value r plugged host).map Prod.fst) := by
    unfold changeRange rangeCalls
    dsimp only
    split_ifs
    · simp [Except.map]
    cases blockIndexOf config.regionBase r.reqAddr with
    | none => simp [Except.map]
    | some first =>
      dsimp only
      split_ifs
      · simp [Except.map]
      rcases act r.reqAddr (r.nbBlocks.toUInt64 * blockSize) host with ⟨e | _, h⟩
      · rfl
      · dsimp only
        cases fillSlice plugged first (first + r.nbBlocks.toNat) value <;> rfl
  unfold dispatchRequest calls
  split_ifs
  · exact hrange backend.plug true
  · exact hrange backend.unplug false
  · have := unplugFrom_recorded backend config [] plugged host log
    simp only [List.length_nil] at this
    simp only [unplugAllInner, this]
    rfl
  · simp [Except.map]
  · simp [Except.map]

/-! ## Requests for a range -/

abbrev Named (plugged : Plugged) (r : Request) (first : ℕ) : Prop :=
  r.Names config { plugged, host := {} } first

section Range

variable {config} {r : Request} {plugged : Plugged}
  (act : UInt64 → UInt64 → η → Except String Unit × η) (value : Bool) (host : η)

theorem range_named {first : ℕ} (h : Named config plugged r first) :
    rangeCalls config act value r plugged host =
        [(⟨value, r.reqAddr, r.nbBlocks.toUInt64 * blockSize,
          (act r.reqAddr (r.nbBlocks.toUInt64 * blockSize) host).1.isOk⟩, plugged)] ∧
      changeRange act value config.regionBase r.reqAddr r.nbBlocks plugged host =
        match act r.reqAddr (r.nbBlocks.toUInt64 * blockSize) host with
        | (.error _, host) => .ok (respError, plugged, host)
        | (.ok (), host) => .ok (respAck, plugged.mapIdx fun i b =>
            if first ≤ i ∧ i < first + r.nbBlocks.toNat then value else b, host) := by
  have hin : first + r.nbBlocks.toNat ≤ plugged.length := h.inside
  obtain ⟨plugged', hfilled, heq⟩ := changeRange_of_names act value host h
  have hbits : plugged' = plugged.mapIdx fun i b =>
      if first ≤ i ∧ i < first + r.nbBlocks.toNat then value else b := by
    apply List.ext_getElem?
    intro i
    rw [hfilled.getElem?, List.getElem?_mapIdx]
    split_ifs with hi
    · rw [List.getElem?_eq_getElem (by omega), Option.map_some]
    · rw [Option.map_id_fun', id]
  refine ⟨?_, hbits ▸ heq⟩
  unfold rangeCalls
  rw [if_neg h.some, h.block]
  dsimp only
  rw [if_neg (not_lt.2 hin)]

theorem range_not_named (h : ∀ first, ¬ Named config plugged r first) :
    rangeCalls config act value r plugged host = [] ∧ ∃ resp,
      changeRange act value config.regionBase r.reqAddr r.nbBlocks plugged host =
        .ok (resp, plugged, host) ∧ (resp = respAck → r.nbBlocks = 0) := by
  refine ⟨?_, changeRange_of_not_names act value host h⟩
  unfold rangeCalls
  dsimp only
  split_ifs with h0
  · rfl
  cases hblock : blockIndexOf config.regionBase r.reqAddr with
  | none => rfl
  | some first => exact if_pos (not_le.1 fun hle => h first ⟨h0, hblock, hle⟩)

end Range

/-! ## Runs -/

def request (s : Plugged × η) (r : Request) : Option (Plugged × η) :=
  match dispatchRequest backend config.regionBase r.reqType r.reqAddr r.nbBlocks s.1 s.2 with
  | .error _ => none
  | .ok x => some x.2

def unplugged (host : η) : Plugged × η := ((new config backend).own, host)

def HotplugCall.InRegion (c : HotplugCall) : Prop :=
  config.regionBase ≤ c.base ∧
    c.base.toNat + c.len.toNat ≤ config.regionBase.toNat + config.regionSize.toNat

def Asks (r : Request) (i : ℕ) : Prop :=
  r.reqAddr.toNat ≤ config.regionBase.toNat + i * blockBytes ∧
    config.regionBase.toNat + i * blockBytes < r.reqAddr.toNat + r.nbBlocks.toNat * blockBytes

instance decidableAsks (r : Request) (i : ℕ) : Decidable (Asks config r i) :=
  inferInstanceAs (Decidable (_ ∧ _))

structure Settled (r : Request) (plugged plugged' : Plugged) (resp : UInt16)
    (made : List HotplugCall) : Prop where
  range : r.reqType = reqPlug ∨ r.reqType = reqUnplug →
    plugged' = if resp = respAck then
      plugged.mapIdx fun i b => if Asks config r i then decide (r.reqType = reqPlug) else b else plugged
  all : r.reqType = reqUnplugAll → ∃ oks : List Bool, oks.length = plugged.length ∧
    made = ((plugged.zip oks).zipIdx.filter (·.1.1)).map
      (fun x => ⟨false, blockAddr config x.2, blockSize, x.1.2⟩) ∧
    plugged' = plugged.zipWith (fun b ok => b && !ok) oks ∧
    (resp = respAck ↔ ∀ x ∈ plugged.zip oks, x.1 = true → x.2 = true)
  other : r.reqType ∉ [reqPlug, reqUnplug, reqUnplugAll] → plugged' = plugged ∧ made = []
  length : plugged'.length = (config.regionSize / blockSize).toNat
  pluggedSize : (readConfig config plugged' 0x28 8).map leNat = .ok (blockBytes * plugged'.count true)

def Settles (s : Plugged × η) (r : Request) : Prop :=
  ∃ resp s', dispatchRequest backend config.regionBase r.reqType r.reqAddr r.nbBlocks s.1 s.2 =
      .ok (resp, s') ∧
    Settled config r s.1 s'.1 resp ((calls backend config r s.1 s.2).map Prod.fst) ∧
    ∀ c ∈ calls backend config r s.1 s.2, c.1.InRegion config

theorem sweep_settled :
    ∃ oks : List Bool, oks.length = rest.length ∧
      (sweepCalls backend config done rest host).map Prod.fst =
        (((rest.zip oks).zipIdx done.length).filter (·.1.1)).map
          (fun x => ⟨false, blockAddr config x.2, blockSize, x.1.2⟩) ∧
      (unplugFrom backend config.regionBase done.length rest host).2.1 =
        rest.zipWith (fun b ok => b && !ok) oks ∧
      ((unplugFrom backend config.regionBase done.length rest host).1 = false ↔
        ∀ x ∈ rest.zip oks, x.1 = true → x.2 = true) := by
  induction rest generalizing done host with
  | nil => exact ⟨[], by simp [sweepCalls, unplugFrom]⟩
  | cons slot rest ih =>
    cases slot with
    | false =>
      obtain ⟨oks, hlen, hcalls, hbits, hok⟩ := ih (done ++ [false]) host
      rw [List.length_append, List.length_singleton] at hcalls hbits hok
      refine ⟨false :: oks, by simp [hlen], ?_, ?_, ?_⟩
      · simpa [sweepCalls] using hcalls
      · simpa [unplugFrom] using hbits
      · simpa [unplugFrom] using hok
    | true =>
      cases hx : backend.unplug (blockAddr config done.length) blockSize host with
      | mk res h =>
      obtain ⟨oks, hlen, hcalls, hbits, hok⟩ := ih (done ++ [!res.isOk]) h
      rw [List.length_append, List.length_singleton] at hcalls hbits hok
      refine ⟨res.isOk :: oks, by simp [hlen], ?_, ?_, ?_⟩
      · simpa [sweepCalls, hx] using hcalls
      · simpa [unplugFrom_cons hx] using hbits
      · simp [unplugFrom_cons hx, hok]

/-! ## What a request does to the bitmap -/

variable {config} {plugged : Plugged} {r : Request}

theorem asks_iff {first : ℕ} (h : Named config plugged r first) (i : ℕ) :
    Asks config r i ↔ first ≤ i ∧ i < first + r.nbBlocks.toNat := by
  rw [Asks, toNat_of_blockIndexOf h.block]
  unfold blockBytes
  omega

theorem configBytes_append (before field after : List UInt8) {offset : UInt64}
    (h : before.length = offset.toNat) :
    configBytes (before ++ field ++ after) offset field.length = field := by
  apply List.ext_getElem
  · simp [configBytes]
  · intro i hi hfield
    simp [configBytes, ← h, List.getD, List.getElem?_append_right, List.getElem?_append_left, hfield]

theorem readConfig_pluggedSize (hlen : plugged.length = (config.regionSize / blockSize).toNat) :
    (readConfig config plugged 0x28 8).map leNat = .ok (blockBytes * plugged.count true) := by
  have hcopy {xs src : List UInt8} {a b : ℕ} (hab : a ≤ b) (hb : b ≤ xs.length)
      (hs : src.length = b - a) :
      Returns (copyFromSlice xs a b src) fun ys => ys = xs.take a ++ src ++ xs.drop b :=
    ⟨_, (if_pos ⟨hab, hb⟩).trans (if_pos hs), rfl⟩
  have hread : Returns (readConfig config plugged 0x28 8) fun bytes =>
      bytes = leBytes 8 (UInt64.ofNat (plugged.count true) * blockSize).toNat := by
    unfold readConfig pluggedBlockCount
    dsimp only
    generalize hfield : leBytes 8 (UInt64.ofNat (plugged.count true) * blockSize).toNat = field
    have hlength : field.length = 8 := by rw [← hfield, length_leBytes]
    refine (returns_copyFromSlice (by omega) (by simp) (by simp)).bind fun f₁ h₁ => ?_
    refine (returns_copyFromSlice (by omega) (by simp [h₁]) (by simp)).bind fun f₂ h₂ => ?_
    refine (returns_copyFromSlice (by omega) (by simp [h₁, h₂]) (by simp)).bind fun f₃ h₃ => ?_
    refine (returns_copyFromSlice (by omega) (by simp [*]) (by simp)).bind fun f₄ h₄ => ?_
    rw [h₃, h₂, h₁, List.length_replicate] at h₄
    refine (hcopy (by omega) (by omega) hlength).bind fun f₅ h₅ => ?_
    refine (hcopy (by omega) (by simp [h₅]; omega) (by simp)).bind fun f₆ h₆ => returns_pure ?_
    rw [h₆, h₅, List.take_left' (by simp; omega), List.append_assoc (_ ++ field), ← hlength]
    exact configBytes_append _ _ _ (by rw [List.length_take, h₄]; rfl)
  obtain ⟨_, heq, rfl⟩ := hread
  have hcount := plugged.count_le_length (a := true)
  have hsize := config.regionSize.toNat_lt
  rw [UInt64.toNat_div, toNat_blockSize] at hlen
  rw [heq, Except.map, leNat_leBytes, UInt64.toNat_mul, UInt64.toNat_ofNat', toNat_blockSize,
    Except.ok.injEq]
  unfold blockBytes at *
  omega

theorem request_settled (s : Plugged × η) (hlen : s.1.length = (config.regionSize / blockSize).toNat) :
    ∃ resp s', dispatchRequest backend config.regionBase r.reqType r.reqAddr r.nbBlocks s.1 s.2 =
        .ok (resp, s') ∧
      Settled config r s.1 s'.1 resp ((calls backend config r s.1 s.2).map Prod.fst) := by
  obtain ⟨plugged, host⟩ := s
  have hrange (act : UInt64 → UInt64 → η → Except String Unit × η) (value : Bool) :
      ∃ resp s', changeRange act value config.regionBase r.reqAddr r.nbBlocks plugged host =
        .ok (resp, s') ∧ s'.1.length = plugged.length ∧
        s'.1 = if resp = respAck then
          plugged.mapIdx fun i b => if Asks config r i then value else b else plugged := by
    by_cases hn : ∃ first, Named config plugged r first
    · obtain ⟨first, hn⟩ := hn
      rw [(range_named act value host hn).2]
      simp only [asks_iff hn]
      rcases act r.reqAddr (r.nbBlocks.toUInt64 * blockSize) host with ⟨e | _, h⟩
      · exact ⟨_, _, rfl, rfl, rfl⟩
      · exact ⟨_, _, rfl, List.length_mapIdx, rfl⟩
    · obtain ⟨-, resp, heq, hzero⟩ := range_not_named act value host (not_exists.1 hn)
      refine ⟨resp, _, heq, rfl, ?_⟩
      split_ifs with hack
      · have hasks : ∀ i, ¬ Asks config r i := by
          intro i
          rw [Asks, hzero hack]
          simp
        apply List.ext_getElem <;> simp [hasks]
      · rfl
  have hsettled {resp : UInt16} {plugged' : Plugged} {made : List HotplugCall}
      (hl : plugged'.length = plugged.length) (range) (all) (other) :
      Settled config r plugged plugged' resp made :=
    ⟨range, all, other, hl.trans hlen, readConfig_pluggedSize (hl.trans hlen)⟩
  unfold dispatchRequest calls
  split_ifs with h₁ h₂ h₃ h₄
  · obtain ⟨resp, s', heq, hl, hbits⟩ := hrange backend.plug true
    exact ⟨resp, s', heq, hsettled hl (fun _ => by simpa [h₁] using hbits)
      (fun h => absurd (h₁.symm.trans h) (by decide)) (by simp [h₁])⟩
  · obtain ⟨resp, s', heq, hl, hbits⟩ := hrange backend.unplug false
    exact ⟨resp, s', heq, hsettled hl (fun _ => by simpa [h₁] using hbits)
      (fun h => absurd (h₂.symm.trans h) (by decide)) (by simp [h₂])⟩
  · obtain ⟨oks, hl, hcalls, hbits, hok⟩ := sweep_settled backend config [] plugged host
    have hlength := congrArg List.length hbits
    rw [List.length_zipWith, hl, min_self] at hlength
    refine ⟨_, _, rfl, hsettled hlength (by simp [h₁, h₂]) (fun _ => ⟨oks, hl, hcalls, hbits, ?_⟩)
      (by simp [h₃])⟩
    refine Iff.trans ?_ hok
    show (if (unplugFrom backend config.regionBase 0 plugged host).1 then _ else _) = respAck ↔
      (unplugFrom backend config.regionBase 0 plugged host).1 = false
    cases (unplugFrom backend config.regionBase 0 plugged host).1 <;> decide
  · exact ⟨_, _, rfl, hsettled rfl (by simp [h₁, h₂]) (by simp [h₃]) (fun _ => ⟨rfl, rfl⟩)⟩
  · exact ⟨_, _, rfl, hsettled rfl (by simp [h₁, h₂]) (by simp [h₃]) (fun _ => ⟨rfl, rfl⟩)⟩

theorem length_request {s s' : Plugged × η} (h : request backend config s r = some s')
    (hlen : s.1.length = (config.regionSize / blockSize).toNat) :
    s'.1.length = (config.regionSize / blockSize).toNat := by
  obtain ⟨resp, s₁, heq, hsettled⟩ := request_settled backend (r := r) s hlen
  rw [request, heq] at h
  cases h
  exact hsettled.length

theorem along_length (rs : List Request) :
    Run.Along (request backend config) (fun s _ => s.1.length = (config.regionSize / blockSize).toNat)
      rs (unplugged backend config host) :=
  Run.Along.of_invariant (fun _ _ _ hs h => length_request backend h hs) rs List.length_replicate

theorem mul_length_lt (hlen : plugged.length = (config.regionSize / blockSize).toNat) :
    plugged.length * blockBytes ≤ config.regionSize.toNat := by
  rw [hlen, UInt64.toNat_div, toNat_blockSize]
  exact Nat.div_mul_le_self _ _

/-! ## The region -/

theorem toNat_blockAddr (i : ℕ) :
    (blockAddr config i).toNat = (config.regionBase.toNat + i * blockBytes) % 2 ^ 64 := by
  rw [blockAddr, UInt64.toNat_add, UInt64.toNat_mul, UInt64.toNat_ofNat', toNat_blockSize]
  unfold blockBytes
  omega

theorem mem_sweepCalls {host : η} {c : HotplugCall} :
    c ∈ (sweepCalls backend config [] plugged host).map Prod.fst →
      ∃ i < plugged.length, c.base = blockAddr config i ∧ c.len = blockSize := by
  obtain ⟨oks, hl, hcalls, -⟩ := sweep_settled backend config [] plugged host
  rw [hcalls]
  intro h
  obtain ⟨x, hx, rfl⟩ := List.mem_map.1 h
  have hlt := List.snd_lt_add_of_mem_zipIdx (List.mem_filter.1 hx).1
  rw [List.length_zip, hl, min_self] at hlt
  exact ⟨x.2, by simpa using hlt, rfl, rfl⟩

theorem exists_sweepCalls {i : ℕ} (h : plugged[i]? = some true) :
    ∃ c ∈ (sweepCalls backend config [] plugged host).map Prod.fst, c.base = blockAddr config i := by
  obtain ⟨oks, hl, hcalls, -⟩ := sweep_settled backend config [] plugged host
  have hlt := (List.getElem?_eq_some_iff.1 h).1
  have hzip : (plugged.zip oks)[i]? = some (true, oks[i]) := by
    simp [List.getElem?_zip_eq_some, h]
  refine ⟨_, hcalls ▸ List.mem_map.2 ⟨((true, oks[i]), i), ?_, rfl⟩, rfl⟩
  exact List.mem_filter.2 ⟨List.mk_mem_zipIdx_iff_getElem?.2 hzip, rfl⟩

theorem settles_of_fits (hfit : ∀ i < (config.regionSize / blockSize).toNat,
      config.regionBase.toNat + i * blockBytes < 2 ^ 64) (s : Plugged × η)
    (hlen : s.1.length = (config.regionSize / blockSize).toNat) : Settles backend config s r := by
  obtain ⟨resp, s', heq, hsettled⟩ := request_settled backend (r := r) s hlen
  refine ⟨resp, s', heq, hsettled, fun c hc => ?_⟩
  have hsize := mul_length_lt hlen
  have hrange (act : UInt64 → UInt64 → η → Except String Unit × η) (value : Bool)
      (hc : c ∈ rangeCalls config act value r s.1 s.2) : c.1.InRegion config := by
    by_cases hn : ∃ first, Named config s.1 r first
    · obtain ⟨first, hn⟩ := hn
      rw [(range_named act value s.2 hn).1, List.mem_singleton] at hc
      have hin : first + r.nbBlocks.toNat ≤ s.1.length := hn.inside
      have hbase := hn.blocks.base
      have hl := hn.blocks.len
      subst hc
      rw [HotplugCall.InRegion, UInt64.le_iff_toNat_le]
      dsimp only at hbase hl ⊢
      unfold blockBytes at *
      omega
    · rw [(range_not_named act value s.2 (not_exists.1 hn)).1] at hc
      cases hc
  unfold calls at hc
  split_ifs at hc
  · exact hrange _ _ hc
  · exact hrange _ _ hc
  · obtain ⟨i, hi, hbase, hl⟩ := mem_sweepCalls backend (List.mem_map_of_mem hc)
    have := hfit i (hlen ▸ hi)
    rw [HotplugCall.InRegion, UInt64.le_iff_toNat_le, hbase, hl, toNat_blockAddr, toNat_blockSize,
      Nat.mod_eq_of_lt this]
    unfold blockBytes at *
    omega
  · cases hc

def granting : MemHotplugBackend Unit where
  plug _ _ h := (.ok (), h)
  unplug _ _ h := (.ok (), h)

theorem blockIndexOf_blockAddr {i : ℕ} (h : config.regionBase.toNat + i * blockBytes < 2 ^ 64) :
    blockIndexOf config.regionBase (blockAddr config i) = some i := by
  have haddr : (blockAddr config i).toNat = config.regionBase.toNat + i * blockBytes := by
    rw [toNat_blockAddr, Nat.mod_eq_of_lt h]
  have hle : config.regionBase ≤ blockAddr config i := by
    rw [UInt64.le_iff_toNat_le]
    omega
  have hsub : (blockAddr config i - config.regionBase).toNat = i * blockBytes := by
    rw [UInt64.toNat_sub_of_le _ _ hle]
    omega
  have hmod : (blockAddr config i - config.regionBase) % blockSize = 0 := by
    rw [← UInt64.toNat_inj, UInt64.toNat_mod, hsub]
    exact Nat.mul_mod_left i blockBytes
  unfold blockIndexOf
  dsimp only
  rw [if_neg (UInt64.not_lt.2 hle), if_neg (not_not.2 hmod), UInt64.toNat_div, hsub]
  exact congrArg some (Nat.mul_div_cancel i (by decide))

variable (config) in
/-- **What requests do to the bitmap**, with any backend. Where the region passes the end of the
address space, UNPLUG_ALL computes addresses before it. -/
theorem settles_iff :
    (∀ (η : Type) (backend : MemHotplugBackend η) (host : η) (rs : List Request),
      Run.Along (request backend config) (Settles backend config) rs
        (unplugged backend config host)) ↔
      ∀ i < (config.regionSize / blockSize).toNat,
        config.regionBase.toNat + i * blockBytes < 2 ^ 64 := by
  constructor
  · intro h
    by_contra hc
    simp only [not_forall, not_lt] at hc
    obtain ⟨i, hi, hpast⟩ := hc
    -- the last block that starts in the address space, and the one behind it
    have hlast : ∃ k, config.regionBase.toNat + k * blockBytes < 2 ^ 64 ∧
        2 ^ 64 ≤ config.regionBase.toNat + (k + 1) * blockBytes ∧ k < i := by
      have := config.regionBase.toNat_lt
      refine ⟨(2 ^ 64 - 1 - config.regionBase.toNat) / blockBytes, ?_⟩
      unfold blockBytes at *
      omega
    obtain ⟨k, hk, hk', hki⟩ := hlast
    have hlen : (unplugged granting config ()).1.length = (config.regionSize / blockSize).toNat :=
      List.length_replicate
    have hn : Named config (unplugged granting config ()).1 ⟨reqPlug, blockAddr config k, 2⟩ k :=
      ⟨show (2 : UInt16) ≠ 0 by decide, blockIndexOf_blockAddr hk,
        show k + 2 ≤ (unplugged granting config ()).1.length by omega⟩
    have hplug : request granting config (unplugged granting config ())
        ⟨reqPlug, blockAddr config k, 2⟩ = some ((unplugged granting config ()).1.mapIdx fun i b =>
          if k ≤ i ∧ i < k + 2 then true else b, ()) := by
      rw [request, dispatchRequest, if_pos rfl, plugInner, (range_named _ _ _ hn).2]
      rfl
    obtain ⟨-, -, -, -, hregion⟩ :=
      ((h Unit granting () [⟨reqPlug, blockAddr config k, 2⟩, ⟨reqUnplugAll, 0, 0⟩]).2 _ hplug).1
    have hbehind : ((unplugged granting config ()).1.mapIdx fun i b =>
        if k ≤ i ∧ i < k + 2 then true else b)[k + 1]? = some true := by
      rw [List.getElem?_mapIdx, List.getElem?_eq_getElem (by omega)]
      simp
    obtain ⟨c, hc, hbase⟩ := @exists_sweepCalls _ granting config () _ _ hbehind
    obtain ⟨x, hx, rfl⟩ := List.mem_map.1 hc
    have hin := (hregion x hx).1
    have hsize := mul_length_lt hlen
    have := config.regionBase.toNat_lt
    have := config.regionSize.toNat_lt
    rw [UInt64.le_iff_toNat_le, hbase, toNat_blockAddr] at hin
    unfold blockBytes at *
    omega
  · intro hfit η backend host rs
    exact (along_length backend host rs).mono fun s r => settles_of_fits backend hfit s

def lastBlocks : MemConfig := ⟨0xFFFFFFFFFFE00000, 0x400000, 0⟩

theorem unplugAll_outside :
    Run.run (request granting lastBlocks) [⟨reqPlug, 0xFFFFFFFFFFE00000, 2⟩]
        (unplugged granting lastBlocks ()) = some ([true, true], ()) ∧
      (⟨false, 0, blockSize, true⟩ : HotplugCall) ∈
        (calls granting lastBlocks ⟨reqUnplugAll, 0, 0⟩ [true, true] ()).map Prod.fst ∧
      ¬ HotplugCall.InRegion lastBlocks ⟨false, 0, blockSize, true⟩ := by
  refine ⟨by decide +kernel, by decide +kernel, fun h => absurd h.1 (by decide)⟩

/-! ## The discipline of the calls -/

variable (config) in
def Disciplined (c : HotplugCall × Plugged) : Prop :=
  ∃ first n, c.1.base = blockAddr config first ∧ c.1.len.toNat = n * blockBytes ∧
    first + n ≤ c.2.length ∧ ∀ i, first ≤ i → i < first + n → c.2[i]? = some (!c.1.plug)

variable (config) in
def Proper (s : Plugged × η) (r : Request) : Prop :=
  r.reqType = reqPlug ∨ r.reqType = reqUnplug → ∀ first, Named config s.1 r first →
    ∀ i, first ≤ i → i < first + r.nbBlocks.toNat → s.1[i]? = some (decide (r.reqType = reqUnplug))

theorem sweepCalls_disciplined :
    ∀ c ∈ sweepCalls backend config done rest host, Disciplined config c := by
  induction rest generalizing done host with
  | nil => exact fun c hc => absurd hc List.not_mem_nil
  | cons slot rest ih =>
    intro c hc
    unfold sweepCalls at hc
    split_ifs at hc with hslot
    · rcases List.mem_cons.1 hc with rfl | hc
      · refine ⟨done.length, 1, rfl, rfl, by simp, fun i h₁ h₂ => ?_⟩
        obtain rfl : i = done.length := by omega
        simp [hslot]
      · exact ih _ _ c hc
    · exact ih _ _ c hc

theorem range_disciplined_iff (act : UInt64 → UInt64 → η → Except String Unit × η) (value : Bool)
    (host : η) (hlen : plugged.length = (config.regionSize / blockSize).toNat) :
    (∀ c ∈ rangeCalls config act value r plugged host, Disciplined config c) ↔
      ∀ first, Named config plugged r first →
        ∀ i, first ≤ i → i < first + r.nbBlocks.toNat → plugged[i]? = some (!value) := by
  by_cases hn : ∃ first, Named config plugged r first
  · obtain ⟨first, hn⟩ := hn
    have huniq : ∀ first', Named config plugged r first' → first' = first := fun first' hn' =>
      Option.some_injective _ (hn'.block.symm.trans hn.block)
    rw [(range_named act value host hn).1]
    constructor
    · intro h first' hn' i h₁ h₂
      obtain ⟨first₁, n, hbase, hl, hle, hbits⟩ := h _ (List.mem_singleton_self _)
      dsimp only at hbase hl hle hbits
      have hsize := mul_length_lt hlen
      have hreg := config.regionSize.toNat_lt
      have hin : first + r.nbBlocks.toNat ≤ plugged.length := hn.inside
      have hlen' := hn.blocks.len
      have hfirst : first₁ = first := (hn.blocks.base_eq_iff (by unfold blockBytes at *; omega)
        (by unfold blockBytes at *; omega)).1 hbase
      have hn₁ : n = r.nbBlocks.toNat := by
        dsimp only at hlen'
        unfold blockBytes at *
        omega
      rw [huniq first' hn'] at h₁ h₂
      exact hbits i (by omega) (by omega)
    · intro h c hc
      rw [List.mem_singleton.1 hc]
      refine ⟨first, r.nbBlocks.toNat, ?_, hn.blocks.len, hn.inside, h first hn⟩
      rw [← UInt64.toNat_inj, toNat_blockAddr, ← hn.blocks.base]
      exact (Nat.mod_eq_of_lt (UInt64.toNat_lt _)).symm
  · rw [(range_not_named act value host (not_exists.1 hn)).1]
    exact iff_of_true (fun c hc => absurd hc List.not_mem_nil)
      fun first hf => absurd ⟨first, hf⟩ hn

theorem disciplined_request_iff (s : Plugged × η)
    (hlen : s.1.length = (config.regionSize / blockSize).toNat) :
    (∀ c ∈ calls backend config r s.1 s.2, Disciplined config c) ↔ Proper config s r := by
  unfold calls Proper
  split_ifs with h₁ h₂ h₃
  · rw [range_disciplined_iff backend.plug true s.2 hlen]
    simp [h₁, reqPlug, reqUnplug]
  · rw [range_disciplined_iff backend.unplug false s.2 hlen]
    simp [h₂]
  · simp only [h₁, h₂, or_self, false_implies, iff_true]
    exact sweepCalls_disciplined backend [] s.1 s.2
  · simp [h₁, h₂]

variable (config) in
/-- **The device keeps to the discipline only as far as the driver does.** -/
theorem disciplined_iff (host : η) (rs : List Request) :
    Run.Along (request backend config)
        (fun s r => ∀ c ∈ calls backend config r s.1 s.2, Disciplined config c) rs
        (unplugged backend config host) ↔
      Run.Along (request backend config) (Proper config) rs (unplugged backend config host) := by
  have hinv := @along_length η backend config host rs
  constructor
  · intro h
    exact (hinv.and h).mono fun s r hs => (disciplined_request_iff backend s hs.1).1 hs.2
  · intro h
    exact (hinv.and h).mono fun s r hs => (disciplined_request_iff backend s hs.1).2 hs.2

/-- The device plugs a block twice. -/
theorem plugged_twice :
    Run.run (request granting twoBlocks) [⟨reqPlug, 0x100000000, 1⟩]
        (unplugged granting twoBlocks ()) = some ([true, false], ()) ∧
      ∃ c ∈ calls granting twoBlocks ⟨reqPlug, 0x100000000, 1⟩ [true, false] (),
        c.1.ok = true ∧ ¬ Disciplined twoBlocks c := by
  refine ⟨by decide +kernel, _, List.mem_singleton_self _, rfl, ?_⟩
  rintro ⟨first, n, hbase, hlen, hle, hbits⟩
  have hfirst : first = 0 := @blockAddr_inj twoBlocks _ _
    (by dsimp at hle; unfold blockBytes; omega) (by decide) hbase.symm
  have hn : n ≠ 0 := by
    rintro rfl
    exact absurd hlen (by decide)
  exact absurd (hbits 0 (by omega) (by omega)) (by decide)

end Squib.MemDevice
