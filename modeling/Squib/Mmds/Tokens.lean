import Mathlib.Data.List.Nodup
import Squib.Lib.Run
import Squib.Mmds.Store

/-!
# The life of a token
-/

namespace Squib.Metadata.TokenStore

open Run

/-! ## The phases of `validate` -/

def expired (t : TokenStore) (now : ℕ) : List Token :=
  (t.tokens.entries.filter fun x => x.2 ≤ now).map Sigma.fst

def remove (t : TokenStore) (purge : List Token) : TokenStore :=
  ⟨purge.foldl (fun tokens token => tokens.erase token) t.tokens⟩

variable {t : TokenStore} {now : ℕ} {c : Token}

theorem mem_expired : c ∈ t.expired now ↔ ∃ expiresAt ≤ now, t.tokens.lookup c = some expiresAt := by
  unfold expired
  simp only [List.mem_map, List.mem_filter, decide_eq_true_eq]
  constructor
  · rintro ⟨⟨token, expiresAt⟩, ⟨hmem, hle⟩, rfl⟩
    exact ⟨expiresAt, hle, AList.mem_lookup_iff.2 hmem⟩
  · rintro ⟨expiresAt, hle, hlookup⟩
    exact ⟨⟨c, expiresAt⟩, ⟨AList.mem_lookup_iff.1 hlookup, hle⟩, rfl⟩

theorem lookup_remove (t : TokenStore) (purge : List Token) (c : Token) :
    (t.remove purge).tokens.lookup c = if c ∈ purge then none else t.tokens.lookup c := by
  unfold remove
  generalize t.tokens = s
  induction purge generalizing s with
  | nil => rfl
  | cons token purge ih =>
    rw [List.foldl_cons, ih]
    by_cases h : c = token
    · subst h
      simp [AList.lookup_erase]
    · simp [h, AList.lookup_erase_ne h]

/-! ## Runs -/

structure Issued where
  token : Token
  time : ℕ
  ttl : ℕ

def Issued.expiresAt (i : Issued) : ℕ := i.time + i.ttl * 10 ^ 9

structure History where
  store : TokenStore
  purges : List (List Token)
  clock : ℕ
  issued : List Issued

inductive Phase where
  | issue (env : Env) (ttlSeconds : ℕ)
  | scan (now : ℕ)
  | purge (i : ℕ)

def History.start : History := ⟨.new, [], 0, []⟩

variable {Value : Type} {ext : External Value} {h h' : History}

def step (ext : External Value) (h : History) : Phase → Option History
  | .issue env ttl =>
    if env.now < h.clock then none else
    match h.store.issue ext env ttl with
    | (.error _, store) => some { h with store, clock := env.now }
    | (.ok token, store) =>
      if token ∈ h.issued.map Issued.token then none
      else some { h with store, clock := env.now, issued := h.issued ++ [⟨token, env.now, ttl⟩] }
  | .scan now =>
    if now < h.clock then none
    else some { h with purges := h.purges ++ [h.store.expired now], clock := now }
  | .purge i =>
    h.purges[i]?.map fun purge =>
      { h with store := h.store.remove purge, purges := h.purges.eraseIdx i }

theorem run_validate (hnow : h.clock ≤ now) (c : Token) :
    run (step ext) [.scan now, .purge h.purges.length] h =
      some { h with store := (h.store.validate now c).2, clock := now } := by
  rw [run_cons (show step ext h (.scan now) = some _ from if_neg (Nat.not_lt.2 hnow))]
  simp only [run, step, List.getElem?_concat_length, Option.map_some, Option.bind_some,
    List.eraseIdx_append_of_length_le le_rfl, Nat.sub_self, List.eraseIdx_cons_zero, List.append_nil]
  rfl

structure History.Sound (h : History) : Prop where
  stored : ∀ c expiresAt, h.store.tokens.lookup c = some expiresAt →
    ∃ i ∈ h.issued, i.token = c ∧ i.expiresAt = expiresAt
  live : ∀ i ∈ h.issued, h.clock < i.expiresAt →
    h.store.tokens.lookup i.token = some i.expiresAt
  once : (h.issued.map Issued.token).Nodup
  purges : ∀ purge ∈ h.purges, ∀ c ∈ purge, ∃ i ∈ h.issued, i.token = c ∧ i.expiresAt ≤ h.clock
  ttl : ∀ i ∈ h.issued, MIN_TTL_SECONDS ≤ i.ttl ∧ i.ttl ≤ MAX_TTL_SECONDS

theorem History.Sound.tick (hs : h.Sound) (hnow : h.clock ≤ now) :
    History.Sound { h with clock := now } where
  stored := hs.stored
  live i hi hlt := hs.live i hi (Nat.lt_of_le_of_lt hnow hlt)
  once := hs.once
  purges purge hp c hc := by
    obtain ⟨i, hi, hic, hle⟩ := hs.purges purge hp c hc
    exact ⟨i, hi, hic, Nat.le_trans hle hnow⟩
  ttl := hs.ttl

theorem History.Sound.issue {env : Env} {ttl : ℕ} (hs : h.Sound) (hnow : h.clock ≤ env.now)
    (hfresh : c ∉ h.issued.map Issued.token) (httl : MIN_TTL_SECONDS ≤ ttl ∧ ttl ≤ MAX_TTL_SECONDS) :
    History.Sound
      { h with
        store := ⟨h.store.tokens.insert c (env.now + ttl * 10 ^ 9)⟩
        clock := env.now
        issued := h.issued ++ [⟨c, env.now, ttl⟩] } := by
  have hs := hs.tick hnow
  have hne : ∀ i ∈ h.issued, i.token ≠ c := fun i hi e => hfresh (List.mem_map.2 ⟨i, hi, e⟩)
  refine ⟨fun c' expiresAt hlookup => ?_, fun i hi hlt => ?_, ?_, fun purge hp c' hc' => ?_,
    fun i hi => ?_⟩
  · by_cases hc : c' = c
    · subst hc
      rw [AList.lookup_insert] at hlookup
      exact ⟨_, List.mem_append_right _ (List.mem_singleton_self _), rfl, Option.some.inj hlookup⟩
    · rw [AList.lookup_insert_ne hc] at hlookup
      obtain ⟨i, hi, hic⟩ := hs.stored c' expiresAt hlookup
      exact ⟨i, List.mem_append_left _ hi, hic⟩
  · obtain hi | hi := List.mem_append.1 hi
    · rw [AList.lookup_insert_ne (hne i hi)]
      exact hs.live i hi hlt
    · rw [List.mem_singleton.1 hi]
      exact AList.lookup_insert _
  · rw [List.map_append]
    exact List.nodup_append'.2 ⟨hs.once, List.nodup_singleton _,
      List.disjoint_singleton.2 hfresh⟩
  · obtain ⟨i, hi, hic⟩ := hs.purges purge hp c' hc'
    exact ⟨i, List.mem_append_left _ hi, hic⟩
  · obtain hi | hi := List.mem_append.1 hi
    · exact hs.ttl i hi
    · rw [List.mem_singleton.1 hi]
      exact httl

theorem sound_step (hs : h.Sound) (phase : Phase) (hstep : step ext h phase = some h') : h'.Sound := by
  cases phase with
  | issue env ttl =>
    simp only [step] at hstep
    split_ifs at hstep with hclock
    have hnow := Nat.not_lt.1 hclock
    obtain ⟨e, hissue⟩ | ⟨httl, bytes, hissue⟩ := h.store.issue_cases ext env ttl
    · rw [hissue] at hstep
      cases hstep
      exact hs.tick hnow
    · rw [hissue] at hstep
      dsimp only at hstep
      split_ifs at hstep with hfresh
      cases hstep
      exact hs.issue hnow hfresh httl
  | scan now =>
    simp only [step] at hstep
    split_ifs at hstep with hclock
    cases hstep
    have hs := hs.tick (Nat.not_lt.1 hclock)
    refine ⟨hs.stored, hs.live, hs.once, fun purge hp c hc => ?_, hs.ttl⟩
    obtain hp | hp := List.mem_append.1 hp
    · exact hs.purges purge hp c hc
    · rw [List.mem_singleton.1 hp] at hc
      obtain ⟨expiresAt, hle, hlookup⟩ := mem_expired.1 hc
      obtain ⟨i, hi, hic, rfl⟩ := hs.stored c expiresAt hlookup
      exact ⟨i, hi, hic, hle⟩
  | purge k =>
    obtain ⟨purge, hk, rfl⟩ := Option.map_eq_some_iff.1 hstep
    refine ⟨fun c expiresAt hlookup => ?_, fun i hi hlt => ?_, hs.once,
      fun purge hp => hs.purges purge (List.eraseIdx_subset hp), hs.ttl⟩
    · rw [lookup_remove] at hlookup
      split_ifs at hlookup
      exact hs.stored c expiresAt hlookup
    · -- a purge is of tokens that expired before it was decided on
      rw [lookup_remove, if_neg ?_]
      · exact hs.live i hi hlt
      · intro hc
        obtain ⟨j, hj, hji, hle⟩ := hs.purges purge (List.mem_of_getElem? hk) i.token hc
        rw [List.inj_on_of_nodup_map hs.once hj hi hji] at hle
        exact Nat.not_lt.2 hle hlt

theorem sound_start : History.start.Sound := ⟨nofun, nofun, List.nodup_nil, nofun, nofun⟩

/-- **A token is valid as long as it was issued for**: `validate` answers yes exactly for a token
that was issued and has not expired, and no purge removes one that is still live. -/
theorem validate_iff_issued {phases : List Phase} (hrun : run (step ext) phases .start = some h) :
    (∀ now, h.clock ≤ now → ∀ c, (h.store.validate now c).1 = true ↔
      ∃ i ∈ h.issued, i.token = c ∧ now < i.time + i.ttl * 10 ^ 9) ∧
    (∀ i ∈ h.issued, h.clock < i.expiresAt → h.store.tokens.lookup i.token = some i.expiresAt) ∧
    ∀ i ∈ h.issued, 1 ≤ i.ttl ∧ i.ttl ≤ 21600 := by
  have hs := invariant_of_step (fun _ phase _ hs => sound_step hs phase) sound_start hrun
  refine ⟨fun now hnow c => ?_, hs.live, hs.ttl⟩
  rw [validate_eq_true_iff]
  constructor
  · rintro ⟨expiresAt, hlt, hlookup⟩
    obtain ⟨i, hi, hic, rfl⟩ := hs.stored c expiresAt hlookup
    exact ⟨i, hi, hic, hlt⟩
  · rintro ⟨i, hi, rfl, hlt⟩
    exact ⟨i.expiresAt, hlt, (hs.tick hnow).live i hi hlt⟩

def oneSecond : List Phase := [.issue ⟨5, some (.replicate 32 0)⟩ 1, .scan 6, .purge 0]

theorem validate_iff_issued_oneSecond :
    ∃ h, run (step (⟨id, fun _ _ => none, fun _ => none⟩ : External Unit)) oneSecond .start = some h ∧
      (h.store.validate 7 (List.replicate 32 0)).1 = true :=
  ⟨_, rfl, ((@validate_iff_issued _ _ _ oneSecond rfl).1 7 (by decide) _).2
    ⟨⟨_, 5, 1⟩, List.mem_singleton_self _, rfl, by decide⟩⟩

end Squib.Metadata.TokenStore
