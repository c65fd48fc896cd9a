import Mathlib.Data.List.Nodup
import Mathlib.Data.List.Perm.Subperm
import Mathlib.Logic.Relation

/-!
# Walks along the links of a table
-/

namespace Table

variable {ι δ : Type*} {table : ι → Option δ} {next : δ → Option ι} {i j : ι}
  {w w' : List (ι × δ)}

inductive Walk (table : ι → Option δ) (next : δ → Option ι) : ι → List (ι × δ) → Prop
  | last {i d} (hd : table i = some d) (hnext : next d = none) : Walk table next i [(i, d)]
  | cons {i j d w} (hd : table i = some d) (hnext : next d = some j) (hw : Walk table next j w) :
    Walk table next i ((i, d) :: w)

def Linked (table : ι → Option δ) (next : δ → Option ι) (i j : ι) : Prop :=
  ∃ d, table i = some d ∧ next d = some j

variable {d : δ}

theorem walk_iff_last (hd : table i = some d) (hnext : next d = none) :
    Walk table next i w ↔ w = [(i, d)] := by
  constructor
  · intro h
    cases h with
    | last hd' _ => rw [Option.some.inj (hd'.symm.trans hd)]
    | cons hd' hnext' _ =>
      cases hd'.symm.trans hd
      cases hnext'.symm.trans hnext
  · rintro rfl
    exact .last hd hnext

theorem walk_iff_cons (hd : table i = some d) (hnext : next d = some j) :
    Walk table next i w ↔ ∃ w', Walk table next j w' ∧ w = (i, d) :: w' := by
  constructor
  · intro h
    cases h with
    | last hd' hnext' =>
      cases hd'.symm.trans hd
      cases hnext'.symm.trans hnext
    | cons hd' hnext' hw =>
      cases hd'.symm.trans hd
      cases hnext'.symm.trans hnext
      exact ⟨_, hw, rfl⟩
  · rintro ⟨w', hw', rfl⟩
    exact .cons hd hnext hw'

namespace Walk

theorem unique (h : Walk table next i w) (h' : Walk table next i w') : w' = w := by
  induction h generalizing w' with
  | last hd hnext => exact (walk_iff_last hd hnext).1 h'
  | cons hd hnext _ ih =>
    obtain ⟨w'', hw'', rfl⟩ := (walk_iff_cons hd hnext).1 h'
    rw [ih hw'']

theorem exists_entry (h : Walk table next i w) : ∃ d, table i = some d ∧ (i, d) ∈ w := by
  cases h with
  | last hd _ | cons hd _ _ => exact ⟨_, hd, List.mem_cons_self⟩

theorem of_linked (h : Walk table next i w) (hij : Linked table next i j) :
    ∃ d w', w = (i, d) :: w' ∧ Walk table next j w' := by
  obtain ⟨d, hd, hnext⟩ := hij
  obtain ⟨w', hw', rfl⟩ := (walk_iff_cons hd hnext).1 h
  exact ⟨d, w', rfl, hw'⟩

theorem length_of_isChain {is : List ι} (h : Walk table next i w)
    (his : (i :: is).IsChain (Linked table next)) : is.length < w.length := by
  induction is generalizing i w with
  | nil =>
    obtain ⟨d, -, hmem⟩ := h.exists_entry
    exact List.length_pos_of_mem hmem
  | cons j is ih =>
    obtain ⟨hij, his⟩ := List.isChain_cons_cons.1 his
    obtain ⟨d, w', rfl, hw'⟩ := h.of_linked hij
    exact Nat.succ_lt_succ (ih hw' his)

theorem exists_suffix (h : Walk table next i w)
    (hij : Relation.ReflTransGen (Linked table next) i j) :
    ∃ w', w' <:+ w ∧ Walk table next j w' := by
  induction hij with
  | refl => exact ⟨w, List.suffix_rfl, h⟩
  | tail _ hjk ih =>
    obtain ⟨w', hsuffix, hw'⟩ := ih
    obtain ⟨d, w'', rfl, hw''⟩ := hw'.of_linked hjk
    exact ⟨w'', (List.suffix_cons _ _).trans hsuffix, hw''⟩

variable {p : ι × δ}

theorem exists_suffix_of_mem (h : Walk table next i w) (hp : p ∈ w) :
    ∃ w', w' <:+ w ∧ Walk table next p.1 w' := by
  induction h with
  | last hd hnext =>
    rw [List.mem_singleton.1 hp]
    exact ⟨_, List.suffix_rfl, .last hd hnext⟩
  | cons hd hnext hw ih =>
    rcases List.mem_cons.1 hp with rfl | hp
    · exact ⟨_, List.suffix_rfl, .cons hd hnext hw⟩
    · obtain ⟨w', hsuffix, hw'⟩ := ih hp
      exact ⟨w', hsuffix.trans (List.suffix_cons _ _), hw'⟩

theorem not_suffix_tail (h : Walk table next i (p :: w)) (h' : Walk table next i w') :
    ¬ w' <:+ w := by
  intro hsuffix
  have hle := hsuffix.length_le
  rw [h.unique h', List.length_cons] at hle
  omega

theorem not_cyclic (h : Walk table next i w) : ¬ Relation.TransGen (Linked table next) i i := by
  intro hcycle
  obtain ⟨j, hij, hji⟩ := Relation.TransGen.head'_iff.1 hcycle
  obtain ⟨d, w', rfl, hw'⟩ := h.of_linked hij
  obtain ⟨w'', hsuffix, hw''⟩ := hw'.exists_suffix hji
  exact h.not_suffix_tail hw'' hsuffix

theorem nodup (h : Walk table next i w) : (w.map Prod.fst).Nodup := by
  induction h with
  | last => exact List.nodup_singleton _
  | cons hd hnext hw ih =>
    rw [List.map_cons, List.nodup_cons]
    refine ⟨fun hmem => ?_, ih⟩
    obtain ⟨p, hp, hpi⟩ := List.mem_map.1 hmem
    obtain ⟨w', hsuffix, hw'⟩ := hw.exists_suffix_of_mem hp
    rw [hpi] at hw'
    exact (cons hd hnext hw).not_suffix_tail hw' hsuffix

theorem length_le (h : Walk table next i w) {f : ι → ℕ} (hf : Function.Injective f) {n : ℕ}
    (hn : ∀ p ∈ w, f p.1 < n) : w.length ≤ n := by
  have hnodup : ((w.map Prod.fst).map f).Nodup := h.nodup.map hf
  have hsubset : (w.map Prod.fst).map f ⊆ List.range n := by
    intro k hk
    simp only [List.mem_map, List.mem_range] at hk ⊢
    obtain ⟨_, ⟨p, hp, rfl⟩, rfl⟩ := hk
    exact hn p hp
  have hle := (List.subperm_of_subset hnodup hsubset).length_le
  rwa [List.length_map, List.length_map, List.length_range] at hle

end Walk

end Table
