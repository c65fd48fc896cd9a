import Mathlib.Order.Nat
import Squib.Lib.Run

/-!
# Infinite executions under a fair scheduler
-/

namespace Run

variable {σ ε : Type} {step : σ → ε → Option σ}

theorem exists_run_of_rank {I ready : σ → Prop} (rank : σ → ℕ)
    (hstep : ∀ s, I s → ready s → ∃ e s', step s e = some s' ∧ I s' ∧ rank s' < rank s) {s : σ}
    (hs : I s) :
    ∃ es s', run step es s = some s' ∧ Along step (fun t _ => I t) es s ∧ I s' ∧ ¬ ready s' := by
  induction hr : rank s using Nat.strong_induction_on generalizing s with
  | _ r ih =>
    by_cases hready : ready s
    · obtain ⟨e, s₁, h₁, hs₁, hlt⟩ := hstep s hs hready
      obtain ⟨es, s', h, halong, hs'⟩ := ih _ (hr ▸ hlt) hs₁ rfl
      exact ⟨e :: es, s', by rw [run_cons h₁, h], .cons h₁ hs halong, hs'⟩
    · exact ⟨[], s, rfl, trivial, hs, hready⟩

structure Exec (step : σ → ε → Option σ) where
  state : ℕ → σ
  event : ℕ → Option ε
  idle : ∀ n, event n = none → state (n + 1) = state n
  next : ∀ n e, event n = some e → step (state n) e = some (state (n + 1))

namespace Exec

variable (x : Exec step)

def Always (C : σ → ε → Prop) : Prop := ∀ n e, x.event n = some e → C (x.state n) e

def Fair (ready : σ → Prop) (mine : ε → Prop) : Prop :=
  ∀ n, ∃ m ≥ n, ready (x.state m) → ∃ e, x.event m = some e ∧ mine e

variable {x} {C : σ → ε → Prop} {n : ℕ}

theorem invariant {I : σ → Prop} (hC : x.Always C)
    (hstep : ∀ s e s', I s → C s e → step s e = some s' → I s') {m : ℕ} (hnm : n ≤ m)
    (hn : I (x.state n)) : I (x.state m) := by
  induction m, hnm using Nat.le_induction with
  | base => exact hn
  | succ m _ ih =>
    cases he : x.event m with
    | none => rwa [x.idle m he]
    | some e => exact hstep _ e _ ih (hC m e he) (x.next m e he)

theorem eventually {ready : σ → Prop} {mine : ε → Prop} (hC : x.Always C)
    (hfair : x.Fair ready mine) (I G : σ → Prop) (rank : σ → ℕ)
    (hready : ∀ s, I s → ¬ G s → ready s)
    (hkeep : ∀ s e s', I s → ¬ G s → C s e → step s e = some s' → I s' ∧ rank s' ≤ rank s)
    (hdrop : ∀ s e s', I s → ¬ G s → C s e → mine e → step s e = some s' → rank s' < rank s)
    (hn : I (x.state n)) : ∃ m ≥ n, G (x.state m) := by
  induction hr : rank (x.state n) using Nat.strong_induction_on generalizing n with
  | _ r ih =>
    by_contra hG
    simp only [not_exists, not_and] at hG
    -- as long as the goal is not reached, the rank does not rise
    have hlow : ∀ m, n ≤ m → I (x.state m) ∧ rank (x.state m) ≤ r := by
      intro m hnm
      induction m, hnm using Nat.le_induction with
      | base => exact ⟨hn, hr.le⟩
      | succ m hnm ih =>
        cases he : x.event m with
        | none => rwa [x.idle m he]
        | some e =>
          have h := hkeep _ e _ ih.1 (hG m hnm) (hC m e he) (x.next m e he)
          exact ⟨h.1, h.2.trans ih.2⟩
    obtain ⟨m, hnm, hstep⟩ := hfair n
    obtain ⟨hI, hle⟩ := hlow m hnm
    obtain ⟨e, he, hmine⟩ := hstep (hready _ hI (hG m hnm))
    have hlt := hdrop _ e _ hI (hG m hnm) (hC m e he) hmine (x.next m e he)
    obtain ⟨k, hk, hGk⟩ := ih _ (hlt.trans_le hle) (hlow (m + 1) (by omega)).1 rfl
    exact hG k (by omega) hGk

theorem eventually_of_tasks {ι : Type} {ready : ι → σ → Prop} {mine : ι → ε → Prop}
    (hC : x.Always C) (hfair : ∀ i, x.Fair (ready i) (mine i)) (I G : σ → Prop) (rank : σ → ℕ)
    (turn : σ → ι) (hready : ∀ s, I s → ¬ G s → ready (turn s) s)
    (hkeep : ∀ s e s', I s → ¬ G s → C s e → step s e = some s' →
      I s' ∧ (rank s' < rank s ∨ rank s' = rank s ∧ turn s' = turn s))
    (hdrop : ∀ s e s', I s → ¬ G s → C s e → mine (turn s) e → step s e = some s' →
      rank s' < rank s) (hn : I (x.state n)) : ∃ m ≥ n, G (x.state m) := by
  induction hr : rank (x.state n) using Nat.strong_induction_on generalizing n with
  | _ r ih =>
    -- the task whose turn it is now goes on until the rank drops below `r`
    obtain ⟨m, hm, hG⟩ : ∃ m ≥ n, G (x.state m) ∨ I (x.state m) ∧ rank (x.state m) < r := by
      refine eventually hC (hfair (turn (x.state n)))
        (fun s => I s ∧ (rank s < r ∨ rank s = r ∧ turn s = turn (x.state n)))
        (fun s => G s ∨ I s ∧ rank s < r) rank ?_ ?_ ?_ ⟨hn, .inr ⟨hr, rfl⟩⟩
      · rintro s ⟨hI, hlt | ⟨-, ht⟩⟩ hG
        · exact absurd (.inr ⟨hI, hlt⟩) hG
        · exact ht ▸ hready s hI fun h => hG (.inl h)
      · rintro s e s' ⟨hI, hlt | ⟨heq, ht⟩⟩ hG hC hstep
        · exact absurd (.inr ⟨hI, hlt⟩) hG
        · obtain ⟨hI', hlt | ⟨heq', ht'⟩⟩ := hkeep s e s' hI (fun h => hG (.inl h)) hC hstep
          · exact ⟨⟨hI', .inl (heq ▸ hlt)⟩, hlt.le⟩
          · exact ⟨⟨hI', .inr ⟨heq'.trans heq, ht'.trans ht⟩⟩, heq'.le⟩
      · rintro s e s' ⟨hI, hlt | ⟨-, ht⟩⟩ hG hC hmine hstep
        · exact absurd (.inr ⟨hI, hlt⟩) hG
        · exact hdrop s e s' hI (fun h => hG (.inl h)) hC (ht.symm ▸ hmine) hstep
    rcases hG with hG | ⟨hI, hlt⟩
    · exact ⟨m, hm, hG⟩
    · obtain ⟨k, hk, hG⟩ := ih _ hlt hI rfl
      exact ⟨k, hm.trans hk, hG⟩

variable (x) in
theorem exists_first {P : σ → Prop} (h₀ : ¬ P (x.state 0)) {k : ℕ} (hk : P (x.state k)) :
    ∃ j < k, ∃ e, x.event j = some e ∧ ¬ P (x.state j) ∧ P (x.state (j + 1)) := by
  induction k with
  | zero => exact absurd hk h₀
  | succ k ih =>
    by_cases hP : P (x.state k)
    · obtain ⟨j, hj, h⟩ := ih hP
      exact ⟨j, hj.trans k.lt_succ_self, h⟩
    · cases he : x.event k with
      | none => exact absurd (x.idle k he ▸ hk) hP
      | some e => exact ⟨k, k.lt_succ_self, e, he, hP, hk⟩

/-! ## Finite runs -/

section Pad

variable (step)

def padState : List ε → σ → ℕ → σ
  | [], s, _ => s
  | _ :: _, s, 0 => s
  | e :: es, s, n + 1 => (step s e).elim s fun s' => padState es s' n

def padEvent : List ε → σ → ℕ → Option ε
  | [], _, _ => none
  | e :: _, s, 0 => (step s e).map fun _ => e
  | e :: es, s, n + 1 => (step s e).bind fun s' => padEvent es s' n

variable {step}

theorem padState_zero (es : List ε) (s : σ) : padState step es s 0 = s := by
  cases es <;> rfl

theorem pad_idle : ∀ (es : List ε) (s : σ) (n : ℕ), padEvent step es s n = none →
    padState step es s (n + 1) = padState step es s n
  | [], _, _, _ => rfl
  | e :: es, s, 0, h => by
    rw [padEvent, Option.map_eq_none_iff] at h
    simp [padState, h]
  | e :: es, s, n + 1, h => by
    cases hs : step s e with
    | none => simp [padState, hs]
    | some s' =>
      simp only [padEvent, hs, Option.bind_some] at h
      simpa [padState, hs] using pad_idle es s' n h

theorem pad_next : ∀ (es : List ε) (s : σ) (n : ℕ) (e : ε), padEvent step es s n = some e →
    step (padState step es s n) e = some (padState step es s (n + 1))
  | [], _, _, _, h => by cases h
  | e :: es, s, 0, e', h => by
    simp only [padEvent, Option.map_eq_some_iff] at h
    obtain ⟨s', hs, rfl⟩ := h
    simp [padState, hs, padState_zero]
  | e :: es, s, n + 1, e', h => by
    simp only [padEvent, Option.bind_eq_some_iff] at h
    obtain ⟨s', hs, h⟩ := h
    simpa [padState, hs] using pad_next es s' n e' h

def pad (step : σ → ε → Option σ) (es : List ε) (s : σ) : Exec step where
  state := padState step es s
  event := padEvent step es s
  idle := pad_idle es s
  next := pad_next es s

theorem pad_state_zero (es : List ε) (s : σ) : (pad step es s).state 0 = s := padState_zero es s

variable {es : List ε} {s s' : σ}

theorem pad_state_of_le (h : run step es s = some s') (hn : es.length ≤ n) :
    (pad step es s).state n = s' := by
  induction es generalizing s n with
  | nil =>
    cases h
    rfl
  | cons e es ih =>
    obtain ⟨s₁, h₁, h₂⟩ := run_cons_eq_some.1 h
    cases n with
    | zero => simp at hn
    | succ n =>
      have := ih h₂ (Nat.le_of_succ_le_succ hn)
      simpa [pad, padState, h₁] using this

theorem pad_state_append (h : run step es s = some s') (es' : List ε) :
    (pad step (es ++ es') s).state es.length = s' := by
  induction es generalizing s with
  | nil =>
    cases h
    exact pad_state_zero _ _
  | cons e es ih =>
    obtain ⟨s₁, h₁, h₂⟩ := run_cons_eq_some.1 h
    have := ih h₂
    simpa [pad, padState, h₁] using this

theorem pad_event_append (h : run step es s = some s') {e : ε} (he : (step s' e).isSome = true)
    (es' : List ε) : (pad step (es ++ e :: es') s).event es.length = some e := by
  induction es generalizing s with
  | nil =>
    cases h
    obtain ⟨s₁, h₁⟩ := Option.isSome_iff_exists.1 he
    simp [pad, padEvent, h₁]
  | cons e₀ es ih =>
    obtain ⟨s₁, h₁, h₂⟩ := run_cons_eq_some.1 h
    have := ih h₂
    simpa [pad, padEvent, h₁] using this

theorem pad_event_of_le (hn : es.length ≤ n) : (pad step es s).event n = none := by
  induction es generalizing s n with
  | nil => rfl
  | cons e es ih =>
    cases n with
    | zero => simp at hn
    | succ n =>
      change padEvent step (e :: es) s (n + 1) = none
      rw [padEvent, Option.bind_eq_none_iff]
      exact fun s' _ => ih (Nat.le_of_succ_le_succ hn)

theorem pad_state_of_along {I : σ → Prop} :
    ∀ {es : List ε} {s s' : σ}, Along step (fun t _ => I t) es s → run step es s = some s' → I s' →
      ∀ n, I ((pad step es s).state n)
  | [], s, s', _, h, hs', n => by
    cases h
    exact hs'
  | e :: es, s, s', hI, h, hs', 0 => hI.1
  | e :: es, s, s', hI, h, hs', n + 1 => by
    obtain ⟨s₁, h₁, h₂⟩ := run_cons_eq_some.1 h
    have := pad_state_of_along (hI.2 s₁ h₁) h₂ hs' n
    simpa [pad, padState, h₁] using this

theorem always_pad {C : σ → ε → Prop} :
    ∀ {es : List ε} {s : σ}, Along step C es s → (pad step es s).Always C
  | [], _, _ => fun _ _ h => by cases h
  | e :: es, s, hC => by
    intro n e' he
    cases hs : step s e with
    | none => cases n <;> simp [pad, padEvent, hs] at he
    | some s' =>
      cases n with
      | zero =>
        have heq : e = e' := by simpa [pad, padEvent, hs] using he
        exact heq ▸ hC.1
      | succ n =>
        have hrest := always_pad (hC.2 s' hs) n e' (by simpa [pad, padEvent, hs] using he)
        simpa [pad, padState, hs] using hrest

theorem fair_pad (h : run step es s = some s') {ready : σ → Prop} {mine : ε → Prop}
    (hready : ¬ ready s') : (pad step es s).Fair ready mine := by
  intro n
  refine ⟨max n es.length, Nat.le_max_left _ _, fun hr => ?_⟩
  rw [pad_state_of_le h (Nat.le_max_right _ _)] at hr
  exact absurd hr hready

end Pad

end Exec

end Run
