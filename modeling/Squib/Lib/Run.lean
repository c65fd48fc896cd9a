import Mathlib.Data.Option.Basic

/-!
# Runs of a partial step function
-/

namespace Run

variable {σ ε : Type} {step : σ → ε → Option σ}

def run (step : σ → ε → Option σ) : List ε → σ → Option σ
  | [], s => some s
  | e :: es, s => (step s e).bind (run step es)

def Along (step : σ → ε → Option σ) (C : σ → ε → Prop) : List ε → σ → Prop
  | [], _ => True
  | e :: es, s => C s e ∧ ∀ s', step s e = some s' → Along step C es s'

instance decidableAlong {C : σ → ε → Prop} [∀ s e, Decidable (C s e)] :
    ∀ (es : List ε) (s : σ), Decidable (Along step C es s)
  | [], _ => .isTrue trivial
  | e :: es, s =>
    match h : step s e with
    | none => decidable_of_iff (C s e) (by simp [Along, h])
    | some s' =>
      have : Decidable (Along step C es s') := decidableAlong es s'
      decidable_of_iff (C s e ∧ Along step C es s') (by simp [Along, h])

@[simp] theorem run_nil (s : σ) : run step [] s = some s := rfl

variable {e : ε} {es : List ε} {s : σ} {C D : σ → ε → Prop} {I : σ → Prop} {s₁ s' : σ}

theorem run_cons (h : step s e = some s₁) : run step (e :: es) s = run step es s₁ := by
  rw [run, h, Option.bind_some]

theorem run_cons_eq_some :
    run step (e :: es) s = some s' ↔ ∃ s₁, step s e = some s₁ ∧ run step es s₁ = some s' :=
  Option.bind_eq_some_iff

theorem run_append (es es' : List ε) (s : σ) :
    run step (es ++ es') s = (run step es s).bind (run step es') := by
  induction es generalizing s with
  | nil => rfl
  | cons e es ih =>
    rw [List.cons_append, run, run, Option.bind_assoc]
    exact congrArg _ (funext ih)

theorem Along.cons (h : step s e = some s₁) (hC : C s e) (hes : Along step C es s₁) :
    Along step C (e :: es) s := by
  refine ⟨hC, fun s' hs => ?_⟩
  rw [h] at hs
  cases hs
  exact hes

theorem Along.mono (h : ∀ s e, C s e → D s e) :
    ∀ {s : σ}, Along step C es s → Along step D es s := by
  induction es with
  | nil => intros; trivial
  | cons e es ih =>
    intro s hC
    exact ⟨h s e hC.1, fun s' hs => ih (hC.2 s' hs)⟩

theorem Along.of_step (hstep : ∀ s e s', I s → C s e → step s e = some s' → I s')
    (h : ∀ s e, I s → C s e → D s e) : ∀ {s : σ}, Along step C es s → I s → Along step D es s := by
  induction es with
  | nil => intros; trivial
  | cons e es ih =>
    intro s hC hI
    exact ⟨h s e hI hC.1, fun s' hs => ih (hC.2 s' hs) (hstep s e s' hI hC.1 hs)⟩

theorem Along.of_forall (h : ∀ e ∈ es, ∀ s, C s e) : ∀ s, Along step C es s := by
  induction es with
  | nil => intros; trivial
  | cons e es ih =>
    intro s
    exact ⟨h e List.mem_cons_self s, fun s' _ => ih (fun e he => h e (List.mem_cons_of_mem _ he)) s'⟩

theorem Along.append {es' : List ε} :
    ∀ {s : σ}, Along step C es s → (∀ s', run step es s = some s' → Along step C es' s') →
      Along step C (es ++ es') s := by
  induction es with
  | nil => exact fun _ h => h _ rfl
  | cons e es ih =>
    intro s hC h
    exact ⟨hC.1, fun s₁ h₁ => ih (hC.2 s₁ h₁) fun s' hs => h s' (by rw [run_cons h₁, hs])⟩

theorem Along.and :
    ∀ {s : σ}, Along step C es s → Along step D es s →
      Along step (fun s e => C s e ∧ D s e) es s := by
  induction es with
  | nil => intros; trivial
  | cons e es ih =>
    intro s hC hD
    exact ⟨⟨hC.1, hD.1⟩, fun s' hs => ih (hC.2 s' hs) (hD.2 s' hs)⟩

theorem Along.of_invariant (hstep : ∀ s e s', I s → step s e = some s' → I s') (es : List ε) :
    ∀ {s : σ}, I s → Along step (fun s _ => I s) es s := by
  induction es with
  | nil => intros; trivial
  | cons e es ih =>
    intro s hI
    exact ⟨hI, fun s' hs => ih (hstep s e s' hI hs)⟩

theorem invariant (hstep : ∀ s e s', I s → C s e → step s e = some s' → I s') :
    ∀ {s s' : σ}, Along step C es s → I s → run step es s = some s' → I s' := by
  induction es with
  | nil =>
    intro s s' _ hI h
    cases h
    exact hI
  | cons e es ih =>
    intro s s' hC hI h
    obtain ⟨s₁, h₁, h₂⟩ := run_cons_eq_some.1 h
    exact ih (hC.2 s₁ h₁) (hstep s e s₁ hI hC.1 h₁) h₂

theorem along_keeps_iff (hstep : ∀ s e, I s → C s e → ((∀ s', step s e = some s' → I s') ↔ D s e)) :
    ∀ {s : σ}, Along step C es s → I s →
      (Along step (fun s e => ∀ s', step s e = some s' → I s') es s ↔ Along step D es s) := by
  induction es with
  | nil => exact fun _ _ => Iff.rfl
  | cons e es ih =>
    intro s hC hI
    rw [Along, Along, hstep s e hI hC.1]
    refine and_congr_right fun hD => forall₂_congr fun s' hs => ?_
    exact ih (hC.2 s' hs) ((hstep s e hI hC.1).2 hD s' hs)

theorem invariant_of_step (hstep : ∀ s e s', I s → step s e = some s' → I s') (hI : I s)
    (h : run step es s = some s') : I s' :=
  invariant (fun s e s' hs _ => hstep s e s' hs) (Along.of_invariant hstep es hI) hI h

theorem run_isSome_iff (hstep : ∀ s e s', I s → step s e = some s' → I s')
    (hC : ∀ s e, I s → ((step s e).isSome ↔ C s e)) (es : List ε) :
    ∀ {s : σ}, I s → ((run step es s).isSome ↔ Along step C es s) := by
  induction es with
  | nil => exact fun _ => ⟨fun _ => trivial, fun _ => rfl⟩
  | cons e es ih =>
    intro s hI
    rw [Along, ← hC s e hI]
    cases h : step s e with
    | none => simp [run, h]
    | some s₁ => simp [run_cons h, ih (hstep s e s₁ hI h)]

theorem run_map {f : σ → σ} (hstep : ∀ s e, C s e → step (f s) e = (step s e).map f) :
    ∀ {s : σ}, Along step C es s → run step es (f s) = (run step es s).map f := by
  induction es with
  | nil => exact fun _ => rfl
  | cons e es ih =>
    intro s hC
    rw [run, run, hstep s e hC.1]
    cases h : step s e with
    | none => rfl
    | some s₁ => exact ih (hC.2 s₁ h)

section Log

variable {α : Type} {Q : List α → α → Prop}

def Each (Q : List α → α → Prop) (log : List α) : Prop :=
  ∀ i (h : i < log.length), Q (log.take i) log[i]

instance decidableEach [∀ before x, Decidable (Q before x)] (log : List α) :
    Decidable (Each Q log) :=
  inferInstanceAs (Decidable (∀ i (h : i < log.length), Q (log.take i) log[i]))

theorem each_append_singleton {log : List α} {x : α} :
    Each Q (log ++ [x]) ↔ Each Q log ∧ Q log x := by
  constructor
  · intro h
    constructor
    · intro i hi
      have := h i (by rw [List.length_append]; omega)
      rwa [List.take_append_of_le_length (Nat.le_of_lt hi), List.getElem_append_left hi] at this
    · have := h log.length (by simp)
      rwa [List.take_left', List.getElem_concat_length rfl] at this
      rfl
  · rintro ⟨hlog, hx⟩ i hi
    by_cases hlt : i < log.length
    · rw [List.take_append_of_le_length (by omega), List.getElem_append_left hlt]
      exact hlog i hlt
    · have heq : i = log.length := by
        rw [List.length_append, List.length_singleton] at hi
        omega
      subst heq
      rw [List.take_left' rfl, List.getElem_concat_length rfl]
      exact hx

end Log

end Run
