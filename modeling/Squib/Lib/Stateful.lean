import Mathlib.Logic.Basic

/-!
# Programs with a state
-/

namespace Stateful

variable {ε σ α β : Type}

def Ends (x : EStateM ε σ α) (s : σ) (Q : α → σ → Prop) (E : σ → Prop) : Prop :=
  match x s with
  | .ok a s' => Q a s'
  | .error _ s' => E s'

def endState : EStateM.Result ε σ α → σ
  | .ok _ s => s
  | .error _ s => s

variable {x : EStateM ε σ α} {s : σ} {Q : α → σ → Prop} {E : σ → Prop} {a : α} {s' : σ} {e : ε}
  {Q' : α → σ → Prop}

theorem Ends.of_ok (h : Ends x s Q E) (hx : x s = .ok a s') : Q a s' := by
  unfold Ends at h
  rw [hx] at h
  exact h

theorem Ends.of_error (h : Ends x s Q E) (hx : x s = .error e s') : E s' := by
  unfold Ends at h
  rw [hx] at h
  exact h

theorem ends_of (hok : ∀ a s', x s = .ok a s' → Q a s') (herror : ∀ e s', x s = .error e s' → E s') :
    Ends x s Q E := by
  unfold Ends
  cases hx : x s with
  | ok a s' => exact hok a s' hx
  | error e s' => exact herror e s' hx

theorem Ends.bind {f : α → EStateM ε σ β} {R : β → σ → Prop} (h : Ends x s Q E)
    (hf : ∀ a s', Q a s' → Ends (f a) s' R E) : Ends (x >>= f) s R E := by
  change Ends (EStateM.bind x f) s R E
  unfold Ends EStateM.bind
  cases hx : x s with
  | ok a s' => exact hf a s' (h.of_ok hx)
  | error e s' => exact h.of_error hx

theorem Ends.pure (h : Q a s) : Ends (pure a : EStateM ε σ α) s Q E := h

theorem Ends.throw (h : E s) : Ends (throw e : EStateM ε σ α) s Q E := h

theorem Ends.mono (h : Ends x s Q E) (hQ : ∀ a s', Q a s' → Q' a s') : Ends x s Q' E :=
  ends_of (fun a s' hx => hQ a s' (h.of_ok hx)) fun _ _ hx => h.of_error hx

theorem Ends.mono_error {E' : σ → Prop} (h : Ends x s Q E) (hE : ∀ s', E s' → E' s') :
    Ends x s Q E' :=
  ends_of (fun _ _ hx => h.of_ok hx) fun _ s' hx => hE s' (h.of_error hx)

theorem Ends.discard {Q : σ → Prop} (h : Ends x s (fun _ s' => Q s') E) :
    Ends (do let _ ← x) s (fun _ s' => Q s') E :=
  h.bind fun _ _ hQ => .pure hQ

theorem Ends.endState {P : σ → Prop} (h : Ends x s (fun _ s' => P s') P) : P (endState (x s)) := by
  cases hx : x s with
  | ok a s' => exact h.of_ok hx
  | error e s' => exact h.of_error hx

theorem Ends.and (h : Ends x s Q E) (h' : Ends x s Q' E) :
    Ends x s (fun a s' => Q a s' ∧ Q' a s') E :=
  ends_of (fun _ _ hx => ⟨h.of_ok hx, h'.of_ok hx⟩) fun _ _ hx => h.of_error hx

theorem Ends.remember (h : Ends x s Q E) : Ends x s (fun a s' => s' = Stateful.endState (x s) ∧ Q a s') E :=
  ends_of (fun _ _ hx => ⟨by rw [hx]; rfl, h.of_ok hx⟩) fun _ _ hx => h.of_error hx

def returned : EStateM.Result ε σ α → Bool
  | .ok _ _ => true
  | .error _ _ => false

theorem eq_ok_of_returned {r : EStateM.Result ε σ Unit} (h : returned r = true) :
    r = .ok () (endState r) := by
  cases r with
  | ok u s => rfl
  | error e s => cases h

end Stateful
