import Mathlib.Logic.Basic
import Mathlib.Order.Basic

/-!
# Computations that may panic
-/

namespace Checked

variable {ε α β : Type}

def Returns (x : Except ε α) (Q : α → Prop) : Prop := ∃ a, x = .ok a ∧ Q a

instance {x : Except ε α} {Q : α → Prop} [DecidablePred Q] : Decidable (Returns x Q) :=
  match x with
  | .ok a => decidable_of_iff (Q a) ⟨fun h => ⟨a, rfl, h⟩, fun ⟨_, h, hQ⟩ => by cases h; exact hQ⟩
  | .error _ => .isFalse fun ⟨_, h, _⟩ => by cases h

variable {a : α} {Q : α → Prop} {x : Except ε α} {f : α → Except ε β} {b i : ℕ} {xs : List α}

theorem returns_ok (h : Q a) : Returns (.ok a : Except ε α) Q := ⟨a, rfl, h⟩

theorem returns_pure (h : Q a) : Returns (pure a : Except ε α) Q :=
  ⟨a, rfl, h⟩

variable {P : α → Prop} {e : ε} {v : α}

theorem Returns.mono (h : Returns x P) (hPQ : ∀ a, P a → Q a) : Returns x Q := by
  obtain ⟨a, ha, hP⟩ := h
  exact ⟨a, ha, hPQ a hP⟩

theorem ok_bind (a : α) (f : α → Except ε β) : (Except.ok a >>= f) = f a := rfl

theorem error_bind (e : ε) (f : α → Except ε β) : ((.error e : Except ε α) >>= f) = .error e := rfl

theorem Returns.bind {Q : β → Prop} (h : Returns x P) (hf : ∀ a, P a → Returns (f a) Q) :
    Returns (x >>= f) Q := by
  obtain ⟨a, rfl, hP⟩ := h
  exact hf a hP

theorem Returns.eq (h : Returns x Q) : Returns x fun a => x = .ok a := by
  obtain ⟨a, ha, -⟩ := h
  exact ⟨a, ha, ha⟩

theorem Returns.of_eq (h : Returns x Q) (ha : x = .ok a) : Q a := by
  obtain ⟨b, rfl, hb⟩ := h
  cases ha
  exact hb

/-! ## Checks and their success

The checks of a fallible function, and what the success of each step says. -/

def rejectIf (p : Prop) [Decidable p] (e : ε) : Except ε Unit := if p then .error e else .ok ()

def okOr (x : Option α) (e : ε) : Except ε α := x.elim (.error e) .ok

theorem bind_eq_ok {b : β} : (x >>= f) = .ok b ↔ ∃ a, x = .ok a ∧ f a = .ok b := by
  cases x <;> simp [bind, Except.bind]

theorem pure_eq_ok {b : α} : (pure a : Except ε α) = .ok b ↔ a = b := by
  simp [pure, Except.pure]

theorem rejectIf_eq_ok {p : Prop} [Decidable p] {u : Unit} : rejectIf p e = .ok u ↔ ¬ p := by
  unfold rejectIf
  by_cases h : p <;> simp [h]

theorem okOr_eq_ok {x : Option α} : okOr x e = .ok a ↔ x = some a := by
  cases x <;> simp [okOr]

theorem mapError_eq_ok {δ : Type} {x : Except δ α} {f : δ → ε} :
    x.mapError f = .ok a ↔ x = .ok a := by
  cases x <;> simp [Except.mapError]

theorem map_eq_ok {f : α → β} {b : β} : x.map f = .ok b ↔ ∃ a, x = .ok a ∧ f a = b := by
  cases x <;> simp [Except.map]

theorem mapM_some_eq_ok {r : Option β} :
    (some a).mapM f = .ok r ↔ ∃ b, f a = .ok b ∧ r = some b := by
  cases h : f a <;> simp [h, Functor.map, Except.map, eq_comm]

/-! ## Checked list operations -/

inductive Panic where
  | indexOutOfRange
  | sliceOutOfRange
  | lengthMismatch
  deriving DecidableEq, Repr

def index (xs : List α) (i : ℕ) : Except Panic α :=
  match xs[i]? with
  | some a => .ok a
  | none => .error .indexOutOfRange

def slice (xs : List α) (a b : ℕ) : Except Panic (List α) :=
  if a ≤ b ∧ b ≤ xs.length then .ok ((xs.drop a).take (b - a)) else .error .sliceOutOfRange

def copyFromSlice (xs : List α) (a b : ℕ) (src : List α) : Except Panic (List α) :=
  if a ≤ b ∧ b ≤ xs.length then
    if src.length = b - a then .ok (xs.take a ++ src ++ xs.drop b) else .error .lengthMismatch
  else .error .sliceOutOfRange

def fillSlice (xs : List α) (a b : ℕ) (v : α) : Except Panic (List α) :=
  if a ≤ b ∧ b ≤ xs.length then .ok (xs.take a ++ List.replicate (b - a) v ++ xs.drop b)
  else .error .sliceOutOfRange

theorem index_eq_ok : index xs i = .ok a ↔ xs[i]? = some a := by
  unfold index
  cases xs[i]? <;> simp

theorem index_eq_error (h : xs.length ≤ i) : index xs i = .error .indexOutOfRange := by
  rw [index, List.getElem?_eq_none h]

theorem index_drop (xs : List α) (n i : ℕ) : index (xs.drop n) i = index xs (n + i) := by
  rw [index, index, List.getElem?_drop]

theorem returns_index (h : i < xs.length) : Returns (index xs i) fun a => xs[i]? = some a :=
  ⟨xs[i], index_eq_ok.2 (List.getElem?_eq_getElem h), List.getElem?_eq_getElem h⟩

theorem returns_slice {a : ℕ} (hab : a ≤ b) (hb : b ≤ xs.length) :
    Returns (slice xs a b) fun ys => ys = (xs.drop a).take (b - a) ∧ ys.length = b - a :=
  ⟨_, if_pos ⟨hab, hb⟩, rfl, by simp; omega⟩

theorem returns_copyFromSlice {a : ℕ} {src : List α} (hab : a ≤ b) (hb : b ≤ xs.length)
    (hs : src.length = b - a) :
    Returns (copyFromSlice xs a b src) fun ys => ys.length = xs.length := by
  refine ⟨xs.take a ++ src ++ xs.drop b, ?_, by simp; omega⟩
  rw [copyFromSlice, if_pos ⟨hab, hb⟩, if_pos hs]

theorem returns_fillSlice {a : ℕ} (hab : a ≤ b) (hb : b ≤ xs.length) :
    Returns (fillSlice xs a b v) fun ys => ys.length = xs.length :=
  ⟨_, if_pos ⟨hab, hb⟩, by simp; omega⟩

theorem getElem?_of_fillSlice {ys : List α} {a : ℕ} (h : fillSlice xs a b v = .ok ys) (i : ℕ) :
    ys[i]? = if a ≤ i ∧ i < b then some v else xs[i]? := by
  rw [fillSlice] at h
  split_ifs at h with hab
  cases h
  split_ifs with hi
  · rw [List.append_assoc, List.getElem?_append_right (by simp; omega), List.getElem?_append_left
      (by simp; omega), List.getElem?_replicate_of_lt (by simp; omega)]
  · obtain hlt | hge : i < a ∨ b ≤ i := by omega
    · rw [List.append_assoc, List.getElem?_append_left (by simp; omega), List.getElem?_take_of_lt hlt]
    · rw [List.getElem?_append_right (by simp; omega), List.getElem?_drop]
      congr 1
      simp
      omega

end Checked
