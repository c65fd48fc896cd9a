import Mathlib.Data.Nat.ModEq

/-!
# Rings that show the end of a log
-/

namespace Ring

variable {α : Type*} {n b : ℕ} {log : List α} {slot slot' : ℕ → Option α}

def Shows (n : ℕ) (log : List α) (begun : ℕ) (slot : ℕ → Option α) : Prop :=
  ∀ j < log.length, begun ≤ j + n → slot (j % n) = log[j]?

theorem slot_ne {j k : ℕ} (hj : j < k) (hk : k < j + n) : j % n ≠ k % n := by
  intro heq
  have hdvd : n ∣ k - j := (Nat.modEq_iff_dvd' hj.le).1 heq
  have hle := Nat.le_of_dvd (by omega) hdvd
  omega

theorem shows_nil (n b : ℕ) (slot : ℕ → Option α) : Shows n [] b slot :=
  fun _ hj => absurd hj (Nat.not_lt_zero _)

theorem Shows.congr (h : Shows n log b slot) (hn : 0 < n) (hsame : ∀ i < n, slot' i = slot i) :
    Shows n log b slot' := by
  intro j hj hb
  rw [hsame _ (Nat.mod_lt _ hn)]
  exact h j hj hb

theorem Shows.begun (h : Shows n log b slot) (hn : 0 < n) (hb : b ≤ log.length + 1)
    (hsame : ∀ i < n, i ≠ log.length % n → slot' i = slot i) :
    Shows n log (log.length + 1) slot' := by
  intro j hj hbegun
  rw [hsame _ (Nat.mod_lt _ hn) (slot_ne hj (by omega))]
  exact h j hj (hb.trans hbegun)

theorem Shows.append {x : α} (h : Shows n log b slot) (hx : slot (log.length % n) = some x) :
    Shows n (log ++ [x]) b slot := by
  intro j hj hb
  rw [List.length_append, List.length_singleton] at hj
  rcases Nat.lt_succ_iff_lt_or_eq.1 hj with hlt | rfl
  · rw [List.getElem?_append_left hlt]
    exact h j hlt hb
  · rw [List.getElem?_concat_length, hx]

end Ring
