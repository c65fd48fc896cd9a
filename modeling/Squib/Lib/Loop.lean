import Squib.Lib.Checked

/-!
# Loops with `break` and `continue`
-/

namespace Loop

open Checked

variable {ε σ α : Type}

inductive Ctl (σ : Type) where
  | next (s : σ)
  | brk (s : σ)

def Ctl.state : Ctl σ → σ
  | .next s => s
  | .brk s => s

@[simp] theorem Ctl.state_next (s : σ) : (Ctl.next s).state = s := rfl
@[simp] theorem Ctl.state_brk (s : σ) : (Ctl.brk s).state = s := rfl

def loop (body : σ → Except ε (Ctl σ)) : ℕ → σ → Except ε (Bool × σ)
  | 0, s => .ok (false, s)
  | n + 1, s =>
    match body s with
    | .error e => .error e
    | .ok (.brk s') => .ok (true, s')
    | .ok (.next s') => loop body n s'

def forLoop (body : α → σ → Except ε (Ctl σ)) : List α → σ → Except ε σ
  | [], s => .ok s
  | a :: as, s =>
    match body a s with
    | .error e => .error e
    | .ok (.brk s') => .ok s'
    | .ok (.next s') => forLoop body as s'

section Returns

variable (Inv : σ → Prop) (R : σ → σ → Prop) (hrefl : ∀ s, R s s)
  (htrans : ∀ {a b c}, R a b → R b c → R a c)

include hrefl htrans in
theorem loop_returns {body : σ → Except ε (Ctl σ)}
    (hbody : ∀ s, Inv s → Returns (body s) fun c => Inv c.state ∧ R s c.state) :
    ∀ (n : ℕ) (s : σ), Inv s → Returns (loop body n s) fun r => Inv r.2 ∧ R s r.2
  | 0, s, hs => returns_ok ⟨hs, hrefl s⟩
  | n + 1, s, hs => by
    obtain ⟨c, hc, hi, hr⟩ := hbody s hs
    rw [loop, hc]
    cases c with
    | brk s' => exact returns_ok ⟨hi, hr⟩
    | next s' => exact (loop_returns hbody n s' hi).mono fun r h => ⟨h.1, htrans hr h.2⟩

include hrefl htrans in
theorem forLoop_returns {body : α → σ → Except ε (Ctl σ)} :
    ∀ (as : List α) (s : σ), Inv s →
      (∀ a ∈ as, ∀ s, Inv s → Returns (body a s) fun c => Inv c.state ∧ R s c.state) →
      Returns (forLoop body as s) fun s' => Inv s' ∧ R s s'
  | [], s, hs, _ => returns_ok ⟨hs, hrefl s⟩
  | a :: as, s, hs, hbody => by
    obtain ⟨c, hc, hi, hr⟩ := hbody a (by simp) s hs
    rw [forLoop, hc]
    cases c with
    | brk s' => exact returns_ok ⟨hi, hr⟩
    | next s' =>
      exact (forLoop_returns as s' hi fun b hb => hbody b (by simp [hb])).mono
        fun r h => ⟨h.1, htrans hr h.2⟩

end Returns

theorem loop_left {body : σ → Except ε (Ctl σ)} (f : σ → ℕ) {Q : σ → σ → Prop}
    (hstep : ∀ s s₁ n b s', body s = .ok (.next s₁) → loop body n s₁ = .ok (b, s') → Q s s' →
      f s₁ < f s ∧ Q s₁ s') :
    ∀ {n : ℕ} {s s' : σ} {b : Bool}, f s < n → Q s s' → loop body n s = .ok (b, s') → b = true
  | 0, s, s', b, hn, _, _ => absurd hn (Nat.not_lt_zero _)
  | n + 1, s, s', b, hn, hQ, h => by
    rw [loop] at h
    split at h
    · cases h
    · cases h
      rfl
    · next s₁ h₁ =>
      obtain ⟨hlt, hQ'⟩ := hstep s s₁ n b s' h₁ h hQ
      exact loop_left f hstep (by omega) hQ' h

theorem loop_mono {body : σ → Except ε (Ctl σ)} :
    ∀ {n m : ℕ} {s s' : σ}, n ≤ m → loop body n s = .ok (true, s') → loop body m s = .ok (true, s')
  | 0, _, s, s', _, h => by cases h
  | n + 1, 0, _, _, hnm, _ => absurd hnm (by omega)
  | n + 1, m + 1, s, s', hnm, h => by
    rw [loop] at h ⊢
    split at h
    · cases h
    · cases h
      rfl
    · exact loop_mono (by omega) h

theorem loop_forever {body : σ → Except ε (Ctl σ)} (I : σ → Prop)
    (hstep : ∀ s, I s → ∃ s', body s = .ok (.next s') ∧ I s') :
    ∀ (n : ℕ) {s : σ}, I s → ∃ s', loop body n s = .ok (false, s')
  | 0, s, _ => ⟨s, rfl⟩
  | n + 1, s, hs => by
    obtain ⟨s₁, h₁, hs₁⟩ := hstep s hs
    obtain ⟨s', h'⟩ := loop_forever I hstep n hs₁
    refine ⟨s', ?_⟩
    rw [loop, h₁]
    exact h'

end Loop
