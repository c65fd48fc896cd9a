import Mathlib.Data.List.Induction
import Mathlib.Logic.Basic

/-!
# Latched keys
-/

namespace Latch

inductive Step (α : Type) where
  | set (a : α) (fresh : Bool)
  | take (d : ℕ) (ks : List ℕ)
  deriving DecidableEq, Repr

section Log

variable {α : Type} (key : α → Option ℕ)

def Step.on (k : ℕ) : Step α → Bool
  | set a fresh => fresh && decide (key a = some k)
  | take _ ks => decide (k ∈ ks)

def Step.Allowed (held : ℕ → Bool) : Step α → Prop
  | set a fresh => fresh = true ↔ ∃ k, key a = some k ∧ held k = false
  | take _ ks => ∀ k ∈ ks, held k = true

def Step.update (held : ℕ → Bool) : Step α → ℕ → Bool
  | set a _, k => held k || decide (key a = some k)
  | take _ ks, k => held k && decide (k ∉ ks)

structure OnceEach (log : List (Step α)) (held : ℕ → Bool) : Prop where
  set : ∀ before a after, log = before ++ .set a true :: after → ∃ k, key a = some k ∧
    ((∃ d ks, after.find? (·.on key k) = some (.take d ks)) ∨
      after.find? (·.on key k) = none ∧ held k = true)
  take : ∀ before d ks after, log = before ++ .take d ks :: after → ∀ k ∈ ks,
    ∃ a, key a = some k ∧ before.reverse.find? (·.on key k) = some (.set a true)
  covered : ∀ before a after, log = before ++ .set a false :: after → ∀ k, key a = some k →
    (∃ d ks, .take d ks ∈ after ∧ k ∈ ks) ∨ held k = true
  held : ∀ k, held k = true ↔
    ∃ a, key a = some k ∧ log.reverse.find? (·.on key k) = some (.set a true)

variable {key} {held : ℕ → Bool} {log : List (Step α)} {e : Step α} {k : ℕ}

theorem Step.update_of_not_on (h : e.Allowed key held) (he : e.on key k = false) :
    e.update key held k = held k := by
  cases e with
  | take d ks =>
    have hk : k ∉ ks := of_decide_eq_false he
    simp [update, hk]
  | set a fresh =>
    by_cases hk : key a = some k
    · have hfresh : ¬ fresh = true := by simpa [on, hk] using he
      have : held k = true := by simpa [hk] using (not_congr h).1 hfresh
      simp [update, this]
    · simp [update, hk]

theorem Step.eq_take_of_on (h : e.Allowed key held) (he : e.on key k = true) (hk : held k = true) :
    (∃ d ks, e = .take d ks ∧ k ∈ ks) ∧ e.update key held k = false := by
  cases e with
  | take d ks =>
    have hmem : k ∈ ks := of_decide_eq_true he
    exact ⟨⟨d, ks, rfl, hmem⟩, by simp [update, hmem]⟩
  | set a fresh =>
    simp only [on, Bool.and_eq_true, decide_eq_true_eq] at he
    obtain ⟨k', hk', hc⟩ := h.1 he.1
    cases he.2.symm.trans hk'
    rw [hk] at hc
    cases hc

theorem Step.eq_set_of_on (h : e.Allowed key held) (he : e.on key k = true) (hk : held k = false) :
    (∃ a, e = .set a true ∧ key a = some k) ∧ e.update key held k = true := by
  cases e with
  | take d ks =>
    rw [h k (of_decide_eq_true he)] at hk
    cases hk
  | set a fresh =>
    simp only [on, Bool.and_eq_true, decide_eq_true_eq] at he
    exact ⟨⟨a, by rw [he.1], he.2⟩, by simp [update, he.2]⟩

theorem onceEach_nil : OnceEach key [] fun _ => false where
  set before a after h := absurd h (by simp)
  take before d ks after h := absurd h (by simp)
  covered before a after h := absurd h (by simp)
  held k := by simp

theorem append_singleton_eq {x : Step α} {before after : List (Step α)}
    (h : log ++ [e] = before ++ x :: after) :
    (after = [] ∧ log = before ∧ e = x) ∨
      ∃ after', after = after' ++ [e] ∧ log = before ++ x :: after' := by
  induction after using List.reverseRecOn with
  | nil =>
    obtain ⟨hl, he⟩ := List.append_inj' h rfl
    exact .inl ⟨rfl, hl, List.singleton_inj.1 he⟩
  | append_singleton after y =>
    rw [← List.cons_append, ← List.append_assoc] at h
    obtain ⟨hl, he⟩ := List.append_inj' h rfl
    exact .inr ⟨after, by rw [List.singleton_inj.1 he], hl⟩

theorem OnceEach.snoc (h : OnceEach key log held) (he : e.Allowed key held) :
    OnceEach key (log ++ [e]) (e.update key held) where
  set before a after hlog := by
    rcases append_singleton_eq hlog with ⟨rfl, rfl, rfl⟩ | ⟨after, rfl, rfl⟩
    · obtain ⟨k, hk, -⟩ := he.1 rfl
      exact ⟨k, hk, .inr ⟨rfl, by simp [Step.update, hk]⟩⟩
    · obtain ⟨k, hk, ⟨d, ks, hd⟩ | ⟨hnone, hheld⟩⟩ := h.set before a after rfl
      · exact ⟨k, hk, .inl ⟨d, ks, by rw [List.find?_append, hd]; rfl⟩⟩
      · refine ⟨k, hk, ?_⟩
        rw [List.find?_append, hnone]
        cases hon : e.on key k with
        | false => exact .inr ⟨by simp [hon], (Step.update_of_not_on he hon).trans hheld⟩
        | true =>
          obtain ⟨⟨d, ks, rfl, -⟩, -⟩ := Step.eq_take_of_on he hon hheld
          exact .inl ⟨d, ks, by simp [hon]⟩
  take before d ks after hlog k hk := by
    rcases append_singleton_eq hlog with ⟨rfl, rfl, rfl⟩ | ⟨after, rfl, rfl⟩
    · exact (h.held k).1 (he k hk)
    · exact h.take before d ks after rfl k hk
  covered before a after hlog k hk := by
    rcases append_singleton_eq hlog with ⟨rfl, rfl, rfl⟩ | ⟨after, rfl, rfl⟩
    · exact .inr (by simp [Step.update, hk])
    · rcases h.covered before a after rfl k hk with ⟨d, ks, hd, hks⟩ | hheld
      · exact .inl ⟨d, ks, List.mem_append_left _ hd, hks⟩
      · cases hon : e.on key k with
        | false => exact .inr ((Step.update_of_not_on he hon).trans hheld)
        | true =>
          obtain ⟨⟨d, ks, rfl, hks⟩, -⟩ := Step.eq_take_of_on he hon hheld
          exact .inl ⟨d, ks, List.mem_append_right _ List.mem_cons_self, hks⟩
  held k := by
    rw [List.reverse_append, List.reverse_singleton, List.singleton_append]
    cases hon : e.on key k with
    | false => rw [List.find?_cons_of_neg (by simp [hon]), Step.update_of_not_on he hon, h.held]
    | true =>
      rw [List.find?_cons_of_pos hon]
      cases hk : held k with
      | false =>
        obtain ⟨⟨a, rfl, ha⟩, hset⟩ := Step.eq_set_of_on he hon hk
        simp [hset, ha]
      | true =>
        obtain ⟨⟨d, ks, rfl, -⟩, htake⟩ := Step.eq_take_of_on he hon hk
        simp [htake]

def takenBy (d : ℕ) (log : List (Step α)) : List ℕ :=
  log.flatMap fun
    | .set _ _ => []
    | .take d' ks => if d' = d then ks else []

theorem takenBy_set (d : ℕ) (a : α) (fresh : Bool) (log : List (Step α)) :
    takenBy d (log ++ [.set a fresh]) = takenBy d log := by
  simp [takenBy]

theorem takenBy_take (d d' : ℕ) (ks : List ℕ) (log : List (Step α)) :
    takenBy d (log ++ [.take d' ks]) = takenBy d log ++ if d' = d then ks else [] := by
  simp [takenBy]

theorem OnceEach.exists_key (h : OnceEach key log held) {d : ℕ} (hk : k ∈ takenBy d log) :
    ∃ a, key a = some k := by
  obtain ⟨e, he, hmem⟩ := List.mem_flatMap.1 hk
  obtain ⟨before, after, rfl⟩ := List.append_of_mem he
  cases e with
  | set a fresh => cases hmem
  | take d' ks =>
    have hks : k ∈ ks := by
      simp only at hmem
      split_ifs at hmem
      · exact hmem
      · cases hmem
    obtain ⟨a, ha, -⟩ := h.take before d' ks after rfl k hks
    exact ⟨a, ha⟩

end Log

/-! ## A bank of words -/

structure Bank (σ α : Type) where
  words : ℕ
  key : α → Option ℕ
  held : σ → ℕ → Bool
  set : α → σ → Bool × σ
  swap : ℕ → σ → List ℕ × σ
  Inv : σ → Prop
  inv_set : ∀ {s a}, Inv s → Inv (set a s).2
  inv_swap : ∀ {s i}, Inv s → Inv (swap i s).2
  set_fresh : ∀ {s a}, Inv s → ((set a s).1 = true ↔ ∃ k, key a = some k ∧ held s k = false)
  held_set : ∀ {s a k}, Inv s → held (set a s).2 k = (held s k || decide (key a = some k))
  mem_swap : ∀ {s i k}, Inv s → i < words → k ∈ (swap i s).1 → held s k = true ∧ k / 64 = i
  held_swap : ∀ {s i k}, Inv s → i < words →
    held (swap i s).2 k = (held s k && decide (k ∉ (swap i s).1))
  sorted : ∀ {s i}, ((swap i s).1).Pairwise (· < ·)

inductive Op (α : Type) where
  | set (a : α)
  | start
  | word (d : ℕ)
  deriving DecidableEq, Repr

structure Sweep where
  next : ℕ
  out : List ℕ
  deriving DecidableEq, Repr

structure State (σ α : Type) where
  mem : σ
  sweeps : List Sweep
  log : List (Step α)

namespace Bank

variable {σ α : Type} (B : Bank σ α)

def step (s : State σ α) : Op α → State σ α
  | .set a =>
    { s with mem := (B.set a s.mem).2, log := s.log ++ [.set a (B.set a s.mem).1] }
  | .start => { s with sweeps := s.sweeps ++ [⟨0, []⟩] }
  | .word d =>
    match s.sweeps[d]? with
    | none => s
    | some w =>
      if w.next < B.words then
        { mem := (B.swap w.next s.mem).2
          sweeps := s.sweeps.set d ⟨w.next + 1, w.out ++ (B.swap w.next s.mem).1⟩
          log := s.log ++ [.take d (B.swap w.next s.mem).1] }
      else s

def run (ops : List (Op α)) (s : σ) : State σ α := ops.foldl B.step ⟨s, [], []⟩

variable {B}

structure Sweep.Reported (log : List (Step α)) (d : ℕ) (w : Sweep) : Prop where
  sorted : w.out.Pairwise (· < ·)
  below : ∀ k ∈ w.out, k / 64 < w.next
  taken : w.out = takenBy d log

structure Latched (B : Bank σ α) (s : State σ α) : Prop where
  inv : B.Inv s.mem
  onceEach : OnceEach B.key s.log (B.held s.mem)
  reported : ∀ d (w : Sweep), s.sweeps[d]? = some w → Sweep.Reported s.log d w
  none_taken : ∀ d, s.sweeps.length ≤ d → takenBy d s.log = []

variable {s : State σ α}

theorem Latched.set (h : Latched B s) (a : α) : Latched B (B.step s (.set a)) where
  inv := B.inv_set h.inv
  onceEach := by
    have := h.onceEach.snoc (e := .set a (B.set a s.mem).1) (B.set_fresh h.inv)
    exact (funext fun k => B.held_set h.inv : B.held (B.set a s.mem).2 = _) ▸ this
  reported d w hw := { h.reported d w hw with
    taken := by rw [(h.reported d w hw).taken]; exact (takenBy_set d a _ _).symm }
  none_taken d hd := (takenBy_set d a _ _).trans (h.none_taken d hd)

theorem Latched.start (h : Latched B s) : Latched B (B.step s .start) where
  inv := h.inv
  onceEach := h.onceEach
  reported d w hw := by
    rw [step, List.getElem?_append] at hw
    split_ifs at hw with hd
    · exact h.reported d w hw
    · rw [List.getElem?_singleton, Option.ite_none_right_eq_some, Option.some.injEq] at hw
      rw [← hw.2]
      exact ⟨.nil, nofun, (h.none_taken d (Nat.le_of_not_lt hd)).symm⟩
  none_taken d hd := h.none_taken d (by rw [step, List.length_append] at hd; omega)

theorem Sweep.Reported.word {log : List (Step α)} {d : ℕ} {w : Sweep} {ks : List ℕ}
    (h : Sweep.Reported log d w) (hks : ks.Pairwise (· < ·)) (hw : ∀ k ∈ ks, k / 64 = w.next) :
    Sweep.Reported (log ++ [.take d ks]) d ⟨w.next + 1, w.out ++ ks⟩ where
  sorted := by
    refine List.pairwise_append.2 ⟨h.sorted, hks, fun j hj k hk => ?_⟩
    have := h.below j hj
    have := hw k hk
    omega
  below k hk := by
    rcases List.mem_append.1 hk with hk | hk
    · exact Nat.lt_succ_of_lt (h.below k hk)
    · exact Nat.lt_succ_of_le (Nat.le_of_eq (hw k hk))
  taken := by rw [takenBy_take, if_pos rfl, ← h.taken]

theorem Latched.word (h : Latched B s) (d : ℕ) : Latched B (B.step s (.word d)) := by
  rw [step]
  split
  · exact h
  rename_i w hw
  split_ifs with hlt
  · have hother : ∀ d', d' ≠ d →
        takenBy d' (s.log ++ [.take d (B.swap w.next s.mem).1]) = takenBy d' s.log := by
      intro d' hd
      rw [takenBy_take, if_neg hd.symm, List.append_nil]
    constructor
    · exact B.inv_swap h.inv
    · have := h.onceEach.snoc (e := .take d (B.swap w.next s.mem).1)
        fun k hk => (B.mem_swap h.inv hlt hk).1
      exact (funext fun k => B.held_swap h.inv hlt : B.held (B.swap w.next s.mem).2 = _) ▸ this
    · intro d' w' hw'
      by_cases hd : d' = d
      · subst hd
        rw [List.getElem?_set_self (List.getElem?_eq_some_iff.1 hw).1, Option.some.injEq] at hw'
        rw [← hw']
        exact (h.reported d' w hw).word B.sorted fun k hk => (B.mem_swap h.inv hlt hk).2
      · rw [List.getElem?_set_ne (Ne.symm hd)] at hw'
        have hr := h.reported d' w' hw'
        exact ⟨hr.sorted, hr.below, hr.taken.trans (hother d' hd).symm⟩
    · intro d' hd
      rw [List.length_set] at hd
      have hlen := (List.getElem?_eq_some_iff.1 hw).1
      exact (hother d' (by omega)).trans (h.none_taken d' hd)
  · exact h

theorem latched_run {s : σ} (hs : B.Inv s) (hclear : ∀ k, B.held s k = false) (ops : List (Op α)) :
    Latched B (B.run ops s) := by
  suffices h : ∀ st : State σ α, Latched B st → Latched B (ops.foldl B.step st) by
    refine h _ ⟨hs, ?_, by simp, fun _ _ => rfl⟩
    exact (funext hclear : B.held s = fun _ => false) ▸ onceEach_nil
  induction ops with
  | nil => exact fun st h => h
  | cons op ops ih =>
    intro st h
    refine ih _ ?_
    cases op with
    | set a => exact h.set a
    | start => exact h.start
    | word d => exact h.word d

def sweep (B : Bank σ α) (n : ℕ) (s : σ) : List ℕ × σ :=
  (List.range n).foldl (fun (out, s) i => let (ks, s) := B.swap i s; (out ++ ks, s)) ([], s)

theorem run_alone {n : ℕ} (hn : n ≤ B.words) (s : σ) :
    (B.run (.start :: List.replicate n (.word 0)) s).mem = (B.sweep n s).2 ∧
      (B.run (.start :: List.replicate n (.word 0)) s).sweeps = [⟨n, (B.sweep n s).1⟩] := by
  induction n with
  | zero => exact ⟨rfl, rfl⟩
  | succ n ih =>
    obtain ⟨hmem, hsweeps⟩ := ih (Nat.le_of_succ_le hn)
    have hstep : B.run (.start :: List.replicate (n + 1) (.word 0)) s =
        B.step (B.run (.start :: List.replicate n (.word 0)) s) (.word 0) := by
      rw [List.replicate_succ', ← List.cons_append, run, List.foldl_append]
      rfl
    have hsweep : B.sweep (n + 1) s =
        ((B.sweep n s).1 ++ (B.swap n (B.sweep n s).2).1, (B.swap n (B.sweep n s).2).2) := by
      rw [sweep, List.range_succ, List.foldl_append]
      rfl
    rw [hstep, hsweep]
    simp [step, hsweeps, hmem, Nat.lt_of_succ_le hn]

end Bank

end Latch
