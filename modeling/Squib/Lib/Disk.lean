import Mathlib.Data.List.GetD
import Mathlib.Logic.Function.Basic
import Mathlib.Tactic.SplitIfs

/-!
# A disk of named files
-/

namespace Fs

/-! ## File contents -/

def overwrite (c : List UInt8) (pos : ℕ) (bs : List UInt8) : List UInt8 :=
  (c ++ List.replicate (pos - c.length) 0).take pos ++ bs ++ c.drop (pos + bs.length)

def resize (c : List UInt8) (n : ℕ) : List UInt8 := c.take n ++ List.replicate (n - c.length) 0

theorem overwrite_length (c bs : List UInt8) : overwrite c c.length bs = c ++ bs := by
  simp [overwrite]

variable {c bs : List UInt8} {pos : ℕ}

theorem length_overwrite (h : pos + bs.length ≤ c.length) :
    (overwrite c pos bs).length = c.length := by
  simp [overwrite]
  omega

theorem overwrite_nil (h : pos ≤ c.length) : overwrite c pos [] = c := by
  simp [overwrite, Nat.sub_eq_zero_of_le h]

theorem getD_overwrite (h : pos + bs.length ≤ c.length) (i : ℕ) :
    (overwrite c pos bs).getD i 0 =
      if pos ≤ i ∧ i < pos + bs.length then bs.getD (i - pos) 0 else c.getD i 0 := by
  have hpad : pos - c.length = 0 := by omega
  have htake : (c.take pos).length = pos := by
    rw [List.length_take]
    omega
  simp only [overwrite, hpad, List.replicate_zero, List.append_nil, List.append_assoc]
  by_cases h₁ : i < pos
  · rw [if_neg (by omega), List.getD_append _ _ _ _ (by omega)]
    simp [List.getD_eq_getElem?_getD, h₁]
  · rw [List.getD_append_right _ _ _ _ (by omega), htake]
    by_cases h₂ : i < pos + bs.length
    · rw [if_pos ⟨by omega, h₂⟩, List.getD_append _ _ _ _ (by omega)]
    · rw [if_neg (by omega), List.getD_append_right _ _ _ _ (by omega)]
      simp only [List.getD_eq_getElem?_getD, List.getElem?_drop]
      congr 2
      omega

theorem overwrite_eq (h : pos ≤ c.length) (bs : List UInt8) :
    overwrite c pos bs = c.take pos ++ bs ++ c.drop (pos + bs.length) := by
  rw [overwrite, Nat.sub_eq_zero_of_le h, List.replicate_zero, List.append_nil]

theorem overwrite_overwrite (h : pos + bs.length ≤ c.length) (bs' : List UInt8) :
    overwrite (overwrite c pos bs) (pos + bs.length) bs' = overwrite c pos (bs ++ bs') := by
  have hpos : pos ≤ c.length := by omega
  have hlen : (c.take pos ++ bs).length = pos + bs.length := by
    rw [List.length_append, List.length_take, Nat.min_eq_left hpos]
  rw [overwrite_eq (by rw [length_overwrite h]; exact h), overwrite_eq hpos, overwrite_eq hpos,
    List.take_left' hlen, ← List.drop_drop, List.drop_left' hlen, List.drop_drop,
    List.length_append, Nat.add_assoc]
  simp only [List.append_assoc]

theorem take_drop_overwrite (h : pos ≤ c.length) (bs : List UInt8) :
    ((overwrite c pos bs).drop pos).take bs.length = bs := by
  have hlen : (c.take pos).length = pos := by rw [List.length_take, Nat.min_eq_left h]
  rw [overwrite_eq h, List.append_assoc, List.drop_left' hlen, List.take_left' rfl]

theorem getElem?_overwrite {content : List UInt8} {i : ℕ} (h : pos ≤ content.length)
    (hi : i < pos ∨ pos + bs.length ≤ i) : (overwrite content pos bs)[i]? = content[i]? := by
  have hlen : (content.take pos).length = pos := by rw [List.length_take, Nat.min_eq_left h]
  rw [overwrite_eq h, List.append_assoc]
  rcases hi with hi | hi
  · rw [List.getElem?_append_left (by omega), List.getElem?_take_of_lt hi]
  · rw [List.getElem?_append_right (by omega), List.getElem?_append_right (by omega),
      List.getElem?_drop]
    congr 1
    omega

theorem resize_nil (n : ℕ) : resize [] n = List.replicate n 0 := by simp [resize]

/-! ## The disk -/

structure Disk (Name : Type) where
  entry : Name → Option ℕ
  data : ℕ → List UInt8
  next : ℕ
  entry_lt : ∀ {n i}, entry n = some i → i < next
  entry_inj : ∀ {m n i}, entry m = some i → entry n = some i → m = n

namespace Disk

variable {Name : Type} [DecidableEq Name] (d : Disk Name)

omit [DecidableEq Name] in
def read (n : Name) : Option (List UInt8) := (d.entry n).map d.data

def empty : Disk Name where
  entry := fun _ => none
  data := fun _ => []
  next := 0
  entry_lt := fun h => by cases h
  entry_inj := fun h => by cases h

def setData (i : ℕ) (bs : List UInt8) : Disk Name :=
  { d with data := Function.update d.data i bs }

def unlink (n : Name) : Disk Name where
  entry := Function.update d.entry n none
  data := d.data
  next := d.next
  entry_lt := by
    intro m i hm
    by_cases hmn : m = n
    · rw [hmn, Function.update_self] at hm
      cases hm
    · rw [Function.update_of_ne hmn] at hm
      exact d.entry_lt hm
  entry_inj := by
    intro m m' i hm hm'
    by_cases h₁ : m = n
    · rw [h₁, Function.update_self] at hm
      cases hm
    · by_cases h₂ : m' = n
      · rw [h₂, Function.update_self] at hm'
        cases hm'
      · rw [Function.update_of_ne h₁] at hm
        rw [Function.update_of_ne h₂] at hm'
        exact d.entry_inj hm hm'

theorem entry_unlink (m n : Name) :
    (d.unlink n).entry m = if m = n then none else d.entry m := by
  by_cases h : m = n
  · simp [unlink, h]
  · simp [unlink, h]

def link (n : Name) (i : ℕ) (hi : i < d.next) (hfree : ∀ m, d.entry m = some i → m = n) :
    Disk Name where
  entry := Function.update d.entry n (some i)
  data := d.data
  next := d.next
  entry_lt := by
    intro m j hm
    by_cases hmn : m = n
    · rw [hmn, Function.update_self] at hm
      cases hm
      exact hi
    · rw [Function.update_of_ne hmn] at hm
      exact d.entry_lt hm
  entry_inj := by
    intro m m' j hm hm'
    by_cases h₁ : m = n <;> by_cases h₂ : m' = n
    · rw [h₁, h₂]
    · rw [h₁, Function.update_self] at hm
      rw [Function.update_of_ne h₂] at hm'
      cases hm
      exact absurd (hfree m' hm') h₂
    · rw [h₂, Function.update_self] at hm'
      rw [Function.update_of_ne h₁] at hm
      cases hm'
      exact absurd (hfree m hm) h₁
    · rw [Function.update_of_ne h₁] at hm
      rw [Function.update_of_ne h₂] at hm'
      exact d.entry_inj hm hm'

def grow : Disk Name where
  entry := d.entry
  data := Function.update d.data d.next []
  next := d.next + 1
  entry_lt := fun h => Nat.lt_succ_of_lt (d.entry_lt h)
  entry_inj := d.entry_inj

def create (n : Name) : ℕ × Disk Name :=
  match d.entry n with
  | some i => (i, d.setData i [])
  | none =>
    (d.next, d.grow.link n d.next (Nat.lt_succ_self _)
      fun _ h => absurd (d.entry_lt h) (Nat.lt_irrefl _))

def rename (a b : Name) : Option (Disk Name) :=
  match h : d.entry a with
  | none => none
  | some i =>
    some ((d.unlink a).link b i (d.entry_lt h) fun m hm => by
      rw [entry_unlink] at hm
      split_ifs at hm with hma
      exact absurd (d.entry_inj hm h) hma)

/-! ## What `read` sees -/

variable {d} {n a b : Name} {i : ℕ}

omit [DecidableEq Name] in
theorem read_setData_self (h : d.entry n = some i) (bs : List UInt8) :
    (d.setData i bs).read n = some bs := by
  simp [read, setData, h]

omit [DecidableEq Name] in
theorem read_setData_of_ne {m : Name} (h : d.entry n = some i) (hne : m ≠ n) (bs : List UInt8) :
    (d.setData i bs).read m = d.read m := by
  rw [read, read, setData]
  cases hm : d.entry m with
  | none => rfl
  | some j =>
    have hij : j ≠ i := fun hij => hne (d.entry_inj hm (hij ▸ h))
    simp [hij]

theorem create_spec (d : Disk Name) (n : Name) :
    (d.create n).2.entry n = some (d.create n).1 ∧ (d.create n).2.read n = some [] ∧
      d.next ≤ (d.create n).2.next ∧
      (∀ m ≠ n, (d.create n).2.entry m = d.entry m ∧ (d.create n).2.read m = d.read m) := by
  unfold create
  split
  · next i h =>
    exact ⟨h, read_setData_self h _, Nat.le_refl _, fun m hm => ⟨rfl, read_setData_of_ne h hm _⟩⟩
  · refine ⟨Function.update_self .., ?_, Nat.le_succ _, fun m hm => ?_⟩
    · simp [read, link, grow]
    · have hentry : Function.update d.entry n (some d.next) m = d.entry m :=
        Function.update_of_ne hm ..
      refine ⟨hentry, ?_⟩
      rw [read, read]
      simp only [link, grow, hentry]
      cases hd : d.entry m with
      | none => rfl
      | some j => simp [Nat.ne_of_lt (d.entry_lt hd)]

theorem read_unlink (m n : Name) : (d.unlink n).read m = if m = n then none else d.read m := by
  rw [read, entry_unlink, read]
  split_ifs <;> rfl

theorem rename_spec {d' : Disk Name} (h : d.rename a b = some d') (n : Name) :
    d'.entry n = (if n = b then d.entry a else if n = a then none else d.entry n) ∧
      d'.read n = if n = b then d.read a else if n = a then none else d.read n := by
  unfold rename at h
  split at h
  · cases h
  · next i hi =>
    cases h
    have hentry : (Function.update (Function.update d.entry a none) b (some i)) n =
        if n = b then d.entry a else if n = a then none else d.entry n := by
      by_cases h₁ : n = b
      · simp [h₁, hi]
      · rw [if_neg h₁, Function.update_of_ne h₁]
        by_cases h₂ : n = a
        · simp [h₂]
        · simp [h₂]
    refine ⟨hentry, ?_⟩
    rw [read, read, read]
    simp only [link, unlink, hentry]
    split_ifs <;> rfl

theorem rename_eq_none : d.rename a b = none ↔ d.entry a = none := by
  unfold rename
  split
  · next h => simp [h]
  · next h => simp [h]

end Disk

end Fs
