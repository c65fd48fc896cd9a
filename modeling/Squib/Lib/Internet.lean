import Mathlib.Algebra.Group.Nat.Defs
import Mathlib.Tactic.SplitIfs

/-!
# Network byte order and the Internet checksum
-/

namespace Internet

/-! ## Network byte order -/

def be16 (a b : UInt8) : UInt16 := .ofNat (256 * a.toNat + b.toNat)

def be32 (a b c d : UInt8) : UInt32 :=
  .ofNat (256 * (256 * (256 * a.toNat + b.toNat) + c.toNat) + d.toNat)

def toBe16 (x : UInt16) : List UInt8 := [.ofNat (x.toNat / 256), .ofNat x.toNat]

def toBe32 (x : UInt32) : List UInt8 :=
  [.ofNat (x.toNat / 256 / 256 / 256), .ofNat (x.toNat / 256 / 256), .ofNat (x.toNat / 256),
    .ofNat x.toNat]

@[simp] theorem length_toBe16 (x : UInt16) : (toBe16 x).length = 2 := rfl

@[simp] theorem length_toBe32 (x : UInt32) : (toBe32 x).length = 4 := rfl

theorem toNat_be16 (a b : UInt8) : (be16 a b).toNat = 256 * a.toNat + b.toNat := by
  have ha := a.toNat_lt
  have hb := b.toNat_lt
  rw [be16, UInt16.toNat_ofNat', Nat.mod_eq_of_lt (by omega)]

theorem be16_toBe16 (x : UInt16) : be16 (.ofNat (x.toNat / 256)) (.ofNat x.toNat) = x := by
  have hx := x.toNat_lt
  apply UInt16.toNat.inj
  rw [toNat_be16, UInt8.toNat_ofNat', UInt8.toNat_ofNat']
  omega

theorem toBe16_be16 (a b : UInt8) : toBe16 (be16 a b) = [a, b] := by
  have hb := b.toNat_lt
  rw [toBe16, toNat_be16, Nat.mul_add_div (by decide), Nat.div_eq_of_lt hb, Nat.add_zero,
    UInt8.ofNat_toNat]
  congr 2
  apply UInt8.toNat.inj
  rw [UInt8.toNat_ofNat']
  omega

theorem be32_toBe32 (x : UInt32) :
    be32 (.ofNat (x.toNat / 256 / 256 / 256)) (.ofNat (x.toNat / 256 / 256))
      (.ofNat (x.toNat / 256)) (.ofNat x.toNat) = x := by
  have hx := x.toNat_lt
  apply UInt32.toNat.inj
  rw [be32, UInt32.toNat_ofNat']
  simp only [UInt8.toNat_ofNat']
  omega

/-! ## Sums of words -/

def wordSum : List UInt8 → ℕ
  | a :: b :: rest => (be16 a b).toNat + wordSum rest
  | [a] => (be16 a 0).toNat
  | [] => 0

theorem wordSum_append : ∀ {xs : List UInt8} (ys : List UInt8), xs.length % 2 = 0 →
    wordSum (xs ++ ys) = wordSum xs + wordSum ys
  | [], ys, _ => by simp [wordSum]
  | [_], _, h => by simp at h
  | a :: b :: xs, ys, h => by
    have hxs : xs.length % 2 = 0 := by
      simp only [List.length_cons] at h
      omega
    rw [List.cons_append, List.cons_append, wordSum, wordSum_append ys hxs, wordSum, Nat.add_assoc]

theorem wordSum_toBe16 (x : UInt16) : wordSum (toBe16 x) = x.toNat := by
  rw [toBe16, wordSum, wordSum, be16_toBe16, Nat.add_zero]

theorem wordSum_insert {xs : List UInt8} (ys : List UInt8) (x : UInt16) (h : xs.length % 2 = 0) :
    wordSum (xs ++ toBe16 x ++ ys) = wordSum (xs ++ [0, 0] ++ ys) + x.toNat := by
  have hx : wordSum (toBe16 x ++ ys) = x.toNat + wordSum ys := by
    rw [wordSum_append _ (by simp), wordSum_toBe16]
  have hzero : wordSum ([0, 0] ++ ys) = wordSum ys := by
    simp [wordSum, toNat_be16]
  rw [List.append_assoc, wordSum_append _ h, hx, List.append_assoc, wordSum_append _ h, hzero]
  omega

theorem wordSum_le : ∀ xs : List UInt8, 2 * wordSum xs ≤ 65535 * (xs.length + 1)
  | [] => by simp [wordSum]
  | [a] => by
    have := (be16 a 0).toNat_lt
    simp only [wordSum, List.length_singleton]
    omega
  | a :: b :: xs => by
    have := (be16 a b).toNat_lt
    have := wordSum_le xs
    simp only [wordSum, List.length_cons]
    omega

theorem wordSum_set : ∀ {xs : List UInt8} {i : ℕ} (h : i < xs.length) (b : UInt8),
    ∃ w, (w = 1 ∨ w = 256) ∧ wordSum (xs.set i b) + w * xs[i].toNat = wordSum xs + w * b.toNat
  | [a], 0, _, b => by
    refine ⟨256, .inr rfl, ?_⟩
    simp only [List.set_cons_zero, wordSum, toNat_be16, List.getElem_cons_zero]
    omega
  | a :: c :: xs, 0, _, b => by
    refine ⟨256, .inr rfl, ?_⟩
    simp only [List.set_cons_zero, wordSum, toNat_be16, List.getElem_cons_zero]
    omega
  | a :: c :: xs, 1, _, b => by
    refine ⟨1, .inl rfl, ?_⟩
    simp only [List.set_cons_succ, List.set_cons_zero, wordSum, toNat_be16, List.getElem_cons_succ,
      List.getElem_cons_zero]
    omega
  | a :: c :: xs, i + 2, h, b => by
    obtain ⟨w, hw, hsum⟩ := wordSum_set (show i < xs.length by simpa using h) b
    refine ⟨w, hw, ?_⟩
    simp only [List.set_cons_succ, wordSum, List.getElem_cons_succ]
    omega

/-! ## End-around carries -/

def carry (n : ℕ) : ℕ := n % 65536 + n / 65536

def residue (n : ℕ) : ℕ := if n = 0 then 0 else (n - 1) % 65535 + 1

theorem residue_of_lt {n : ℕ} (h : n < 65536) : residue n = n := by
  unfold residue
  split_ifs <;> omega

theorem residue_lt (n : ℕ) : residue n < 65536 := by
  unfold residue
  split_ifs <;> omega

theorem residue_carry (n : ℕ) : residue (carry n) = residue n := by
  unfold residue carry
  split_ifs <;> omega

theorem carry_carry_lt {n : ℕ} (h : n < 2 ^ 32) : carry (carry n) < 65536 := by
  unfold carry
  omega

theorem residue_checksum (n : ℕ) : residue (n + (65535 - residue n)) = 65535 := by
  unfold residue
  split_ifs <;> omega

/-- Addition of ones' complement numbers, with the end-around carry. -/
def onesAdd (a b : UInt16) : UInt16 := if a.toNat + b.toNat < 65536 then a + b else a + b + 1

/-- The ones' complement sum of the words of a text; an odd byte is padded with a zero. -/
def onesSum : List UInt8 → UInt16
  | a :: b :: rest => onesAdd (be16 a b) (onesSum rest)
  | [a] => be16 a 0
  | [] => 0

theorem residue_add (m n : ℕ) : residue (m + residue n) = residue (m + n) := by
  unfold residue
  split_ifs <;> omega

theorem toNat_onesAdd (a b : UInt16) : (onesAdd a b).toNat = residue (a.toNat + b.toNat) := by
  have ha := a.toNat_lt
  have hb := b.toNat_lt
  rw [onesAdd]
  split_ifs with h
  · rw [residue_of_lt h, UInt16.toNat_add, Nat.mod_eq_of_lt h]
  · rw [UInt16.toNat_add, UInt16.toNat_add, UInt16.toNat_one, residue, if_neg (by omega)]
    omega

theorem toNat_onesSum : ∀ xs : List UInt8, (onesSum xs).toNat = residue (wordSum xs)
  | [] => rfl
  | [a] => (residue_of_lt (be16 a 0).toNat_lt).symm
  | a :: b :: xs => by
    rw [onesSum, toNat_onesAdd, toNat_onesSum xs, residue_add, wordSum]

/-! ## Flipped bits -/

def flipBit (a : UInt8) (k : Fin 8) : UInt8 := a ^^^ .ofNat (2 ^ k.val)

theorem toNat_flipBit (a : UInt8) (k : Fin 8) :
    (flipBit a k).toNat = a.toNat + 2 ^ k.val ∨ a.toNat = (flipBit a k).toNat + 2 ^ k.val := by
  have hall : ∀ a < 256, ∀ k < 8, a ^^^ 2 ^ k = a + 2 ^ k ∨ a = (a ^^^ 2 ^ k) + 2 ^ k := by
    decide +kernel
  have hbit : (UInt8.ofNat (2 ^ k.val)).toNat = 2 ^ k.val :=
    UInt8.toNat_ofNat_of_lt' (Nat.pow_lt_pow_right (by decide) k.isLt)
  rw [flipBit, UInt8.toNat_xor, hbit]
  exact hall a.toNat a.toNat_lt k.val k.isLt

theorem residue_set_flipBit {xs : List UInt8} {i : ℕ} {a : UInt8} (hi : xs[i]? = some a) (k : Fin 8)
    (h : residue (wordSum xs) = 65535) : residue (wordSum (xs.set i (flipBit a k))) ≠ 65535 := by
  obtain ⟨hlt, rfl⟩ := List.getElem?_eq_some_iff.1 hi
  have hpos : 0 < 2 ^ k.val := Nat.two_pow_pos _
  have hle : 2 ^ k.val ≤ 128 := Nat.pow_le_pow_right (n := 2) (by decide) (Nat.le_of_lt_succ k.isLt)
  obtain ⟨w, hw, hsum⟩ := wordSum_set hlt (flipBit xs[i] k)
  unfold residue at h ⊢
  obtain hflip | hflip := toNat_flipBit xs[i] k
  all_goals
    rw [hflip] at hsum
    obtain rfl | rfl := hw <;> split_ifs at h ⊢ <;> omega

theorem residue_append_flipBit (ys : List UInt8) {xs : List UInt8} {i : ℕ} {a : UInt8}
    (hi : xs[i]? = some a) (k : Fin 8) (h : residue (wordSum (ys ++ xs)) = 65535) :
    residue (wordSum (ys ++ xs.set i (flipBit a k))) ≠ 65535 := by
  have hall : (ys ++ xs)[ys.length + i]? = some a := by
    rwa [List.getElem?_append_right (Nat.le_add_right _ _), Nat.add_sub_cancel_left]
  have hflip := residue_set_flipBit hall k h
  rwa [List.set_append_right _ _ (Nat.le_add_right _ _), Nat.add_sub_cancel_left] at hflip

end Internet
