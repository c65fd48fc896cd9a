import Squib.Lib.Bytes

/-!
# Cyclic redundancy checks

The reflected, table-driven CRC of a polynomial, a byte at a time, without a final complement.
-/

namespace Crc

open Bytes

variable {w : ℕ} (poly : BitVec w)

def shift (c : BitVec w) : BitVec w := if c.getLsbD 0 = true then (c >>> 1) ^^^ poly else c >>> 1

def entry (b : BitVec w) : BitVec w := Nat.iterate (shift poly) 8 b

def index (c : BitVec w) (b : UInt8) : BitVec w := (c ^^^ b.toBitVec.setWidth w) &&& 255#w

def update (c : BitVec w) (b : UInt8) : BitVec w := entry poly (index c b) ^^^ (c >>> 8)

def crc (c : BitVec w) (bs : List UInt8) : BitVec w := bs.foldl (update poly) c

theorem crc_append (c : BitVec w) (bs bs' : List UInt8) :
    crc poly c (bs ++ bs') = crc poly (crc poly c bs) bs' :=
  List.foldl_append

theorem entry_zero : entry poly 0#w = 0#w := by
  have h : shift poly 0#w = 0#w := by simp [shift]
  exact Function.iterate_fixed h 8

theorem getLsbD_lowMask {i : ℕ} (hi : i < w) : (255#w).getLsbD i = decide (i < 8) := by
  rw [BitVec.getLsbD_ofNat, show (255 : ℕ) = 2 ^ 8 - 1 from rfl, Nat.testBit_two_pow_sub_one]
  simp [hi]

theorem index_low (c : BitVec w) : index c (UInt8.ofNat c.toNat) = 0#w := by
  refine BitVec.eq_of_getLsbD_eq fun i hi => ?_
  have hmask := getLsbD_lowMask hi
  by_cases h8 : i < 8
  · have hbit : (UInt8.ofNat c.toNat).toBitVec.getLsbD i = c.getLsbD i := by
      simp [UInt8.toBitVec_ofNat', h8]
    simp [index, hi, hbit]
  · simp [index, hmask, h8]

theorem update_low (c : BitVec w) : update poly c (UInt8.ofNat c.toNat) = c >>> 8 := by
  rw [update, index_low, entry_zero, BitVec.zero_xor]

variable {c : BitVec w} {bs : List UInt8}

theorem crc_leBytes {n : ℕ} (h : c.toNat < 256 ^ n) : crc poly c (leBytes n c.toNat) = 0#w := by
  induction n generalizing c with
  | zero =>
    rw [Nat.pow_zero, Nat.lt_one_iff] at h
    exact BitVec.eq_of_toNat_eq h
  | succ n ih =>
    have hshift : (c >>> 8).toNat = c.toNat / 256 := by
      rw [BitVec.toNat_ushiftRight, Nat.shiftRight_eq_div_pow]
    have hlt : (c >>> 8).toNat < 256 ^ n := by
      rw [hshift, Nat.div_lt_iff_lt_mul (by omega)]
      exact h
    rw [leBytes, crc, List.foldl_cons, update_low, ← hshift]
    exact ih hlt

/-! ## Linearity -/

theorem shift_xor (a b : BitVec w) : shift poly (a ^^^ b) = shift poly a ^^^ shift poly b := by
  refine BitVec.eq_of_getLsbD_eq fun i hi => ?_
  unfold shift
  rw [BitVec.getLsbD_xor (x := a), BitVec.ushiftRight_xor_distrib]
  cases a.getLsbD 0 <;> cases b.getLsbD 0 <;> simp <;> grind

theorem iterate_shift_xor (k : ℕ) (a b : BitVec w) :
    Nat.iterate (shift poly) k (a ^^^ b) =
      Nat.iterate (shift poly) k a ^^^ Nat.iterate (shift poly) k b := by
  induction k generalizing a b with
  | zero => rfl
  | succ k ih => rw [Function.iterate_succ_apply, shift_xor, ih]; rfl

theorem iterate_shift_shiftLeft (k : ℕ) {x : BitVec w} (h : x.toNat * 2 ^ k < 2 ^ w) :
    Nat.iterate (shift poly) k (x <<< k) = x := by
  induction k with
  | zero => simp
  | succ k ih =>
    have hlt : x.toNat * 2 ^ k < 2 ^ w := by
      rw [Nat.pow_succ, ← Nat.mul_assoc] at h
      omega
    have hlow : (x <<< (k + 1)).getLsbD 0 = false := by simp
    have hback : x <<< (k + 1) >>> 1 = x <<< k := by
      refine BitVec.eq_of_toNat_eq ?_
      rw [BitVec.toNat_ushiftRight, BitVec.toNat_shiftLeft, BitVec.toNat_shiftLeft,
        Nat.shiftLeft_eq, Nat.shiftLeft_eq, Nat.mod_eq_of_lt h, Nat.mod_eq_of_lt hlt,
        Nat.shiftRight_eq_div_pow, Nat.pow_succ, ← Nat.mul_assoc]
      omega
    rw [Function.iterate_succ_apply, shift, if_neg (by rw [hlow]; decide), hback]
    exact ih hlt

theorem xor_low_high (x : BitVec w) : (x &&& 255#w) ^^^ (x >>> 8 <<< 8) = x := by
  refine BitVec.eq_of_getLsbD_eq fun i hi => ?_
  rw [BitVec.getLsbD_xor, BitVec.getLsbD_and, getLsbD_lowMask hi]
  by_cases h8 : i < 8
  · simp [hi, h8]
  · simp [hi, h8, show 8 + (i - 8) = i by omega]

theorem update_eq (c : BitVec w) (b : UInt8) :
    update poly c b = Nat.iterate (shift poly) 8 (c ^^^ b.toBitVec.setWidth w) := by
  have hhigh : (c ^^^ b.toBitVec.setWidth w) >>> 8 = c >>> 8 := by
    refine BitVec.eq_of_getLsbD_eq fun i hi => ?_
    simp
  have hlt : ((c >>> 8).toNat) * 2 ^ 8 < 2 ^ w := by
    rw [BitVec.toNat_ushiftRight, Nat.shiftRight_eq_div_pow]
    exact Nat.lt_of_le_of_lt (Nat.div_mul_le_self _ _) c.isLt
  conv_rhs => rw [← xor_low_high (c ^^^ b.toBitVec.setWidth w)]
  rw [iterate_shift_xor, hhigh, iterate_shift_shiftLeft poly 8 hlt]
  rfl

/-! ## Injectivity

The constant term of a reflected polynomial is its highest bit. -/

variable {poly}

theorem shift_injective (hpoly : poly.getLsbD (w - 1) = true) : Function.Injective (shift poly) := by
  intro a b hab
  have hbit (i : ℕ) := congrArg (fun c => BitVec.getLsbD c i) hab
  have hw : 0 < w := by
    rcases Nat.eq_zero_or_pos w with rfl | hw
    · simp at hpoly
    · exact hw
  have hlow : a.getLsbD 0 = b.getLsbD 0 := by
    have := hbit (w - 1)
    have ha : a.getLsbD (1 + (w - 1)) = false := BitVec.getLsbD_of_ge _ _ (by omega)
    have hb : b.getLsbD (1 + (w - 1)) = false := BitVec.getLsbD_of_ge _ _ (by omega)
    unfold shift at this
    cases h : a.getLsbD 0 <;> cases h' : b.getLsbD 0 <;> simp [h, h', ha, hb, hpoly] at this ⊢
  refine BitVec.eq_of_getLsbD_eq fun i hi => ?_
  cases i with
  | zero => exact hlow
  | succ i =>
    have := hbit i
    unfold shift at this
    rw [hlow] at this
    cases h' : b.getLsbD 0 <;> simp [h', Nat.add_comm 1 i] at this <;> exact this

theorem iterate_shift_eq_zero (hpoly : poly.getLsbD (w - 1) = true) (k : ℕ) :
    Nat.iterate (shift poly) k c = 0#w ↔ c = 0#w := by
  have hzero : Nat.iterate (shift poly) k 0#w = 0#w := Function.iterate_fixed (by simp [shift]) k
  constructor
  · intro h
    exact (shift_injective hpoly).iterate k (h.trans hzero.symm)
  · rintro rfl
    exact hzero

/-! ## Few bytes -/

variable (poly)

theorem xor_shiftLeft_eight (b : UInt8) (n : ℕ) :
    b.toBitVec.setWidth w ^^^ (BitVec.ofNat w n <<< 8) = BitVec.ofNat w (b.toNat + 256 * n) := by
  refine BitVec.eq_of_getLsbD_eq fun i hi => ?_
  rw [BitVec.getLsbD_ofNat, show b.toNat + 256 * n = 2 ^ 8 * n + b.toNat by omega,
    Nat.testBit_two_pow_mul_add _ b.toNat_lt, BitVec.getLsbD_xor, BitVec.getLsbD_setWidth,
    BitVec.getLsbD_shiftLeft, BitVec.getLsbD_ofNat]
  by_cases h8 : i < 8
  · have hbyte : b.toBitVec.getLsbD i = b.toNat.testBit i := (BitVec.testBit_toNat _).symm
    rw [hbyte]
    simp [hi, h8]
  · have hhigh : b.toBitVec.getLsbD i = false := BitVec.getLsbD_of_ge _ _ (by omega)
    simp [hi, h8, hhigh, show i - 8 < w by omega]

theorem crc_eq (h : 8 * bs.length ≤ w) :
    crc poly c bs = Nat.iterate (shift poly) (8 * bs.length) (c ^^^ BitVec.ofNat w (leNat bs)) := by
  induction bs generalizing c with
  | nil => simp [crc, leNat]
  | cons b bs ih =>
    rw [List.length_cons] at h
    have hlt : (BitVec.ofNat w (leNat bs)).toNat * 2 ^ 8 < 2 ^ w := by
      have hle : (BitVec.ofNat w (leNat bs)).toNat ≤ leNat bs := by
        rw [BitVec.toNat_ofNat]
        exact Nat.mod_le _ _
      have hbound : leNat bs < 2 ^ (8 * bs.length) := by
        rw [Nat.pow_mul]
        exact leNat_lt bs
      calc (BitVec.ofNat w (leNat bs)).toNat * 2 ^ 8 ≤ leNat bs * 2 ^ 8 := Nat.mul_le_mul_right _ hle
        _ < 2 ^ (8 * bs.length) * 2 ^ 8 := Nat.mul_lt_mul_of_pos_right hbound (by decide)
        _ = 2 ^ (8 * bs.length + 8) := (Nat.pow_add ..).symm
        _ ≤ 2 ^ w := Nat.pow_le_pow_right (by decide) (by omega)
    change crc poly (update poly c b) bs = _
    rw [ih (by omega), update_eq, leNat, ← xor_shiftLeft_eight, ← BitVec.xor_assoc, List.length_cons,
      Nat.mul_succ, Function.iterate_add_apply,
      iterate_shift_xor poly 8 (c ^^^ b.toBitVec.setWidth w), iterate_shift_shiftLeft poly 8 hlt]

variable {poly} (hpoly : poly.getLsbD (w - 1) = true)
include hpoly

theorem crc_eq_zero_iff (h : 8 * bs.length = w) :
    crc poly c bs = 0#w ↔ bs = leBytes bs.length c.toNat := by
  have hbound : leNat bs < 2 ^ w := by
    rw [← h, Nat.pow_mul]
    exact leNat_lt bs
  rw [crc_eq poly (Nat.le_of_eq h), iterate_shift_eq_zero hpoly, BitVec.xor_eq_zero_iff]
  constructor
  · intro hc
    rw [hc, BitVec.toNat_ofNat, Nat.mod_eq_of_lt hbound, leBytes_leNat]
  · intro hbs
    refine BitVec.eq_of_toNat_eq ?_
    rw [BitVec.toNat_ofNat, Nat.mod_eq_of_lt hbound, hbs, leNat_leBytes]
    have hlt : c.toNat < 256 ^ bs.length := by
      rw [show (256 : ℕ) = 2 ^ 8 from rfl, ← Nat.pow_mul, h]
      exact c.isLt
    exact (Nat.mod_eq_of_lt hlt).symm

theorem crc_injective (bs : List UInt8) : Function.Injective fun c => crc poly c bs := by
  induction bs with
  | nil => exact fun _ _ h => h
  | cons b bs ih =>
    intro c c' h
    have hupdate : update poly c b = update poly c' b := ih h
    rw [update_eq, update_eq] at hupdate
    exact (BitVec.xor_left_inj _).1 ((shift_injective hpoly).iterate 8 hupdate)

theorem crc_injective_bytes {bs' : List UInt8} (hlen : bs'.length = bs.length)
    (h : 8 * bs.length ≤ w) (hcrc : crc poly c bs = crc poly c bs') : bs = bs' := by
  rw [crc_eq poly h, crc_eq poly (by rw [hlen]; exact h), hlen] at hcrc
  have hnat := (BitVec.xor_right_inj _).1 ((shift_injective hpoly).iterate _ hcrc)
  have hbound (l : List UInt8) (hl : l.length = bs.length) : leNat l < 2 ^ w := by
    refine Nat.lt_of_lt_of_le (leNat_lt l) ?_
    rw [hl, show (256 : ℕ) = 2 ^ 8 from rfl, ← Nat.pow_mul]
    exact Nat.pow_le_pow_right (by decide) h
  have heq : leNat bs = leNat bs' := by
    have := congrArg BitVec.toNat hnat
    rwa [BitVec.toNat_ofNat, BitVec.toNat_ofNat, Nat.mod_eq_of_lt (hbound bs rfl),
      Nat.mod_eq_of_lt (hbound bs' hlen)] at this
  rw [← leBytes_leNat bs, ← leBytes_leNat bs', heq, hlen]

theorem crc_burst (c : BitVec w) {before bs' : List UInt8} (after : List UInt8)
    (hlen : bs'.length = bs.length) (h : 8 * bs.length ≤ w) (hne : bs ≠ bs') :
    crc poly c (before ++ bs ++ after) ≠ crc poly c (before ++ bs' ++ after) := by
  intro hcrc
  rw [crc_append, crc_append, crc_append poly c, crc_append poly c] at hcrc
  exact hne (crc_injective_bytes hpoly hlen h (crc_injective hpoly after hcrc))

end Crc
