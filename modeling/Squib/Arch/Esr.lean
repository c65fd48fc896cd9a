import Mathlib.Data.Nat.Bitwise

/-!
# The syndrome decoder
-/

namespace Squib.Esr

/-! ## Exception classes -/

def WFX : UInt8 := 0x01
def HVC : UInt8 := 0x16
def SMC : UInt8 := 0x17
def SYSTEM_REGISTER : UInt8 := 0x18
def DATA_ABORT_LOWER_EL : UInt8 := 0x24
def DATA_ABORT_SAME_EL : UInt8 := 0x25
def BRK_AARCH64 : UInt8 := 0x3C

inductive EsrDecoded where
  | dataAbort (isWrite : Bool) (sas srt : UInt8) (sf : Bool)
  | hvc (imm16 : UInt16)
  | smc (imm16 : UInt16)
  | systemRegister (read : Bool) (op0 op1 crn crm op2 xt : UInt8)
  | wfi
  | wfe
  | brk (imm16 : UInt16)
  | other (ec : UInt8) (raw : UInt64)
  deriving DecidableEq, Repr

/-! ## Decoding -/

def decodeDataAbort (iss : UInt64) : EsrDecoded :=
  -- bits 24 (`ISV`) and 21 (`SSE`) of the layout are not read
  let isWrite := iss &&& ((1 : UInt64) <<< 6) != 0
  let sas := ((iss >>> 22) &&& 0x3).toUInt8
  let srt := ((iss >>> 16) &&& 0x1F).toUInt8
  let sf := iss &&& ((1 : UInt64) <<< 15) != 0
  .dataAbort isWrite sas srt sf

def decodeSystemRegister (iss : UInt64) : EsrDecoded :=
  let op0 := ((iss >>> 20) &&& 0x3).toUInt8
  let op2 := ((iss >>> 17) &&& 0x7).toUInt8
  let op1 := ((iss >>> 14) &&& 0x7).toUInt8
  let crn := ((iss >>> 10) &&& 0xF).toUInt8
  let xt := ((iss >>> 5) &&& 0x1F).toUInt8
  let crm := ((iss >>> 1) &&& 0xF).toUInt8
  let read := iss &&& 0x1 == 1
  .systemRegister read op0 op1 crn crm op2 xt

def decodeWfx (iss : UInt64) : EsrDecoded :=
  if iss &&& 0x1 == 1 then .wfe else .wfi

def exceptionClass (esr : UInt64) : UInt8 := ((esr >>> 26) &&& 0x3F).toUInt8

def iss (esr : UInt64) : UInt64 := esr &&& 0x01FFFFFF

def decode (esr : UInt64) : EsrDecoded :=
  let ec := exceptionClass esr
  let iss := iss esr
  if ec = DATA_ABORT_LOWER_EL ∨ ec = DATA_ABORT_SAME_EL then decodeDataAbort iss
  else if ec = HVC then .hvc (iss &&& 0xFFFF).toUInt16
  else if ec = SMC then .smc (iss &&& 0xFFFF).toUInt16
  else if ec = SYSTEM_REGISTER then decodeSystemRegister iss
  else if ec = WFX then decodeWfx iss
  else if ec = BRK_AARCH64 then .brk (iss &&& 0xFFFF).toUInt16
  else .other ec esr

def DataAbortClass (esr : UInt64) : Prop :=
  exceptionClass esr = DATA_ABORT_LOWER_EL ∨ exceptionClass esr = DATA_ABORT_SAME_EL

instance (esr : UInt64) : Decidable (DataAbortClass esr) := by
  unfold DataAbortClass; infer_instance

/-! ## The fields of a data abort -/

def isv (esr : UInt64) : Bool := esr.toNat.testBit 24

def sas (esr : UInt64) : ℕ := esr.toNat / 2 ^ 22 % 4

def sse (esr : UInt64) : Bool := esr.toNat.testBit 21

def srt (esr : UInt64) : ℕ := esr.toNat / 2 ^ 16 % 32

def sf (esr : UInt64) : Bool := esr.toNat.testBit 15

def wnr (esr : UInt64) : Bool := esr.toNat.testBit 6

variable (esr : UInt64)

theorem sas_lt : sas esr < 4 := Nat.mod_lt _ (by decide)

theorem two_pow_sas_le : 2 ^ sas esr ≤ 8 :=
  Nat.pow_le_pow_right (n := 2) (j := 3) (by decide) (Nat.lt_succ_iff.1 (sas_lt esr))

theorem srt_lt : srt esr < 32 := Nat.mod_lt _ (by decide)

theorem toNat_iss : (iss esr).toNat = esr.toNat % 2 ^ 25 := by
  rw [iss, UInt64.toNat_and]
  exact Nat.and_two_pow_sub_one_eq_mod _ 25

theorem iss_field {mask shift : UInt64} {w : ℕ} (hmask : mask.toNat = 2 ^ w - 1)
    (hshift : shift.toNat + w ≤ 25) :
    ((iss esr >>> shift) &&& mask).toUInt8 = UInt8.ofNat (esr.toNat / 2 ^ shift.toNat % 2 ^ w) := by
  have h64 : shift.toNat % 64 = shift.toNat := by omega
  obtain ⟨k, hk⟩ := Nat.exists_eq_add_of_le hshift
  rw [← UInt8.ofNat_uInt64ToNat, UInt64.toNat_and, UInt64.toNat_shiftRight, hmask, h64,
    Nat.and_two_pow_sub_one_eq_mod, Nat.shiftRight_eq_div_pow, toNat_iss, hk, Nat.pow_add,
    Nat.pow_add, Nat.mul_assoc, Nat.mod_mul_right_div_self, Nat.mod_mul_right_mod]

theorem iss_and_bit {bit : UInt64} {i : ℕ} (hi : i < 25) (hbit : bit.toNat = 2 ^ i) :
    (iss esr &&& bit != 0) = esr.toNat.testBit i := by
  have h : (iss esr &&& bit).toNat = (esr.toNat.testBit i).toNat * 2 ^ i := by
    rw [UInt64.toNat_and, toNat_iss, hbit, Nat.and_two_pow, Nat.testBit_mod_two_pow,
      decide_eq_true hi, Bool.true_and]
  rw [Bool.eq_iff_iff, bne_iff_ne, ne_eq, ← UInt64.toNat_inj, h]
  cases esr.toNat.testBit i <;> simp

theorem decode_of_dataAbort {esr : UInt64} (h : DataAbortClass esr) :
    decode esr = .dataAbort (wnr esr) (UInt8.ofNat (sas esr)) (UInt8.ofNat (srt esr)) (sf esr) := by
  have hclass : decode esr = decodeDataAbort (iss esr) := if_pos h
  have hsas : ((iss esr >>> 22) &&& 0x3).toUInt8 = UInt8.ofNat (sas esr) :=
    iss_field esr (w := 2) rfl (by decide)
  have hsrt : ((iss esr >>> 16) &&& 0x1F).toUInt8 = UInt8.ofNat (srt esr) :=
    iss_field esr (w := 5) rfl (by decide)
  rw [hclass, decodeDataAbort, hsas, hsrt, iss_and_bit esr (i := 6) (by decide) (by decide),
    iss_and_bit esr (i := 15) (by decide) (by decide)]
  rfl

end Squib.Esr
