import Mathlib.Algebra.Group.Nat.Defs
import Mathlib.Tactic.SplitIfs

/-!
# Checked and saturating arithmetic

The fixed-width operations of the source that do not wrap.
-/

namespace Squib

def checkedAdd (a b : UInt64) : Option UInt64 :=
  if a.toNat + b.toNat < 2 ^ 64 then some (a + b) else none

def checkedMul (a b : UInt64) : Option UInt64 :=
  if a.toNat * b.toNat < 2 ^ 64 then some (a * b) else none

def checkedSub (a b : UInt64) : Option UInt64 := if b ≤ a then some (a - b) else none

def saturatingAdd (a b : UInt32) : UInt32 :=
  if a.toNat + b.toNat < 2 ^ 32 then a + b else 0xFFFFFFFF

def saturatingAdd64 (a b : UInt64) : UInt64 :=
  if a.toNat + b.toNat < 2 ^ 64 then a + b else 0xFFFFFFFFFFFFFFFF

def saturatingMul64 (a b : UInt64) : UInt64 :=
  if a.toNat * b.toNat < 2 ^ 64 then a * b else 0xFFFFFFFFFFFFFFFF

def saturatingSub64 (a b : UInt64) : UInt64 := if b ≤ a then a - b else 0

theorem checkedAdd_eq_some {a b c : UInt64} :
    checkedAdd a b = some c ↔ a.toNat + b.toNat < 2 ^ 64 ∧ c = a + b := by
  unfold checkedAdd
  split_ifs with h
  · exact ⟨fun hc => ⟨h, (Option.some.inj hc).symm⟩, fun hc => congrArg some hc.2.symm⟩
  · exact ⟨fun hc => absurd hc (by simp), fun hc => absurd hc.1 h⟩

theorem toNat_add_of_lt {a b : UInt64} (h : a.toNat + b.toNat < 2 ^ 64) :
    (a + b).toNat = a.toNat + b.toNat := by
  rw [UInt64.toNat_add, Nat.mod_eq_of_lt h]

theorem toNat_saturatingAdd64 (a b : UInt64) :
    (saturatingAdd64 a b).toNat = min (a.toNat + b.toNat) (2 ^ 64 - 1) := by
  unfold saturatingAdd64
  split_ifs with h
  · rw [toNat_add_of_lt h, Nat.min_eq_left (by omega)]
  · rw [Nat.min_eq_right (by omega)]
    rfl

theorem toNat_saturatingAdd {a b : UInt32} (h : a.toNat + b.toNat < 2 ^ 32) :
    (saturatingAdd a b).toNat = a.toNat + b.toNat := by
  rw [saturatingAdd, if_pos h, UInt32.toNat_add, Nat.mod_eq_of_lt h]

theorem toNat_saturatingAdd_eq_min (a b : UInt32) :
    (saturatingAdd a b).toNat = min (a.toNat + b.toNat) (2 ^ 32 - 1) := by
  by_cases h : a.toNat + b.toNat < 2 ^ 32
  · rw [toNat_saturatingAdd h, Nat.min_eq_left (by omega)]
  · rw [saturatingAdd, if_neg h, Nat.min_eq_right (by omega)]
    rfl

end Squib
