import Mathlib.Data.Nat.Notation
import Squib.Lib.Checked

/-!
# Interrupt identifiers
-/

namespace Squib

open Checked

def SPI_INTID_MAX : UInt32 := 1019
def SPI_INTID_MIN : UInt32 := 32
def PPI_INTID_MIN : UInt32 := 16
def PPI_INTID_MAX : UInt32 := 31

inductive Trigger where
  | edgeRising
  | levelHigh
  | levelLow
  deriving DecidableEq, Repr

def Trigger.fdtFlags : Trigger → UInt32
  | .edgeRising => 1
  | .levelHigh => 4
  | .levelLow => 8

structure IntId where
  raw : UInt32
  valid : PPI_INTID_MIN ≤ raw ∧ raw ≤ SPI_INTID_MAX
  deriving DecidableEq

inductive IntIdError where
  | spiCellOffsetOutOfRange (cellOffset : UInt32)
  deriving DecidableEq, Repr

namespace IntId

def isPpi (i : IntId) : Bool := i.raw ≤ PPI_INTID_MAX

variable {c : UInt32}

theorem toNat_spi (h : SPI_INTID_MIN.toNat + c.toNat ≤ SPI_INTID_MAX.toNat) :
    (SPI_INTID_MIN + c).toNat = 32 + c.toNat := by
  have hmax : SPI_INTID_MAX.toNat < 2 ^ 32 := by decide
  rw [UInt32.toNat_add]
  exact Nat.mod_eq_of_lt (Nat.lt_of_le_of_lt h hmax)

def fromSpiCell (cellOffset : UInt32) : Except IntIdError IntId :=
  if h : SPI_INTID_MIN.toNat + cellOffset.toNat ≤ SPI_INTID_MAX.toNat then
    .ok {
      raw := SPI_INTID_MIN + cellOffset
      valid := by
        rw [UInt32.le_iff_toNat_le, UInt32.le_iff_toNat_le, toNat_spi h]
        exact ⟨Nat.le_add_right_of_le (by decide), h⟩ }
  else .error (.spiCellOffsetOutOfRange cellOffset)

def fdtCellType (i : IntId) : UInt32 := if i.isPpi then 1 else 0

def fdtCellOffset (i : IntId) : UInt32 :=
  if i.isPpi then i.raw - PPI_INTID_MIN else i.raw - SPI_INTID_MIN

/-! ## The fixed interrupts -/

def PL011 : IntId := ⟨33, by decide⟩
def CNTV : IntId := ⟨27, by decide⟩
def CNTHP : IntId := ⟨26, by decide⟩
def CNTP : IntId := ⟨30, by decide⟩
def CNTPS : IntId := ⟨29, by decide⟩

end IntId

end Squib
