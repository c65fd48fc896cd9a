import Mathlib.Data.List.Pairwise

/-!
# System registers

The registers that a snapshot keeps, with the key that each has in the state file. `0` is no key, and
`fromEncoded` is the inverse of `asEncoded`.
-/

namespace Squib

inductive SysReg where
  | sctlrEl1 | ttbr0El1 | ttbr1El1 | mairEl1 | amairEl1 | tcrEl1 | spEl1 | elrEl1 | spsrEl1
  | vbarEl1 | idAa64Mmfr0El1 | idAa64Mmfr1El1 | idAa64Pfr0El1 | idAa64Pfr1El1 | idAa64Dfr0El1
  | idAa64Isar0El1 | idAa64Isar1El1 | mpidrEl1 | cntvCtlEl0 | cntvCvalEl0 | cntvOffEl2 | cntFrqEl0
  | cntKctlEl1 | cntpCtlEl0 | cntpCvalEl0 | pmCcntrEl0 | pmCcfiltrEl0 | pmUserEnrEl0 | pmCrEl0
  | pmCntEnSetEl0 | pmOvsSetEl0 | pmSelrEl0 | esrEl1 | farEl1 | afsr0El1 | afsr1El1
  | contextIdrEl1 | tpidrEl0 | tpidrroEl0 | tpidrEl1 | parEl1 | fpcr | fpsr | cpacrEl1 | mdscrEl1
  | oslarEl1 | osdlrEl1
  deriving DecidableEq, Repr

namespace SysReg

def asEncoded : SysReg → UInt64
  | sctlrEl1 => 1 | ttbr0El1 => 2 | ttbr1El1 => 3 | mairEl1 => 4 | amairEl1 => 5 | tcrEl1 => 6
  | spEl1 => 7 | elrEl1 => 8 | spsrEl1 => 9 | vbarEl1 => 10 | idAa64Mmfr0El1 => 11
  | idAa64Mmfr1El1 => 12 | idAa64Pfr0El1 => 13 | idAa64Pfr1El1 => 14 | idAa64Dfr0El1 => 15
  | idAa64Isar0El1 => 16 | idAa64Isar1El1 => 17 | mpidrEl1 => 18 | cntvCtlEl0 => 19
  | cntvCvalEl0 => 20 | cntvOffEl2 => 21 | cntFrqEl0 => 22 | cntKctlEl1 => 23 | cntpCtlEl0 => 24
  | cntpCvalEl0 => 25 | pmCcntrEl0 => 26 | pmCcfiltrEl0 => 27 | pmUserEnrEl0 => 28 | pmCrEl0 => 29
  | pmCntEnSetEl0 => 30 | pmOvsSetEl0 => 31 | pmSelrEl0 => 32 | esrEl1 => 33 | farEl1 => 34
  | afsr0El1 => 35 | afsr1El1 => 36 | contextIdrEl1 => 37 | tpidrEl0 => 38 | tpidrroEl0 => 39
  | tpidrEl1 => 40 | parEl1 => 41 | fpcr => 42 | fpsr => 43 | cpacrEl1 => 44 | mdscrEl1 => 45
  | oslarEl1 => 46 | osdlrEl1 => 47

def fromEncoded (key : UInt64) : Option SysReg :=
  match key.toNat with
  | 1 => some sctlrEl1 | 2 => some ttbr0El1 | 3 => some ttbr1El1 | 4 => some mairEl1
  | 5 => some amairEl1 | 6 => some tcrEl1 | 7 => some spEl1 | 8 => some elrEl1 | 9 => some spsrEl1
  | 10 => some vbarEl1 | 11 => some idAa64Mmfr0El1 | 12 => some idAa64Mmfr1El1
  | 13 => some idAa64Pfr0El1 | 14 => some idAa64Pfr1El1 | 15 => some idAa64Dfr0El1
  | 16 => some idAa64Isar0El1 | 17 => some idAa64Isar1El1 | 18 => some mpidrEl1
  | 19 => some cntvCtlEl0 | 20 => some cntvCvalEl0 | 21 => some cntvOffEl2 | 22 => some cntFrqEl0
  | 23 => some cntKctlEl1 | 24 => some cntpCtlEl0 | 25 => some cntpCvalEl0 | 26 => some pmCcntrEl0
  | 27 => some pmCcfiltrEl0 | 28 => some pmUserEnrEl0 | 29 => some pmCrEl0
  | 30 => some pmCntEnSetEl0 | 31 => some pmOvsSetEl0 | 32 => some pmSelrEl0 | 33 => some esrEl1
  | 34 => some farEl1 | 35 => some afsr0El1 | 36 => some afsr1El1 | 37 => some contextIdrEl1
  | 38 => some tpidrEl0 | 39 => some tpidrroEl0 | 40 => some tpidrEl1 | 41 => some parEl1
  | 42 => some fpcr | 43 => some fpsr | 44 => some cpacrEl1 | 45 => some mdscrEl1
  | 46 => some oslarEl1 | 47 => some osdlrEl1 | _ => none

def all : List SysReg :=
  [sctlrEl1, ttbr0El1, ttbr1El1, mairEl1, amairEl1, tcrEl1, spEl1, elrEl1, spsrEl1, vbarEl1,
    idAa64Mmfr0El1, idAa64Mmfr1El1, idAa64Pfr0El1, idAa64Pfr1El1, idAa64Dfr0El1, idAa64Isar0El1,
    idAa64Isar1El1, mpidrEl1, cntvCtlEl0, cntvCvalEl0, cntvOffEl2, cntFrqEl0, cntKctlEl1,
    cntpCtlEl0, cntpCvalEl0, pmCcntrEl0, pmCcfiltrEl0, pmUserEnrEl0, pmCrEl0, pmCntEnSetEl0,
    pmOvsSetEl0, pmSelrEl0, esrEl1, farEl1, afsr0El1, afsr1El1, contextIdrEl1, tpidrEl0,
    tpidrroEl0, tpidrEl1, parEl1, fpcr, fpsr, cpacrEl1, mdscrEl1, oslarEl1, osdlrEl1]

theorem fromEncoded_asEncoded (reg : SysReg) : fromEncoded reg.asEncoded = some reg := by
  cases reg <;> rfl

theorem mem_all (reg : SysReg) : reg ∈ all := by
  cases reg <;> decide

theorem all_sorted : all.Pairwise fun a b => a.asEncoded < b.asEncoded := by
  decide

end SysReg

end Squib
