import Mathlib.Data.Nat.Notation

/-!
# PSCI
-/

namespace Squib.Psci

/-! ## Function identifiers and return codes -/

def PSCI_VERSION : UInt32 := 0x84000000
def CPU_OFF : UInt32 := 0x84000002
def CPU_ON : UInt32 := 0xC4000003
def AFFINITY_INFO : UInt32 := 0xC4000004
def MIGRATE_INFO_TYPE : UInt32 := 0x84000006
def SYSTEM_OFF : UInt32 := 0x84000008
def SYSTEM_RESET : UInt32 := 0x84000009
def PSCI_FEATURES : UInt32 := 0x8400000A

def PSCI_RET_SUCCESS : Int32 := 0
def PSCI_RET_NOT_SUPPORTED : Int32 := -1
def PSCI_RET_INVALID_PARAMETERS : Int32 := -2

def PSCI_VERSION_VALUE : UInt32 := 0x00010001

inductive PsciReturn where
  | success
  | notSupported
  | invalidParameters
  | word (w : UInt32)
  deriving DecidableEq, Repr

def PsciReturn.asX0 : PsciReturn → UInt64
  | .success => PSCI_RET_SUCCESS.toInt64.toUInt64
  | .notSupported => PSCI_RET_NOT_SUPPORTED.toInt64.toUInt64
  | .invalidParameters => PSCI_RET_INVALID_PARAMETERS.toInt64.toUInt64
  | .word w => w.toUInt64

inductive PsciOutcome where
  | ret (r : PsciReturn)
  | bringUpSecondary (targetCpu entryPoint contextId : UInt64)
  | queryAffinityInfo (targetCpu : UInt64) (lowestAffinityLevel : UInt32)
  | systemOff
  | systemReset
  | parkCallerCpuOff
  deriving DecidableEq, Repr

def supported : List UInt32 :=
  [PSCI_VERSION, CPU_OFF, CPU_ON, AFFINITY_INFO, MIGRATE_INFO_TYPE, SYSTEM_OFF, SYSTEM_RESET,
    PSCI_FEATURES]

def dispatch (funcId : UInt32) (x1 x2 x3 : UInt64) : PsciOutcome :=
  if funcId = PSCI_VERSION then .ret (.word PSCI_VERSION_VALUE)
  else if funcId = CPU_OFF then .parkCallerCpuOff
  else if funcId = CPU_ON then .bringUpSecondary x1 x2 x3
  else if funcId = AFFINITY_INFO then .queryAffinityInfo x1 x2.toUInt32
  else if funcId = MIGRATE_INFO_TYPE then .ret (.word 2)
  else if funcId = SYSTEM_OFF then .systemOff
  else if funcId = SYSTEM_RESET then .systemReset
  else if funcId = PSCI_FEATURES then
    if x1.toUInt32 ∈ supported then .ret .success else .ret .notSupported
  else .ret .notSupported

end Squib.Psci
