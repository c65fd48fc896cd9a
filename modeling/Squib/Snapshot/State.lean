import Mathlib.Data.Nat.Notation

/-!
# The snapshot state blob
-/

namespace Squib.Snapshot

abbrev Path : Type := String

structure Version where
  major : ℕ
  minor : ℕ
  patch : ℕ
  deriving DecidableEq, Repr

inductive SnapshotError where
  | magicMismatch (found expected : ℕ)
  | versionMismatch (found expected : Version)
  | crcMismatch
  | tooShort
  | incompatible
  | atomicCommitFailed (errno : ℕ)
  | atomicCommitCrossFs (dest tempDir : Path)
  | invalidPath (message : String)
  | bitcode (message : String)
  | sizeLimitExceeded (limit : ℕ)
  | memoryIo (errno : ℕ)
  | io (errno : ℕ)
  deriving DecidableEq, Repr

/-! ## The state -/

structure GpRegs where
  x : Vector UInt64 31
  sp : UInt64
  pc : UInt64
  pstate : UInt64
  deriving DecidableEq, Repr

structure FpSimdRegs where
  v : Vector (UInt64 × UInt64) 32
  fpsr : UInt64
  fpcr : UInt64
  deriving DecidableEq, Repr

inductive PsciVcpuState where
  | on
  | off
  | onPending
  deriving DecidableEq, Repr

structure VcpuState where
  mpidr : UInt64
  regs : GpRegs
  fpRegs : FpSimdRegs
  sysRegs : List (UInt64 × UInt64)
  psciState : PsciVcpuState
  deriving DecidableEq, Repr

def VcpuState.new (mpidr : UInt64) : VcpuState where
  mpidr := mpidr
  regs := { x := Vector.replicate 31 0, sp := 0, pc := 0, pstate := 0 }
  fpRegs := { v := Vector.replicate 32 (0, 0), fpsr := 0, fpcr := 0 }
  sysRegs := []
  psciState := .off

structure GicState where
  len : ℕ
  bytes : List UInt8
  deriving DecidableEq, Repr

def GicState.fromBytes (bytes : List UInt8) : GicState := { len := bytes.length, bytes := bytes }

structure MmdsState where
  dataJson : String
  tokenTtlSeconds : Option ℕ
  deriving DecidableEq, Repr

structure VmInfo where
  memSizeMib : ℕ
  smt : Bool
  cpuTemplate : String
  kernelImagePath : Path
  initrdPath : Option Path
  bootArgs : String
  trackDirtyPages : Bool
  deriving DecidableEq, Repr

structure DeviceState where
  kind : String
  id : String
  mmioSlot : ℕ
  blob : List UInt8
  deriving DecidableEq, Repr

structure MicrovmState where
  vmInfo : VmInfo
  vcpuStates : List VcpuState
  deviceStates : List DeviceState
  gicState : GicState
  mmdsState : Option MmdsState
  deriving DecidableEq, Repr

def MicrovmState.verifyCompatible (s : MicrovmState) : Except SnapshotError Unit :=
  if s.vcpuStates.isEmpty || 32 < s.vcpuStates.length then .error .incompatible
  else if s.vmInfo.smt then .error .incompatible
  else if s.gicState.bytes.isEmpty then .error .incompatible
  else if s.gicState.len ≠ s.gicState.bytes.length then .error .incompatible
  else .ok ()

end Squib.Snapshot
