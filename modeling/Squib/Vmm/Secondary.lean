import Squib.Vmm.Runner

/-!
# Secondary vCPUs
-/

namespace Squib.Runner

open Psci

def PSCI_RET_ALREADY_ON : Int32 := -4
def PSCI_RET_ON_PENDING : Int32 := -5
def PSCI_RET_INTERNAL_FAILURE : Int32 := -6

def affinityOff : UInt64 := 1

def mpidrForIndex (index : UInt32) : UInt64 :=
  (index >>> 4 &&& 0xFF).toUInt64 <<< 8 ||| (index &&& 0xF).toUInt64

structure Vcpu where
  affinity : UInt64
  startedAt : Option UInt64
  deriving DecidableEq, Repr

def configured (vcpuCount : ℕ) (entryPc : UInt64) : List Vcpu :=
  (List.range vcpuCount).map fun i =>
    { affinity := mpidrForIndex (.ofNat i), startedAt := if i = 0 then some entryPc else none }

def afterOutcome (vcpus : List Vcpu) : PsciOutcome → List Vcpu
  | .systemOff | .systemReset | .parkCallerCpuOff => vcpus.map ({ · with startedAt := none })
  | .ret _ | .bringUpSecondary _ _ _ | .queryAffinityInfo _ _ => vcpus

def errors : List UInt64 :=
  [PSCI_RET_NOT_SUPPORTED, PSCI_RET_INVALID_PARAMETERS, PSCI_RET_ALREADY_ON, PSCI_RET_ON_PENDING,
    PSCI_RET_INTERNAL_FAILURE].map fun code => code.toInt64.toUInt64

structure Answers (x0 x1 x2 x0' : UInt64) (before after : List Vcpu) : Prop where
  cpuOn : x0.toUInt32 = CPU_ON → x0' = PsciReturn.success.asX0 ∧
      (∃ (i : ℕ) (v : Vcpu), before[i]? = some v ∧ v.affinity = x1 ∧ v.startedAt = none ∧
        after[i]? = some { v with startedAt := some x2 }) ∨ x0' ∈ errors
  affinityInfo : x0.toUInt32 = AFFINITY_INFO → x0' = 0 ∧
      (∃ v ∈ after, v.affinity = x1 ∧ v.startedAt.isSome) ∨ x0' = affinityOff ∨ x0' ∈ errors

variable {ν β : Type} {api : VcpuApi ν} {regs : ν → Reg → UInt64} {vcpuCount : ℕ}

theorem x0_handleHvc (hapi : RegisterFile api regs) (s : LoopState ν β) (x0 x1 x2 x3 : UInt64) :
    regs (handleHvc api x0 x1 x2 x3 s).state.vcpu .x0 = (resolveHvcPsci x0 x1 x2 x3).1 := by
  obtain ⟨v, hv, hregs⟩ := trySetReg_eq hapi .x0 (resolveHvcPsci x0 x1 x2 x3).1
    (s.perform (.psci x0 x1 x2 x3))
  have hx0 : regs v .x0 = (resolveHvcPsci x0 x1 x2 x3).1 := by rw [hregs, Function.update_self]
  unfold handleHvc
  dsimp only
  rw [hv]
  split <;> exact hx0

theorem running_iff (hcount : 0 < vcpuCount) (entryPc x1 : UInt64) :
    (∃ v ∈ configured vcpuCount entryPc, v.affinity = x1 ∧ v.startedAt.isSome) ↔ x1 = 0 := by
  constructor
  · rintro ⟨v, hv, haff, hstarted⟩
    obtain ⟨i, -, rfl⟩ := List.mem_map.1 hv
    by_cases hi : i = 0
    · rw [← haff, hi]
      rfl
    · simp [hi] at hstarted
  · rintro rfl
    exact ⟨_, List.mem_map_of_mem (List.mem_range.2 hcount), rfl, rfl⟩

/-- **What the runner answers.** -/
theorem answers_iff (hapi : RegisterFile api regs) (hcount : 0 < vcpuCount) (entryPc : UInt64)
    (s : LoopState ν β) (x0 x1 x2 x3 : UInt64) :
    Answers x0 x1 x2 (regs (handleHvc api x0 x1 x2 x3 s).state.vcpu .x0)
        (configured vcpuCount entryPc)
        (afterOutcome (configured vcpuCount entryPc) (resolveHvcPsci x0 x1 x2 x3).2) ↔
      x0.toUInt32 ≠ CPU_ON ∧ (x0.toUInt32 = AFFINITY_INFO → x1 = 0) := by
  have hsuccess : PsciReturn.success.asX0 ∉ errors ∧ PsciReturn.success.asX0 ≠ affinityOff := by decide
  rw [x0_handleHvc hapi]
  by_cases hon : x0.toUInt32 = CPU_ON
  · have hresolve : resolveHvcPsci x0 x1 x2 x3 = (PsciReturn.success.asX0, .bringUpSecondary x1 x2 x3) := by
      rw [resolveHvcPsci, hon]
      rfl
    rw [hresolve]
    refine iff_of_false (fun h => ?_) fun h => h.1 hon
    obtain ⟨-, i, v, hv, -, hoff, hv'⟩ | herror := h.cpuOn hon
    · have hon := congrArg Vcpu.startedAt (Option.some.inj (hv.symm.trans hv'))
      cases hoff.symm.trans hon
    · exact hsuccess.1 herror
  · rw [and_iff_right hon]
    by_cases hinfo : x0.toUInt32 = AFFINITY_INFO
    · have hresolve : resolveHvcPsci x0 x1 x2 x3 =
          (PsciReturn.success.asX0, .queryAffinityInfo x1 x2.toUInt32) := by
        rw [resolveHvcPsci, hinfo]
        rfl
      rw [hresolve, ← running_iff hcount entryPc x1, forall_prop_of_true hinfo]
      refine ⟨fun h => ?_, fun h => ⟨fun h' => absurd h' hon, fun _ => .inl ⟨rfl, h⟩⟩⟩
      obtain ⟨-, h⟩ | hoff | herror := h.affinityInfo hinfo
      · exact h
      · exact absurd hoff hsuccess.2
      · exact absurd herror hsuccess.1
    · exact iff_of_true ⟨fun h => absurd h hon, fun h => absurd h hinfo⟩ fun h => absurd h hinfo

def askedBy (x0 x1 x2 : UInt64) : UInt64 :=
  (handleHvc plainApi x0 x1 x2 0 (⟨⟨fun _ => 0, ⟨.exception, 0, 0⟩⟩, (), false, {}, []⟩ :
    LoopState PlainVcpu Unit)).state.vcpu.regs .x0

theorem answers_affinity_zero :
    Answers AFFINITY_INFO.toUInt64 0 0 (askedBy AFFINITY_INFO.toUInt64 0 0) (configured 2 0x80000)
      (configured 2 0x80000) :=
  (answers_iff registerFile_plainApi (by decide) _ _ _ _ _ 0).2 ⟨by decide, fun _ => rfl⟩

/-- The second of two vCPUs is asked to start, and SUCCESS is the answer. -/
theorem cpuOn_not_started :
    askedBy CPU_ON.toUInt64 1 0x90000 = PsciReturn.success.asX0 ∧
      afterOutcome (configured 2 0x80000) (resolveHvcPsci CPU_ON.toUInt64 1 0x90000 0).2 =
        [⟨0, some 0x80000⟩, ⟨1, none⟩] := by
  decide

end Squib.Runner
