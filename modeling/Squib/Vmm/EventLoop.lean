import Squib.Api.Controller
import Squib.Vmm.Start

/-!
# The event loop
-/

namespace Squib.VmmLoop

open Api Boot Checked DeviceManager

variable {β : Type}

structure VmmState (β : Type) where
  boot : BootState := {}
  running : Option (RunningVm β) := none
  phase : LifecyclePhase := .uninitialized

structure Surroundings (β : Type) where
  host : StartHost
  device : Kind → BusDevice β
  display : StartError → String

def applyPatch (existing : MachineConfig) (patch : MachineConfigPatch) : MachineConfig :=
  { existing with
    vcpuCount := patch.vcpuCount.getD existing.vcpuCount
    memSizeMib := patch.memSizeMib.getD existing.memSizeMib
    cpuTemplate := patch.cpuTemplate.or existing.cpuTemplate }

def handle (env : Surroundings β) (s : VmmState β) : ApiAction → ApiResponse × VmmState β
  | .shutdown => (.noContent, { s with running := none })
  | .action .instanceStart =>
    match startMicrovm env.host env.device s.boot with
    | .ok vm => (.noContent, { s with running := some vm, phase := .running })
    | .error e => (.fault 400 ("InstanceStart failed: " ++ env.display e), s)
  | .action .flushMetrics => (.noContent, s)
  | .action .sendCtrlAltDel =>
    (.fault 400 "SendCtrlAltDel is x86-only and not supported on aarch64", s)
  | .putBootSource cfg => (.noContent, { s with boot := { s.boot with bootSource := some cfg } })
  | .putMachineConfig cfg =>
    (.noContent, { s with boot := { s.boot with machineConfig := some cfg } })
  | .patchMachineConfig patch =>
    match s.boot.machineConfig with
    | some existing =>
      (.noContent, { s with boot := { s.boot with
        machineConfig := some (applyPatch existing patch) } })
    | none => (.fault 400 "PATCH /machine-config before PUT is not allowed", s)
  | .putDrive cfg => (.noContent, { s with boot := { s.boot with drive := some cfg } })
  | .putNetwork cfg => (.noContent, { s with boot := { s.boot with net := some cfg } })
  | .putVsock cfg => (.noContent, { s with boot := { s.boot with vsock := some cfg } })
  | .snapshotCreate | .snapshotLoad =>
    (.fault 400 "Snapshot subsystem available but VMM integration pending (Track B)", s)
  | _ => (.noContent, s)

end Squib.VmmLoop

namespace Squib.Api.ApiAction

def writesBootState : ApiAction → Bool
  | .putBootSource _ | .putMachineConfig _ | .patchMachineConfig _ | .putDrive _ | .putNetwork _
  | .putVsock _ => true
  | _ => false

end Squib.Api.ApiAction

namespace Squib.VmmLoop

open Api Boot Checked DeviceManager

variable {β : Type} {env : Surroundings β} {s : VmmState β} {a : ApiAction}

theorem handle_of_fault (h : (handle env s a).1.isSuccess = false) : (handle env s a).2 = s := by
  cases a with
  | action verb =>
    cases verb <;> simp only [handle] at h ⊢
    cases hstart : startMicrovm env.host env.device s.boot with
    | ok vm => simp [hstart, ApiResponse.isSuccess] at h
    | error e => rfl
  | patchMachineConfig patch =>
    simp only [handle] at h ⊢
    cases hm : s.boot.machineConfig with
    | none => rfl
    | some m => simp [hm, ApiResponse.isSuccess] at h
  | snapshotCreate | snapshotLoad => rfl
  | _ => cases h

theorem handle_machineConfig : (handle env s a).2.boot.machineConfig =
    match a with
    | .putMachineConfig cfg => some cfg
    | .patchMachineConfig patch => s.boot.machineConfig.map (applyPatch · patch)
    | _ => s.boot.machineConfig := by
  cases a with
  | action verb =>
    cases verb <;> simp only [handle]
    cases startMicrovm env.host env.device s.boot <;> rfl
  | patchMachineConfig patch =>
    simp only [handle]
    cases hm : s.boot.machineConfig with
    | none => simp [hm]
    | some m => rfl
  | _ => rfl

theorem handle_phase_of_ne_start (h : a ≠ .action .instanceStart) :
    (handle env s a).2.phase = s.phase := by
  cases a with
  | action verb => cases verb <;> first | rfl | exact absurd rfl h
  | patchMachineConfig patch =>
    simp only [handle]
    cases s.boot.machineConfig <;> rfl
  | _ => rfl

theorem handle_start_isSuccess :
    (handle env s (.action .instanceStart)).1.isSuccess = true ↔
      ∃ vm, startMicrovm env.host env.device s.boot = .ok vm := by
  simp only [handle]
  cases startMicrovm env.host env.device s.boot <;> simp [ApiResponse.isSuccess]

theorem handle_start_phase (h : (handle env s (.action .instanceStart)).1.isSuccess = true) :
    (handle env s (.action .instanceStart)).2.phase = .running := by
  obtain ⟨vm, hvm⟩ := handle_start_isSuccess.1 h
  simp only [handle, hvm]

end Squib.VmmLoop
