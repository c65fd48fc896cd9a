import Squib.Api.Settings

/-!
# The API controller
-/

namespace Squib.Api

open Checked

inductive LifecyclePhase where
  | uninitialized
  | notStarted
  | starting
  | running
  | paused
  | shutdown
  deriving DecidableEq, Repr

namespace LifecyclePhase

def isPostBoot : LifecyclePhase → Bool
  | .running | .paused => true
  | _ => false

def isPreBoot : LifecyclePhase → Bool
  | .uninitialized | .notStarted => true
  | _ => false

end LifecyclePhase

/-! ## Actions -/

inductive InstanceAction where
  | instanceStart
  | flushMetrics
  | sendCtrlAltDel
  deriving DecidableEq, Repr

inductive ApiAction where
  | putBootSource (cfg : BootSourceConfig)
  | putDrive (cfg : DriveConfig)
  | patchDrive
  | deleteDrive (driveId : DriveId)
  | putNetwork (cfg : NetworkInterfaceConfig)
  | patchNetwork
  | deleteNetwork (ifaceId : IfaceId)
  | putVsock (cfg : VsockConfig)
  | putMmds (contents : MmdsContents)
  | patchMmds
  | putMmdsConfig (cfg : MmdsConfig)
  | putBalloon (cfg : BalloonConfig)
  | patchBalloon (update : BalloonUpdate)
  | patchBalloonStats
  | patchBalloonHinting
  | putEntropy (cfg : EntropyConfig)
  | putSerial (cfg : SerialConfig)
  | putPmem (cfg : PmemConfig)
  | patchPmem
  | deletePmem (pmemId : DriveId)
  | putHotplugMemory (cfg : HotplugMemoryConfig)
  | patchHotplugMemory
  | putCpuConfig (cfg : CpuConfig)
  | putMachineConfig (cfg : MachineConfig)
  | patchMachineConfig (patch : MachineConfigPatch)
  | putLogger (cfg : LoggerConfig)
  | putMetrics (cfg : MetricsConfig)
  | action (verb : InstanceAction)
  | patchVm
  | snapshotCreate
  | snapshotLoad
  | shutdown
  deriving DecidableEq

inductive ActionClass where
  | preBootConfig
  | instanceStart
  | snapshotCreate
  | snapshotLoad
  | vmStateChange
  | balloonResize
  | other
  deriving DecidableEq, Repr

def ActionClass.label : ActionClass → String
  | .preBootConfig => "pre-boot config"
  | .instanceStart => "InstanceStart"
  | .snapshotCreate => "PUT /snapshot/create"
  | .snapshotLoad => "PUT /snapshot/load"
  | .vmStateChange => "PATCH /vm"
  | .balloonResize => "PATCH /balloon"
  | .other => "VMM action"

namespace ApiAction

def class_ : ApiAction → ActionClass
  | .action .instanceStart => .instanceStart
  | .action _ | .shutdown => .other
  | .patchVm => .vmStateChange
  | .patchBalloon _ => .balloonResize
  | .snapshotCreate => .snapshotCreate
  | .snapshotLoad => .snapshotLoad
  | _ => .preBootConfig

def label : ApiAction → String
  | .putBootSource _ => "PUT /boot-source"
  | .putDrive _ => "PUT /drives/\x7bid\x7d"
  | .patchDrive => "PATCH /drives/\x7bid\x7d"
  | .deleteDrive _ => "DELETE /drives/\x7bid\x7d"
  | .putNetwork _ => "PUT /network-interfaces/\x7bid\x7d"
  | .patchNetwork => "PATCH /network-interfaces/\x7bid\x7d"
  | .deleteNetwork _ => "DELETE /network-interfaces/\x7bid\x7d"
  | .putVsock _ => "PUT /vsock"
  | .putMmds _ => "PUT /mmds"
  | .patchMmds => "PATCH /mmds"
  | .putMmdsConfig _ => "PUT /mmds/config"
  | .putBalloon _ => "PUT /balloon"
  | .patchBalloon _ => "PATCH /balloon"
  | .patchBalloonStats => "PATCH /balloon/statistics"
  | .patchBalloonHinting => "PATCH /balloon/hinting/\x7bop\x7d"
  | .putEntropy _ => "PUT /entropy"
  | .putSerial _ => "PUT /serial"
  | .putPmem _ => "PUT /pmem/\x7bid\x7d"
  | .patchPmem => "PATCH /pmem/\x7bid\x7d"
  | .deletePmem _ => "DELETE /pmem/\x7bid\x7d"
  | .putHotplugMemory _ => "PUT /hotplug/memory"
  | .patchHotplugMemory => "PATCH /hotplug/memory"
  | .putCpuConfig _ => "PUT /cpu-config"
  | .putMachineConfig _ => "PUT /machine-config"
  | .patchMachineConfig _ => "PATCH /machine-config"
  | .putLogger _ => "PUT /logger"
  | .putMetrics _ => "PUT /metrics"
  | .action _ => "PUT /actions"
  | .patchVm => "PATCH /vm"
  | .snapshotCreate => "PUT /snapshot/create"
  | .snapshotLoad => "PUT /snapshot/load"
  | .shutdown => "Shutdown"

def isPreBoot : ApiAction → Bool
  | .putBootSource _ | .putDrive _ | .putNetwork _ | .putVsock _ | .putMmds _ | .patchMmds
  | .putMmdsConfig _ | .putBalloon _ | .putEntropy _ | .putSerial _ | .putPmem _
  | .putHotplugMemory _ | .putCpuConfig _ | .putMachineConfig _ | .patchMachineConfig _
  | .putLogger _ | .putMetrics _ | .patchDrive | .patchNetwork | .action .instanceStart | .snapshotLoad | .shutdown => true
  | _ => false

def isPostBoot : ApiAction → Bool
  | .patchVm | .patchBalloon _ | .patchBalloonStats | .patchBalloonHinting | .patchHotplugMemory
  | .patchMmds | .putMmds _ | .patchDrive | .patchNetwork | .patchPmem | .deleteDrive _
  | .deleteNetwork _ | .deletePmem _ | .snapshotCreate | .action .flushMetrics | .shutdown => true
  | _ => false

end ApiAction

inductive ApiResponse where
  | noContent
  | json (value : Json)
  | fault (status : UInt16) (faultMessage : String)
  deriving DecidableEq

def ApiResponse.isSuccess : ApiResponse → Bool
  | .noContent | .json _ => true
  | .fault _ _ => false

inductive ApiError where
  | badRequest (msg : String)
  | timeout (label : String)
  | internal (msg : String)
  deriving DecidableEq, Repr

/-! ## The phase check -/

def validatePhase (phase : LifecyclePhase) (action : ApiAction) : Except ApiError Unit := do
  rejectIf (action = .action .sendCtrlAltDel)
    (.badRequest "Invalid action: SendCtrlAltDel is x86-only and not supported on aarch64")
  if action = .shutdown then .ok () else do
    rejectIf (phase.isPreBoot = true ∧ action.isPreBoot = false) (.badRequest
      "The requested operation is not allowed before the microVM has booted")
    rejectIf (phase.isPostBoot = true ∧ action.isPostBoot = false) (.badRequest
      "The requested operation is not supported after the microVM has booted")
    rejectIf (phase = .starting) (.badRequest
      "The requested operation cannot be served during boot orchestration")
    rejectIf (phase = .shutdown) (.internal "VMM is shut down")

variable {u : Unit}

theorem validatePhase_eq_ok {phase : LifecyclePhase} {action : ApiAction} :
    validatePhase phase action = .ok u ↔ action ≠ .action .sendCtrlAltDel ∧
      (action = .shutdown ∨ phase.isPreBoot = true ∧ action.isPreBoot = true ∨
        phase.isPostBoot = true ∧ action.isPostBoot = true) := by
  simp only [validatePhase, bind_eq_ok, rejectIf_eq_ok]
  by_cases hstop : action = .shutdown
  · simp [hstop]
  · cases phase <;> simp [hstop, LifecyclePhase.isPreBoot, LifecyclePhase.isPostBoot, bind_eq_ok,
      rejectIf_eq_ok]

/-! ## The limits -/

structure LimitsState where
  hostRamMib : UInt64
  memSizeMib : Option UInt64
  runningDrives : UInt32
  runningNics : UInt32
  runningPmem : UInt32
  deriving DecidableEq

def LimitsState.fromHostRamMib (hostRamMib : UInt64) : LimitsState := ⟨hostRamMib, none, 0, 0, 0⟩

def maxBalloon (mem : UInt64) : UInt64 := saturatingSub64 mem 32

def crossCheckBalloon (amountMib : UInt64) (memSizeMib : Option UInt64) : Except ApiError Unit :=
  memSizeMib.forM fun mem =>
    rejectIf (maxBalloon mem < amountMib) (.badRequest ("balloon amount_mib=" ++
      toString amountMib ++ " exceeds max (" ++ toString (maxBalloon mem) ++ " = mem_size_mib " ++
      toString mem ++ " - 32)"))

def checkCap (what : String) (running : UInt32) (cap : ℕ) : Except ApiError Unit :=
  rejectIf (cap ≤ running.toNat)
    (.badRequest (what ++ ": per-class cap " ++ toString cap ++ " exceeded"))

def validateCrossField (g : LimitsState) : ApiAction → Except ApiError Unit
  | .putMachineConfig cfg =>
    rejectIf (g.hostRamMib < cfg.memSizeMib.get) (.badRequest ("mem_size_mib=" ++
      toString cfg.memSizeMib.get ++ " exceeds host RAM cap of " ++ toString g.hostRamMib ++ " MiB"))
  | .putBalloon b => crossCheckBalloon b.amountMib g.memSizeMib
  | .patchBalloon u => crossCheckBalloon u.amountMib g.memSizeMib
  | .putDrive _ => checkCap "drives" g.runningDrives MAX_DRIVES
  | .putNetwork _ => checkCap "network_interfaces" g.runningNics MAX_NICS
  | .putPmem _ => checkCap "pmem" g.runningPmem MAX_PMEM
  | _ => .ok ()

inductive ActionCounterKick where
  | none
  | setMemSize (mib : UInt64)
  | addDrive
  | addNic
  | addPmem
  deriving DecidableEq, Repr

namespace ActionCounterKick

def forAction : ApiAction → ActionCounterKick
  | .putMachineConfig cfg => .setMemSize cfg.memSizeMib.get
  | .putDrive _ => .addDrive
  | .putNetwork _ => .addNic
  | .putPmem _ => .addPmem
  | _ => .none

def apply (g : LimitsState) : ActionCounterKick → LimitsState
  | .none => g
  | .setMemSize v => { g with memSizeMib := some v }
  | .addDrive => { g with runningDrives := saturatingAdd g.runningDrives 1 }
  | .addNic => { g with runningNics := saturatingAdd g.runningNics 1 }
  | .addPmem => { g with runningPmem := saturatingAdd g.runningPmem 1 }

end ActionCounterKick

def LimitsState.afterResponse (g : LimitsState) (action : ApiAction) (resp : ApiResponse) :
    LimitsState :=
  if resp.isSuccess then (ActionCounterKick.forAction action).apply g else g

/-! ## Classes of devices -/

inductive DeviceClass where
  | drive
  | nic
  | pmem
  deriving DecidableEq, Repr

def DeviceClass.cap : DeviceClass → ℕ
  | .drive => MAX_DRIVES
  | .nic => MAX_NICS
  | .pmem => MAX_PMEM

def LimitsState.running (g : LimitsState) : DeviceClass → UInt32
  | .drive => g.runningDrives
  | .nic => g.runningNics
  | .pmem => g.runningPmem

namespace ApiAction

def puts : ApiAction → Option (DeviceClass × Identifier)
  | .putDrive cfg => some (.drive, cfg.driveId)
  | .putNetwork cfg => some (.nic, cfg.ifaceId)
  | .putPmem cfg => some (.pmem, cfg.pmemId)
  | _ => none

def deletes : ApiAction → Option (DeviceClass × Identifier)
  | .deleteDrive id => some (.drive, id)
  | .deleteNetwork id => some (.nic, id)
  | .deletePmem id => some (.pmem, id)
  | _ => none

def putsClass (k : DeviceClass) (a : ApiAction) : Bool := a.puts.any fun d => d.1 == k

end ApiAction

theorem crossCheckBalloon_eq_ok {amount : UInt64} {mem? : Option UInt64} :
    crossCheckBalloon amount mem? = .ok u ↔ ∀ mem ∈ mem?, amount ≤ maxBalloon mem := by
  simp only [crossCheckBalloon, forM_eq_ok, rejectIf_eq_ok, UInt64.not_lt]

variable {g : LimitsState} {a : ApiAction}

theorem validateCrossField_eq_ok :
    validateCrossField g a = .ok u ↔
      (∀ cfg, a = .putMachineConfig cfg → cfg.memSizeMib.get ≤ g.hostRamMib) ∧
      (∀ b, a = .putBalloon b → ∀ mem ∈ g.memSizeMib, b.amountMib ≤ maxBalloon mem) ∧
      (∀ u, a = .patchBalloon u → ∀ mem ∈ g.memSizeMib, u.amountMib ≤ maxBalloon mem) ∧
      ∀ k, a.putsClass k = true → (g.running k).toNat < k.cap := by
  cases a <;>
    simp [validateCrossField, crossCheckBalloon_eq_ok, checkCap, rejectIf_eq_ok,
      ApiAction.putsClass, ApiAction.puts, LimitsState.running, DeviceClass.cap]

theorem validateCrossField_of_putsClass {k : DeviceClass} (hputs : a.putsClass k = true)
    (h : (g.running k).toNat < k.cap) : validateCrossField g a = .ok () := by
  cases a <;> cases k <;> simp [ApiAction.putsClass, ApiAction.puts] at hputs <;>
    simpa [validateCrossField, checkCap, rejectIf_eq_ok, LimitsState.running, DeviceClass.cap] using h

theorem running_apply (g : LimitsState) (a : ApiAction) (k : DeviceClass) :
    ((ActionCounterKick.forAction a).apply g).running k =
      if a.putsClass k = true then saturatingAdd (g.running k) 1 else g.running k := by
  cases a <;> cases k <;>
    simp [ActionCounterKick.forAction, ActionCounterKick.apply, ApiAction.putsClass, ApiAction.puts,
      LimitsState.running]

end Squib.Api
