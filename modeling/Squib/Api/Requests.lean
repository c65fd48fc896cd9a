import Squib.Api.Dispatch

/-!
# Requests one at a time
-/

namespace Squib.Api

open Checked Run VmmLoop

variable {β : Type}

/-! ## Handlers -/

def bad {α : Type} (checked : Except String α) : Except ApiError α := checked.mapError .badRequest

def putDevice (what field : String) (id bodyId : List UInt8) (action : Except String ApiAction) :
    Except ApiError ApiAction := do
  rejectIf (bodyId ≠ id)
    (.badRequest ("Invalid " ++ what ++ ": URL id and body " ++ field ++ " must match"))
  bad action

def putDrive (id : List UInt8) (raw : RawDriveConfig) : Except ApiError ApiAction :=
  putDevice "drive" "drive_id" id raw.driveId (.putDrive <$> DriveConfig.tryFrom raw)

def putNetwork (id : List UInt8) (raw : RawNetworkInterfaceConfig) : Except ApiError ApiAction :=
  putDevice "network-interface" "iface_id" id raw.ifaceId
    (.putNetwork <$> NetworkInterfaceConfig.tryFrom raw)

def putPmem (id : List UInt8) (raw : RawPmemConfig) : Except ApiError ApiAction :=
  putDevice "pmem" "pmem_id" id raw.pmemId (.putPmem <$> PmemConfig.tryFrom raw)

def deleteDrive (id : List UInt8) : Except ApiError ApiAction := bad (.deleteDrive <$> DriveId.new id)

def deleteNetwork (id : List UInt8) : Except ApiError ApiAction :=
  bad (.deleteNetwork <$> IfaceId.new id)

def deletePmem (id : List UInt8) : Except ApiError ApiAction := bad (.deletePmem <$> DriveId.new id)

def putBootSource (raw : RawBootSourceConfig) : Except ApiError ApiAction :=
  bad (.putBootSource <$> BootSourceConfig.tryFrom raw)

def putMachineConfig (raw : RawMachineConfig) : Except ApiError ApiAction :=
  bad (.putMachineConfig <$> MachineConfig.tryFrom raw)

def patchMachineConfig (raw : RawMachineConfigPatch) : Except ApiError ApiAction :=
  bad (.patchMachineConfig <$> MachineConfigPatch.tryFrom raw)

def putVsock (raw : RawVsockConfig) : Except ApiError ApiAction :=
  bad (.putVsock <$> VsockConfig.tryFrom raw)

def putMmds (value : Json) : Except ApiError ApiAction := .ok (.putMmds ⟨value⟩)

def putMmdsConfig (raw : RawMmdsConfig) : Except ApiError ApiAction :=
  bad (.putMmdsConfig <$> MmdsConfig.tryFrom raw)

def putBalloon (raw : RawBalloonConfig) : Except ApiError ApiAction :=
  bad (.putBalloon <$> BalloonConfig.tryFrom raw)

def putEntropy (raw : RawEntropyConfig) : Except ApiError ApiAction :=
  bad (.putEntropy <$> EntropyConfig.tryFrom raw)

def putSerial (raw : RawSerialConfig) : Except ApiError ApiAction :=
  bad (.putSerial <$> SerialConfig.tryFrom raw)

def putHotplugMemory (raw : RawHotplugMemoryConfig) : Except ApiError ApiAction :=
  bad (.putHotplugMemory <$> HotplugMemoryConfig.tryFrom raw)

def putCpuConfig (raw : RawCpuConfig) : Except ApiError ApiAction :=
  bad (.putCpuConfig <$> CpuConfig.tryFrom raw)

def putLogger (raw : RawLoggerConfig) : Except ApiError ApiAction :=
  bad (.putLogger <$> LoggerConfig.tryFrom raw)

def putMetrics (raw : RawMetricsConfig) : Except ApiError ApiAction :=
  bad (.putMetrics <$> MetricsConfig.tryFrom raw)

def putActions (verb : InstanceAction) : Except ApiError ApiAction := .ok (.action verb)

def Server.handleWith (env : Surroundings β) (body : Except ApiError ApiAction) (s : Server β) :
    Except ApiError ApiResponse × Server β :=
  match body with
  | .ok a => s.request env a
  | .error e => (.error e, s)

theorem map_eq_ok {ε α γ : Type} {f : α → γ} {x : Except ε α} {c : γ} :
    f <$> x = .ok c ↔ ∃ a, x = .ok a ∧ f a = c := by
  cases x <;> simp [Functor.map, Except.map]

/-! ## Sessions -/

def succeeded : Except ApiError ApiResponse → Bool
  | .ok resp => resp.isSuccess
  | .error _ => false

variable {env : Surroundings β} {a : ApiAction} {s : Server β}

theorem succeeded_request :
    succeeded (s.request env a).1 = true ↔ validatePhase s.vmm.phase a = .ok () ∧
      validateCrossField s.limits a = .ok () ∧ s.closed = false ∧
      (handle env s.vmm a).1.isSuccess = true := by
  cases hphase : validatePhase s.vmm.phase a with
  | error e => simp [Server.request, hphase, succeeded]
  | ok u =>
    cases hcross : validateCrossField s.limits a with
    | error e => simp [Server.request, hphase, hcross, succeeded]
    | ok u' => cases hclosed : s.closed <;> simp [Server.request, hphase, hcross, hclosed, succeeded]

theorem vmm_request (h : succeeded (s.request env a).1 = true) :
    (s.request env a).2.vmm = (handle env s.vmm a).2 := by
  obtain ⟨hphase, hcross, hclosed, -⟩ := succeeded_request.1 h
  simp [Server.request, hphase, hcross, hclosed]

structure Session (β : Type) where
  server : Server β
  accepted : List ApiAction := []

namespace Session

def initial (hostRamMib : UInt64) : Session β :=
  { server := { limits := .fromHostRamMib hostRamMib } }

def next (s : Session β) (r : Surroundings β × ApiAction) : Option (Session β) :=
  some {
    server := (s.server.request r.1 r.2).2
    accepted := if succeeded (s.server.request r.1 r.2).1 then s.accepted ++ [r.2]
      else s.accepted }

end Session

inductive Next (s s' : Session β) (r : Surroundings β × ApiAction) : Prop where
  | refused (haccepted : s'.accepted = s.accepted)
    (hlimits : s'.server.limits = s.server.limits)
    (hvmm : s'.server.vmm = s.server.vmm)
  | accepted (hphase : validatePhase s.server.vmm.phase r.2 = .ok ())
    (hcross : validateCrossField s.server.limits r.2 = .ok ())
    (hsuccess : (handle r.1 s.server.vmm r.2).1.isSuccess = true)
    (haccepted : s'.accepted = s.accepted ++ [r.2])
    (hlimits : s'.server.limits = (ActionCounterKick.forAction r.2).apply s.server.limits)
    (hvmm : s'.server.vmm = (handle r.1 s.server.vmm r.2).2)

theorem next_cases {s s' : Session β} {r : Surroundings β × ApiAction} (h : s.next r = some s') :
    Next s s' r := by
  cases h
  cases hphase : validatePhase s.server.vmm.phase r.2 with
  | error e => refine .refused ?_ ?_ ?_ <;> simp [Server.request, hphase, succeeded]
  | ok u =>
    cases hcross : validateCrossField s.server.limits r.2 with
    | error e => refine .refused ?_ ?_ ?_ <;> simp [Server.request, hphase, hcross, succeeded]
    | ok u' =>
      cases hclosed : s.server.closed with
      | true =>
        refine .refused ?_ ?_ ?_ <;> simp [Server.request, hphase, hcross, hclosed, succeeded]
      | false =>
        cases hsuccess : (handle r.1 s.server.vmm r.2).1.isSuccess with
        | false =>
          refine .refused ?_ ?_ ?_
          · simp [Server.request, hphase, hcross, hclosed, succeeded, hsuccess]
          · simp [Server.request, hphase, hcross, hclosed, LimitsState.afterResponse, hsuccess]
          · simp [Server.request, hphase, hcross, hclosed, handle_of_fault hsuccess]
        | true =>
          refine .accepted hphase hcross hsuccess ?_ ?_ ?_
          · simp [Server.request, hphase, hcross, hclosed, succeeded, hsuccess]
          · simp [Server.request, hphase, hcross, hclosed, LimitsState.afterResponse, hsuccess]
          · simp [Server.request, hphase, hcross, hclosed]

end Squib.Api
