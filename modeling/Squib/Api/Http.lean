import Squib.Api.Requests

/-!
# Handlers against any machine monitor
-/

namespace Squib.Api

open Checked VmmLoop

/-! ## The controller -/

inductive Reply where
  | gone
  | dropped
  | late
  | response (resp : ApiResponse)

def Reply.isSuccess : Reply → Bool
  | .response resp => resp.isSuccess
  | _ => false

structure Vmm (σ : Type) where
  finds : σ → LimitsState → LifecyclePhase × LimitsState × σ
  serve : ApiAction → σ → LimitsState → Reply × LimitsState × σ

structure Link (σ : Type) where
  limits : LimitsState
  vmm : σ
  delivered : List (ApiAction × Reply) := []

variable {σ : Type}

def Link.send (vmm : Vmm σ) (a : ApiAction) (l : Link σ) : Except ApiError ApiResponse × Link σ :=
  match vmm.serve a l.vmm l.limits with
  | (.gone, limits, s) => (.error loopGone, { l with limits, vmm := s })
  | (.dropped, limits, s) =>
    (.error loopGone, { limits, vmm := s, delivered := l.delivered ++ [(a, .dropped)] })
  | (.late, limits, s) =>
    (.error (.timeout a.class_.label),
      { limits, vmm := s, delivered := l.delivered ++ [(a, .late)] })
  | (.response resp, limits, s) =>
    (.ok resp, {
      limits := limits.afterResponse a resp
      vmm := s
      delivered := l.delivered ++ [(a, .response resp)] })

def dispatch (vmm : Vmm σ) (a : ApiAction) (l : Link σ) : Except ApiError ApiResponse × Link σ :=
  let (phase, limits, s) := vmm.finds l.vmm l.limits
  let l := { l with limits, vmm := s }
  match validatePhase phase a with
  | .error e => (.error e, l)
  | .ok _ =>
    match validateCrossField l.limits a with
    | .error e => (.error e, l)
    | .ok _ => l.send vmm a

/-! ## Answers -/

inductive Body where
  | empty
  | json (value : Json)
  | fault (faultMessage : String)
  deriving DecidableEq

structure Response where
  status : UInt16
  body : Body
  deriving DecidableEq

def Response.rejected (r : Response) : Bool :=
  match r.body with
  | .fault _ => true
  | _ => false

def ApiError.status : ApiError → UInt16
  | .badRequest _ => 400
  | .timeout _ => 504
  | .internal _ => 500

def ApiError.faultMessage : ApiError → String
  | .badRequest msg | .internal msg => msg
  | .timeout label => "VMM action timed out: " ++ label

def ApiError.intoResponse (e : ApiError) : Response where
  status := e.status
  body := .fault e.faultMessage

def finish : ApiResponse → Response
  | .noContent => { status := 204, body := .empty }
  | .json value => { status := 200, body := .json value }
  | .fault status faultMessage =>
    { status := if 100 ≤ status ∧ status < 1000 then status else 400, body := .fault faultMessage }

/-! ## Requests -/

inductive Put where
  | machineConfig (raw : RawMachineConfig)
  | cpuConfig (raw : RawCpuConfig)
  | bootSource (raw : RawBootSourceConfig)
  | drive (id : List UInt8) (raw : RawDriveConfig)
  | network (id : List UInt8) (raw : RawNetworkInterfaceConfig)
  | vsock (raw : RawVsockConfig)
  | mmdsConfig (raw : RawMmdsConfig)
  | mmds (value : Json)
  | balloon (raw : RawBalloonConfig)
  | entropy (raw : RawEntropyConfig)
  | serial (raw : RawSerialConfig)
  | pmem (id : List UInt8) (raw : RawPmemConfig)
  | hotplugMemory (raw : RawHotplugMemoryConfig)
  | logger (raw : RawLoggerConfig)
  | metrics (raw : RawMetricsConfig)
  | actions (verb : InstanceAction)

def Put.action : Put → Except ApiError ApiAction
  | .machineConfig raw => putMachineConfig raw
  | .cpuConfig raw => putCpuConfig raw
  | .bootSource raw => putBootSource raw
  | .drive id raw => putDrive id raw
  | .network id raw => putNetwork id raw
  | .vsock raw => putVsock raw
  | .mmdsConfig raw => putMmdsConfig raw
  | .mmds value => putMmds value
  | .balloon raw => putBalloon raw
  | .entropy raw => putEntropy raw
  | .serial raw => putSerial raw
  | .pmem id raw => putPmem id raw
  | .hotplugMemory raw => putHotplugMemory raw
  | .logger raw => putLogger raw
  | .metrics raw => putMetrics raw
  | .actions verb => putActions verb

def request (vmm : Vmm σ) (put : Put) (l : Link σ) : Response × Link σ :=
  match put.action with
  | .error e => (e.intoResponse, l)
  | .ok a =>
    match dispatch vmm a l with
    | (.error e, l) => (e.intoResponse, l)
    | (.ok resp, l) => (finish resp, l)

def issue (vmm : Vmm σ) : List Put → Link σ → List Response × Link σ
  | [], l => ([], l)
  | put :: puts, l =>
    let (r, l) := request vmm put l
    if r.rejected then ([r], l)
    else
      let (rs, l) := issue vmm puts l
      (r :: rs, l)

theorem rejected_finish (resp : ApiResponse) : (finish resp).rejected = !resp.isSuccess := by
  cases resp <;> rfl

/-! ## The event loop -/

def serverVmm {β : Type} (env : Surroundings β) : Vmm (VmmState β × Bool) where
  finds s limits := (s.1.phase, limits, s)
  serve a s limits :=
    if s.2 then (.gone, limits, s)
    else (.response (handle env s.1 a).1, limits, (handle env s.1 a).2, decide (a = .shutdown))

theorem dispatch_server {β : Type} (env : Surroundings β) (a : ApiAction) (s : Server β)
    (delivered : List (ApiAction × Reply)) :
    ∃ delivered', dispatch (serverVmm env) a ⟨s.limits, (s.vmm, s.closed), delivered⟩ =
      ((s.request env a).1,
        ⟨(s.request env a).2.limits, ((s.request env a).2.vmm, (s.request env a).2.closed),
          delivered'⟩) := by
  cases hphase : validatePhase s.vmm.phase a with
  | error e => exact ⟨delivered, by simp [dispatch, serverVmm, Server.request, hphase]⟩
  | ok u =>
    cases hcross : validateCrossField s.limits a with
    | error e => exact ⟨delivered, by simp [dispatch, serverVmm, Server.request, hphase, hcross]⟩
    | ok u' =>
      cases hclosed : s.closed with
      | true =>
        refine ⟨delivered, ?_⟩
        simp [dispatch, serverVmm, Server.request, Link.send, hphase, hcross, hclosed]
      | false =>
        refine ⟨delivered ++ [(a, .response (handle env s.vmm a).1)], ?_⟩
        simp [dispatch, serverVmm, Server.request, Link.send, hphase, hcross, hclosed]

end Squib.Api
