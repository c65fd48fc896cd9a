import Squib.Api.Dispatch

/-!
# The configuration that `GET` returns
-/

namespace Squib.Api

open Run VmmLoop

variable {β : Type}

/-! ## The snapshot -/

inductive VmState where
  | notStarted
  | running
  | paused
  deriving DecidableEq, Repr

structure InstanceInfo where
  id : String
  state : VmState
  vmmVersion : String
  appName : String
  deriving DecidableEq

structure ControllerSnapshot where
  instanceInfo : InstanceInfo
  firecrackerVersion : String
  vmConfig : Json
  phase : LifecyclePhase
  deriving DecidableEq

def ControllerSnapshot.new (instanceId firecrackerVersion vmmVersion : String) :
    ControllerSnapshot where
  instanceInfo := { id := instanceId, state := .notStarted, vmmVersion, appName := "Firecracker" }
  firecrackerVersion
  vmConfig := .object []
  phase := .uninitialized

def mirrored (key : String) (snap : ControllerSnapshot) : Json :=
  (snap.vmConfig.get key).getD (.object [])

def getMachineConfig (snap : ControllerSnapshot) : Json := mirrored "machine-config" snap

def getBalloon (snap : ControllerSnapshot) : Json := mirrored "balloon" snap

def ControllerSnapshot.after (snap : ControllerSnapshot) (e : Handled) : ControllerSnapshot :=
  if e.starts then
    { snap with
      instanceInfo := { snap.instanceInfo with state := .running }
      phase := .running }
  else snap

/-! ## JSON -/

def MachineConfig.toJson (c : MachineConfig) : Json :=
  .object [
    ("vcpu_count", .ofUInt64 c.vcpuCount.get.toUInt64),
    ("mem_size_mib", .ofUInt64 c.memSizeMib.get),
    ("smt", .bool false),
    ("track_dirty_pages", .bool c.trackDirtyPages),
    ("cpu_template", .ofOption .string c.cpuTemplate),
    ("huge_pages", .ofOption .string c.hugePages)]

def BalloonConfig.toJson (c : BalloonConfig) : Json :=
  .object [
    ("amount_mib", .ofUInt64 c.amountMib),
    ("deflate_on_oom", .bool c.deflateOnOom),
    ("stats_polling_interval_s", .ofUInt64 c.statsPollingIntervalS.toUInt64),
    ("free_page_hinting", .bool c.freePageHinting),
    ("free_page_reporting", .bool c.freePageReporting)]

/-! ## The system with its snapshot -/

structure Mirror (β : Type) where
  sys : Sys β
  snapshot : ControllerSnapshot

namespace Mirror

def initial (limits : LimitsState) (snapshot : ControllerSnapshot) : Mirror β :=
  { sys := .initial limits, snapshot }

def stored (snap : ControllerSnapshot) (before after : List Handled) : ControllerSnapshot :=
  (after.drop before.length).foldl .after snap

def step (capacity : ℕ) (m : Mirror β) (e : Event β) : Option (Mirror β) :=
  (Api.step capacity m.sys e).map fun sys =>
    { sys, snapshot := stored m.snapshot m.sys.handled sys.handled }

end Mirror

/-! ## Accepted configurations -/

def ApiAction.configure (c : Option MachineConfig) : ApiAction → Option MachineConfig
  | .putMachineConfig cfg => some cfg
  | .patchMachineConfig patch => c.map (applyPatch · patch)
  | _ => c

def lastMachineConfig (log : List Handled) : Option MachineConfig :=
  log.foldl (fun c e => if e.response.isSuccess then e.action.configure c else c) none

def ApiAction.inflate (c : Option BalloonConfig) : ApiAction → Option BalloonConfig
  | .putBalloon cfg => some cfg
  | .patchBalloon update => c.map fun cfg => { cfg with amountMib := update.amountMib }
  | _ => c

def lastBalloonConfig (log : List Handled) : Option BalloonConfig :=
  log.foldl (fun c e => if e.response.isSuccess then e.action.inflate c else c) none

structure Mirrored (m : Mirror β) : Prop where
  machine : ∀ cfg ∈ lastMachineConfig m.sys.handled, getMachineConfig m.snapshot = cfg.toJson
  balloon : ∀ cfg ∈ lastBalloonConfig m.sys.handled, getBalloon m.snapshot = cfg.toJson

/-! ## No configuration in the snapshot -/

section Never

variable {capacity : ℕ} {m m' : Mirror β} {e : Event β} (snap : ControllerSnapshot)
  (log : List Handled)

theorem lastMachineConfig_append (h : Handled) :
    lastMachineConfig (log ++ [h]) =
      if h.response.isSuccess then h.action.configure (lastMachineConfig log)
      else lastMachineConfig log := by
  rw [lastMachineConfig, List.foldl_append]
  rfl

variable {env : Surroundings β} {s : VmmState β} {a : ApiAction}

theorem machineConfig_handle :
    (handle env s a).2.boot.machineConfig =
      if (handle env s a).1.isSuccess then a.configure s.boot.machineConfig
      else s.boot.machineConfig := by
  split_ifs with h
  · rw [handle_machineConfig]
    cases a <;> rfl
  · rw [handle_of_fault (by simpa using h)]

theorem machineConfig_of_starts (h : Handled.starts ⟨a, (handle env s a).1⟩ = true) :
    s.boot.machineConfig ≠ none := by
  rw [Handled.starts, Bool.and_eq_true, decide_eq_true_eq] at h
  obtain ⟨rfl, hsuccess⟩ := h
  obtain ⟨vm, hvm⟩ := handle_start_isSuccess.1 hsuccess
  obtain ⟨src, machine, hrunning⟩ := startMicrovm_eq_ok hvm
  rw [hrunning.machineConfig]
  exact Option.some_ne_none _

theorem configure_ne_none {c : Option MachineConfig} (a : ApiAction) (h : c ≠ none) :
    a.configure c ≠ none := by
  cases a with
  | putMachineConfig cfg => exact Option.some_ne_none _
  | patchMachineConfig patch => simpa [ApiAction.configure] using h
  | _ => exact h

theorem vmConfig_after (h : Handled) : (snap.after h).vmConfig = snap.vmConfig := by
  unfold ControllerSnapshot.after
  split_ifs
  · rfl
  · rfl

structure Blank (m : Mirror β) : Prop where
  config : m.snapshot.vmConfig = .object []
  phase : m.snapshot.phase = m.sys.server.vmm.phase
  kept : m.sys.server.vmm.boot.machineConfig = lastMachineConfig m.sys.handled
  started : m.sys.started = true → lastMachineConfig m.sys.handled ≠ none

theorem blank_initial (limits : LimitsState) (id firecracker vmm : String) :
    Blank (Mirror.initial limits (.new id firecracker vmm) : Mirror β) :=
  ⟨rfl, rfl, rfl, fun h => by cases h⟩

theorem stored_self : Mirror.stored snap log log = snap := by
  rw [Mirror.stored, List.drop_length]
  rfl

theorem stored_append (h : Handled) : Mirror.stored snap log (log ++ [h]) = snap.after h := by
  rw [Mirror.stored, List.drop_left]
  rfl

theorem phase_after {snap : ControllerSnapshot} (hphase : snap.phase = s.phase) (a : ApiAction) :
    (snap.after ⟨a, (handle env s a).1⟩).phase = (handle env s a).2.phase := by
  unfold ControllerSnapshot.after
  split_ifs with h
  · rw [Handled.starts, Bool.and_eq_true, decide_eq_true_eq] at h
    obtain ⟨rfl, hsuccess⟩ := h
    rw [handle_start_phase hsuccess]
  · rw [hphase]
    by_cases ha : a = .action .instanceStart
    · subst ha
      rw [handle_of_fault (by simpa [Handled.starts] using h)]
    · exact (handle_phase_of_ne_start ha).symm

theorem blank_step (hm : Blank m) (h : m.step capacity e = some m') : Blank m' := by
  obtain ⟨sys, hsys, rfl⟩ := Option.map_eq_some_iff.1 h
  rcases channelStep_of_step hsys with ⟨-, hh, hv⟩ | ⟨-, -, hh, hv⟩ | ⟨-, -, hh, hv⟩
  · exact ⟨by rw [hh, stored_self, hm.config], by rw [hh, stored_self, hv, hm.phase],
      by rw [hh, hv, hm.kept], by rw [Sys.started, hh]; exact hm.started⟩
  · exact ⟨by rw [hh, stored_self, hm.config], by rw [hh, stored_self, hv, hm.phase],
      by rw [hh, hv, hm.kept], by rw [Sys.started, hh]; exact hm.started⟩
  · rename_i env a rest
    refine ⟨?_, ?_, ?_, ?_⟩
    · rw [hh, stored_append, vmConfig_after, hm.config]
    · rw [hh, stored_append, hv, phase_after hm.phase]
    · rw [hh, hv, machineConfig_handle, lastMachineConfig_append, hm.kept]
    · intro hstarted
      rw [Sys.started, hh, List.any_append, Bool.or_eq_true] at hstarted
      have hlast : lastMachineConfig m.sys.handled ≠ none := by
        rcases hstarted with hstarted | hstarted
        · exact hm.started hstarted
        · rw [← hm.kept]
          exact machineConfig_of_starts (by simpa using hstarted)
      rw [hh, lastMachineConfig_append]
      split_ifs
      · exact configure_ne_none _ hlast
      · exact hlast

theorem toJson_ne_empty (c : MachineConfig) : Json.object [] ≠ c.toJson := by
  intro h
  cases h

/-- **After a start, `GET /machine-config` and `GET /balloon` return empty objects**, however the
requests, the loop and the timeouts interleave. -/
theorem mirror_never {limits : LimitsState} {id firecracker vmm : String} {es : List (Event β)}
    (hrun : Run.run (Mirror.step capacity) es
      (Mirror.initial limits (.new id firecracker vmm)) = some m)
    (hstarted : m.sys.started = true) :
    getMachineConfig m.snapshot = .object [] ∧ getBalloon m.snapshot = .object [] ∧
      ¬ Mirrored m := by
  have hblank := invariant_of_step (fun _ _ _ => blank_step) (blank_initial ..) hrun
  have hget (key : String) : mirrored key m.snapshot = .object [] := by
    rw [mirrored, hblank.config]
    rfl
  refine ⟨hget _, hget _, fun hmirrored => ?_⟩
  obtain ⟨cfg, hcfg⟩ := Option.ne_none_iff_exists'.1 (hblank.started hstarted)
  have hmachine := hmirrored.machine cfg hcfg
  rw [getMachineConfig, hget] at hmachine
  exact toJson_ne_empty cfg hmachine

end Never

section Scenario

def startWithBalloon : List (Event Unit) :=
  configured ++ wholeCall quiet 2 (.putBalloon ⟨16, false, 0, false, false⟩) ++
    wholeCall quiet 3 (.action .instanceStart)

def startedMirror : Option (Mirror Unit) :=
  Run.run (Mirror.step 1024) startWithBalloon
    (Mirror.initial (.fromHostRamMib 4096) (.new "anonymous" "1.16.0" "1.16.0 (squib)"))

theorem mirror_never_with_balloon : ∃ m ∈ startedMirror, m.sys.started = true ∧
    getMachineConfig m.snapshot = .object [] := by
  have hstarted : ∃ m ∈ startedMirror, m.sys.started = true := by decide +kernel
  obtain ⟨m, hrun, hstarted⟩ := hstarted
  exact ⟨m, hrun, hstarted, (mirror_never hrun hstarted).1⟩

/-- **Both configurations were accepted, and neither is returned.** -/
theorem not_mirrored : ∃ m ∈ startedMirror, m.sys.started = true ∧
    lastMachineConfig m.sys.handled = some (someMachine mib64) ∧
    lastBalloonConfig m.sys.handled = some ⟨16, false, 0, false, false⟩ ∧
    getMachineConfig m.snapshot ≠ (someMachine mib64).toJson ∧
    getBalloon m.snapshot ≠ BalloonConfig.toJson ⟨16, false, 0, false, false⟩ := by
  decide +kernel

end Scenario

end Squib.Api
