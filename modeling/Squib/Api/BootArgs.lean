import Squib.Api.RootDrive

/-!
# The kernel command line
-/

namespace Squib

open Checked

namespace Fdt

def FdtNode.bootargs (root : FdtNode) : Option FdtValue :=
  (root.children.find? (·.name = "chosen")).bind (·.prop? "bootargs")

def rootGiven (userArgs : List UInt8) : Bool := keyPresent (Text.trim userArgs) (Text.bytes "root")

theorem length_pushArg_lt {buf arg : List UInt8} (h : arg ≠ []) :
    buf.length < (pushArg buf arg).length := by
  have hpos := List.length_pos_iff.2 h
  unfold pushArg
  split_ifs with hbuf
  · rw [hbuf]
    exact hpos
  · rw [List.length_append, List.length_append, List.length_singleton]
    omega

theorem composeBootArgs_some (userArgs uuid : List UInt8) :
    composeBootArgs userArgs (some uuid) =
      if rootGiven userArgs then composeBootArgs userArgs none
      else pushArg (composeBootArgs userArgs none) (Text.bytes "root=PARTUUID=" ++ uuid) :=
  rfl

theorem composeBootArgs_eq_iff {userArgs uuid : List UInt8} :
    composeBootArgs userArgs none = composeBootArgs userArgs (some uuid) ↔
      rootGiven userArgs = true := by
  rw [composeBootArgs_some]
  split_ifs with h
  · exact iff_of_true rfl h
  · refine iff_of_false (fun heq => ?_) h
    have hlt := @length_pushArg_lt (composeBootArgs userArgs none)
      (Text.bytes "root=PARTUUID=" ++ uuid) (List.append_ne_nil_of_left_ne_nil (by decide) _)
    exact absurd (congrArg List.length heq) (Nat.ne_of_lt hlt)

theorem bootargs_build {writer : FdtWriter} {args : FdtBuildArgs} {blob : Blob}
    (h : build writer args = .ok blob) : blob.root.bootargs = some (.string args.bootArgs) := by
  obtain ⟨virtio, hroot, -⟩ := build_eq_ok h
  rw [hroot]
  rfl

end Fdt

namespace Api

open Fdt Run VmmLoop

variable {β : Type}

def bootSourceAfter (src : Option BootSourceConfig) : ApiAction → Option BootSourceConfig
  | .putBootSource cfg => some cfg
  | _ => src

def lastBootSource (log : List ApiAction) : Option BootSourceConfig := log.foldl bootSourceAfter none

def userArgs (log : List ApiAction) : List UInt8 := ((lastBootSource log).bind (·.bootArgs)).getD []

def rootDrives (log : List ApiAction) : List DriveConfig := (drives log).filter (·.isRootDevice)

structure ForRoot (log : List ApiAction) (args : Option FdtValue) : Prop where
  root : ∀ d ∈ rootDrives log, args = some (.string (composeBootArgs (userArgs log) d.partuuid))
  noRoot : rootDrives log = [] → args = some (.string (composeBootArgs (userArgs log) none))

def Partless (log : List ApiAction) : Prop :=
  rootGiven (userArgs log) = true ∨ ∀ d ∈ rootDrives log, d.partuuid = none

section Sources

variable {capacity : ℕ} {s s' : Sys β} {e : Event β} {env : Surroundings β} {a : ApiAction}

theorem lastBootSource_append (log : List ApiAction) (a : ApiAction) :
    lastBootSource (log ++ [a]) = bootSourceAfter (lastBootSource log) a := by
  rw [lastBootSource, List.foldl_append]
  rfl

theorem handle_bootSource {s : VmmState β} (h : (handle env s a).1.isSuccess = true) :
    (handle env s a).2.boot.bootSource = bootSourceAfter s.boot.bootSource a := by
  cases a with
  | action verb =>
    cases verb <;> simp only [handle]
    · cases startMicrovm env.host env.device s.boot <;> rfl
    · rfl
    · rfl
  | patchMachineConfig patch =>
    simp only [handle]
    cases s.boot.machineConfig <;> rfl
  | _ => rfl

def KeepsSource (s : Sys β) : Prop := s.server.vmm.boot.bootSource = lastBootSource s.acceptedActions

theorem keepsSource_initial (limits : LimitsState) : KeepsSource (Sys.initial (β := β) limits) :=
  rfl

theorem keepsSource_step (hs : KeepsSource s) (h : step capacity s e = some s') : KeepsSource s' := by
  rw [KeepsSource] at hs ⊢
  cases e with
  | serve env =>
    rw [step_serve] at h
    obtain ⟨x, hx, rfl⟩ := Option.map_eq_some_iff.1 h
    rw [acceptedActions_served]
    change (handle env s.server.vmm x.2).2.boot.bootSource = _
    split_ifs with hsuccess
    · rw [handle_bootSource hsuccess, lastBootSource_append, hs]
    · rw [handle_of_fault (by simpa using hsuccess), hs]
  | _ =>
    rw [acceptedActions_of_ne_serve h fun env he => (by cases he), ← hs]
    rcases channelStep_of_step h with ⟨-, -, hv⟩ | ⟨-, -, -, hv⟩ | ⟨-, -, -, -⟩
    all_goals rw [hv]

theorem bootargs_started {vm : RunningVm β} (hs : KeepsSource s)
    (hstart : startMicrovm env.host env.device s.server.vmm.boot = .ok vm) :
    vm.boot.fdt.root.bootargs =
      some (.string (composeBootArgs (userArgs s.acceptedActions) none)) := by
  obtain ⟨src, machine, hstarted⟩ := startMicrovm_eq_ok hstart
  have hsource := hstarted.bootSource
  rw [KeepsSource] at hs
  rw [bootargs_build hstarted.fdt, userArgs, ← hs, hsource]
  rfl

/-- **The guest gets the command line for its root drive** exactly if the operator names the root or
no root drive has a partition. -/
theorem bootargs_iff {limits : LimitsState} {es : List (Event β)} {i : ℕ} {vm : RunningVm β}
    (hrun : Run.run (step capacity) es (Sys.initial limits) = some s)
    (hcurrent : s.current = some (i, .action .instanceStart))
    (hstart : startMicrovm env.host env.device s.server.vmm.boot = .ok vm) :
    (∃ s' ∈ step capacity s (.serve env), s'.server.vmm.running = some vm) ∧
      (ForRoot s.acceptedActions vm.boot.fdt.root.bootargs ↔ Partless s.acceptedActions) := by
  have hsource : KeepsSource s :=
    invariant_of_step (fun _ _ _ => keepsSource_step) (keepsSource_initial limits) hrun
  refine ⟨?_, ?_⟩
  · refine ⟨_, by rw [step_serve, hcurrent]; rfl, ?_⟩
    simp only [Sys.served, handle, hstart]
  · rw [bootargs_started hsource hstart]
    constructor
    · rintro ⟨hroot, -⟩
      by_cases hgiven : rootGiven (userArgs s.acceptedActions) = true
      · exact .inl hgiven
      · refine .inr fun d hd => ?_
        cases hpart : d.partuuid with
        | none => rfl
        | some uuid =>
          have heq := hroot d hd
          rw [hpart, Option.some.injEq, FdtValue.string.injEq, composeBootArgs_eq_iff] at heq
          exact absurd heq hgiven
    · rintro (hgiven | hnone)
      · refine ⟨fun d _ => ?_, fun _ => rfl⟩
        cases d.partuuid with
        | none => rfl
        | some uuid => rw [composeBootArgs_eq_iff.2 hgiven]
      · exact ⟨fun d hd => by rw [hnone d hd], fun _ => rfl⟩

end Sources

section Scenario

def partitioned : DriveConfig := { someDrive with partuuid := some (Text.bytes "0eaa91a0-01") }

def startTaken (drive : DriveConfig) : List (Event Unit) :=
  configured ++ wholeCall quiet 2 (.putDrive drive) ++
    [.call (.action .instanceStart), .limits 3, .enqueue 3, .receive]

def beforeStart (drive : DriveConfig) : Option (Sys Unit) :=
  Run.run (step 1024) (startTaken drive) (Sys.initial (.fromHostRamMib 4096))

def Starting (s : Sys Unit) (vm : RunningVm Unit) : Prop :=
  s.current = some (3, .action .instanceStart) ∧
    startMicrovm quiet.host quiet.device s.server.vmm.boot = .ok vm

theorem exists_starting {drive : DriveConfig} {P : Sys Unit → RunningVm Unit → Prop}
    (h : ∃ s ∈ beforeStart drive, s.current = some (3, .action .instanceStart) ∧
      Returns (startMicrovm quiet.host quiet.device s.server.vmm.boot) (P s)) :
    ∃ s ∈ beforeStart drive, ∃ vm, Starting s vm ∧ P s vm := by
  obtain ⟨s, hs, hcurrent, vm, hvm, hP⟩ := h
  exact ⟨s, hs, vm, ⟨hcurrent, hvm⟩, hP⟩

theorem bootargs_iff_someDrive : ∃ s ∈ beforeStart someDrive, ∃ vm, Starting s vm ∧
    ForRoot s.acceptedActions vm.boot.fdt.root.bootargs := by
  obtain ⟨s, hs, vm, hstarting, hpartless⟩ :=
    @exists_starting someDrive (fun s _ => ∀ d ∈ rootDrives s.acceptedActions, d.partuuid = none)
      (by decide +kernel)
  exact ⟨s, hs, vm, hstarting, (bootargs_iff hs hstarting.1 hstarting.2).2.2 (.inr hpartless)⟩

theorem partition_lost : ∃ s ∈ beforeStart partitioned, ∃ vm, Starting s vm ∧
    rootDrives s.acceptedActions = [partitioned] ∧
    vm.boot.fdt.root.bootargs ≠
      some (.string (composeBootArgs (userArgs s.acceptedActions) partitioned.partuuid)) :=
  exists_starting (by decide +kernel)

end Scenario

end Api

end Squib
