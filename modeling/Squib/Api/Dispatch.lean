import Squib.Lib.Run
import Squib.Vmm.EventLoop

/-!
# Concurrent requests
-/

namespace Squib.Api

open Checked Run VmmLoop

variable {β : Type}

/-! ## The system -/

inductive Stage where
  | phaseChecked
  | admitted
  | waiting
  | answered (resp : ApiResponse)
  | done (result : Except ApiError ApiResponse)
  | refused (e : ApiError)

structure Call where
  action : ApiAction
  stage : Stage

structure Handled where
  action : ApiAction
  response : ApiResponse

structure Server (β : Type) where
  vmm : VmmState β := {}
  limits : LimitsState
  closed : Bool := false

structure Sys (β : Type) where
  server : Server β
  calls : List Call := []
  queue : List (ℕ × ApiAction) := []
  current : Option (ℕ × ApiAction) := none
  handled : List Handled := []

inductive Event (β : Type) where
  | call (a : ApiAction)
  | limits (i : ℕ)
  | enqueue (i : ℕ)
  | timeout (i : ℕ)
  | receive
  | serve (env : Surroundings β)
  | finish (i : ℕ)

def loopGone : ApiError := .internal "VMM event loop is gone"

namespace Sys

def initial (limits : LimitsState) : Sys β := { server := { limits } }

def setCall (s : Sys β) (i : ℕ) (a : ApiAction) (stage : Stage) : Sys β :=
  { s with calls := s.calls.set i ⟨a, stage⟩ }

def answer (calls : List Call) (i : ℕ) (resp : ApiResponse) : List Call :=
  match calls[i]? with
  | some ⟨a, .waiting⟩ => calls.set i ⟨a, .answered resp⟩
  | _ => calls

def served (s : Sys β) (env : Surroundings β) (i : ℕ) (a : ApiAction) : Sys β :=
  let r := handle env s.server.vmm a
  { server := { s.server with vmm := r.2, closed := decide (a = .shutdown) }
    calls := answer s.calls i r.1
    queue := if a = .shutdown then [] else s.queue
    current := none
    handled := s.handled ++ [⟨a, r.1⟩] }

end Sys

def afterCheck (check : Except ApiError Unit) (passed : Stage) : Stage :=
  match check with
  | .ok _ => passed
  | .error e => .refused e

def step (capacity : ℕ) (s : Sys β) : Event β → Option (Sys β)
  | .call a => some { s with
      calls := s.calls ++ [⟨a, afterCheck (validatePhase s.server.vmm.phase a) .phaseChecked⟩] }
  | .limits i =>
    match s.calls[i]? with
    | some ⟨a, .phaseChecked⟩ =>
      some (s.setCall i a (afterCheck (validateCrossField s.server.limits a) .admitted))
    | _ => none
  | .enqueue i =>
    match s.calls[i]? with
    | some ⟨a, .admitted⟩ =>
      if s.server.closed then some (s.setCall i a (.done (.error loopGone)))
      else if s.queue.length < capacity then
        some { s.setCall i a .waiting with queue := s.queue ++ [(i, a)] }
      else none
    | _ => none
  | .timeout i =>
    match s.calls[i]? with
    | some ⟨a, .waiting⟩ => some (s.setCall i a (.done (.error (.timeout a.class_.label))))
    | _ => none
  | .receive =>
    match s.current, s.queue with
    | none, x :: rest => some { s with current := some x, queue := rest }
    | _, _ => none
  | .serve env =>
    match s.current with
    | some (i, a) => some (s.served env i a)
    | none => none
  | .finish i =>
    match s.calls[i]? with
    | some ⟨a, .answered resp⟩ =>
      some { s.setCall i a (.done (.ok resp)) with
        server := { s.server with limits := s.server.limits.afterResponse a resp } }
    | some ⟨a, .waiting⟩ =>
      if s.server.closed then some (s.setCall i a (.done (.error loopGone))) else none
    | _ => none

/-! ## One request at a time -/

def Server.request (env : Surroundings β) (a : ApiAction) (s : Server β) :
    Except ApiError ApiResponse × Server β :=
  match validatePhase s.vmm.phase a with
  | .error e => (.error e, s)
  | .ok _ =>
    match validateCrossField s.limits a with
    | .error e => (.error e, s)
    | .ok _ =>
      if s.closed then (.error loopGone, s)
      else
        let r := handle env s.vmm a
        (.ok r.1, {
          vmm := r.2
          limits := s.limits.afterResponse a r.1
          closed := decide (a = .shutdown) })

def Stage.result : Stage → Option (Except ApiError ApiResponse)
  | .done r => some r
  | .refused e => some (.error e)
  | _ => none

def Sys.Idle (s : Sys β) : Prop := s.queue = [] ∧ s.current = none

variable {capacity : ℕ} {s : Sys β}

theorem exists_run_request (hcap : 0 < capacity) (env : Surroundings β) (a : ApiAction)
    (hs : s.Idle) :
    ∃ es s' stage, Run.run (step capacity) es s = some s' ∧ s'.Idle ∧
      s'.server = (s.server.request env a).2 ∧ s'.calls = s.calls ++ [⟨a, stage⟩] ∧
      stage.result = some (s.server.request env a).1 := by
  obtain ⟨server, calls, queue, current, log⟩ := s
  obtain ⟨rfl, rfl⟩ : queue = [] ∧ current = none := hs
  cases hphase : validatePhase server.vmm.phase a with
  | error e =>
    refine ⟨[.call a], { server, calls := calls ++ [⟨a, .refused e⟩], handled := log }, .refused e,
      ?_, ⟨rfl, rfl⟩, ?_, rfl, ?_⟩
    · simp [Run.run, step, hphase, afterCheck]
    all_goals simp [Server.request, hphase, Stage.result]
  | ok u =>
    cases hlimits : validateCrossField server.limits a with
    | error e =>
      refine ⟨[.call a, .limits calls.length],
        { server, calls := calls ++ [⟨a, .refused e⟩], handled := log }, .refused e,
        ?_, ⟨rfl, rfl⟩, ?_, rfl, ?_⟩
      · simp [Run.run, step, hphase, afterCheck, Sys.setCall, hlimits]
      all_goals simp [Server.request, hphase, hlimits, Stage.result]
    | ok u' =>
      cases hclosed : server.closed with
      | true =>
        refine ⟨[.call a, .limits calls.length, .enqueue calls.length],
          { server, calls := calls ++ [⟨a, .done (.error loopGone)⟩], handled := log },
          .done (.error loopGone), ?_, ⟨rfl, rfl⟩, ?_, rfl, ?_⟩
        · simp [Run.run, step, hphase, afterCheck, Sys.setCall, hlimits, hclosed]
        all_goals simp [Server.request, hphase, hlimits, hclosed, Stage.result]
      | false =>
        refine ⟨[.call a, .limits calls.length, .enqueue calls.length, .receive, .serve env,
          .finish calls.length],
          { server := (server.request env a).2
            calls := calls ++ [⟨a, .done (.ok (handle env server.vmm a).1)⟩]
            handled := log ++ [⟨a, (handle env server.vmm a).1⟩] },
          .done (.ok (handle env server.vmm a).1), ?_, ⟨rfl, rfl⟩, rfl, rfl, ?_⟩
        · simp [Run.run, step, hphase, afterCheck, Sys.setCall, hlimits, hclosed, hcap, Sys.served,
            Sys.answer, Server.request]
        · simp [Server.request, hphase, hlimits, hclosed, Stage.result]

/-- **Requests that wait for each other are a run of the concurrent system**, with the answers and
the server of the sequential one. -/
theorem exists_run_requests (capacity : ℕ) (rs : List (Surroundings β × ApiAction)) :
    ∀ (server : Server β) (calls : List Call) (handled : List Handled), ∃ es s',
      Run.run (step (capacity + 1)) es { server, calls, handled } = some s' ∧ s'.Idle ∧
      (s'.calls.map (·.stage.result), s'.server) =
        rs.foldl (fun x r => (x.1 ++ [some (x.2.request r.1 r.2).1], (x.2.request r.1 r.2).2))
          (calls.map (·.stage.result), server) := by
  induction rs with
  | nil => exact fun server calls handled => ⟨[], _, rfl, ⟨rfl, rfl⟩, rfl⟩
  | cons r rs ih =>
    intro server calls handled
    obtain ⟨es, ⟨server₁, calls₁, _, _, log⟩, stage, hrun, ⟨rfl, rfl⟩, hserver, hcalls, hstage⟩ :=
      @exists_run_request β _ { server, calls, handled } capacity.succ_pos r.1 r.2 ⟨rfl, rfl⟩
    obtain ⟨es', s', hrun', hidle, hanswers⟩ := ih server₁ calls₁ log
    dsimp only at hserver hcalls hstage
    refine ⟨es ++ es', s', by rw [Run.run_append, hrun]; exact hrun', hidle, hanswers.trans ?_⟩
    rw [List.foldl_cons, hserver, hcalls, List.map_append, ← hstage]
    rfl

namespace Sys

def pending (s : Sys β) : List ApiAction := (s.current.toList ++ s.queue).map Prod.snd

end Sys

/-! ## What a step does to the channel -/

inductive ChannelStep (s s' : Sys β) : Event β → Prop where
  | same {e : Event β} (hp : s'.pending = s.pending) (hh : s'.handled = s.handled)
    (hv : s'.server.vmm = s.server.vmm) : ChannelStep s s' e
  | enqueued {i : ℕ} {a : ApiAction} (hcall : s.calls[i]? = some ⟨a, .admitted⟩)
    (hp : s'.pending = s.pending ++ [a]) (hh : s'.handled = s.handled)
    (hv : s'.server.vmm = s.server.vmm) : ChannelStep s s' (.enqueue i)
  | served {env : Surroundings β} {a : ApiAction} {rest : List ApiAction}
    (hs : s.pending = a :: rest) (hp : s'.pending = rest ∨ s'.pending = [])
    (hh : s'.handled = s.handled ++ [⟨a, (handle env s.server.vmm a).1⟩])
    (hv : s'.server.vmm = (handle env s.server.vmm a).2) : ChannelStep s s' (.serve env)

theorem channelStep_of_step {s' : Sys β} {e : Event β} (h : step capacity s e = some s') :
    ChannelStep s s' e := by
  cases e with
  | call a =>
    cases h
    exact .same rfl rfl rfl
  | limits i | timeout i =>
    simp only [step] at h
    split at h
    · cases h
      exact .same rfl rfl rfl
    · cases h
  | enqueue i =>
    simp only [step] at h
    split at h
    · rename_i a hcall
      split_ifs at h
      · cases h
        exact .same rfl rfl rfl
      · cases h
        exact .enqueued hcall (by simp [Sys.pending, Sys.setCall]) rfl rfl
    · cases h
  | receive =>
    simp only [step] at h
    split at h
    · rename_i x rest hcurrent hqueue
      cases h
      exact .same (by simp [Sys.pending, hcurrent, hqueue]) rfl rfl
    · cases h
  | serve env =>
    simp only [step] at h
    split at h
    · rename_i i a hcurrent
      cases h
      have hs : s.pending = a :: s.queue.map Prod.snd := by simp [Sys.pending, hcurrent]
      refine .served hs ?_ rfl rfl
      by_cases hstop : a = .shutdown <;> simp [Sys.pending, Sys.served, hstop]
    · cases h
  | finish i =>
    simp only [step] at h
    split at h
    · cases h
      exact .same rfl rfl rfl
    · split_ifs at h
      cases h
      exact .same rfl rfl rfl
    · cases h

/-! ## One start -/

namespace Handled

def starts (e : Handled) : Bool :=
  decide (e.action = .action .instanceStart) && e.response.isSuccess

def applied (e : Handled) : Bool := e.action.writesBootState && e.response.isSuccess

end Handled

structure OneStart (log : List Handled) : Prop where
  once : log.countP Handled.starts ≤ 1
  kept : Each (fun before e => before.any Handled.starts = true →
    ¬ (e.action.isPostBoot = false ∧ e.applied = true)) log

def Sys.started (s : Sys β) : Bool := s.handled.any Handled.starts

def Timely (s : Sys β) : Event β → Prop
  | .enqueue i => ∀ c ∈ s.calls[i]?, c.action.writesBootState = true →
      ApiAction.action .instanceStart ∉ s.pending ∧ s.started = false
  | _ => True

def RefusesSecondVm (s : Sys β) : Event β → Prop
  | .serve env => s.started = true → ∀ hvf ∈ env.host.hvf, ∀ cfg, hvf.initWithGic cfg ≠ .ok ()
  | _ => True

structure Clear (s : Sys β) : Prop where
  log : OneStart s.handled
  ordered : s.pending.Pairwise fun a b =>
    a = .action .instanceStart → b.writesBootState = false
  after : s.started = true → ∀ a ∈ s.pending, a.writesBootState = false

section OneStart

variable {capacity : ℕ} {s s' : Sys β} {e : Event β}

theorem clear_initial (limits : LimitsState) : Clear (Sys.initial limits : Sys β) :=
  ⟨⟨Nat.zero_le _, fun i h => absurd h (Nat.not_lt_zero i)⟩, .nil, fun h => by cases h⟩

variable {a : ApiAction}

theorem Clear.enqueued (hs : Clear s) (htimely : a.writesBootState = true →
      ApiAction.action .instanceStart ∉ s.pending ∧ s.started = false)
    (hp : s'.pending = s.pending ++ [a]) (hh : s'.handled = s.handled) : Clear s' := by
  refine ⟨hh ▸ hs.log, ?_, ?_⟩
  · rw [hp, List.pairwise_append]
    refine ⟨hs.ordered, List.pairwise_singleton _ _, ?_⟩
    intro b hb c hc hstart
    rw [List.mem_singleton.1 hc]
    by_contra hwrites
    exact (htimely (Bool.not_eq_false _ ▸ hwrites)).1 (hstart ▸ hb)
  · intro hstarted
    have hstarted' : s.started = true := by
      rwa [Sys.started, hh] at hstarted
    rw [hp]
    intro b hb
    rcases List.mem_append.1 hb with hb | hb
    · exact hs.after hstarted' b hb
    · rw [List.mem_singleton.1 hb]
      by_contra hwrites
      rw [(htimely (Bool.not_eq_false _ ▸ hwrites)).2] at hstarted'
      cases hstarted'

variable {env : Surroundings β}

theorem starts_false_of_refuses (hstarted : s.started = true)
    (hrefuses : RefusesSecondVm s (.serve env)) :
    Handled.starts ⟨a, (handle env s.server.vmm a).1⟩ = false := by
  by_contra h
  rw [Bool.not_eq_false, Handled.starts, Bool.and_eq_true, decide_eq_true_iff] at h
  obtain ⟨rfl, hsuccess⟩ := h
  obtain ⟨vm, hvm⟩ := handle_start_isSuccess.1 hsuccess
  obtain ⟨src, machine, hrunning⟩ := startMicrovm_eq_ok hvm
  obtain ⟨hvf, cfg, hhvf, hinit⟩ := hrunning.created
  exact hrefuses hstarted hvf hhvf cfg hinit

theorem Clear.served {rest : List ApiAction} (hs : Clear s)
    (hrefuses : RefusesSecondVm s (.serve env)) (hpending : s.pending = a :: rest)
    (hp : s'.pending = rest ∨ s'.pending = [])
    (hh : s'.handled = s.handled ++ [⟨a, (handle env s.server.vmm a).1⟩]) : Clear s' := by
  have hordered := hs.ordered
  rw [hpending, List.pairwise_cons] at hordered
  have hsub : ∀ b ∈ s'.pending, b ∈ rest := by
    rcases hp with hp | hp <;> simp [hp]
  refine ⟨⟨?_, ?_⟩, ?_, ?_⟩
  · rw [hh, List.countP_append, List.countP_singleton]
    cases hstarted : s.started with
    | true =>
      rw [starts_false_of_refuses hstarted hrefuses]
      exact hs.log.once
    | false =>
      have hnone : s.handled.countP Handled.starts = 0 := by
        simpa [Sys.started] using hstarted
      split_ifs <;> omega
  · rw [hh, each_append_singleton]
    refine ⟨hs.log.kept, fun hstarted happlied => ?_⟩
    have hwrites := hs.after hstarted a (by rw [hpending]; exact List.mem_cons_self)
    simp [Handled.applied, hwrites] at happlied
  · rcases hp with hp | hp <;> rw [hp]
    · exact hordered.2
    · exact .nil
  · intro hstarted b hb
    rw [Sys.started, hh, List.any_append, Bool.or_eq_true] at hstarted
    rcases hstarted with hstarted | hstarts
    · exact hs.after hstarted b (by rw [hpending]; exact List.mem_cons_of_mem _ (hsub b hb))
    · simp only [List.any_cons, List.any_nil, Bool.or_false, Handled.starts, Bool.and_eq_true,
        decide_eq_true_iff] at hstarts
      exact hordered.1 b (hsub b hb) hstarts.1

theorem clear_step (hs : Clear s) (htimely : Timely s e) (hrefuses : RefusesSecondVm s e)
    (h : step capacity s e = some s') : Clear s' := by
  cases channelStep_of_step h with
  | same hp hh _ => exact ⟨hh ▸ hs.log, hp ▸ hs.ordered, by rw [Sys.started, hh, hp]; exact hs.after⟩
  | enqueued hcall hp hh _ => exact hs.enqueued (htimely _ hcall) hp hh
  | served hpending hp hh _ => exact hs.served hrefuses hpending hp hh

end OneStart

instance (log : List Handled) : Decidable (OneStart log) :=
  decidable_of_iff (log.countP Handled.starts ≤ 1 ∧ Each (fun before e =>
      before.any Handled.starts = true → ¬ (e.action.isPostBoot = false ∧ e.applied = true)) log)
    ⟨fun h => ⟨h.1, h.2⟩, fun h => ⟨h.once, h.kept⟩⟩

instance decidableTimely (s : Sys β) : (e : Event β) → Decidable (Timely s e)
  | .enqueue i => inferInstanceAs (Decidable (∀ c ∈ s.calls[i]?, c.action.writesBootState = true →
      ApiAction.action .instanceStart ∉ s.pending ∧ s.started = false))
  | .call _ | .limits _ | .timeout _ | .receive | .serve _ | .finish _ => .isTrue trivial

section Scenario

def wholeCall (env : Surroundings Unit) (i : ℕ) (a : ApiAction) : List (Event Unit) :=
  [.call a, .limits i, .enqueue i, .receive, .serve env, .finish i]

def quiet : Surroundings Unit where
  host := quietHost ⟨0x10000, 0x20000⟩
  device _ := deafDevice
  display _ := ""

def usedUp : Surroundings Unit where
  host := { quiet.host with
    hvf := some { Boot.appleSilicon with initWithGic _ := .error "HV_BUSY" } }
  device _ := deafDevice
  display _ := ""

def someDrive : DriveConfig where
  driveId := ⟨Text.bytes "rootfs", by decide⟩
  pathOnHost := ⟨Text.bytes "/tmp/rootfs", by decide, by decide, by decide⟩
  isRootDevice := true
  isReadOnly := false
  cacheType := .unsafe_
  ioEngine := .sync
  partuuid := none
  rateLimiter := none
  vhostUserSocket := none

def configured : List (Event Unit) :=
  wholeCall quiet 0 (.putBootSource someBootSource) ++
    wholeCall quiet 1 (.putMachineConfig (someMachine mib64))

def BeforeStart (s : Sys β) : Event β → Prop
  | .serve _ => s.started = false
  | _ => True

instance decidableBeforeStart (s : Sys β) : (e : Event β) → Decidable (BeforeStart s e)
  | .serve _ => inferInstanceAs (Decidable (s.started = false))
  | .call _ | .limits _ | .enqueue _ | .timeout _ | .receive | .finish _ => .isTrue trivial

theorem BeforeStart.refusesSecondVm {s : Sys β} {e : Event β} (h : BeforeStart s e) :
    RefusesSecondVm s e := by
  cases e with
  | serve env => exact fun hstarted => absurd hstarted (by rw [h]; decide)
  | _ => trivial

def startThenDrive : List (Event Unit) :=
  configured ++ [.call (.action .instanceStart), .call (.putDrive someDrive), .limits 2, .limits 3,
    .enqueue 2, .enqueue 3, .receive, .serve quiet]

end Scenario

end Squib.Api
