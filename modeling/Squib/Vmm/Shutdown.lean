import Mathlib.Order.Interval.Finset.Nat
import Squib.Lib.Fair
import Squib.Vmm.Runner

/-!
# Shutting a running machine down
-/

namespace Squib.Shutdown

open Runner Loop
open Run (Exec)

/-! ## The threads -/

section Model

variable (ν β : Type)

structure Microvm where
  api : VcpuApi ν
  bus : Bus β
  devices : β
  entryPc : UInt64
  fdtAddr : UInt64

inductive VcpuThread where
  | unborn
  | starting
  | head (l : LoopState ν β)
  | inGuest (l : LoopState ν β)
  | exited (l : LoopState ν β)
  | finished (result : RunResult)

inductive Watchdog where
  | unborn
  | receiving
  | watching
  | finished
  deriving DecidableEq, Repr

inductive Driver where
  | staging
  | joiningVcpu
  | joiningWatchdog (result : RunResult)
  | finished (result : RunResult)
  deriving DecidableEq, Repr

inductive EventLoop where
  | serving
  | joining
  | acknowledged
  deriving DecidableEq, Repr

structure Sys where
  requested : Bool := false
  shutdown : Bool := false
  published : Bool := false
  expired : Bool := false
  watchdogExpired : Bool := false
  cancelled : Bool := false
  vcpu : VcpuThread ν β := .unborn
  watchdog : Watchdog := .unborn
  driver : Driver := .staging
  loop : EventLoop := .serving

inductive Event where
  | stage (written : Bool)
  | create (created : Except HvError ν)
  | head
  | leave (r : Except HvError ν) (others : β → β)
  | handle
  | watch
  | giveUp
  | join
  | elapse
  | elapseWatchdog
  | shutdown
  | acknowledge

end Model

variable {ν β : Type}

def failed : RunResult := { reason := .hvfError }

namespace VcpuThread

def isFinished : VcpuThread ν β → Bool
  | .finished _ => true
  | _ => false

def isUnborn : VcpuThread ν β → Bool
  | .unborn => true
  | _ => false

def after (next : LoopState ν β → VcpuThread ν β) : Ctl (LoopState ν β) → VcpuThread ν β
  | .next l => next l
  | .brk l => .finished l.result

end VcpuThread

def Driver.isFinished : Driver → Bool
  | .finished _ => true
  | _ => false

def Watchdog.stepsLeft : Watchdog → ℕ
  | .unborn | .finished => 0
  | .watching => 1
  | .receiving => 2

def Event.ofVcpu : Event ν β → Bool
  | .create _ | .head | .leave _ _ | .handle => true
  | _ => false

def Sys.stopped (s : Sys ν β) : Bool := s.vcpu.isFinished || s.driver.isFinished

section Step

variable (m : Microvm ν β)

def publish (created : Except HvError ν) : Except HvError ν :=
  created.bind (m.api.setSysReg .mpidrEl1 0x80000000)

def enterLoop (v : ν) : VcpuThread ν β :=
  match setRegs m.api (bootRegs m.entryPc m.fdtAddr) v with
  | .ok v => .head (bootState v m.devices)
  | .error _ => .finished failed

def vcpuStep (s : Sys ν β) : VcpuThread ν β → Event ν β → Option (Sys ν β)
  | .starting, .create created =>
    match publish m created with
    | .ok v => some { s with published := true, vcpu := enterLoop m v }
    | .error _ => some { s with vcpu := .finished failed }
  | .head l, .head =>
    some { s with vcpu := .after .inGuest (loopHead m.api ⟨s.shutdown, s.expired, .ok, id⟩ l) }
  | .inGuest l, .leave r others =>
    match r with
    | .ok v => some { s with vcpu := .exited { l with vcpu := v, devices := others l.devices } }
    | .error _ => some { s with vcpu := .after .exited (stop .hvfError l) }
  | .exited l, .handle => some { s with vcpu := .after .head (handleExit m.api m.bus l) }
  | _, _ => none

def watchdogStep (s : Sys ν β) : Option (Sys ν β) :=
  match s.watchdog with
  | .receiving =>
    if s.published then some { s with watchdog := .watching }
    else if s.vcpu.isFinished then some { s with watchdog := .finished }
    else none
  | .watching =>
    if s.shutdown then some { s with watchdog := .finished }
    else if s.watchdogExpired then
      some { s with shutdown := true, cancelled := true, watchdog := .finished }
    else some s
  | .unborn | .finished => none

def driverStep (s : Sys ν β) : Option (Sys ν β) :=
  match s.driver, s.vcpu, s.watchdog with
  | .joiningVcpu, .finished r, _ => some { s with shutdown := true, driver := .joiningWatchdog r }
  | .joiningWatchdog r, _, .finished => some { s with driver := .finished r }
  | _, _, _ => none

def step (s : Sys ν β) : Event ν β → Option (Sys ν β)
  | .stage written =>
    if s.driver = .staging then
      if written then
        some { s with vcpu := .starting, watchdog := .receiving, driver := .joiningVcpu }
      else some { s with driver := .finished failed }
    else none
  | .watch => watchdogStep s
  | .giveUp =>
    if s.watchdog = .receiving ∧ s.published = false then some { s with watchdog := .finished }
    else none
  | .join => driverStep s
  | .elapse => if s.vcpu.isUnborn then none else some { s with expired := true }
  | .elapseWatchdog =>
    if s.watchdog = .watching ∧ s.expired then some { s with watchdogExpired := true } else none
  | .shutdown =>
    if s.loop = .serving then some { s with requested := true, loop := .joining } else none
  | .acknowledge =>
    match s.loop, s.driver with
    | .joining, .finished _ => some { s with loop := .acknowledged }
    | _, _ => none
  | e => vcpuStep m s s.vcpu e

end Step

/-! ## What a step does -/

section SelfStops

variable (m : Microvm ν β)

def endsLoop : Exit → Bool
  | .hvc _ x0 x1 x2 x3 =>
    match (resolveHvcPsci x0 x1 x2 x3).2 with
    | .systemOff | .systemReset | .parkCallerCpuOff => true
    | .ret _ | .bringUpSecondary _ _ _ | .queryAffinityInfo _ _ => false
  | .brk _ | .cancelled | .unknownExceptionClass _ _ => true
  | .mmio _ _ _ _ _ | .smcHandledAsPsciNotSupported _ | .wfi | .wfe => false
  | .systemRegister _ _ _ _ _ _ _ | .vtimerActivated => false

def exitOf (v : ν) : Exit :=
  let info := m.api.getExitInfo v
  (decodeException info.syndrome info.physicalAddress (gpRead m.api v)).exit

def advanceFails (l : LoopState ν β) : Bool :=
  l.pendingAdvancePc && match m.api.getReg .pc l.vcpu with
    | .ok pc => (m.api.setReg .pc (pc + 4) l.vcpu).toBool.not
    | .error _ => true

def selfStops (s : Sys ν β) : Event ν β → Bool
  | .stage written => !written
  | .create created =>
    ((publish m created).bind (setRegs m.api (bootRegs m.entryPc m.fdtAddr))).toBool.not
  | .head =>
    match s.vcpu with
    | .head l => advanceFails m l
    | _ => false
  | .leave r _ => r.toBool.not
  | .handle =>
    match s.vcpu with
    | .exited l => endsLoop (exitOf m l.vcpu)
    | _ => false
  | _ => false

inductive Moves (s : Sys ν β) : Event ν β → Sys ν β → Prop where
  | stage (h : s.driver = .staging) :
      Moves s (.stage true) { s with
        vcpu := .starting, watchdog := .receiving, driver := .joiningVcpu }
  | stageFailed (h : s.driver = .staging) :
      Moves s (.stage false) { s with driver := .finished failed }
  | vcpu {e : Event ν β} {vcpu : VcpuThread ν β} {published : Bool} (he : e.ofVcpu = true)
      (hborn : s.vcpu.isUnborn = false) (hruns : s.vcpu.isFinished = false)
      (hborn' : vcpu.isUnborn = false) (hself : selfStops m s e = true → vcpu.isFinished = true)
      (hstop : vcpu.isFinished = true →
        selfStops m s e = true ∨ s.shutdown = true ∨ s.expired = true) :
      Moves s e { s with vcpu, published }
  | watchdog {e : Event ν β} {watchdog : Watchdog} (he : e = .watch ∨ e = .giveUp)
      (hborn : watchdog ≠ .unborn) (hlt : watchdog.stepsLeft < s.watchdog.stepsLeft) :
      Moves s e { s with watchdog }
  | poll (hw : s.watchdog = .watching) (hs : s.shutdown = false) : Moves s .watch s
  | expire (hw : s.watchdog = .watching) (hx : s.watchdogExpired = true) :
      Moves s .watch { s with shutdown := true, cancelled := true, watchdog := .finished }
  | joinVcpu {r : RunResult} (hd : s.driver = .joiningVcpu) (hv : s.vcpu = .finished r) :
      Moves s .join { s with shutdown := true, driver := .joiningWatchdog r }
  | joinWatchdog {r : RunResult} (hd : s.driver = .joiningWatchdog r)
      (hw : s.watchdog = .finished) : Moves s .join { s with driver := .finished r }
  | elapse (hborn : s.vcpu.isUnborn = false) : Moves s .elapse { s with expired := true }
  | elapseWatchdog (hw : s.watchdog = .watching) (hx : s.expired = true) :
      Moves s .elapseWatchdog { s with watchdogExpired := true }
  | shutdown (hl : s.loop = .serving) :
      Moves s .shutdown { s with requested := true, loop := .joining }
  | acknowledge (hl : s.loop = .joining) (hd : s.driver.isFinished = true) :
      Moves s .acknowledge { s with loop := .acknowledged }

variable {m} {s s' : Sys ν β} {e : Event ν β}

theorem isFinished_handle (exit : Exit) (l : LoopState ν β) :
    (VcpuThread.after .head (handle m.api m.bus exit l)).isFinished = endsLoop exit := by
  cases exit with
  | hvc imm16 x0 x1 x2 x3 =>
    simp only [handle, handleHvc, endsLoop]
    cases (resolveHvcPsci x0 x1 x2 x3).2 <;> rfl
  | _ => rfl

theorem isFinished_loopHead (t : Turn ν β) (l : LoopState ν β) :
    (VcpuThread.after .inGuest (loopHead m.api t l)).isFinished = (t.stops || advanceFails m l) := by
  by_cases ht : t.stops
  · rw [loopHead_stop ht, ht]
    rfl
  · rw [loopHead_go (by simpa using ht), advanceFails]
    cases l.pendingAdvancePc with
    | false => simp [ht, VcpuThread.after, VcpuThread.isFinished]
    | true =>
      cases hpc : m.api.getReg .pc l.vcpu with
      | error e => simp [stop, VcpuThread.after, VcpuThread.isFinished]
      | ok pc =>
        cases hset : m.api.setReg .pc (pc + 4) l.vcpu <;>
          simp [hset, ht, setReg, stop, VcpuThread.after, VcpuThread.isFinished, Except.toBool]

theorem isUnborn_after {next : LoopState ν β → VcpuThread ν β}
    (hnext : ∀ l, (next l).isUnborn = false) (c : Ctl (LoopState ν β)) :
    (VcpuThread.after next c).isUnborn = false := by
  cases c with
  | next l => exact hnext l
  | brk l => rfl

theorem moves_vcpuStep (h : vcpuStep m s s.vcpu e = some s') : Moves m s e s' := by
  cases hv : s.vcpu <;> cases e <;> simp only [hv, vcpuStep, reduceCtorEq] at h
  case starting.create created =>
    cases hp : publish m created with
    | error err =>
      simp only [hp, Option.some.injEq] at h
      subst h
      exact .vcpu rfl (by rw [hv]; rfl) (by rw [hv]; rfl) rfl (fun _ => rfl)
        (fun _ => .inl (by simp [selfStops, hp, Except.bind, Except.toBool]))
    | ok v =>
      simp only [hp, Option.some.injEq] at h
      subst h
      have hself : selfStops m s (.create created) = (enterLoop m v).isFinished := by
        simp only [selfStops, hp, Except.bind, enterLoop]
        cases setRegs m.api (bootRegs m.entryPc m.fdtAddr) v <;> rfl
      refine .vcpu rfl (by rw [hv]; rfl) (by rw [hv]; rfl) ?_ (fun h => hself ▸ h)
        (fun h => .inl (hself ▸ h))
      unfold enterLoop
      split <;> rfl
  case head.head l =>
    obtain rfl := Option.some.inj h
    have hfin := isFinished_loopHead (m := m) ⟨s.shutdown, s.expired, .ok, id⟩ l
    have hself : selfStops m s .head = advanceFails m l := by simp only [selfStops, hv]
    rw [← hself] at hfin
    refine .vcpu rfl (by rw [hv]; rfl) (by rw [hv]; rfl) (isUnborn_after (fun _ => rfl) _)
      (fun h => by rw [hfin, h, Bool.or_true]) (fun h => ?_)
    rw [hfin, Turn.stops, Bool.or_eq_true, Bool.or_eq_true] at h
    exact h.symm
  case inGuest.leave l r others =>
    cases r with
    | error err =>
      obtain rfl := Option.some.inj h
      exact .vcpu rfl (by rw [hv]; rfl) (by rw [hv]; rfl) rfl (fun _ => rfl) (fun _ => .inl rfl)
    | ok v =>
      obtain rfl := Option.some.inj h
      exact .vcpu rfl (by rw [hv]; rfl) (by rw [hv]; rfl) rfl (by simp [selfStops, Except.toBool])
        (by simp [VcpuThread.isFinished])
  case exited.handle l =>
    obtain rfl := Option.some.inj h
    have hself : selfStops m s .handle =
        (VcpuThread.after .head (handleExit m.api m.bus l)).isFinished := by
      rw [handleExit, isFinished_handle]
      simp only [selfStops, hv, exitOf]
    exact .vcpu rfl (by rw [hv]; rfl) (by rw [hv]; rfl) (isUnborn_after (fun _ => rfl) _)
      (fun h => hself ▸ h) (fun h => .inl (hself ▸ h))

theorem moves_of_step (h : step m s e = some s') : Moves m s e s' := by
  cases e with
  | stage written =>
    simp only [step] at h
    split_ifs at h with hd hw <;> cases h
    · subst hw; exact .stage hd
    · cases written
      · exact .stageFailed hd
      · exact absurd rfl hw
  | watch =>
    simp only [step, watchdogStep] at h
    split at h
    case h_1 hw =>
      split_ifs at h <;> cases h
      · exact .watchdog (.inl rfl) (by simp) (by rw [hw]; decide)
      · exact .watchdog (.inl rfl) (by simp) (by rw [hw]; decide)
    case h_2 hw =>
      split_ifs at h with hs hx <;> cases h
      · exact .watchdog (.inl rfl) (by simp) (by rw [hw]; decide)
      · exact .expire hw hx
      · exact .poll hw (by simpa using hs)
    all_goals cases h
  | giveUp =>
    simp only [step] at h
    split_ifs at h with hw
    cases h
    exact .watchdog (.inr rfl) (by simp) (by rw [hw.1]; decide)
  | join =>
    simp only [step, driverStep] at h
    split at h <;> cases h
    case h_1 r hd hv => exact .joinVcpu hd hv
    case h_2 r _ hd hw => exact .joinWatchdog hd hw
  | elapse =>
    simp only [step] at h
    split_ifs at h with hv
    cases h
    exact .elapse (by simpa using hv)
  | elapseWatchdog =>
    simp only [step] at h
    split_ifs at h with hw
    cases h
    exact .elapseWatchdog hw.1 hw.2
  | shutdown =>
    simp only [step] at h
    split_ifs at h with hl
    cases h
    exact .shutdown hl
  | acknowledge =>
    simp only [step] at h
    split at h <;> cases h
    case h_1 r hl hd => exact .acknowledge hl (by rw [hd]; rfl)
  | create created | head | leave r others | handle => exact moves_vcpuStep h

end SelfStops

section Flags

variable {m : Microvm ν β} {s s' : Sys ν β} {e : Event ν β}

def Sys.forget (s : Sys ν β) : Sys ν β := { s with requested := false }

theorem step_forget (s : Sys ν β) (e : Event ν β) :
    (step m s.forget e).map Sys.forget = (step m s e).map Sys.forget := by
  cases e with
  | stage written =>
    by_cases hd : s.driver = .staging <;> cases written <;> simp [step, Sys.forget, hd]
  | watch =>
    unfold step watchdogStep Sys.forget
    cases hw : s.watchdog with
    | receiving => by_cases hp : s.published <;> by_cases hv : s.vcpu.isFinished <;> simp [hp]
    | watching => by_cases hs : s.shutdown <;> by_cases hx : s.watchdogExpired <;> simp [hs, hx, hw]
    | _ => rfl
  | giveUp =>
    by_cases hw : s.watchdog = .receiving ∧ s.published = false <;> simp [step, Sys.forget, hw]
  | join =>
    simp only [step, driverStep, Sys.forget]
    cases s.driver <;> cases s.vcpu <;> cases s.watchdog <;> rfl
  | elapse => by_cases hv : s.vcpu.isUnborn <;> simp [step, Sys.forget, hv]
  | elapseWatchdog =>
    by_cases hw : s.watchdog = .watching ∧ s.expired = true <;> simp [step, Sys.forget, hw]
  | shutdown => by_cases hl : s.loop = .serving <;> simp [step, Sys.forget, hl]
  | acknowledge =>
    simp only [step, Sys.forget]
    cases s.loop <;> cases s.driver <;> rfl
  | create created =>
    simp only [step, Sys.forget]
    cases s.vcpu with
    | starting => cases hp : publish m created <;> simp [vcpuStep, hp, Sys.forget]
    | _ => rfl
  | head | handle => simp only [step, Sys.forget]; cases s.vcpu <;> rfl
  | leave r others => simp only [step, Sys.forget]; cases s.vcpu <;> cases r <;> rfl

structure Wired (s : Sys ν β) : Prop where
  watchdogExpired : s.watchdogExpired = true → s.expired = true
  shutdown : s.shutdown = true → s.stopped = true ∨ s.expired = true
  staging : s.driver = .staging → s.vcpu.isUnborn = true ∧ s.watchdog = .unborn
  joiningVcpu : s.driver = .joiningVcpu → s.watchdog ≠ .unborn
  joiningWatchdog : ∀ r, s.driver = .joiningWatchdog r →
    s.vcpu.isFinished = true ∧ s.shutdown = true ∧ s.watchdog ≠ .unborn

theorem isFinished_of_isUnborn {v : VcpuThread ν β} (h : v.isUnborn = true) :
    v.isFinished = false := by
  cases v <;> first | rfl | cases h

theorem Wired.not_stopped_of_staging (h : Wired s) (hd : s.driver = .staging) :
    s.stopped = false := by
  rw [Sys.stopped, isFinished_of_isUnborn (h.staging hd).1, hd]
  rfl

theorem Wired.stopped_step (h : Wired s) (hmoves : Moves m s e s') (hs : s.stopped = true) :
    s'.stopped = true := by
  cases hmoves with
  | stage hd | stageFailed hd => rw [h.not_stopped_of_staging hd] at hs; cases hs
  | vcpu he hborn hruns hborn' hself hstop =>
    rw [Sys.stopped, hruns, Bool.false_or] at hs
    simp [Sys.stopped, hs]
  | joinVcpu hd hv => simp [Sys.stopped, hv, VcpuThread.isFinished]
  | joinWatchdog hd hw => simp [Sys.stopped, Driver.isFinished]
  | _ => exact hs

theorem expired_step (hmoves : Moves m s e s') (hs : s.expired = true) : s'.expired = true := by
  cases hmoves <;> first | exact hs | rfl

theorem Wired.moves (h : Wired s) (hmoves : Moves m s e s') : Wired s' := by
  have hstopped := h.stopped_step hmoves
  have hexpired := expired_step hmoves
  have hshutdown : s.shutdown = true → s'.stopped = true ∨ s'.expired = true :=
    fun hs => (h.shutdown hs).imp hstopped hexpired
  cases hmoves with
  | stage hd => exact ⟨h.watchdogExpired, hshutdown, by simp, fun _ => by simp, by simp⟩
  | stageFailed hd | joinWatchdog hd hw =>
    exact ⟨h.watchdogExpired, hshutdown, by simp, by simp, by simp⟩
  | vcpu he hborn hruns hborn' hself hstop =>
    refine ⟨h.watchdogExpired, hshutdown, fun hd => ?_, h.joiningVcpu, fun r hd => ?_⟩
    · simp [(h.staging hd).1] at hborn
    · simp [(h.joiningWatchdog r hd).1] at hruns
  | watchdog he hborn hlt =>
    refine ⟨h.watchdogExpired, hshutdown, fun hd => ?_, fun _ => hborn, fun r hd => ?_⟩
    · simp [(h.staging hd).2, Watchdog.stepsLeft] at hlt
    · exact ⟨(h.joiningWatchdog r hd).1, (h.joiningWatchdog r hd).2.1, hborn⟩
  | poll hw hs => exact h
  | expire hw hx =>
    refine ⟨h.watchdogExpired, fun _ => .inr (h.watchdogExpired hx), fun hd => ?_, fun _ => by simp,
      fun r hd => ⟨(h.joiningWatchdog r hd).1, rfl, by simp⟩⟩
    simp [(h.staging hd).2] at hw
  | joinVcpu hd hv =>
    refine ⟨h.watchdogExpired, fun _ => .inl (by simp [Sys.stopped, hv, VcpuThread.isFinished]),
      by simp, by simp, fun r _ => ⟨by simp [hv, VcpuThread.isFinished], rfl, h.joiningVcpu hd⟩⟩
  | elapse hborn => exact ⟨fun _ => rfl, hshutdown, h.staging, h.joiningVcpu, h.joiningWatchdog⟩
  | elapseWatchdog hw hx =>
    exact ⟨fun _ => hx, hshutdown, h.staging, h.joiningVcpu, h.joiningWatchdog⟩
  | shutdown hl | acknowledge hl hd =>
    exact ⟨h.watchdogExpired, hshutdown, h.staging, h.joiningVcpu, h.joiningWatchdog⟩

theorem Wired.selfStops_of_stopped (h : Wired s) (hmoves : Moves m s e s') (hx : s.expired = false)
    (hs : s.stopped = false) (hs' : s'.stopped = true) : selfStops m s e = true := by
  have hflag : s.shutdown = false := by
    by_contra hflag
    rcases h.shutdown (by simpa using hflag) with h | h
    · rw [hs] at h; cases h
    · rw [hx] at h; cases h
  rw [Sys.stopped, Bool.or_eq_false_iff] at hs
  cases hmoves with
  | vcpu he hborn hruns hborn' hself hstop =>
    rw [Sys.stopped, Bool.or_eq_true] at hs'
    rcases hs' with hs' | hs'
    · rcases hstop hs' with h | h | h
      · exact h
      · rw [hflag] at h; cases h
      · rw [hx] at h; cases h
    · rw [hs.2] at hs'; cases hs'
  | stageFailed hd => rfl
  | joinVcpu hd hv => simp [hv, VcpuThread.isFinished] at hs
  | joinWatchdog hd hw => simp [(h.joiningWatchdog _ hd).1] at hs
  | stage hd => cases hs'
  | _ => simp [Sys.stopped, hs.1, hs.2] at hs'

theorem stopped_of_selfStops (hmoves : Moves m s e s') (hself : selfStops m s e = true) :
    s'.stopped = true ∧ s'.expired = s.expired := by
  cases hmoves with
  | vcpu he hborn hruns hborn' hstops hstop => exact ⟨by simp [Sys.stopped, hstops hself], rfl⟩
  | stageFailed hd => exact ⟨by simp [Sys.stopped, Driver.isFinished], rfl⟩
  | watchdog he => rcases he with rfl | rfl <;> cases hself
  | _ => cases hself

end Flags

/-! ## Executions -/

inductive Task where
  | vcpu
  | watchdog
  | driver
  | loop
  deriving DecidableEq, Repr

def Task.ready : Task → Sys ν β → Bool
  | .vcpu, s =>
    match s.vcpu with
    | .starting | .head _ | .exited _ => true
    | .inGuest _ => s.cancelled
    | .unborn | .finished _ => false
  | .watchdog, s =>
    match s.watchdog with
    | .receiving => s.published || s.vcpu.isFinished
    | .watching => s.shutdown || s.watchdogExpired
    | .unborn | .finished => false
  | .driver, s =>
    match s.driver with
    | .staging => true
    | .joiningVcpu => s.vcpu.isFinished
    | .joiningWatchdog _ => s.watchdog = .finished
    | .finished _ => false
  | .loop, s => s.loop = .joining && s.driver.isFinished

def Task.mine : Task → Event ν β → Prop
  | .vcpu, e => e.ofVcpu = true
  | .watchdog, e => e = .watch ∨ e = .giveUp
  | .driver, e => e = .join ∨ ∃ written, e = .stage written
  | .loop, e => e = .acknowledge

def Event.isHead : Event ν β → Bool
  | .head => true
  | _ => false

section Executions

variable {m : Microvm ν β} {s s' : Sys ν β} {e : Event ν β}

def FairScheduler (x : Exec (step m)) : Prop := ∀ t : Task, x.Fair (t.ready · = true) t.mine

def iterations (x : Exec (step m)) (n k : ℕ) : ℕ :=
  ((Finset.Ico n k).filter fun i => (x.event i).any Event.isHead = true).card

def StopsPromptly (x : Exec (step m)) (n N : ℕ) : Prop :=
  ∃ k, (x.state k).stopped = true ∧ (x.state k).expired = false ∧ iterations x n k ≤ N ∧
    ∃ l, (x.state l).loop = .acknowledged

variable {k n : ℕ}

theorem iterations_mono (x : Exec (step m)) (n : ℕ) {j : ℕ} (hjk : j ≤ k) :
    iterations x n j ≤ iterations x n k :=
  Finset.card_le_card (Finset.filter_subset_filter _ (Finset.Ico_subset_Ico_right hjk))

structure Ending (s : Sys ν β) : Prop where
  wired : Wired s
  stopped : s.stopped = true
  loop : s.loop ≠ .serving

def turn (s : Sys ν β) : Task :=
  match s.driver with
  | .staging | .joiningVcpu => .driver
  | .joiningWatchdog _ => if s.watchdog = .finished then .driver else .watchdog
  | .finished _ => .loop

def Driver.stepsLeft : Driver → ℕ
  | .staging | .finished _ => 0
  | .joiningWatchdog _ => 1
  | .joiningVcpu => 2

def stepsLeft (s : Sys ν β) : ℕ :=
  s.driver.stepsLeft + s.watchdog.stepsLeft + if s.loop = .acknowledged then 0 else 1

theorem Ending.isFinished (h : Ending s) (hd : s.driver.isFinished = false) :
    s.vcpu.isFinished = true := by
  simpa [Sys.stopped, hd] using h.stopped

theorem Ending.ready (h : Ending s) (hloop : s.loop ≠ .acknowledged) :
    (turn s).ready s = true := by
  cases hd : s.driver with
  | staging =>
    have := h.wired.not_stopped_of_staging hd
    rw [h.stopped] at this
    cases this
  | joiningVcpu => simp [turn, hd, Task.ready, h.isFinished (by rw [hd]; rfl)]
  | joiningWatchdog r =>
    obtain ⟨hv, hs, hw⟩ := h.wired.joiningWatchdog r hd
    cases hwd : s.watchdog with
    | unborn => exact absurd hwd hw
    | _ => simp [turn, hd, hwd, Task.ready, hv, hs]
  | finished r =>
    have hl : s.loop = .joining := by
      cases hl : s.loop with
      | serving => exact absurd hl h.loop
      | joining => rfl
      | acknowledged => exact absurd hl hloop
    simp [turn, hd, Task.ready, hl, Driver.isFinished]

theorem Ending.moves (h : Ending s) (hmoves : Moves m s e s') :
    Ending s' ∧ (stepsLeft s' < stepsLeft s ∨
      ¬ (turn s).mine e ∧ stepsLeft s' = stepsLeft s ∧ turn s' = turn s) := by
  have hwired := h.wired.moves hmoves
  have hstopped := h.wired.stopped_step hmoves h.stopped
  cases hmoves with
  | stage hd | stageFailed hd =>
    have := h.stopped
    rw [h.wired.not_stopped_of_staging hd] at this
    cases this
  | vcpu he hborn hruns hborn' hself hstop =>
    -- the vCPU thread is not finished, so the driver is
    have hd : s.driver.isFinished = true := by simpa [Sys.stopped, hruns] using h.stopped
    refine ⟨⟨hwired, hstopped, h.loop⟩, .inr ⟨fun hmine => ?_, rfl, rfl⟩⟩
    cases hdriver : s.driver <;> rw [hdriver] at hd <;> cases hd
    simp only [turn, hdriver] at hmine
    rw [hmine] at he
    cases he
  | watchdog he hborn hlt =>
    refine ⟨⟨hwired, hstopped, h.loop⟩, .inl ?_⟩
    simp only [stepsLeft]
    omega
  | poll hw hs =>
    refine ⟨h, .inr ⟨fun hmine => ?_, rfl, rfl⟩⟩
    cases hd : s.driver with
    | joiningWatchdog r => simp [(h.wired.joiningWatchdog r hd).2.1] at hs
    | _ => simp [turn, hd, Task.mine] at hmine
  | expire hw hx =>
    refine ⟨⟨hwired, hstopped, h.loop⟩, .inl ?_⟩
    simp only [stepsLeft, hw, Watchdog.stepsLeft]
    omega
  | joinVcpu hd hv | joinWatchdog hd hw =>
    refine ⟨⟨hwired, hstopped, h.loop⟩, .inl ?_⟩
    simp only [stepsLeft, hd, Driver.stepsLeft]
    omega
  | elapse hborn | elapseWatchdog hw hx =>
    refine ⟨⟨hwired, hstopped, h.loop⟩, .inr ⟨?_, rfl, rfl⟩⟩
    cases turn s <;> simp [Task.mine, Event.ofVcpu]
  | shutdown hl => exact absurd hl h.loop
  | acknowledge hl hd =>
    refine ⟨⟨hwired, hstopped, by simp⟩, .inl ?_⟩
    simp [stepsLeft, hl]

variable {x : Exec (step m)}

theorem Ending.acknowledged (hfair : FairScheduler x) (h : Ending (x.state n)) :
    ∃ k ≥ n, (x.state k).loop = .acknowledged := by
  refine Exec.eventually_of_tasks (C := fun _ _ => True) (fun _ _ _ => trivial) hfair Ending
    (fun s => s.loop = .acknowledged) stepsLeft turn (fun s hs hloop => hs.ready hloop) ?_ ?_ h
  · intro s e s' hs _ _ hstep
    obtain ⟨hs', hlt⟩ := hs.moves (moves_of_step hstep)
    exact ⟨hs', hlt.imp_right And.right⟩
  · intro s e s' hs _ _ hmine hstep
    exact ((hs.moves (moves_of_step hstep)).2).resolve_right fun h => h.1 hmine

theorem wired_init : Wired ({} : Sys ν β) :=
  ⟨by simp, by simp, fun _ => ⟨rfl, rfl⟩, by simp, by simp⟩

theorem wired_of_init (h₀ : x.state 0 = {}) (n : ℕ) : Wired (x.state n) :=
  Exec.invariant (C := fun _ _ => True) (fun _ _ _ => trivial)
    (fun _ _ _ hs _ hstep => hs.moves (moves_of_step hstep)) n.zero_le (h₀ ▸ wired_init)

theorem loop_ne_serving (hn : x.event n = some .shutdown) (hk : n < k) :
    (x.state k).loop ≠ .serving := by
  refine Exec.invariant (x := x) (C := fun _ _ => True) (I := fun s => s.loop ≠ .serving)
    (fun _ _ _ => trivial) ?_ hk ?_
  · intro s e s' hs _ hstep
    cases moves_of_step hstep <;> first | exact hs | simp
  · have hstep := x.next n _ hn
    simp only [step] at hstep
    split_ifs at hstep
    rw [← Option.some.inj hstep]
    simp

/-- **`Shutdown` is acknowledged without the budget if and only if the guest or the hypervisor stops
the driver in time**: the request itself stops nothing. -/
theorem stopsPromptly_iff (h₀ : x.state 0 = {}) (hfair : FairScheduler x) {n : ℕ}
    (hn : x.event n = some .shutdown) (N : ℕ) :
    StopsPromptly x n N ↔ ∃ k e, x.event k = some e ∧ selfStops m (x.state k) e = true ∧
      (x.state k).expired = false ∧ iterations x n (k + 1) ≤ N := by
  constructor
  · rintro ⟨k, hstopped, hx, hN, -⟩
    obtain ⟨j, hjk, e, he, hj, hj'⟩ := x.exists_first (P := fun s => s.stopped = true)
      (by rw [h₀]; simp [Sys.stopped, VcpuThread.isFinished, Driver.isFinished]) hstopped
    -- the budget has not elapsed by time `k`, so it had not by time `j`
    have hxj : (x.state j).expired = false := by
      by_contra hxj
      have := Exec.invariant (C := fun _ _ => True)
        (fun _ _ _ => trivial) (fun _ _ _ hs _ hstep => expired_step (moves_of_step hstep) hs)
        hjk.le (by simpa using hxj)
      rw [hx] at this
      cases this
    have hself := (wired_of_init h₀ j).selfStops_of_stopped (moves_of_step (x.next j e he)) hxj
      (by simpa using hj) hj'
    exact ⟨j, e, he, hself, hxj, (iterations_mono x n hjk).trans hN⟩
  · rintro ⟨k, e, he, hself, hx, hN⟩
    obtain ⟨hstopped, hexpired⟩ := stopped_of_selfStops (moves_of_step (x.next k e he)) hself
    refine ⟨k + 1, hstopped, hexpired.trans hx, hN, ?_⟩
    have hending : Ending (x.state (max (k + 1) (n + 1))) := by
      refine ⟨wired_of_init h₀ _, ?_, loop_ne_serving hn (Nat.le_max_right _ _)⟩
      exact (Exec.invariant (C := fun _ _ => True) (I := fun s => Wired s ∧ s.stopped = true)
        (fun _ _ _ => trivial) (fun s e s' hs _ hstep => ⟨hs.1.moves (moves_of_step hstep),
          hs.1.stopped_step (moves_of_step hstep) hs.2⟩) (Nat.le_max_left _ _)
        ⟨wired_of_init h₀ _, hstopped⟩).2
    obtain ⟨l, -, hl⟩ := hending.acknowledged hfair
    exact ⟨l, hl⟩

end Executions

section Scenario

def plainMicrovm : Microvm PlainVcpu Unit := ⟨plainApi, .empty, (), 0x80200000, 0x83E00000⟩

def freshVcpu : PlainVcpu := ⟨fun _ => 0, ⟨.unknown, 0, 0⟩⟩

def started : List (Event PlainVcpu Unit) := [.stage true, .create (.ok freshVcpu), .watch, .head]

def endsItself : List (Event PlainVcpu Unit) :=
  started ++ [.shutdown, .leave (.ok ⟨fun _ => 0, ⟨.exception, 0xF2000000, 0⟩⟩) id, .handle, .join,
    .watch, .join, .acknowledge]

def Sys.quiet (s : Sys ν β) : Bool :=
  [Task.vcpu, .watchdog, .driver, .loop].all fun t => !t.ready s

theorem fairScheduler_pad {es : List (Event PlainVcpu Unit)} {s : Sys PlainVcpu Unit}
    (hrun : Run.run (step plainMicrovm) es {} = some s) (hs : s.quiet = true) :
    FairScheduler (.pad (step plainMicrovm) es {}) := by
  intro t
  refine Exec.fair_pad hrun fun hready => ?_
  have hnot := List.all_eq_true.1 hs t (by cases t <;> decide)
  simp [hready] at hnot

theorem stopsPromptly_of_brk : StopsPromptly (.pad (step plainMicrovm) endsItself {}) 4 0 := by
  obtain ⟨s, hrun, hs⟩ : ∃ s ∈ Run.run (step plainMicrovm) endsItself {}, s.quiet = true := by
    decide +kernel
  refine (stopsPromptly_iff (Exec.pad_state_zero _ _) (fairScheduler_pad hrun hs) rfl 0).2
    ⟨6, .handle, rfl, ?_, ?_, ?_⟩ <;> decide +kernel

theorem shutdown_waits_for_budget :
    ∃ x : Exec (step plainMicrovm), x.state 0 = {} ∧ FairScheduler x ∧
      x.event 4 = some .shutdown ∧ (∀ k, (x.state k).expired = false) ∧
      (∀ k, (x.state k).loop ≠ .acknowledged) ∧ ∀ N, ¬ StopsPromptly x 4 N := by
  obtain ⟨s, hrun, hs, hwaits⟩ : ∃ s ∈ Run.run (step plainMicrovm) (started ++ [.shutdown]) {},
      s.quiet = true ∧ s.expired = false ∧ s.loop ≠ .acknowledged := by
    decide +kernel
  have halong : Run.Along (step plainMicrovm)
      (fun s _ => s.expired = false ∧ s.loop ≠ .acknowledged) (started ++ [.shutdown]) {} := by
    decide +kernel
  have hstays := Exec.pad_state_of_along halong hrun hwaits
  refine ⟨.pad _ (started ++ [.shutdown]) {}, Exec.pad_state_zero _ _, fairScheduler_pad hrun hs,
    rfl, fun k => (hstays k).1, fun k => (hstays k).2, ?_⟩
  rintro N ⟨-, -, -, -, l, hl⟩
  exact (hstays l).2 hl

end Scenario

end Squib.Shutdown
