import Squib.Vmm.Runner

/-!
# Exits that are not exceptions
-/

namespace Squib.Runner

open Esr Loop

variable {ν β : Type}

/-! ## What a run has to obey -/

def Action.isGuarded : Action → Bool
  | .busRead _ _ | .busWrite _ _ | .psci _ _ _ _ => true
  | .setReg r _ => r = .x0 || r = .pc

def ExitRecord.Quiet (e : ExitRecord) : Prop :=
  e.info.reason ≠ .exception → ∀ a ∈ e.actions, a.isGuarded = false

structure Obeys (r : Ctl (LoopState ν β)) : Prop where
  quiet : ∀ e ∈ r.state.exits, e.Quiet
  last : ∀ e ∈ r.state.exits.tail, e.info.reason ≠ .canceled
  reason : ∀ s, r = .brk s → ∀ e ∈ s.exits.head?, e.info.reason = .canceled →
    s.result.reason = .operatorRequest

/-! ## Harmless exits -/

inductive Response where
  | acts
  | advances
  | waits
  | faults
  deriving DecidableEq, Repr

def response : EsrDecoded → Response
  | .dataAbort _ _ _ _ | .hvc _ | .smc _ => .acts
  | .systemRegister _ _ _ _ _ _ _ => .advances
  | .wfi | .wfe => .waits
  | .brk _ | .other _ _ => .faults

def Stopped (next : Option (Turn ν β)) : Prop := ∀ t ∈ next, t.stops = true

def Harmless (info : ExitInfo) (next : Option (Turn ν β)) : Prop :=
  info.reason = .exception ∨
    match response (decode info.syndrome) with
    | .acts => False
    | .advances => Stopped next
    | .waits => info.reason = .canceled → Stopped next
    | .faults => info.reason ≠ .canceled

def exitsOf (api : VcpuApi ν) (bus : Bus β) :
    List (Turn ν β) → LoopState ν β → List (ExitInfo × Option (Turn ν β))
  | [], _ => []
  | t :: ts, s =>
    match loopHead api t s with
    | .brk _ => []
    | .next s' =>
      match t.guest s'.vcpu with
      | .error _ => []
      | .ok v =>
        (api.getExitInfo v, ts.head?) ::
          match handleExit api bus (s'.leave t v) with
          | .brk _ => []
          | .next s'' => exitsOf api bus ts s''

section Response

variable {api : VcpuApi ν} {bus : Bus β} {regs : ν → Reg → UInt64} {s : LoopState ν β}
  {info : ExitInfo} {es : List ExitRecord}

theorem accessMmio_acts (hapi : RegisterFile api regs) (addr : UInt64) (write : Bool)
    (sas srt : UInt8) (hs : s.exits = ⟨info, []⟩ :: es) :
    ∃ acts, (accessMmio api bus addr write sas srt s).exits = ⟨info, acts⟩ :: es ∧
      ∃ a ∈ acts, a.isGuarded = true := by
  rw [accessMmio]
  split
  · rw [exits_busWrite, LoopState.exits_perform hs]
    exact ⟨_, rfl, _, List.mem_singleton_self _, rfl⟩
  · have hread := exits_busRead bus addr (List.replicate (min (1 <<< sas.toNat) 8) 0) s
    rw [LoopState.exits_perform hs] at hread
    cases avRegFromIndex srt with
    | none => exact ⟨_, hread, _, List.mem_singleton_self _, rfl⟩
    | some r =>
      rw [exits_trySetReg hapi, LoopState.exits_perform hread]
      exact ⟨_, rfl, _, List.mem_append_left _ (List.mem_singleton_self _), rfl⟩

theorem trySetReg_acts (hapi : RegisterFile api regs) (value : UInt64) {acts : List Action}
    (hs : s.exits = ⟨info, acts⟩ :: es) :
    ∃ acts, (trySetReg api .x0 value s).exits = ⟨info, acts⟩ :: es ∧
      ∃ a ∈ acts, a.isGuarded = true := by
  rw [exits_trySetReg hapi, LoopState.exits_perform hs]
  exact ⟨_, rfl, _, List.mem_append_right _ (List.mem_singleton_self _), rfl⟩

theorem handleHvc_acts (hapi : RegisterFile api regs) (x0 x1 x2 x3 : UInt64)
    (hs : s.exits = ⟨info, []⟩ :: es) :
    ∃ acts, (handleHvc api x0 x1 x2 x3 s).state.exits = ⟨info, acts⟩ :: es ∧
      ∃ a ∈ acts, a.isGuarded = true := by
  have hset := trySetReg_acts hapi (resolveHvcPsci x0 x1 x2 x3).1
    (LoopState.exits_perform hs (.psci x0 x1 x2 x3))
  rw [handleHvc]
  cases (resolveHvcPsci x0 x1 x2 x3).2 <;> exact hset

theorem handleExit_response (hapi : RegisterFile api regs) (bus : Bus β) (s : LoopState ν β) :
    ∃ acts, (handleExit api bus s).state.exits = ⟨api.getExitInfo s.vcpu, acts⟩ :: s.exits ∧
      match response (decode (api.getExitInfo s.vcpu).syndrome) with
      | .acts => ∃ a ∈ acts, a.isGuarded = true
      | .advances => acts = [] ∧ ∃ s', handleExit api bus s = .next s' ∧ s'.pendingAdvancePc = true
      | .waits => acts = [] ∧ ∃ s', handleExit api bus s = .next s' ∧ s'.pendingAdvancePc = false
      | .faults => acts = [] ∧ ∃ s', handleExit api bus s = .brk s' ∧
          s'.result.reason = .guestFault := by
  rw [handleExit, decodeException]
  cases decode (api.getExitInfo s.vcpu).syndrome with
  | dataAbort isWrite sas srt sf => exact accessMmio_acts hapi _ isWrite sas srt rfl
  | hvc imm16 => exact handleHvc_acts hapi _ _ _ _ rfl
  | smc imm16 => exact trySetReg_acts hapi _ rfl
  | systemRegister read op0 op1 crn crm op2 xt | wfi | wfe | brk imm16 | other ec raw =>
    exact ⟨[], rfl, rfl, _, rfl, rfl⟩

end Response

/-! ## What is owed to the exits so far -/

def ExitRecord.Settled (e : ExitRecord) : Prop := e.Quiet ∧ e.info.reason ≠ .canceled

def Owed (s : LoopState ν β) (next : Option (Turn ν β)) : Prop :=
  match s.exits with
  | [] => True
  | e :: es => (∀ e' ∈ es, e'.Settled) ∧ e.Quiet ∧
      (e.info.reason ≠ .exception → s.pendingAdvancePc = true → Stopped next) ∧
      (e.info.reason = .canceled → Stopped next)

theorem quiet_nil (info : ExitInfo) : ExitRecord.Quiet ⟨info, []⟩ := fun _ _ h => nomatch h

variable {e : ExitRecord} {t : Turn ν β} {r : Ctl (LoopState ν β)}

theorem quiet_iff_of_guarded (h : ∃ a ∈ e.actions, a.isGuarded = true) :
    e.Quiet ↔ e.info.reason = .exception := by
  obtain ⟨a, ha, hguard⟩ := h
  refine ⟨fun hq => ?_, fun he hne => absurd he hne⟩
  by_contra hne
  simp [hq hne a ha] at hguard

theorem stopped_none : Stopped (none : Option (Turn ν β)) := fun _ h => nomatch h

theorem stopped_some : Stopped (some t) ↔ t.stops = true := by
  simp [Stopped]

theorem obeys_iff {es : List ExitRecord} (hr : r.state.exits = e :: es) :
    Obeys r ↔ (∀ e' ∈ es, e'.Settled) ∧ e.Quiet ∧
      (e.info.reason = .canceled → ∀ s, r = .brk s → s.result.reason = .operatorRequest) := by
  constructor
  · rintro ⟨hquiet, hlast, hreason⟩
    rw [hr] at hquiet hlast
    refine ⟨fun e' he' => ⟨hquiet e' (.tail _ he'), hlast e' he'⟩, hquiet e (.head _), ?_⟩
    rintro hc s rfl
    exact hreason s rfl e (by rw [show s.exits = e :: es from hr]; rfl) hc
  · rintro ⟨hes, he, hreason⟩
    refine ⟨?_, ?_, ?_⟩
    · rw [hr]
      exact List.forall_mem_cons.2 ⟨he, fun e' he' => (hes e' he').1⟩
    · rw [hr]
      exact fun e' he' => (hes e' he').2
    · rintro s rfl e' he' hc
      rw [show s.exits = e :: es from hr] at he'
      cases he'
      exact hreason hc s rfl

theorem obeys_of_exits_eq_nil (hr : r.state.exits = []) : Obeys r := by
  refine ⟨by simp [hr], by simp [hr], ?_⟩
  rintro s rfl
  simp [show s.exits = [] from hr]

variable {s : LoopState ν β}

theorem obeys_next_iff : Obeys (.next s) ↔ Owed s none := by
  rw [Owed]
  split
  · next hs => exact iff_of_true (obeys_of_exits_eq_nil hs) trivial
  · next e es hs => simp [obeys_iff (r := .next s) hs, stopped_none]

theorem obeys_stop_iff (ht : t.stops = true) :
    Obeys (stop .operatorRequest s) ↔ Owed s (some t) := by
  rw [Owed]
  split
  · next hs => exact iff_of_true (obeys_of_exits_eq_nil hs) trivial
  · next e es hs =>
    rw [obeys_iff (r := stop .operatorRequest s) hs]
    simp [stop, stopped_some, ht]

theorem obeys_hvfError_iff : Obeys (stop .hvfError s) ↔ ∀ e ∈ s.exits, e.Settled := by
  cases hs : s.exits with
  | nil => exact iff_of_true (obeys_of_exits_eq_nil hs) (by simp)
  | cons e es =>
    rw [obeys_iff (r := stop .hvfError s) hs, List.forall_mem_cons, ExitRecord.Settled, and_comm]
    simp [stop]

section Run

variable {api : VcpuApi ν} {regs : ν → Reg → UInt64} {s : LoopState ν β}

theorem loopHead_settles (hapi : RegisterFile api regs) {t : Turn ν β} (ht : t.stops = false)
    (hs : s.exits = [] → s.pendingAdvancePc = false) :
    ∃ s', loopHead api t s = .next s' ∧ ((∀ e ∈ s'.exits, e.Settled) ↔ Owed s (some t)) := by
  cases hpend : s.pendingAdvancePc with
  | false =>
    refine ⟨s, by rw [loopHead_go ht, hpend]; rfl, ?_⟩
    rw [Owed]
    split
    · next hnil => simp [hnil]
    · next e es hcons => simp [hcons, stopped_some, ht, hpend, ExitRecord.Settled, and_comm]
  | true =>
    obtain ⟨v, hv, -⟩ := loopHead_advance hapi ht hpend
    refine ⟨_, hv, ?_⟩
    rw [Owed]
    split
    · next hnil => exact absurd (hs hnil) (by simp [hpend])
    · next e es hcons =>
      simp only [LoopState.exits_perform hcons, List.forall_mem_cons, stopped_some, ht, hpend]
      have hquiet : ExitRecord.Quiet { e with
          actions := e.actions ++ [.setReg .pc (regs s.vcpu .pc + 4)] } ↔
          e.info.reason = .exception :=
        quiet_iff_of_guarded ⟨_, List.mem_append_right _ (List.mem_singleton_self _), rfl⟩
      rw [ExitRecord.Settled, hquiet, and_comm]
      refine and_congr_right fun _ => ⟨fun h => ?_, fun h => ?_⟩
      · exact ⟨fun hne => absurd h.1 hne, fun hne => absurd h.1 hne, fun hc => absurd hc h.2⟩
      · exact ⟨by_contra fun hne => Bool.false_ne_true (h.2.1 hne trivial),
          fun hc => Bool.false_ne_true (h.2.2 hc)⟩

variable {bus : Bus β} {s' : LoopState ν β}

theorem owed_of_next (hapi : RegisterFile api regs) (hc : handleExit api bus s = .next s')
    (next : Option (Turn ν β)) :
    s'.exits ≠ [] ∧ (Owed s' next ↔
      (∀ e ∈ s.exits, e.Settled) ∧ Harmless (api.getExitInfo s.vcpu) next) := by
  obtain ⟨acts, hexits, hresp⟩ := handleExit_response hapi bus s
  rw [hc] at hexits hresp
  refine ⟨?_, ?_⟩
  · rw [show s'.exits = _ from hexits]
    exact List.cons_ne_nil _ _
  rw [Owed, Harmless, show s'.exits = _ from hexits]
  refine and_congr_right fun _ => ?_
  cases hr : response (decode (api.getExitInfo s.vcpu).syndrome) <;> rw [hr] at hresp
  case acts =>
    rw [quiet_iff_of_guarded hresp]
    simp +contextual
  case advances =>
    obtain ⟨rfl, s₁, h₁, hpend⟩ := hresp
    cases h₁
    cases (api.getExitInfo s.vcpu).reason <;> simp [quiet_nil, hpend]
  case waits =>
    obtain ⟨rfl, s₁, h₁, hpend⟩ := hresp
    cases h₁
    cases (api.getExitInfo s.vcpu).reason <;> simp [quiet_nil, hpend]
  case faults =>
    obtain ⟨-, s₁, h₁, -⟩ := hresp
    cases h₁

theorem obeys_of_brk (hapi : RegisterFile api regs) (hc : handleExit api bus s = .brk s')
    (next : Option (Turn ν β)) :
    Obeys (.brk s') ↔ (∀ e ∈ s.exits, e.Settled) ∧ Harmless (api.getExitInfo s.vcpu) next := by
  obtain ⟨acts, hexits, hresp⟩ := handleExit_response hapi bus s
  rw [hc] at hexits hresp
  rw [obeys_iff hexits, Harmless]
  cases hr : response (decode (api.getExitInfo s.vcpu).syndrome) <;> rw [hr] at hresp
  case acts =>
    rw [quiet_iff_of_guarded hresp]
    simp +contextual
  case faults =>
    obtain ⟨rfl, s₁, h₁, hfault⟩ := hresp
    cases h₁
    cases (api.getExitInfo s.vcpu).reason <;> simp [quiet_nil, hfault]
  all_goals
    obtain ⟨-, s₁, h₁, -⟩ := hresp
    cases h₁

theorem obeys_iff_owed (hapi : RegisterFile api regs) (bus : Bus β) :
    ∀ (ts : List (Turn ν β)) (s : LoopState ν β), (s.exits = [] → s.pendingAdvancePc = false) →
      (Obeys (runLoop api bus ts s) ↔
        Owed s ts.head? ∧ ∀ p ∈ exitsOf api bus ts s, Harmless p.1 p.2)
  | [], s, _ => by
    rw [runLoop, obeys_next_iff]
    simp [exitsOf]
  | t :: ts, s, hs => by
    rw [runLoop, iterate, exitsOf, List.head?_cons]
    cases ht : t.stops with
    | true =>
      rw [loopHead_stop ht]
      exact (obeys_stop_iff ht).trans (by simp [stop])
    | false =>
      obtain ⟨s₁, h₁, hsettled⟩ := loopHead_settles hapi ht hs
      simp only [h₁, ← hsettled]
      cases t.guest s₁.vcpu with
      | error err => exact obeys_hvfError_iff.trans (by simp)
      | ok v =>
        dsimp only
        rw [List.forall_mem_cons, ← and_assoc]
        cases h₂ : handleExit api bus (s₁.leave t v) with
        | next s₂ =>
          obtain ⟨hne, howed⟩ := owed_of_next hapi h₂ ts.head?
          exact (obeys_iff_owed hapi bus ts s₂ fun h => absurd h hne).trans
            (and_congr_left fun _ => howed)
        | brk s₂ =>
          exact (obeys_of_brk hapi h₂ ts.head?).trans (by simp [LoopState.leave])

/-- **A run of the loop acts only on exceptions, and is ended with `operatorRequest` by a
cancellation, exactly if each of its exits is harmless.** -/
theorem runLoop_obeys_iff (hapi : RegisterFile api regs) (bus : Bus β) (vcpu : ν) (devices : β)
    (turns : List (Turn ν β)) :
    Obeys (runLoop api bus turns (bootState vcpu devices)) ↔
      ∀ p ∈ exitsOf api bus turns (bootState vcpu devices), Harmless p.1 p.2 :=
  (obeys_iff_owed hapi bus turns _ fun _ => rfl).trans (and_iff_right trivial)

end Run

section Scenario

def exitWith (shutdown : Bool) (x0 : UInt64) (reason : ExitReason) (syndrome : UInt64) :
    Turn PlainVcpu Unit where
  shutdown := shutdown
  expired := false
  guest v := .ok ⟨Function.update v.regs .x0 x0, ⟨reason, syndrome, 0⟩⟩
  others := id

def wfiSyndrome : UInt64 := 0x06000000

def hvcSyndrome : UInt64 := 0x5A000000

def runFromZero (turns : List (Turn PlainVcpu Unit)) : Ctl (LoopState PlainVcpu Unit) :=
  runLoop plainApi Bus.empty turns (bootState ⟨fun _ => 0, ⟨.unknown, 0, 0⟩⟩ ())

theorem runLoop_obeys_canceled_after_wfi :
    Obeys (runFromZero [exitWith false 0 .exception wfiSyndrome,
      exitWith false 0 .canceled wfiSyndrome, exitWith true 0 .exception 0]) := by
  refine (runLoop_obeys_iff registerFile_plainApi Bus.empty _ () _).2 fun p hp => ?_
  obtain rfl | hp := List.mem_cons.1 hp
  · exact .inl rfl
  · obtain rfl := List.mem_singleton.1 hp
    exact .inr fun _ t ht => by cases ht; rfl

/-- The syndrome of a hypercall is left over at a cancellation: the loop dispatches a second call
and goes on. -/
theorem canceled_dispatches_psci :
    ∃ s, runFromZero [exitWith false 0x84000000 .exception hvcSyndrome,
        exitWith false 5 .canceled hvcSyndrome] = .next s ∧
      s.exits.head? = some ⟨⟨.canceled, hvcSyndrome, 0⟩,
        [.psci 5 0 0 0, .setReg .x0 0xFFFFFFFFFFFFFFFF]⟩ :=
  ⟨_, rfl, rfl⟩

end Scenario

end Squib.Runner
