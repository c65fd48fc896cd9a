import Squib.Api.Http
import Squib.Lib.Stateful

/-!
# Replay of a configuration file
-/

namespace Squib.Api

open Checked Stateful

structure ConfigFile where
  bootSource : Option RawBootSourceConfig := none
  drives : List RawDriveConfig := []
  machineConfig : Option RawMachineConfig := none
  cpuConfig : Option RawCpuConfig := none
  networkInterfaces : List RawNetworkInterfaceConfig := []
  vsock : Option RawVsockConfig := none
  mmdsConfig : Option RawMmdsConfig := none
  mmds : Option Json := none
  balloon : Option RawBalloonConfig := none
  entropy : Option RawEntropyConfig := none
  serial : Option RawSerialConfig := none
  pmem : List RawPmemConfig := []
  hotplugMemory : Option RawHotplugMemoryConfig := none
  logger : Option RawLoggerConfig := none
  metrics : Option RawMetricsConfig := none

inductive ReplayError where
  | missingBootSource
  | collectionCap (field : String) (max : ℕ)
  | validation (msg : String)
  | dispatch (label : String) (source : ApiError)
  | fault (label : String) (status : UInt16) (faultMessage : String)
  deriving DecidableEq

abbrev Replay (σ : Type) := EStateM ReplayError (Link σ)

namespace Replay

variable {σ : Type}

def throwIf (c : Prop) [Decidable c] (e : ReplayError) : Replay σ Unit :=
  if c then throw e else pure ()

def dispatch (vmm : Vmm σ) (action : ApiAction) : Replay σ Unit := fun l =>
  match Api.dispatch vmm action l with
  | (.error e, l) => .error (.dispatch action.label e) l
  | (.ok (.fault status faultMessage), l) => .error (.fault action.label status faultMessage) l
  | (.ok _, l) => .ok () l

def put {ρ α : Type} (vmm : Vmm σ) (tryFrom : ρ → Except String α) (action : α → ApiAction)
    (raw : ρ) : Replay σ Unit :=
  match tryFrom raw with
  | .error msg => throw (.validation msg)
  | .ok validated => dispatch vmm (action validated)

def start (vmm : Vmm σ) (startMicrovm : Bool) : Replay σ Unit :=
  if startMicrovm then dispatch vmm (.action .instanceStart) else pure ()

end Replay

open Replay in
def replayConfig {σ : Type} (vmm : Vmm σ) (cfg : ConfigFile) (startMicrovm : Bool) :
    Replay σ Unit := do
  throwIf (cfg.bootSource.isNone = true) .missingBootSource
  throwIf (MAX_DRIVES < cfg.drives.length) (.collectionCap "drives" MAX_DRIVES)
  throwIf (MAX_NICS < cfg.networkInterfaces.length) (.collectionCap "network-interfaces" MAX_NICS)
  throwIf (MAX_PMEM < cfg.pmem.length) (.collectionCap "pmem" MAX_PMEM)
  cfg.machineConfig.toList.forM (put vmm MachineConfig.tryFrom .putMachineConfig)
  cfg.cpuConfig.toList.forM (put vmm CpuConfig.tryFrom .putCpuConfig)
  cfg.bootSource.toList.forM (put vmm BootSourceConfig.tryFrom .putBootSource)
  cfg.drives.forM (put vmm DriveConfig.tryFrom .putDrive)
  cfg.networkInterfaces.forM (put vmm NetworkInterfaceConfig.tryFrom .putNetwork)
  cfg.vsock.toList.forM (put vmm VsockConfig.tryFrom .putVsock)
  cfg.mmdsConfig.toList.forM (put vmm MmdsConfig.tryFrom .putMmdsConfig)
  cfg.mmds.toList.forM fun value => Replay.dispatch vmm (.putMmds ⟨value⟩)
  cfg.balloon.toList.forM (put vmm BalloonConfig.tryFrom .putBalloon)
  cfg.entropy.toList.forM (put vmm EntropyConfig.tryFrom .putEntropy)
  cfg.serial.toList.forM (put vmm SerialConfig.tryFrom .putSerial)
  cfg.pmem.forM (put vmm PmemConfig.tryFrom .putPmem)
  cfg.hotplugMemory.toList.forM (put vmm HotplugMemoryConfig.tryFrom .putHotplugMemory)
  cfg.logger.toList.forM (put vmm LoggerConfig.tryFrom .putLogger)
  cfg.metrics.toList.forM (put vmm MetricsConfig.tryFrom .putMetrics)
  start vmm startMicrovm

/-! ## The requests -/

def ConfigFile.puts (cfg : ConfigFile) : List Put :=
  cfg.machineConfig.toList.map Put.machineConfig ++ cfg.cpuConfig.toList.map Put.cpuConfig ++
  cfg.bootSource.toList.map Put.bootSource ++ cfg.drives.map (fun raw => Put.drive raw.driveId raw) ++
  cfg.networkInterfaces.map (fun raw => Put.network raw.ifaceId raw) ++ cfg.vsock.toList.map Put.vsock ++
  cfg.mmdsConfig.toList.map Put.mmdsConfig ++ cfg.mmds.toList.map Put.mmds ++
  cfg.balloon.toList.map Put.balloon ++ cfg.entropy.toList.map Put.entropy ++
  cfg.serial.toList.map Put.serial ++ cfg.pmem.map (fun raw => Put.pmem raw.pmemId raw) ++
  cfg.hotplugMemory.toList.map Put.hotplugMemory ++ cfg.logger.toList.map Put.logger ++
  cfg.metrics.toList.map Put.metrics

def startPuts (startMicrovm : Bool) : List Put := if startMicrovm then [.actions .instanceStart] else []

def ReplayError.response : ReplayError → Option Response
  | .missingBootSource | .collectionCap _ _ => none
  | .validation msg => some (ApiError.badRequest msg).intoResponse
  | .dispatch _ source => some source.intoResponse
  | .fault _ status faultMessage => some (finish (.fault status faultMessage))

section Agrees

variable {σ : Type} {vmm : Vmm σ} {m m' : Replay σ Unit} {ps qs : List Put}

def Matches (result : EStateM.Result ReplayError (Link σ) Unit) (out : List Response × Link σ) :
    Prop :=
  match result with
  | .ok _ l => out.2 = l ∧ ∀ r ∈ out.1, r.rejected = false
  | .error e l => out.2 = l ∧ ∃ rs r, out.1 = rs ++ [r] ∧ (∀ x ∈ rs, x.rejected = false) ∧
      r.rejected = true ∧ e.response = some r

theorem Matches.endState_eq {result : EStateM.Result ReplayError (Link σ) Unit}
    {out : List Response × Link σ} (h : Matches result out) : out.2 = endState result := by
  cases result with
  | ok u l | error e l => exact h.1

variable (vmm) in
def Agrees (m : Replay σ Unit) (puts : List Put) : Prop := ∀ l, Matches (m l) (issue vmm puts l)

variable {l : Link σ} {r : Response}

theorem issue_append_of_accepted (h : ∀ r ∈ (issue vmm ps l).1, r.rejected = false) :
    issue vmm (ps ++ qs) l =
      ((issue vmm ps l).1 ++ (issue vmm qs (issue vmm ps l).2).1,
        (issue vmm qs (issue vmm ps l).2).2) := by
  induction ps generalizing l with
  | nil => rfl
  | cons p ps ih =>
    rw [issue] at h
    rw [List.cons_append, issue, issue]
    dsimp only at h ⊢
    cases hr : (request vmm p l).1.rejected with
    | true =>
      rw [hr, if_pos rfl] at h
      exact absurd (h _ (List.mem_singleton_self _)) (by rw [hr]; decide)
    | false =>
      rw [hr, if_neg (by decide)] at h
      rw [if_neg (by decide), if_neg (by decide), ih fun r hr => h r (List.mem_cons_of_mem _ hr)]
      rfl

theorem issue_append_of_rejected (hr : r ∈ (issue vmm ps l).1) (h : r.rejected = true) :
    issue vmm (ps ++ qs) l = issue vmm ps l := by
  induction ps generalizing l with
  | nil => cases hr
  | cons p ps ih =>
    rw [issue] at hr
    rw [List.cons_append, issue, issue]
    dsimp only at hr ⊢
    cases hp : (request vmm p l).1.rejected with
    | true => rfl
    | false =>
      rw [hp, if_neg (by decide)] at hr
      rw [if_neg (by decide), if_neg (by decide)]
      rcases List.mem_cons.1 hr with rfl | hr
      · rw [h] at hp
        cases hp
      · rw [ih hr]

theorem Agrees.pure : Agrees vmm (pure () : Replay σ Unit) [] :=
  fun _ => ⟨rfl, fun _ hr => by cases hr⟩

theorem Agrees.seq (h : Agrees vmm m ps) (h' : Agrees vmm m' qs) :
    Agrees vmm (do m; m') (ps ++ qs) := by
  intro l
  change Matches (EStateM.bind m (fun _ => m') l) _
  have hm := h l
  unfold EStateM.bind
  cases hres : m l with
  | error e l' =>
    rw [hres] at hm
    obtain ⟨hend, rs, r, hrs, haccepted, hrejected, he⟩ := hm
    rw [issue_append_of_rejected (hrs ▸ List.mem_append_right _ (List.mem_singleton_self r))
      hrejected]
    exact ⟨hend, rs, r, hrs, haccepted, hrejected, he⟩
  | ok u l' =>
    rw [hres] at hm
    obtain ⟨rfl, haccepted⟩ := hm
    rw [issue_append_of_accepted haccepted]
    have hm' := h' (issue vmm ps l).2
    dsimp only
    cases hres' : m' (issue vmm ps l).2 with
    | ok u' l'' =>
      rw [hres'] at hm'
      refine ⟨hm'.1, fun r hr => ?_⟩
      rcases List.mem_append.1 hr with hr | hr
      · exact haccepted r hr
      · exact hm'.2 r hr
    | error e l'' =>
      rw [hres'] at hm'
      obtain ⟨hend, rs, r, hrs, hrest, hrejected, he⟩ := hm'
      refine ⟨hend, (issue vmm ps l).1 ++ rs, r, ?_, fun x hx => ?_, hrejected, he⟩
      · rw [hrs, List.append_assoc]
      · rcases List.mem_append.1 hx with hx | hx
        · exact haccepted x hx
        · exact hrest x hx

variable {ρ : Type} {e : ReplayError} {p : Put}

theorem Agrees.forM {f : ρ → Replay σ Unit} {g : ρ → Put} (h : ∀ raw, Agrees vmm (f raw) [g raw])
    (raws : List ρ) : Agrees vmm (raws.forM f) (raws.map g) := by
  induction raws with
  | nil => exact .pure
  | cons raw raws ih => exact (h raw).seq ih

theorem issue_singleton (p : Put) (l : Link σ) :
    issue vmm [p] l = ([(request vmm p l).1], (request vmm p l).2) := by
  rw [issue]
  dsimp only
  split_ifs
  · rfl
  · rfl

theorem matches_rejected (h : r.rejected = true) (he : e.response = some r) :
    Matches (.error e l) ([r], l) :=
  ⟨rfl, [], r, rfl, List.forall_mem_nil _, h, he⟩

theorem matches_accepted (h : r.rejected = false) : Matches (.ok () l) ([r], l) :=
  ⟨rfl, fun x hx => by rw [List.mem_singleton.1 hx, h]⟩

theorem Agrees.dispatch {a : ApiAction} (h : p.action = .ok a) :
    Agrees vmm (Replay.dispatch vmm a) [p] := by
  intro l
  rw [issue_singleton, request, h]
  dsimp only
  unfold Replay.dispatch
  rcases Api.dispatch vmm a l with ⟨e | resp, l'⟩
  · exact matches_rejected rfl rfl
  · cases resp with
    | noContent | json value => exact matches_accepted rfl
    | fault status faultMessage => exact matches_rejected rfl rfl

theorem Agrees.put {α : Type} {tryFrom : ρ → Except String α} {action : α → ApiAction} {raw : ρ}
    (h : p.action = bad (action <$> tryFrom raw)) :
    Agrees vmm (Replay.put vmm tryFrom action raw) [p] := by
  rw [Replay.put]
  cases hraw : tryFrom raw with
  | ok validated => exact .dispatch (by rw [h, hraw]; rfl)
  | error msg =>
    intro l
    rw [issue_singleton, request, h, hraw]
    exact matches_rejected rfl rfl

theorem putDevice_self (what field : String) (id : List UInt8) (action : Except String ApiAction) :
    putDevice what field id id action = bad action := by
  rw [putDevice, Checked.rejectIf, if_neg (not_not.2 rfl)]
  rfl

theorem Agrees.start (startMicrovm : Bool) :
    Agrees vmm (Replay.start vmm startMicrovm) (startPuts startMicrovm) := by
  cases startMicrovm with
  | false => exact .pure
  | true => exact .dispatch rfl

theorem Agrees.throwIf {c : Prop} [Decidable c] (hc : ¬ c) (h : Agrees vmm m ps) :
    Agrees vmm (do Replay.throwIf c e; m) ps := by
  rw [Replay.throwIf, if_neg hc]
  exact h

theorem agrees_replayConfig (cfg : ConfigFile) (startMicrovm : Bool)
    (hboot : cfg.bootSource.isSome = true) (hdrives : cfg.drives.length ≤ MAX_DRIVES)
    (hnics : cfg.networkInterfaces.length ≤ MAX_NICS) (hpmem : cfg.pmem.length ≤ MAX_PMEM) :
    Agrees vmm (replayConfig vmm cfg startMicrovm) (cfg.puts ++ startPuts startMicrovm) := by
  have hsome : ¬ cfg.bootSource.isNone = true := by
    rw [Option.isNone_iff_eq_none]
    exact Option.isSome_iff_ne_none.1 hboot
  simp only [ConfigFile.puts, List.append_assoc]
  refine .throwIf hsome (.throwIf (Nat.not_lt.2 hdrives)
    (.throwIf (Nat.not_lt.2 hnics) (.throwIf (Nat.not_lt.2 hpmem) ?_)))
  refine .seq (.forM (fun _ => .put rfl) _) ?_
  refine .seq (.forM (fun _ => .put rfl) _) ?_
  refine .seq (.forM (fun _ => .put rfl) _) ?_
  refine .seq (.forM (fun _ => .put ?_) _) ?_
  · exact putDevice_self ..
  refine .seq (.forM (fun _ => .put ?_) _) ?_
  · exact putDevice_self ..
  refine .seq (.forM (fun _ => .put rfl) _) ?_
  refine .seq (.forM (fun _ => .put rfl) _) ?_
  refine .seq (.forM (fun _ => .dispatch rfl) _) ?_
  refine .seq (.forM (fun _ => .put rfl) _) ?_
  refine .seq (.forM (fun _ => .put rfl) _) ?_
  refine .seq (.forM (fun _ => .put rfl) _) ?_
  refine .seq (.forM (fun _ => .put ?_) _) ?_
  · exact putDevice_self ..
  refine .seq (.forM (fun _ => .put rfl) _) ?_
  refine .seq (.forM (fun _ => .put rfl) _) ?_
  refine .seq (.forM (fun _ => .put rfl) _) ?_
  exact .start startMicrovm

end Agrees

/-! ## The start comes last -/

section Start

variable {σ : Type} {vmm : Vmm σ}

structure Hands (puts : List Put) (accepted : Prop) (log : List (ApiAction × Reply)) : Prop where
  length : log.length ≤ puts.length
  mem : ∀ x ∈ log, ∃ p ∈ puts, p.action = .ok x.1
  all : accepted → log.map (fun x => .ok x.1) = puts.map Put.action
  success : accepted → ∀ x ∈ log, x.2.isSuccess = true

theorem delivered_dispatch (a : ApiAction) (l : Link σ) :
    ∃ log, (dispatch vmm a l).2.delivered = l.delivered ++ log ∧ (∀ x ∈ log, x.1 = a) ∧
      log.length ≤ 1 ∧ ∀ resp, (dispatch vmm a l).1 = .ok resp → log = [(a, .response resp)] := by
  unfold dispatch
  rcases hfinds : vmm.finds l.vmm l.limits with ⟨phase, limits, s⟩
  dsimp only
  cases validatePhase phase a with
  | error e => exact ⟨[], by simp, by simp, by simp, by simp⟩
  | ok u =>
    cases validateCrossField limits a with
    | error e => exact ⟨[], by simp, by simp, by simp, by simp⟩
    | ok u' =>
      unfold Link.send
      dsimp only
      rcases hserve : vmm.serve a s limits with ⟨reply, limits', s'⟩
      cases reply with
      | gone => exact ⟨[], by simp, by simp, by simp, by simp⟩
      | dropped => exact ⟨[(a, .dropped)], by simp, by simp, by simp, by simp⟩
      | late => exact ⟨[(a, .late)], by simp, by simp, by simp, by simp⟩
      | response resp => exact ⟨[(a, .response resp)], by simp, by simp, by simp, by simp⟩

theorem hands_request (p : Put) (l : Link σ) :
    ∃ log, (request vmm p l).2.delivered = l.delivered ++ log ∧
      Hands [p] ((request vmm p l).1.rejected = false) log := by
  unfold request
  cases haction : p.action with
  | error e =>
    exact ⟨[], by simp, by simp, by simp, fun h => (by cases h), fun h => (by cases h)⟩
  | ok a =>
    obtain ⟨log, hlog, hmem, hlen, hok⟩ := @delivered_dispatch σ vmm a l
    dsimp only
    have hmem' : ∀ x ∈ log, ∃ p' ∈ [p], p'.action = .ok x.1 :=
      fun x hx => ⟨p, List.mem_singleton_self p, by rw [haction, hmem x hx]⟩
    rcases hres : dispatch vmm a l with ⟨e | resp, l'⟩
    · rw [hres] at hlog
      exact ⟨log, hlog, hlen, hmem', fun h => (by cases h), fun h => (by cases h)⟩
    · rw [hres] at hlog hok
      obtain rfl := hok resp rfl
      refine ⟨_, hlog, hlen, hmem', fun _ => by simp [haction], fun h x hx => ?_⟩
      rw [rejected_finish] at h
      rw [List.mem_singleton.1 hx]
      exact (Bool.not_eq_false' ..).mp h

theorem hands_issue (puts : List Put) (l : Link σ) :
    ∃ log, (issue vmm puts l).2.delivered = l.delivered ++ log ∧
      Hands puts (∀ r ∈ (issue vmm puts l).1, r.rejected = false) log := by
  induction puts generalizing l with
  | nil => exact ⟨[], by simp [issue], by simp, by simp, by simp, by simp⟩
  | cons p ps ih =>
    obtain ⟨log, hlog, hhands⟩ := @hands_request σ vmm p l
    rw [issue]
    dsimp only
    cases hr : (request vmm p l).1.rejected with
    | true =>
      refine ⟨log, hlog, Nat.le_trans hhands.length (by simp), ?_, fun h => ?_, fun h => ?_⟩
      · intro x hx
        obtain ⟨q, hq, haction⟩ := hhands.mem x hx
        exact ⟨q, by rw [List.mem_singleton.1 hq]; exact List.mem_cons_self, haction⟩
      · exact absurd (h _ (List.mem_singleton_self _)) (by rw [hr]; decide)
      · exact absurd (h _ (List.mem_singleton_self _)) (by rw [hr]; decide)
    | false =>
      obtain ⟨log', hlog', hhands'⟩ := ih (request vmm p l).2
      rw [if_neg (by decide)]
      refine ⟨log ++ log', by rw [hlog', hlog, List.append_assoc], ?_, ?_, fun h => ?_, fun h => ?_⟩
      · have hlen := Nat.add_le_add hhands.length hhands'.length
        rw [List.length_append, List.length_cons]
        simpa [Nat.add_comm] using hlen
      · intro x hx
        rcases List.mem_append.1 hx with hx | hx
        · obtain ⟨q, hq, haction⟩ := hhands.mem x hx
          exact ⟨q, by rw [List.mem_singleton.1 hq]; exact List.mem_cons_self, haction⟩
        · obtain ⟨q, hq, haction⟩ := hhands'.mem x hx
          exact ⟨q, List.mem_cons_of_mem _ hq, haction⟩
      · rw [List.map_append, hhands.all hr, hhands'.all fun r hr' => h r (List.mem_cons_of_mem _ hr')]
        rfl
      · intro x hx
        rcases List.mem_append.1 hx with hx | hx
        · exact hhands.success hr x hx
        · exact hhands'.success (fun r hr' => h r (List.mem_cons_of_mem _ hr')) x hx

theorem ne_start_of_mem_puts {cfg : ConfigFile} {p : Put} {a : ApiAction} (hp : p ∈ cfg.puts)
    (h : p.action = .ok a) : a ≠ .action .instanceStart := by
  rintro rfl
  cases p with
  | actions verb => simp [ConfigFile.puts] at hp
  | mmds | balloon | entropy => cases h
  | drive id raw | network id raw | pmem id raw =>
    simp only [Put.action, putDrive, putNetwork, putPmem, putDevice, bad, bind_eq_ok, mapError_eq_ok,
      map_eq_ok] at h
    obtain ⟨-, -, cfg, -, h⟩ := h
    cases h
  | _ =>
    obtain ⟨cfg, -, h⟩ := map_eq_ok.1 (mapError_eq_ok.1 h)
    cases h

def StartLast (cfg : ConfigFile) (log : List (ApiAction × Reply)) : Prop :=
  ∀ pre x post, log = pre ++ x :: post → x.1 = .action .instanceStart →
    post = [] ∧ pre.map (fun y => .ok y.1) = cfg.puts.map Put.action ∧
      ∀ y ∈ pre, y.2.isSuccess = true

theorem startLast_issue (cfg : ConfigFile) (startMicrovm : Bool) (l : Link σ) :
    ∃ log, (issue vmm (cfg.puts ++ startPuts startMicrovm) l).2.delivered = l.delivered ++ log ∧
      StartLast cfg log := by
  obtain ⟨log, hlog, hhands⟩ := @hands_issue σ vmm cfg.puts l
  have hconfig : ∀ x ∈ log, x.1 ≠ .action .instanceStart := by
    intro x hx
    obtain ⟨p, hp, haction⟩ := hhands.mem x hx
    exact ne_start_of_mem_puts hp haction
  by_cases haccepted : ∀ r ∈ (issue vmm cfg.puts l).1, r.rejected = false
  · obtain ⟨log', hlog', hhands'⟩ := @hands_issue σ vmm (startPuts startMicrovm) (issue vmm cfg.puts l).2
    rw [issue_append_of_accepted haccepted]
    refine ⟨log ++ log', by rw [hlog', hlog, List.append_assoc], ?_⟩
    intro pre x post hsplit hx
    have hlen : log'.length ≤ 1 := Nat.le_trans hhands'.length (by cases startMicrovm <;> decide)
    -- The start is not among the actions of the configuration, so it is the one after them.
    rcases List.append_eq_append_iff.1 hsplit with ⟨mid, rfl, hmid⟩ | ⟨mid, rfl, hmid⟩
    · rw [hmid, List.length_append, List.length_cons] at hlen
      have hmid_nil : mid = [] := List.eq_nil_of_length_eq_zero (by omega)
      have hpost_nil : post = [] := List.eq_nil_of_length_eq_zero (by omega)
      subst hmid_nil
      rw [List.append_nil]
      exact ⟨hpost_nil, hhands.all haccepted, hhands.success haccepted⟩
    · cases mid with
      | nil =>
        rw [List.nil_append] at hmid
        rw [← hmid, List.length_cons] at hlen
        have hpost_nil : post = [] := List.eq_nil_of_length_eq_zero (by omega)
        rw [List.append_nil] at hhands
        exact ⟨hpost_nil, hhands.all haccepted, hhands.success haccepted⟩
      | cons y mid =>
        cases hmid
        exact absurd hx (hconfig x (by simp))
  · push Not at haccepted
    obtain ⟨r, hr, hrejected⟩ := haccepted
    rw [issue_append_of_rejected hr (by simpa using hrejected)]
    refine ⟨log, hlog, ?_⟩
    rintro pre x post rfl hx
    exact absurd hx (hconfig x (by simp))

/-- **A replay is the requests of the file**, up to the first one that is rejected; the start comes
last. -/
theorem replay_agrees (vmm : Vmm σ) (cfg : ConfigFile) (startMicrovm : Bool) (l : Link σ)
    (hboot : cfg.bootSource.isSome = true) (hdrives : cfg.drives.length ≤ MAX_DRIVES)
    (hnics : cfg.networkInterfaces.length ≤ MAX_NICS) (hpmem : cfg.pmem.length ≤ MAX_PMEM) :
    Matches (replayConfig vmm cfg startMicrovm l)
        (issue vmm (cfg.puts ++ startPuts startMicrovm) l) ∧
      ∃ log, (endState (replayConfig vmm cfg startMicrovm l)).delivered = l.delivered ++ log ∧
        StartLast cfg log := by
  have hmatches := @agrees_replayConfig σ vmm cfg startMicrovm hboot hdrives hnics hpmem l
  rw [← hmatches.endState_eq]
  exact ⟨hmatches, startLast_issue cfg startMicrovm l⟩

section Scenario

def smallFile : ConfigFile where
  bootSource := some { kernelImagePath := Text.bytes "/vmlinux" }
  machineConfig := some { vcpuCount := 1, memSizeMib := 64 }

def freshLink : Link (VmmLoop.VmmState Unit × Bool) :=
  { limits := .fromHostRamMib 4096, vmm := ({}, false) }

theorem replay_agrees_smallFile :
    returned (replayConfig (serverVmm quiet) smallFile true freshLink) = true ∧
      ∀ r ∈ (issue (serverVmm quiet) (smallFile.puts ++ startPuts true) freshLink).1,
        r.rejected = false := by
  have hreturned : returned (replayConfig (serverVmm quiet) smallFile true freshLink) = true := by
    decide +kernel
  have hmatches := (replay_agrees (serverVmm quiet) smallFile true freshLink rfl (by decide)
    (by decide) (by decide)).1
  rw [eq_ok_of_returned hreturned] at hmatches
  exact ⟨hreturned, hmatches.2⟩

end Scenario

end Start

end Squib.Api
