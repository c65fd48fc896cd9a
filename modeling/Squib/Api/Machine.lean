import Squib.Api.Requests

/-!
# The machine configuration across requests
-/

namespace Squib.Api

open Checked Run VmmLoop

variable {β : Type}

/-! ## Memory and balloons -/

def ApiAction.balloon : ApiAction → Option UInt64
  | .putBalloon b => some b.amountMib
  | .patchBalloon u => some u.amountMib
  | _ => none

def lastBalloon (log : List ApiAction) : Option UInt64 :=
  log.foldl (fun last a => a.balloon.or last) none

theorem lastBalloon_append (log : List ApiAction) (a : ApiAction) :
    lastBalloon (log ++ [a]) = a.balloon.or (lastBalloon log) := by
  rw [lastBalloon, List.foldl_append]
  rfl

-- By the option, never by enumeration of the amounts.
instance decidableForallLe (amount : Option UInt64) (limit : UInt64) :
    Decidable (∀ b ∈ amount, b ≤ limit) :=
  amount.decidableForallMem

def FitsIn (s : Session β) (mem : UInt64) : Prop :=
  mem ≤ s.server.limits.hostRamMib ∧ ∀ b ∈ lastBalloon s.accepted, b ≤ maxBalloon mem

instance (s : Session β) (mem : UInt64) : Decidable (FitsIn s mem) :=
  inferInstanceAs (Decidable
    (mem ≤ s.server.limits.hostRamMib ∧ ∀ b ∈ lastBalloon s.accepted, b ≤ maxBalloon mem))

def StartFits (s : Session β) (r : Surroundings β × ApiAction) : Prop :=
  r.2 = .action .instanceStart → succeeded (s.server.request r.1 r.2).1 = true →
    ∃ machine ∈ s.server.vmm.boot.machineConfig, FitsIn s machine.memSizeMib.get

instance (s : Session β) (r : Surroundings β × ApiAction) : Decidable (StartFits s r) :=
  inferInstanceAs (Decidable (r.2 = .action .instanceStart →
    succeeded (s.server.request r.1 r.2).1 = true →
      ∃ machine ∈ s.server.vmm.boot.machineConfig, FitsIn s machine.memSizeMib.get))

namespace ApiAction

def machineConfig? : ApiAction → Option MachineConfig
  | .putMachineConfig cfg => some cfg
  | _ => none

def machineConfigPatch? : ApiAction → Option MachineConfigPatch
  | .patchMachineConfig patch => some patch
  | _ => none

def balloonConfig? : ApiAction → Option BalloonConfig
  | .putBalloon b => some b
  | _ => none

end ApiAction

def Sized (s : Session β) (r : Surroundings β × ApiAction) : Prop :=
  s.server.vmm.phase.isPreBoot = true →
    (∀ cfg ∈ r.2.machineConfig?, ∀ b ∈ lastBalloon s.accepted,
      b ≤ maxBalloon cfg.memSizeMib.get) ∧
    (∀ patch ∈ r.2.machineConfigPatch?, ∀ mem ∈ patch.memSizeMib, FitsIn s mem.get) ∧
    ∀ b ∈ r.2.balloonConfig?, ∀ machine ∈ s.server.vmm.boot.machineConfig,
      b.amountMib ≤ maxBalloon machine.memSizeMib.get

instance (s : Session β) (r : Surroundings β × ApiAction) : Decidable (Sized s r) :=
  inferInstanceAs (Decidable (s.server.vmm.phase.isPreBoot = true →
    (∀ cfg ∈ r.2.machineConfig?, ∀ b ∈ lastBalloon s.accepted,
      b ≤ maxBalloon cfg.memSizeMib.get) ∧
    (∀ patch ∈ r.2.machineConfigPatch?, ∀ mem ∈ patch.memSizeMib, FitsIn s mem.get) ∧
    ∀ b ∈ r.2.balloonConfig?, ∀ machine ∈ s.server.vmm.boot.machineConfig,
      b.amountMib ≤ maxBalloon machine.memSizeMib.get))

def Fitting (s : Session β) : Prop :=
  s.server.vmm.phase.isPreBoot = true →
    ∀ machine ∈ s.server.vmm.boot.machineConfig, FitsIn s machine.memSizeMib.get

section Memory

variable {s s' : Session β} {r : Surroundings β × ApiAction}

theorem hostRamMib_apply (g : LimitsState) (kick : ActionCounterKick) :
    (kick.apply g).hostRamMib = g.hostRamMib := by
  cases kick <;> rfl

variable {a : ApiAction}

theorem isPreBoot_of_validatePhase {phase : LifecyclePhase} (h : validatePhase phase a = .ok ())
    (hphase : phase.isPreBoot = true) : a.isPreBoot = true := by
  obtain ⟨-, rfl | ⟨-, ha⟩ | ⟨hpost, -⟩⟩ := validatePhase_eq_ok.1 h
  · rfl
  · exact ha
  · cases phase <;> simp [LifecyclePhase.isPreBoot, LifecyclePhase.isPostBoot] at hphase hpost

theorem fitsIn_accepted {mem : UInt64} (haccepted : s'.accepted = s.accepted ++ [a])
    (hlimits : s'.server.limits = (ActionCounterKick.forAction a).apply s.server.limits) :
    FitsIn s' mem ↔ mem ≤ s.server.limits.hostRamMib ∧
      ∀ b ∈ a.balloon.or (lastBalloon s.accepted), b ≤ maxBalloon mem := by
  rw [FitsIn, haccepted, hlimits, hostRamMib_apply, lastBalloon_append]

variable {env : Surroundings β}

theorem Fitting.accepted (hs : Fitting s) (hsized : Sized s (env, a))
    (hpre : s.server.vmm.phase.isPreBoot = true) (ha : a.isPreBoot = true)
    (hcross : validateCrossField s.server.limits a = .ok ())
    (haccepted : s'.accepted = s.accepted ++ [a])
    (hlimits : s'.server.limits = (ActionCounterKick.forAction a).apply s.server.limits)
    (hvmm : s'.server.vmm = (handle env s.server.vmm a).2) :
    ∀ machine ∈ s'.server.vmm.boot.machineConfig, FitsIn s' machine.memSizeMib.get := by
  intro machine hmachine
  rw [hvmm, handle_machineConfig] at hmachine
  rw [fitsIn_accepted haccepted hlimits]
  have hfits := hs hpre
  have hnew := hsized hpre
  cases a with
  | putMachineConfig cfg =>
    cases hmachine
    exact ⟨(validateCrossField_eq_ok.1 hcross).1 _ rfl, hnew.1 _ rfl⟩
  | patchMachineConfig patch =>
    obtain ⟨existing, hexisting, rfl⟩ := Option.map_eq_some_iff.1 hmachine
    cases hmem : patch.memSizeMib with
    | none =>
      have hkept : (applyPatch existing patch).memSizeMib = existing.memSizeMib := by
        simp [applyPatch, hmem]
      rw [hkept]
      exact hfits existing hexisting
    | some mem =>
      have hset : (applyPatch existing patch).memSizeMib = mem := by simp [applyPatch, hmem]
      rw [hset]
      exact hnew.2.1 patch rfl mem hmem
  | putBalloon b =>
    refine ⟨(hfits machine hmachine).1, ?_⟩
    rintro _ ⟨⟩
    exact hnew.2.2 b rfl machine hmachine
  | patchBalloon u => cases ha
  | _ => exact hfits machine hmachine

theorem fitting_next (hs : Fitting s) (hsized : Sized s r) (h : s.next r = some s') :
    Fitting s' := by
  obtain ⟨env, a⟩ := r
  cases next_cases h with
  | refused haccepted hlimits hvmm =>
    unfold Fitting FitsIn
    rw [haccepted, hlimits, hvmm]
    exact hs
  | accepted hphase hcross hsuccess haccepted hlimits hvmm =>
    intro hpre
    by_cases hstart : a = .action .instanceStart
    · -- The phase has moved on, for good.
      subst hstart
      rw [hvmm, handle_start_phase hsuccess] at hpre
      cases hpre
    · rw [hvmm, handle_phase_of_ne_start hstart] at hpre
      exact hs.accepted hsized hpre (isPreBoot_of_validatePhase hphase hpre) hcross haccepted
        hlimits hvmm

theorem start_of_succeeded (h : succeeded (s.server.request env (.action .instanceStart)).1 = true) :
    s.server.vmm.phase.isPreBoot = true ∧
      ∃ machine, s.server.vmm.boot.machineConfig = some machine := by
  obtain ⟨hphase, -, -, hstart⟩ := succeeded_request.1 h
  obtain ⟨-, hstop | ⟨hpre, -⟩ | ⟨-, hpost⟩⟩ := validatePhase_eq_ok.1 hphase
  · cases hstop
  · obtain ⟨vm, hvm⟩ := handle_start_isSuccess.1 hstart
    obtain ⟨src, machine, hrunning⟩ := startMicrovm_eq_ok hvm
    exact ⟨hpre, machine, hrunning.machineConfig⟩
  · cases hpost

end Memory

section Scenario

def inTurn (actions : List ApiAction) : List (Surroundings Unit × ApiAction) :=
  actions.map fun a => (quiet, a)

def ballooned : List ApiAction := [.putBootSource someBootSource,
  .putMachineConfig (someMachine mib64), .putBalloon ⟨16, false, 0, false, false⟩,
  .action .instanceStart]

def newMemory (mib : MemSizeMib) : MachineConfigPatch where
  vcpuCount := none
  memSizeMib := some mib
  trackDirtyPages := none
  cpuTemplate := none
  hugePages := none

end Scenario

/-! ## Updates and the configurations they stand for -/

def merge (c : MachineConfig) (p : RawMachineConfigPatch) : RawMachineConfig where
  vcpuCount := p.vcpuCount.getD c.vcpuCount.get
  memSizeMib := p.memSizeMib.getD c.memSizeMib.get
  smt := p.smt.getD false
  trackDirtyPages := p.trackDirtyPages.getD c.trackDirtyPages
  cpuTemplate := p.cpuTemplate.or c.cpuTemplate
  hugePages := p.hugePages.or c.hugePages

structure PatchAgrees (env : Surroundings β) (s : Server β) (c : MachineConfig)
    (p : RawMachineConfigPatch) : Prop where
  accepted : succeeded (s.handleWith env (patchMachineConfig p)).1 =
    succeeded (s.handleWith env (putMachineConfig (merge c p))).1
  stored : succeeded (s.handleWith env (patchMachineConfig p)).1 = true →
    (s.handleWith env (patchMachineConfig p)).2.vmm.boot.machineConfig =
      (s.handleWith env (putMachineConfig (merge c p))).2.vmm.boot.machineConfig

def validPatch (p : RawMachineConfigPatch) : Prop :=
  (∀ v ∈ p.vcpuCount, validVcpuCount v) ∧ (∀ m ∈ p.memSizeMib, m ≠ 0) ∧ p.smt ≠ some true

structure Mergeable (s : Server β) (c : MachineConfig) (p : RawMachineConfigPatch) : Prop where
  cpuTemplate : ∀ t ∈ p.cpuTemplate.or c.cpuTemplate, validCpuTemplate t
  hugePages : ∀ h ∈ p.hugePages.or c.hugePages, validHugePages h
  memSizeMib : p.memSizeMib.getD c.memSizeMib.get ≤ s.limits.hostRamMib
  sameTracking : ∀ t ∈ p.trackDirtyPages, t = c.trackDirtyPages
  samePages : ∀ h ∈ p.hugePages, c.hugePages = some h

section Patch

variable {env : Surroundings β} {s : Server β} {c : MachineConfig} {p : RawMachineConfigPatch}

theorem exists_eq_map {α γ : Type} {x : Option α} {g : γ → α} (h : ∀ a ∈ x, ∃ b, g b = a) :
    ∃ r : Option γ, x = r.map g := by
  cases x with
  | none => exact ⟨none, rfl⟩
  | some a =>
    obtain ⟨b, rfl⟩ := h a rfl
    exact ⟨some b, rfl⟩

theorem exists_tryFrom_patch : (∃ q, MachineConfigPatch.tryFrom p = .ok q) ↔ validPatch p := by
  simp only [MachineConfigPatch.tryFrom_eq_ok]
  constructor
  · rintro ⟨q, hv, hm, hsmt, -⟩
    refine ⟨?_, ?_, hsmt⟩
    · intro v hmem
      rw [hv] at hmem
      obtain ⟨v', -, rfl⟩ := Option.map_eq_some_iff.1 hmem
      exact v'.valid
    · intro m hmem
      rw [hm] at hmem
      obtain ⟨m', -, rfl⟩ := Option.map_eq_some_iff.1 hmem
      exact m'.pos
  · rintro ⟨hv, hm, hsmt⟩
    obtain ⟨v, hv⟩ : ∃ v : Option VcpuCount, p.vcpuCount = v.map VcpuCount.get :=
      exists_eq_map fun n hn => ⟨⟨n, hv n hn⟩, rfl⟩
    obtain ⟨m, hm⟩ : ∃ m : Option MemSizeMib, p.memSizeMib = m.map MemSizeMib.get :=
      exists_eq_map fun n hn => ⟨⟨n, hm n hn⟩, rfl⟩
    exact ⟨⟨v, m, p.trackDirtyPages, p.cpuTemplate, p.hugePages⟩, hv, hm, hsmt, rfl, rfl, rfl⟩

def merged (c : MachineConfig) (q : MachineConfigPatch) : MachineConfig :=
  { applyPatch c q with
    trackDirtyPages := q.trackDirtyPages.getD c.trackDirtyPages
    hugePages := q.hugePages.or c.hugePages }

variable {q : MachineConfigPatch} {c' : MachineConfig}

theorem toRaw_merged (hq : MachineConfigPatch.tryFrom p = .ok q) :
    (merged c q).toRaw = merge c p := by
  obtain ⟨hv, hm, hsmt, htrack, htemplate, hpages⟩ := MachineConfigPatch.tryFrom_eq_ok.1 hq
  have hsmt' : p.smt.getD false = false := by
    cases h : p.smt with
    | none => rfl
    | some b =>
      cases b
      · rfl
      · exact absurd h hsmt
  simp [merged, applyPatch, MachineConfig.toRaw, merge, hv, hm, hsmt', htrack, htemplate, hpages]

theorem MachineConfig.toRaw_inj (h : c.toRaw = c'.toRaw) : c = c' := by
  obtain ⟨⟨v, hv⟩, ⟨m, hm⟩, t, ct, hp⟩ := c
  obtain ⟨⟨v', hv'⟩, ⟨m', hm'⟩, t', ct', hp'⟩ := c'
  simp only [toRaw, RawMachineConfig.mk.injEq, true_and] at h
  obtain ⟨rfl, rfl, rfl, rfl, rfl⟩ := h
  rfl

theorem tryFrom_merge (hq : MachineConfigPatch.tryFrom p = .ok q) :
    MachineConfig.tryFrom (merge c p) = .ok c' ↔
      c' = merged c q ∧ (∀ t ∈ p.cpuTemplate.or c.cpuTemplate, validCpuTemplate t) ∧
      ∀ h ∈ p.hugePages.or c.hugePages, validHugePages h := by
  obtain ⟨-, -, -, -, htemplate, hpages⟩ := MachineConfigPatch.tryFrom_eq_ok.1 hq
  rw [MachineConfig.tryFrom_eq_ok, ← toRaw_merged hq, htemplate, hpages]
  constructor
  · rintro ⟨hraw, hvalid⟩
    cases MachineConfig.toRaw_inj hraw
    exact ⟨rfl, hvalid⟩
  · rintro ⟨rfl, hvalid⟩
    exact ⟨rfl, hvalid⟩

theorem validPatch_of_tryFrom_merge (h : MachineConfig.tryFrom (merge c p) = .ok c') :
    validPatch p := by
  have hraw := (MachineConfig.tryFrom_eq_ok.1 h).1
  refine ⟨fun v hv => ?_, fun m hm => ?_, fun hsmt => ?_⟩
  · have heq : v = c'.vcpuCount.get := by
      simpa [merge, MachineConfig.toRaw, Option.mem_def.1 hv] using
        congrArg RawMachineConfig.vcpuCount hraw
    exact heq ▸ c'.vcpuCount.valid
  · have heq : m = c'.memSizeMib.get := by
      simpa [merge, MachineConfig.toRaw, Option.mem_def.1 hm] using
        congrArg RawMachineConfig.memSizeMib hraw
    exact heq ▸ c'.memSizeMib.pos
  · have heq := congrArg RawMachineConfig.smt hraw
    simp [merge, MachineConfig.toRaw, hsmt] at heq

theorem succeeded_handleWith {body : Except ApiError ApiAction} :
    succeeded (s.handleWith env body).1 = true ↔
      ∃ a, body = .ok a ∧ succeeded (s.request env a).1 = true := by
  cases body <;> simp [Server.handleWith, succeeded]

theorem validatePhase_config {phase : LifecyclePhase} {a : ApiAction}
    (ha : a.writesBootState = true) :
    validatePhase phase a = .ok () ↔ phase.isPreBoot = true := by
  rw [validatePhase_eq_ok]
  cases a <;> simp [ApiAction.writesBootState] at ha <;>
    simp [ApiAction.isPreBoot, ApiAction.isPostBoot]

theorem succeeded_patch (hc : s.vmm.boot.machineConfig = some c) :
    succeeded (s.handleWith env (patchMachineConfig p)).1 = true ↔
      validPatch p ∧ s.vmm.phase.isPreBoot = true ∧ s.closed = false := by
  rw [succeeded_handleWith, ← exists_tryFrom_patch]
  simp only [patchMachineConfig, bad, mapError_eq_ok, map_eq_ok]
  constructor
  · rintro ⟨a, ⟨q, hq, rfl⟩, h⟩
    obtain ⟨hphase, -, hclosed, -⟩ := succeeded_request.1 h
    exact ⟨⟨q, hq⟩, (validatePhase_config rfl).1 hphase, hclosed⟩
  · rintro ⟨⟨q, hq⟩, hpre, hclosed⟩
    refine ⟨_, ⟨q, hq, rfl⟩, succeeded_request.2
      ⟨(validatePhase_config rfl).2 hpre, rfl, hclosed, ?_⟩⟩
    simp [handle, hc, ApiResponse.isSuccess]

variable {raw : RawMachineConfig}

theorem succeeded_put :
    succeeded (s.handleWith env (putMachineConfig raw)).1 = true ↔
      ∃ c', MachineConfig.tryFrom raw = .ok c' ∧ s.vmm.phase.isPreBoot = true ∧
        c'.memSizeMib.get ≤ s.limits.hostRamMib ∧ s.closed = false := by
  rw [succeeded_handleWith]
  simp only [putMachineConfig, bad, mapError_eq_ok, map_eq_ok]
  constructor
  · rintro ⟨a, ⟨c', hc', rfl⟩, h⟩
    obtain ⟨hphase, hcross, hclosed, -⟩ := succeeded_request.1 h
    exact ⟨c', hc', (validatePhase_config rfl).1 hphase,
      (validateCrossField_eq_ok.1 hcross).1 c' rfl, hclosed⟩
  · rintro ⟨c', hc', hpre, hmem, hclosed⟩
    refine ⟨_, ⟨c', hc', rfl⟩, succeeded_request.2
      ⟨(validatePhase_config rfl).2 hpre, ?_, hclosed, rfl⟩⟩
    simpa [validateCrossField, rejectIf_eq_ok] using hmem

theorem stored_patch (hc : s.vmm.boot.machineConfig = some c)
    (hq : MachineConfigPatch.tryFrom p = .ok q)
    (h : succeeded (s.handleWith env (patchMachineConfig p)).1 = true) :
    (s.handleWith env (patchMachineConfig p)).2.vmm.boot.machineConfig = some (applyPatch c q) := by
  have hbody : patchMachineConfig p = .ok (.patchMachineConfig q) := by
    simp [patchMachineConfig, bad, hq, Except.mapError, Functor.map, Except.map]
  rw [hbody] at h ⊢
  change (s.request env (.patchMachineConfig q)).2.vmm.boot.machineConfig = _
  rw [vmm_request h, handle_machineConfig, hc]
  rfl

theorem stored_put (hc' : MachineConfig.tryFrom raw = .ok c')
    (h : succeeded (s.handleWith env (putMachineConfig raw)).1 = true) :
    (s.handleWith env (putMachineConfig raw)).2.vmm.boot.machineConfig = some c' := by
  have hbody : putMachineConfig raw = .ok (.putMachineConfig c') := by
    simp [putMachineConfig, bad, hc', Except.mapError, Functor.map, Except.map]
  rw [hbody] at h ⊢
  change (s.request env (.putMachineConfig c')).2.vmm.boot.machineConfig = _
  rw [vmm_request h, handle_machineConfig]

theorem applyPatch_eq_merged : applyPatch c q = merged c q ↔
    (∀ t ∈ q.trackDirtyPages, t = c.trackDirtyPages) ∧ ∀ h ∈ q.hugePages, c.hugePages = some h := by
  obtain ⟨v, m, track, template, pages⟩ := q
  simp only [merged, applyPatch, MachineConfig.mk.injEq, true_and, Option.mem_def]
  cases track <;> cases pages <;> simp [eq_comm]

theorem patchAgrees_of_accepted (hc : s.vmm.boot.machineConfig = some c)
    (hq : MachineConfigPatch.tryFrom p = .ok q) (hpre : s.vmm.phase.isPreBoot = true)
    (hclosed : s.closed = false) : PatchAgrees env s c p ↔ Mergeable s c p := by
  obtain ⟨-, hm, -, htrack, -, hpages⟩ := MachineConfigPatch.tryFrom_eq_ok.1 hq
  have hpatch : succeeded (s.handleWith env (patchMachineConfig p)).1 = true :=
    (succeeded_patch hc).2 ⟨exists_tryFrom_patch.1 ⟨q, hq⟩, hpre, hclosed⟩
  have hmem : (merged c q).memSizeMib.get = p.memSizeMib.getD c.memSizeMib.get := by
    rw [hm]
    cases hqm : q.memSizeMib <;> simp [merged, applyPatch, hqm]
  constructor
  · rintro ⟨haccepted, hstored⟩
    have hput := haccepted.symm.trans hpatch
    obtain ⟨c', hc', -, hfits, -⟩ := succeeded_put.1 hput
    obtain ⟨rfl, htemplate, hhuge⟩ := (tryFrom_merge hq).1 hc'
    have heq := hstored hpatch
    rw [stored_patch hc hq hpatch, stored_put hc' hput, Option.some.injEq,
      applyPatch_eq_merged] at heq
    exact ⟨htemplate, hhuge, hmem ▸ hfits, htrack ▸ heq.1, hpages ▸ heq.2⟩
  · intro h
    have hc' := (tryFrom_merge hq).2 ⟨rfl, h.cpuTemplate, h.hugePages⟩
    have hput : succeeded (s.handleWith env (putMachineConfig (merge c p))).1 = true :=
      succeeded_put.2 ⟨_, hc', hpre, hmem ▸ h.memSizeMib, hclosed⟩
    refine ⟨hpatch.trans hput.symm, fun _ => ?_⟩
    rw [stored_patch hc hq hpatch, stored_put hc' hput,
      applyPatch_eq_merged.2 ⟨htrack ▸ h.sameTracking, hpages ▸ h.samePages⟩]

/-- **An update does what the `PUT` of the merged configuration would do** exactly if both are
refused, or the merged configuration is acceptable and the loop looks at all that changes. -/
theorem patchAgrees_iff (hc : s.vmm.boot.machineConfig = some c) :
    PatchAgrees env s c p ↔ s.vmm.phase.isPreBoot = false ∨ s.closed = true ∨ ¬ validPatch p ∨
      Mergeable s c p := by
  by_cases hboth : validPatch p ∧ s.vmm.phase.isPreBoot = true ∧ s.closed = false
  · obtain ⟨hvalid, hpre, hclosed⟩ := hboth
    obtain ⟨q, hq⟩ := exists_tryFrom_patch.2 hvalid
    rw [patchAgrees_of_accepted hc hq hpre hclosed]
    simp [hpre, hclosed, hvalid]
  · -- Both requests are refused.
    have hpatch : succeeded (s.handleWith env (patchMachineConfig p)).1 = false :=
      Bool.eq_false_iff.2 fun h => hboth ((succeeded_patch hc).1 h)
    have hput : succeeded (s.handleWith env (putMachineConfig (merge c p))).1 = false := by
      refine Bool.eq_false_iff.2 fun h => hboth ?_
      obtain ⟨c', hc', hpre, -, hclosed⟩ := succeeded_put.1 h
      exact ⟨validPatch_of_tryFrom_merge hc', hpre, hclosed⟩
    refine iff_of_true ⟨hpatch.trans hput.symm, fun h => absurd (hpatch.symm.trans h) (by simp)⟩ ?_
    by_contra hnone
    simp only [not_or, not_not, Bool.not_eq_false, Bool.not_eq_true] at hnone
    exact hboth ⟨hnone.2.2.1, hnone.1, hnone.2.1⟩

end Patch

section Scenario

def stored : Server Unit where
  vmm := { boot := { machineConfig := some (someMachine mib64) } }
  limits := .fromHostRamMib 4096

theorem patchAgrees_memory : PatchAgrees quiet stored (someMachine mib64)
    { memSizeMib := some 128 } :=
  (patchAgrees_iff rfl).2 <| .inr <| .inr <| .inr
    ⟨by simp [someMachine], by simp [someMachine], by decide, by simp, by simp⟩

/-- **The update of a flag is accepted and dropped.** -/
theorem not_patchAgrees_tracking : ¬ PatchAgrees quiet stored (someMachine mib64)
    { trackDirtyPages := some true } := by
  intro h
  have heq := h.stored (by decide +kernel)
  exact absurd heq (by decide +kernel)

end Scenario

/-! ## What runs -/

def AsConfigured (v : VmmState β) : Prop :=
  ∀ vm ∈ v.running, v.phase = .running ∧
    ∃ env : Surroundings β, startMicrovm env.host env.device v.boot = .ok vm

variable {env : Surroundings β} {v : VmmState β} {a : ApiAction}

theorem handle_keeps (ha : a ≠ .action .instanceStart) :
    (∀ vm ∈ (handle env v a).2.running, vm ∈ v.running) ∧
      (a.writesBootState = false → (handle env v a).2.boot = v.boot) := by
  cases a with
  | action verb => cases verb <;> first | exact absurd rfl ha | exact ⟨fun _ h => h, fun _ => rfl⟩
  | shutdown => exact ⟨fun _ h => (by cases h), fun _ => rfl⟩
  | patchMachineConfig patch =>
    refine ⟨fun vm => ?_, fun h => by cases h⟩
    simp only [handle]
    cases v.boot.machineConfig <;> exact id
  | _ => exact ⟨fun _ h => h, fun h => by first | rfl | cases h⟩

theorem asConfigured_handle (hv : AsConfigured v) (hphase : validatePhase v.phase a = .ok ())
    (hsuccess : (handle env v a).1.isSuccess = true) : AsConfigured (handle env v a).2 := by
  intro vm hvm
  by_cases ha : a = .action .instanceStart
  · subst ha
    obtain ⟨vm', hstart⟩ := handle_start_isSuccess.1 hsuccess
    simp only [handle, hstart, Option.mem_some] at hvm ⊢
    exact ⟨trivial, env, hvm ▸ hstart⟩
  · obtain ⟨hrunning, hboot⟩ := @handle_keeps β env v a ha
    obtain ⟨hold, hbuilt⟩ := hv vm (hrunning vm hvm)
    -- after the start no accepted request writes the configuration
    have hkeep : a.writesBootState = false := Bool.eq_false_iff.2 fun hwrites => by
      rw [validatePhase_config hwrites, hold] at hphase
      cases hphase
    rw [handle_phase_of_ne_start ha, hboot hkeep]
    exact ⟨hold, hbuilt⟩

/-- **What runs is what the stored configuration starts**, all through every session. -/
theorem runs_as_configured (hostRamMib : UInt64) (rs : List (Surroundings β × ApiAction)) :
    Along Session.next (fun s _ => AsConfigured s.server.vmm) rs (Session.initial hostRamMib) := by
  refine Along.of_invariant (fun s r s' hs h => ?_) rs fun _ h => by cases h
  cases next_cases h with
  | refused _ _ hvmm => exact hvmm ▸ hs
  | accepted hphase _ hsuccess _ _ hvmm => exact hvmm ▸ asConfigured_handle hs hphase hsuccess

end Squib.Api
