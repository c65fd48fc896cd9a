import Squib.Virtio.Panic

/-!
# The driver-initialisation state machine
-/

namespace Squib

open Checked VirtioMmioTransport DeviceStatus

variable {δ η : Type}

structure StaysActivated (dev : VirtioDevice δ η) : Prop where
  activate : ∀ d d', dev.activate d = (.ok (), d') → dev.isActivated d' = true
  setAckedFeatures : ∀ value d, dev.isActivated d = true →
    dev.isActivated (dev.setAckedFeatures value d) = true
  setQueues : ∀ queues d, dev.isActivated d = true → dev.isActivated (dev.setQueues queues d) = true
  writeConfig : ∀ offset data d, dev.isActivated d = true →
    dev.isActivated (dev.writeConfig offset data d) = true
  processQueue : ∀ queueIndex d w b d' w', dev.isActivated d = true →
    dev.processQueue queueIndex d w = .ok (b, d', w') → dev.isActivated d' = true

theorem DeviceKind.staysActivated (k : DeviceKind η) (fuel : ℕ) :
    StaysActivated (k.vtable fuel) where
  activate d d' h := by
    cases h
    cases k <;> rfl
  setAckedFeatures _ _ h := h
  setQueues _ _ h := h
  writeConfig _ _ _ h := h
  processQueue queueIndex d w b d' w' h hp := by
    obtain ⟨new, he, -⟩ := k.keeps fuel queueIndex d w _ hp
    exact (congrArg ActiveState.activated he.state).trans h

/-! ## Phases -/

def phase (status : UInt32) : UInt32 := status &&& ~~~(failed ||| deviceNeedsReset)

def phases : List UInt32 :=
  [init, acknowledge, acknowledge ||| driver, acknowledge ||| driver ||| featuresOk,
    acknowledge ||| driver ||| featuresOk ||| driverOk]

theorem phase_or {bits : UInt32} (h : bits &&& ~~~(failed ||| deviceNeedsReset) = 0)
    (status : UInt32) : phase (status ||| bits) = phase status := by
  have hdistrib : phase (status ||| bits) = phase status ||| phase bits :=
    UInt32.toBitVec_inj.1 BitVec.and_or_distrib_right
  rw [hdistrib, phase.eq_1 bits, h, UInt32.or_zero]

variable {source target : UInt32}

theorem isValidTransition_iff :
    isValidTransition source target = true ↔ (source, target) ∈ validTransitions := by
  simp [isValidTransition, List.any_eq_true]

theorem phase_of_mem (h : (source, target) ∈ validTransitions) :
    phase source = source ∧ phase target = target ∧ target ∈ phases ∧ source &&& driverOk = 0 := by
  simp only [validTransitions, List.mem_cons, Prod.mk.injEq, List.not_mem_nil, or_false] at h
  rcases h with ⟨rfl, rfl⟩ | ⟨rfl, rfl⟩ | ⟨rfl, rfl⟩ | ⟨rfl, rfl⟩ <;> decide

section Step

variable {dev : VirtioDevice δ η} {t t' : VirtioMmioTransport δ}

theorem VirtioMmioTransport.Moves.phase (h : Moves dev t t') :
    phase t'.status = phase t.status ∨ (phase t.status, phase t'.status) ∈ validTransitions := by
  cases h with
  | selectors | features | queueField | config | notified => exact .inl rfl
  | failed => exact .inl (phase_or (by decide) _)
  | stepped hv | activated hv =>
    have hm := isValidTransition_iff.1 hv
    obtain ⟨hs, ht, -⟩ := phase_of_mem hm
    right
    rw [hs, ht]
    exact hm
  | refused hv =>
    have hm := isValidTransition_iff.1 hv
    obtain ⟨hs, ht, -⟩ := phase_of_mem hm
    right
    rw [phase_or (by decide), hs, ht]
    exact hm

theorem VirtioMmioTransport.Moves.up (h : Moves dev t t') (hup : t.status &&& driverOk ≠ 0) :
    t'.device = t.device ∨ (∃ value, t'.device = dev.setAckedFeatures value t.device) ∨
      ∃ queueIndex w b w', dev.processQueue queueIndex t.device w = .ok (b, t'.device, w') := by
  cases h with
  | selectors | failed | stepped => exact .inl rfl
  | features value => exact .inr (.inl ⟨value, rfl⟩)
  | notified queueIndex _ hp => exact .inr (.inr ⟨queueIndex, _, _, _, hp⟩)
  | queueField _ _ hdown | config _ _ hdown => exact absurd hdown hup
  | activated hv | refused hv => exact absurd (phase_of_mem (isValidTransition_iff.1 hv)).2.2.2 hup

structure TransportInv (dev : VirtioDevice δ η) (t : VirtioMmioTransport δ) : Prop where
  status : phase t.status ∈ phases
  calls : ∀ queueIndex status, .processQueue queueIndex status ∈ t.calls → status &&& driverOk ≠ 0
  once : t.calls.count (.activate true) ≤ 1
  activated : .activate true ∈ t.calls → dev.isActivated t.device = true

theorem transportInv_new (dev : VirtioDevice δ η) (d : δ) : TransportInv dev (.new d) where
  status := (by decide : phase init ∈ phases)
  calls _ _ h := by cases h
  once := Nat.zero_le 1
  activated h := by cases h

theorem TransportInv.reset (hdev : StaysActivated dev) (h : TransportInv dev t) :
    TransportInv dev (t.reset dev) where
  status := (by decide : phase init ∈ phases)
  calls := h.calls
  once := h.once
  activated ha := hdev.setAckedFeatures _ _ (hdev.setQueues _ _ (h.activated ha))

theorem TransportInv.moves (hdev : StaysActivated dev) (h : TransportInv dev t)
    (hm : Moves dev t t') : TransportInv dev t' := by
  have hphase : phase t'.status ∈ phases := by
    rcases hm.phase with heq | hmem
    · exact heq ▸ h.status
    · exact (phase_of_mem hmem).2.2.1
  cases hm with
  | selectors | failed | stepped => exact ⟨hphase, h.calls, h.once, h.activated⟩
  | features =>
    exact ⟨hphase, h.calls, h.once, fun ha => hdev.setAckedFeatures _ _ (h.activated ha)⟩
  | queueField => exact ⟨hphase, h.calls, h.once, fun ha => hdev.setQueues _ _ (h.activated ha)⟩
  | config => exact ⟨hphase, h.calls, h.once, fun ha => hdev.writeConfig _ _ _ (h.activated ha)⟩
  | notified queueIndex hup hp =>
    refine ⟨hphase, fun i status hc => ?_, by simpa using h.once, fun ha => ?_⟩
    · rcases List.mem_append.1 hc with hc | hc
      · exact h.calls i status hc
      · cases List.mem_singleton.1 hc
        exact hup
    · exact hdev.processQueue _ _ _ _ _ _ (h.activated (by simpa using ha)) hp
  | activated hv hdown hact =>
    have hnone : .activate true ∉ t.calls := fun ha => by
      have := h.activated ha
      rw [hdown] at this
      cases this
    refine ⟨hphase, fun i status hc => h.calls i status (by simpa using hc), ?_, fun _ => ?_⟩
    · simp [List.count_eq_zero_of_not_mem hnone]
    · exact hdev.activate _ _ hact
  | refused hv hdown hact =>
    refine ⟨hphase, fun i status hc => h.calls i status (by simpa using hc), by simpa using h.once,
      fun ha => ?_⟩
    have := h.activated (by simpa using ha)
    rw [hdown] at this
    cases this

end Step

variable {dev : VirtioDevice δ η}

theorem transportInv_of_run (hdev : StaysActivated dev) {d : δ} {w : World η} {ops : List (Op η)}
    {b : Bool} {out : List (List UInt8)} {s : Sys δ η}
    (h : run dev ops (.fresh d w) = .ok (b, out, s)) : TransportInv dev s.transport := by
  refine run_invariant (P := fun s => TransportInv dev s.transport) ?_ (transportInv_new dev d) h
  intro op s b bytes s' hs hx
  by_cases hop : op.IsReset
  · rw [exec_reset hop hx]
    exact hs.reset hdev
  · exact hs.moves hdev (exec_moves hop hx)

/-- **The driver-initialisation state machine.** `Status` goes through its five phases in order, the
device is called only with `DRIVER_OK` set, and activated at most once. -/
theorem state_machine (hdev : StaysActivated dev) (d : δ) (w : World η) (ops : List (Op η))
    (b : Bool) (out : List (List UInt8)) (s : Sys δ η)
    (hrun : run dev ops (.fresh d w) = .ok (b, out, s)) :
    phase s.transport.status ∈ phases ∧
    (∀ queueIndex status, .processQueue queueIndex status ∈ s.transport.calls →
      status &&& driverOk ≠ 0) ∧
    s.transport.calls.count (.activate true) ≤ 1 ∧
    ∀ op b' bytes s', exec dev op s = .ok (b', bytes, s') →
      (op.IsReset ∨ phase s'.transport.status = phase s.transport.status ∨
        (phase s.transport.status, phase s'.transport.status) ∈ validTransitions) ∧
      (s.transport.status &&& driverOk ≠ 0 → s'.transport.status &&& driverOk ≠ 0 →
        s'.transport.device = s.transport.device ∨
        (∃ value, s'.transport.device = dev.setAckedFeatures value s.transport.device) ∨
        ∃ queueIndex w b w', dev.processQueue queueIndex s.transport.device w =
          .ok (b, s'.transport.device, w')) := by
  have hinv := transportInv_of_run hdev hrun
  refine ⟨hinv.status, hinv.calls, hinv.once, fun op b' bytes s' hx => ?_⟩
  by_cases hop : op.IsReset
  · refine ⟨.inl hop, fun _ hup' => ?_⟩
    rw [exec_reset hop hx] at hup'
    exact absurd (by decide : init &&& driverOk = 0) hup'
  · have hm := exec_moves hop hx
    exact ⟨.inr hm.phase, fun hup _ => hm.up hup⟩

/-- The entropy device keeps the promise, and comes up. -/
theorem state_machine_rng :
    Returns (run (zeroRng.vtable 1) bringUp (.fresh zeroRng.new askWorld)) fun r =>
      StaysActivated (zeroRng.vtable 1) ∧ phase r.2.2.transport.status ∈ phases ∧
      r.2.2.transport.calls.count (.activate true) ≤ 1 := by
  have h :
      Returns (run (zeroRng.vtable 1) bringUp (.fresh zeroRng.new askWorld)) fun _ => True := by
    decide +kernel
  obtain ⟨⟨b, out, s⟩, hrun, -⟩ := h
  have hdev := zeroRng.staysActivated 1
  have hs := state_machine hdev zeroRng.new askWorld bringUp b out s hrun
  exact ⟨_, hrun, hdev, hs.1, hs.2.2.1⟩

end Squib
