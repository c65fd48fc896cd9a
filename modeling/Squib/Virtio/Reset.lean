import Squib.Virtio.StateMachine

/-!
# Reset
-/

namespace Squib

open Checked VirtioMmioTransport DeviceStatus

variable {σ η : Type}

/-! ## Two devices that cannot be told apart -/

def ActiveState.idle : ActiveState := { mem := false, irq := false, activated := false }

def relabel (calls : List Call) (state : ActiveState) (t : VirtioMmioTransport (Frontend σ)) :
    VirtioMmioTransport (Frontend σ) :=
  { t with calls, device := { t.device with state } }

@[simp] theorem status_relabel (calls : List Call) (state : ActiveState)
    (t : VirtioMmioTransport (Frontend σ)) : (relabel calls state t).status = t.status := rfl

inductive Twin (M : DeviceModel σ η) (t : VirtioMmioTransport (Frontend σ)) :
    VirtioMmioTransport (Frontend σ) → Prop
  | mk (calls : List Call) {state : ActiveState}
      (h : state = t.device.state ∨
        t.status &&& driverOk = 0 ∧ state = .idle ∧ t.device.state = M.activeState) :
    Twin M t (relabel calls state t)

inductive Agree (M : DeviceModel σ η) :
    Except Panic (Bool × VirtioMmioTransport (Frontend σ) × World η) →
    Except Panic (Bool × VirtioMmioTransport (Frontend σ) × World η) → Prop
  | error (e : Panic) : Agree M (.error e) (.error e)
  | ok (b : Bool) (w : World η) {t t' : VirtioMmioTransport (Frontend σ)} (h : Twin M t t') :
    Agree M (.ok (b, t, w)) (.ok (b, t', w))

section Step

variable {M : DeviceModel σ η} {t t' : VirtioMmioTransport (Frontend σ)} {fuel : ℕ}

theorem read_twin (h : Twin M t t') (w : World η) (offset : UInt64) (len : ℕ) :
    t'.read (M.vtable fuel) w offset len = t.read (M.vtable fuel) w offset len := by
  cases h
  rfl

theorem or_failed_and_driverOk (status : UInt32) :
    (status ||| failed) &&& driverOk = status &&& driverOk := by
  have hdistrib :
      (status ||| failed) &&& driverOk = (status &&& driverOk) ||| (failed &&& driverOk) :=
    UInt32.toBitVec_inj.1 BitVec.and_or_distrib_right
  rw [hdistrib, show failed &&& driverOk = 0 from rfl, UInt32.or_zero]

theorem activateDevice_eq (t : VirtioMmioTransport (Frontend σ)) :
    t.activateDevice (M.vtable fuel) =
      if t.device.state.activated then t
      else relabel (t.calls ++ [.activate true]) M.activeState t := rfl

theorem activateDevice_twin (hM : M.activeState.activated = true) (calls : List Call)
    {state : ActiveState}
    (h : state = t.device.state ∨ state = .idle ∧ t.device.state = M.activeState) :
    Twin M (t.activateDevice (M.vtable fuel))
      ((relabel calls state t).activateDevice (M.vtable fuel)) := by
  rw [activateDevice_eq, activateDevice_eq]
  rcases h with rfl | ⟨rfl, hs⟩
  · change Twin M (if t.device.state.activated = true then _ else _)
      (if t.device.state.activated = true then _ else _)
    split
    · exact .mk calls (.inl rfl)
    · exact .mk _ (.inl rfl)
  · rw [if_pos (by rw [hs, hM])]
    exact .mk _ (.inl hs.symm)

theorem setStatus_twin (hM : M.activeState.activated = true) (h : Twin M t t') (value : UInt32) :
    Twin M (t.setStatus (M.vtable fuel) value) (t'.setStatus (M.vtable fuel) value) := by
  obtain ⟨calls, h⟩ := h
  unfold setStatus
  rw [status_relabel]
  split_ifs with hz hf hv hup
  · exact .mk calls (h.imp_right fun ⟨_, hs⟩ => ⟨(by decide : init &&& driverOk = 0), hs⟩)
  · exact .mk calls (h.imp_right fun ⟨hdown, hs⟩ => ⟨(or_failed_and_driverOk _).trans hdown, hs⟩)
  · exact .mk calls h
  · exact activateDevice_twin hM calls (h.imp_right And.right)
  · exact .mk calls (h.imp_right fun ⟨_, hs⟩ => ⟨by simpa using hup, hs⟩)

theorem handleQueueNotify_twin (h : Twin M t t') (w : World η) (queueIndex : UInt16) :
    Agree M (t.handleQueueNotify (M.vtable fuel) w queueIndex)
      (t'.handleQueueNotify (M.vtable fuel) w queueIndex) := by
  obtain ⟨calls, h⟩ := h
  unfold handleQueueNotify
  rw [status_relabel]
  split_ifs with hdown
  · exact .ok true w (.mk calls h)
  · obtain rfl | ⟨hd, -⟩ := h
    · have hd : (relabel calls t.device.state t).device = t.device := rfl
      rw [hd]
      rcases (M.vtable fuel).processQueue queueIndex t.device w with e | ⟨b, device, w'⟩
      · exact .error e
      · exact .ok b w' (.mk _ (.inl rfl))
    · exact absurd (by simpa using hd) hdown

theorem updateQueueField_relabel (calls : List Call) (state : ActiveState) (f : Queue → Queue)
    (t : VirtioMmioTransport (Frontend σ)) :
    (relabel calls state t).updateQueueField (M.vtable fuel) f =
      relabel calls state (t.updateQueueField (M.vtable fuel) f) := by
  dsimp only [updateQueueField, relabel, DeviceModel.vtable]
  split_ifs
  · rfl
  · split <;> rfl

theorem status_updateQueueField (M : DeviceModel σ η) (fuel : ℕ) (f : Queue → Queue)
    (t : VirtioMmioTransport (Frontend σ)) :
    (t.updateQueueField (M.vtable fuel) f).status = t.status ∧
      (t.updateQueueField (M.vtable fuel) f).device.state = t.device.state := by
  dsimp only [updateQueueField]
  split_ifs
  · exact ⟨rfl, rfl⟩
  · split <;> exact ⟨rfl, rfl⟩

theorem apply_twin (fuel : ℕ) (hM : M.activeState.activated = true) (h : Twin M t t') (c : Command)
    (w : World η) : Agree M (c.apply (M.vtable fuel) t w) (c.apply (M.vtable fuel) t' w) := by
  cases c with
  | status value => exact .ok true w (setStatus_twin hM h value)
  | queueNotify queueIndex => exact handleQueueNotify_twin h w queueIndex
  | driverFeatures value =>
    obtain ⟨calls, h⟩ := h
    refine .ok true w ?_
    unfold handleDriverFeaturesWrite
    dsimp only [relabel]
    split
    · exact .mk calls h
    · exact .mk calls h
    · exact .mk calls h
  | queueField field value =>
    obtain ⟨calls, h⟩ := h
    refine .ok true w ?_
    obtain ⟨hs, hd⟩ := status_updateQueueField M fuel (fun q => field.update q value) t
    rw [updateQueueField_relabel]
    exact .mk calls (by rwa [hs, hd])
  | config offset data =>
    obtain ⟨calls, h⟩ := h
    rename_i state
    have hacc : (relabel calls state t).acceptConfigWrite = t.acceptConfigWrite := rfl
    simp only [Command.apply, hacc]
    split_ifs
    · exact .ok true w (.mk calls h)
    · exact .ok true w (.mk calls h)
  | interruptAck mask => exact .ok true _ h
  | ignored => exact .ok true w h
  | deviceFeaturesSel | driverFeaturesSel | queueSel =>
    obtain ⟨calls, h⟩ := h
    exact .ok true w (.mk calls h)

end Step

section Run

variable {M : DeviceModel σ η} {fuel : ℕ}

def observe (r : Bool × List (List UInt8) × Sys (Frontend σ) η) :
    Bool × List (List UInt8) × World η := (r.1, r.2.1, r.2.2.world)

theorem map_observe_cons (bytes : List UInt8)
    (x : Except Panic (Bool × List (List UInt8) × Sys (Frontend σ) η)) :
    (x.map fun r => (r.1, bytes :: r.2.1, r.2.2)).map observe =
      (x.map observe).map fun r => (r.1, bytes :: r.2.1, r.2.2) := by
  cases x <;> rfl

theorem exec_twin (fuel : ℕ) (hM : M.activeState.activated = true)
    {t t' : VirtioMmioTransport (Frontend σ)} (h : Twin M t t') (w : World η) (op : Op η) :
    (∃ e, exec (M.vtable fuel) op ⟨t, w⟩ = .error e ∧ exec (M.vtable fuel) op ⟨t', w⟩ = .error e) ∨
    ∃ b bytes t₁ t₁' w₁, exec (M.vtable fuel) op ⟨t, w⟩ = .ok (b, bytes, ⟨t₁, w₁⟩) ∧
      exec (M.vtable fuel) op ⟨t', w⟩ = .ok (b, bytes, ⟨t₁', w₁⟩) ∧ Twin M t₁ t₁' := by
  cases op with
  | guest byte | host f => exact .inr ⟨true, [], t, t', _, rfl, rfl, h⟩
  | read offset len =>
    simp only [exec, read_twin h]
    cases t.read (M.vtable fuel) w offset len with
    | error e => exact .inl ⟨e, rfl, rfl⟩
    | ok bytes => exact .inr ⟨true, bytes, t, t', w, rfl, rfl, h⟩
  | write offset data =>
    have ha := apply_twin fuel hM h (decode offset data) w
    simp only [exec, write_eq_apply]
    generalize (decode offset data).apply (M.vtable fuel) t w = x at ha
    generalize (decode offset data).apply (M.vtable fuel) t' w = x' at ha
    cases ha with
    | error e => exact .inl ⟨e, rfl, rfl⟩
    | ok b w' h' => exact .inr ⟨b, [], _, _, w', rfl, rfl, h'⟩

theorem run_twin (hM : M.activeState.activated = true) :
    ∀ (ops : List (Op η)) {t t' : VirtioMmioTransport (Frontend σ)} (w : World η), Twin M t t' →
      (run (M.vtable fuel) ops ⟨t, w⟩).map observe = (run (M.vtable fuel) ops ⟨t', w⟩).map observe
  | [], t, t', w, _ => rfl
  | op :: ops, t, t', w, h => by
    obtain ⟨e, he, he'⟩ | ⟨b, bytes, t₁, t₁', w₁, hx, hx', h₁⟩ := exec_twin fuel hM h w op
    · rw [run, run, he, he']
    · cases b with
      | false => rw [run_cons_stop ops hx, run_cons_stop ops hx']; rfl
      | true =>
        rw [run_cons_map ops hx, run_cons_map ops hx', map_observe_cons, map_observe_cons,
          run_twin hM ops w₁ h₁]

end Run

/-! ## Resetting a used device -/

section Frontends

variable {k : DeviceKind η} {fuel : ℕ}

theorem DeviceKind.activated_activeState (k : DeviceKind η) :
    k.model.activeState.activated = true := by
  cases k <;> rfl

structure Rooted (k : DeviceKind η) (t : VirtioMmioTransport (Frontend k.Own)) : Prop where
  configGeneration : t.configGeneration = 0
  maxSizes : t.device.queues.map Queue.maxSize = k.model.queueMaxSizes
  state : t.device.state = .idle ∨ t.device.state = k.model.activeState

theorem rooted_new (k : DeviceKind η) : Rooted k (.new k.new) where
  configGeneration := rfl
  maxSizes := (List.map_map ..).trans (List.map_id _)
  state := .inl rfl

variable {t : VirtioMmioTransport (Frontend k.Own)}

theorem Rooted.reset (h : Rooted k t) : Rooted k (t.reset (k.vtable fuel)) where
  configGeneration := h.configGeneration
  maxSizes := (List.map_map ..).trans h.maxSizes
  state := h.state

theorem Rooted.moves {t' : VirtioMmioTransport (Frontend k.Own)} (h : Rooted k t)
    (hm : Moves (k.vtable fuel) t t') : Rooted k t' := by
  cases hm with
  | selectors | features | config | failed | stepped =>
    exact ⟨h.configGeneration, h.maxSizes, h.state⟩
  | queueField field value hdown hq =>
    refine ⟨h.configGeneration, ?_, h.state⟩
    exact (map_set_of_eq hq (field.maxSize_update _ value)).trans h.maxSizes
  | notified queueIndex hup hp =>
    obtain ⟨new, he, -⟩ := k.keeps fuel queueIndex _ _ _ hp
    have hmax := congrArg (List.map Queue.maxSize) he.settings
    rw [List.map_map, List.map_map] at hmax
    exact ⟨h.configGeneration, hmax.trans h.maxSizes, he.state.symm ▸ h.state⟩
  | activated hv hdown hact =>
    cases hact
    exact ⟨h.configGeneration, h.maxSizes, .inr rfl⟩
  | refused hv hdown hact => cases hact

theorem rooted_of_run {w : World η} {ops : List (Op η)} {b : Bool} {out : List (List UInt8)}
    {s : Sys (Frontend k.Own) η} (h : run (k.vtable fuel) ops (.fresh k.new w) = .ok (b, out, s)) :
    Rooted k s.transport := by
  refine run_invariant (P := fun s => Rooted k s.transport) ?_ (rooted_new k) h
  intro op s b bytes s' hs hx
  by_cases hop : op.IsReset
  · rw [exec_reset hop hx]
    exact hs.reset
  · exact hs.moves (exec_moves hop hx)

theorem Queue.reset_eq_new (q : Queue) : q.reset = Queue.new q.maxSize := rfl

theorem twin_reset (h : Rooted k t) (hown : t.device.own = k.model.own) :
    Twin k.model (t.reset (k.vtable fuel)) (.new k.new) := by
  have hqueues : t.device.queues.map Queue.reset = k.model.queueMaxSizes.map Queue.new := by
    rw [← h.maxSizes, List.map_map]
    exact List.map_congr_left fun q _ => q.reset_eq_new
  have heq : VirtioMmioTransport.new k.new = relabel [] .idle (t.reset (k.vtable fuel)) := by
    change VirtioMmioTransport.mk
        (Frontend.mk 0 (k.model.queueMaxSizes.map Queue.new) .idle k.model.own) 0 0 0 0 init 0 [] =
      VirtioMmioTransport.mk
        (Frontend.mk 0 (t.device.queues.map Queue.reset) .idle t.device.own) 0 0 0 0 init
        t.configGeneration []
    rw [hqueues, hown, h.configGeneration]
  rw [heq]
  rcases h.state with hs | hs
  · exact .mk [] (.inl hs.symm)
  · exact .mk [] (.inr ⟨(by decide : init &&& driverOk = 0), rfl, hs⟩)

/-- **A reset device is as good as new** to every later run if, at the reset, `InterruptStatus` is
clear and the device's own state is as at construction. -/
theorem reset_eq_fresh (k : DeviceKind η) (fuel : ℕ) (w : World η) (ops : List (Op η))
    (out : List (List UInt8)) (s : Sys (Frontend k.Own) η)
    (hrun : run (k.vtable fuel) ops (.fresh k.new w) = .ok (true, out, s))
    (hirq : s.world.irq.status = 0) (hown : s.transport.device.own = k.model.own) :
    ∃ s', exec (k.vtable fuel) (.writeReg 0x70 0) s = .ok (true, [], s') ∧
      ∀ later, (run (k.vtable fuel) later s').map observe =
        (run (k.vtable fuel) later (.fresh k.new s.world)).map observe := by
  refine ⟨{ s with transport := s.transport.reset (k.vtable fuel) }, rfl, fun later => ?_⟩
  have hfresh : Sys.fresh k.new s.world = ⟨.new k.new, s.world⟩ := by
    rw [Sys.fresh, ← hirq]
  rw [hfresh]
  exact run_twin k.activated_activeState later s.world (twin_reset (rooted_of_run hrun) hown)

/-- A reset of a device that has seen nothing but its initialisation. -/
theorem reset_eq_fresh_after_init :
    Returns (run (zeroRng.vtable 1) bringUp (.fresh zeroRng.new askWorld)) fun r =>
      r.2.2.world.irq.status = 0 ∧ r.2.2.transport.status = 15 ∧
      ∃ s', exec (zeroRng.vtable 1) (.writeReg 0x70 0) r.2.2 = .ok (true, [], s') ∧
        ∀ later, (run (zeroRng.vtable 1) later s').map observe =
          (run (zeroRng.vtable 1) later (.fresh zeroRng.new r.2.2.world)).map observe := by
  have h : Returns (run (zeroRng.vtable 1) bringUp (.fresh zeroRng.new askWorld)) fun r =>
      r.1 = true ∧ r.2.2.world.irq.status = 0 ∧ r.2.2.transport.status = 15 := by decide +kernel
  obtain ⟨⟨b, out, s⟩, hrun, rfl, hirq, hstatus⟩ := h
  exact ⟨_, hrun, hirq, hstatus,
    reset_eq_fresh zeroRng 1 askWorld bringUp out s hrun hirq rfl⟩

theorem interrupt_survives_reset :
    Returns (run (zeroRng.vtable 2) (driverInit 0 4 0x1000 0x1040 0x1050 ++
        [.notify 0, .writeReg 0x70 0]) (.fresh zeroRng.new askWorld)) fun r =>
      Returns (run (zeroRng.vtable 2) [.read 0x60 4] r.2.2) (fun x => x.2.1 = [[1, 0, 0, 0]]) ∧
      Returns (run (zeroRng.vtable 2) [.read 0x60 4] (.fresh zeroRng.new r.2.2.world))
        fun x => x.2.1 = [[0, 0, 0, 0]] := by
  decide +kernel

end Frontends

end Squib
