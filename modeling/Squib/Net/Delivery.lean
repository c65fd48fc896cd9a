import Squib.Vsock.Delivery

/-!
# Delivery of frames to the guest
-/

namespace Squib.NetDevice

open Checked Loop GuestMemory

variable {η : Type}

def rxWire (frame : Frame) : List UInt8 := List.replicate virtioNetHdrLen 0 ++ frame

def deliverFrame (frame : Frame) : Handler Unit η :=
  onChain fun descs own w => do
    let (written, w) ← scatter (rxWire frame) descs 0 0 w
    .ok (.complete written, own, w)

theorem scatters_deliverFrame (frame : Frame) :
    Scatters (deliverFrame frame : Handler Unit η) (rxWire frame) := by
  intro descs own w
  simp only [deliverFrame, onChain]
  cases scatter (rxWire frame) descs 0 0 w <;> rfl

theorem drainRx_eq (backend : NetBackend η) (interceptor : FrameInterceptor η) :
    drainRx backend interceptor =
      deliver rxQueue (fetchRx backend interceptor) deliverFrame fun _ own => own := rfl

/-! ## Runs -/

def NetBackend.recording (backend : NetBackend η) : NetBackend (η × List Frame) where
  send frame host := (backend.send frame host.1, host.2)
  recv host :=
    let (frames, host') := backend.recv host.1
    (frames, host', host.2 ++ frames)

def FrameInterceptor.recording (interceptor : FrameInterceptor η) :
    FrameInterceptor (η × List Frame) where
  interceptTx frame host :=
    let (consumed, host') := interceptor.interceptTx frame host.1
    (consumed, host', host.2)
  drainRx host :=
    let (frames, host') := interceptor.drainRx host.1
    (frames, host', host.2 ++ frames)

structure Line (η : Type) where
  device : Frontend Unit
  world : World (η × List Frame)
  delivered : List (Option (List UInt8))

structure Ends (η : Type) where
  backend : NetBackend η
  interceptor : FrameInterceptor η

def Ends.fetch (ends : Ends η) (host : η) : List Frame × η :=
  let (frames, host) := ends.interceptor.drainRx host
  let (frames', host) := ends.backend.recv host
  (frames ++ frames', host)

namespace Line

def start (config : NetConfig) (ends : Ends η) (mem : GuestMemory) (irq : IrqLine) (host : η) :
    Line η where
  device := (NetDevice.new config ends.backend ends.interceptor).new
  world := { mem, irq, host := (host, []), log := [] }
  delivered := []

variable (s : Line η)

def taken : List Frame := s.world.host.2

def received (new : List Event) : List (Option (List UInt8)) :=
  match s.device.queues[rxQueue]? with
  | none => []
  | some q => (new.filterMap (completedOn rxQueue)).map (content q s.world.mem)

end Line

inductive Turn (η : Type) where
  | drainTx (fuel : ℕ)
  | drainRx
  | guest (queues : List Queue) (byte : ℕ → UInt8)
  | host (f : η → η)
  | activate

def Line.step (ends : Ends η) (s : Line η) : Turn η → Option (Line η)
  | .drainTx fuel =>
    match NetDevice.drainTx ends.backend.recording ends.interceptor.recording fuel s.device
      s.world with
    | .error _ => none
    | .ok (_, device, world) => some { s with device, world }
  | .drainRx =>
    match NetDevice.drainRx ends.backend.recording ends.interceptor.recording s.device s.world with
    | .error _ => none
    | .ok (_, device, world) =>
      let s' := { s with device, world }
      some { s' with
        delivered := s.delivered ++ s'.received (world.log.drop s.world.log.length) }
  | .guest queues byte =>
    some { s with
      device := { s.device with queues }
      world := { s.world with mem := { s.world.mem with byte } } }
  | .host f => some { s with world := { s.world with host := (f s.world.host.1, s.world.host.2) } }
  | .activate => some { s with device := { s.device with state := .full } }

def Line.Active (s : Line η) : Prop := (s.device.state.mem && s.device.state.irq) = true

def Line.WellFormed (s : Line η) : Turn η → Prop
  | .drainRx => s.Active → ∃ q l, s.device.queues[rxQueue]? = some q ∧ Usable [] q s.world.mem l
  | _ => True

def Line.Fits (ends : Ends η) (s : Line η) : Turn η → Prop
  | .drainRx => s.Active → ∀ q l, s.device.queues[rxQueue]? = some q → Posted s.world.mem l q →
      (ends.fetch s.world.host.1).1.length ≤ l.length ∧
      ∀ p ∈ (ends.fetch s.world.host.1).1.zip l, virtioNetHdrLen + p.1.length ≤ capacity p.2.2
  | _ => True

def Line.Whole (s : Line η) : Prop := s.delivered = s.taken.map fun frame => some (rxWire frame)

section Steps

variable {ends : Ends η} {s s' : Line η}

theorem fetchRx_recording (ends : Ends η) (own : Unit) (w : World (η × List Frame)) :
    fetchRx ends.backend.recording ends.interceptor.recording own w =
      ((ends.fetch w.host.1).1, own,
        { w with host := ((ends.fetch w.host.1).2, w.host.2 ++ (ends.fetch w.host.1).1) }) := by
  simp [fetchRx, Ends.fetch, NetBackend.recording, FrameInterceptor.recording]

theorem step_drainRx (ends : Ends η) (hactive : s.Active) {q : Queue} {l : List Buffer}
    (hq : s.device.queues[rxQueue]? = some q) (husable : Usable [] q s.world.mem l) :
    ∃ s', s.step ends .drainRx = some s' ∧
      s'.taken = s.taken ++ (ends.fetch s.world.host.1).1 ∧
      s'.delivered = s.delivered ++
        List.zipWith cutOff ((ends.fetch s.world.host.1).1.map rxWire) l := by
  obtain ⟨fd', w', new, q', hdrain, -, hhost, hlog, hq', hfound, -⟩ :=
    deliver_fills scatters_deliverFrame (fun _ own => own) hactive hq
      (fetchRx_recording ends s.device.own s.world) husable
  rw [← drainRx_eq] at hdrain
  have hstep : s.step ends .drainRx = some (.mk fd' w' (s.delivered ++
      Line.received (.mk fd' w' s.delivered) (w'.log.drop s.world.log.length))) := by
    simp only [Line.step, hdrain]
  refine ⟨_, hstep, by rw [Line.taken, hhost]; rfl, ?_⟩
  rw [Line.received, hlog, List.drop_left]
  simp only [hq', hfound]

theorem conserved_drainRx_iff (h : s.Whole) (hwell : s.WellFormed .drainRx) :
    (∀ s', s.step ends .drainRx = some s' → s'.Whole) ↔ s.Fits ends .drainRx := by
  by_cases hactive : s.Active
  · obtain ⟨q, l, hq, husable⟩ := hwell hactive
    obtain ⟨s', hstep, htaken, hdelivered⟩ := step_drainRx ends hactive hq husable
    have hwhole : s'.Whole ↔ (ends.fetch s.world.host.1).1.length ≤ l.length ∧
        ∀ p ∈ (ends.fetch s.world.host.1).1.zip l,
          virtioNetHdrLen + p.1.length ≤ capacity p.2.2 := by
      have hmap : ((ends.fetch s.world.host.1).1.map fun frame => some (rxWire frame)) =
          ((ends.fetch s.world.host.1).1.map rxWire).map some := by
        rw [List.map_map]
        rfl
      rw [Line.Whole, htaken, hdelivered, List.map_append, h, List.append_cancel_left_eq, hmap,
        zipWith_cutOff_eq_iff, List.zip_map_left, List.forall_mem_map]
      simp [rxWire]
    rw [hstep]
    constructor
    · intro hs' _ q' l' hq' hl'
      cases hq.symm.trans hq'
      rw [hl'.unique husable.posted]
      exact hwhole.1 (hs' s' rfl)
    · intro hfits s'' hs''
      cases hs''
      exact hwhole.2 (hfits hactive q l hq husable.posted)
  · have hidle : drainRx ends.backend.recording ends.interceptor.recording s.device s.world =
        .ok (true, s.device, s.world) := by
      exact if_neg hactive
    have hnone : s.received (s.world.log.drop s.world.log.length) = [] := by
      rw [List.drop_length, Line.received]
      split <;> rfl
    refine iff_of_true (fun s' hs' => ?_) fun hactive' => absurd hactive' hactive
    simp only [Line.step, hidle, Option.some.injEq] at hs'
    rw [← hs']
    rw [hnone, List.append_nil]
    exact h

theorem drainTx_keeps {α : Type} {backend : NetBackend η} {interceptor : FrameInterceptor η} {fuel : ℕ}
    {fd fd' : Frontend Unit} {w w' : World η} {b : Bool} (f : η → α)
    (hf : ∀ payload host, f (transmit backend interceptor payload host) = f host)
    (hdrain : drainTx backend interceptor fuel fd w = .ok (b, fd', w')) : f w'.host = f w.host := by
  refine drain_relates (fun x x' : Unit × η => f x'.2 = f x.2) (fun _ => rfl)
    (fun h h' => h'.trans h) (fun r own w => ?_) hdrain
  cases r with
  | error e => exact returns_ok rfl
  | ok descs =>
    simp only [onChain]
    split_ifs with hlen
    · exact (returns_slice hlen.le le_rfl).bind fun payload _ => returns_ok (hf payload w.host)
    · exact returns_ok rfl

theorem drainTx_taken {fuel : ℕ} {fd fd' : Frontend Unit} {w w' : World (η × List Frame)} {b : Bool}
    (hdrain : drainTx ends.backend.recording ends.interceptor.recording fuel fd w =
      .ok (b, fd', w')) : w'.host.2 = w.host.2 := by
  refine drainTx_keeps Prod.snd (fun payload host => ?_) hdrain
  simp only [transmit, FrameInterceptor.recording]
  cases (ends.interceptor.interceptTx payload host.1).1 <;> rfl

theorem whole_step_iff {turn : Turn η} (h : s.Whole) (hwell : s.WellFormed turn) :
    (∀ s', s.step ends turn = some s' → s'.Whole) ↔ s.Fits ends turn := by
  cases turn with
  | drainTx fuel =>
    refine iff_of_true (fun s' hs' => ?_) trivial
    simp only [Line.step] at hs'
    split at hs'
    · cases hs'
    next hdrain =>
    cases hs'
    rw [Line.Whole, Line.taken, drainTx_taken hdrain]
    exact h
  | drainRx => exact conserved_drainRx_iff h hwell
  | guest queues byte | host f | activate =>
    refine iff_of_true (fun s' hs' => ?_) trivial
    cases hs'
    exact h

end Steps

/-- **Delivery whole and in order.** The guest finds the frames taken so far after every step
exactly if, at each delivery, each waiting frame has a receive buffer with room for it. -/
theorem delivered_whole_iff {config : NetConfig} {ends : Ends η} {mem : GuestMemory} {irq : IrqLine}
    {host : η} {turns : List (Turn η)}
    (hwell : Run.Along (Line.step ends) Line.WellFormed turns (.start config ends mem irq host)) :
    Run.Along (Line.step ends)
        (fun s turn => ∀ s', s.step ends turn = some s' →
          s'.delivered = s'.taken.map fun frame => some (rxWire frame))
        turns (.start config ends mem irq host) ↔
      Run.Along (Line.step ends) (Line.Fits ends) turns (.start config ends mem irq host) :=
  Run.along_keeps_iff (fun _ _ => whole_step_iff) hwell rfl

section Scenario

open VsockDevice (receiveQueue receiveBuffer receiveMemory usable_one)

def scripted : Ends (List Frame) where
  backend := { send := fun _ host => host, recv := fun host => (host, []) }
  interceptor := { interceptTx := fun _ host => (false, host), drainRx := fun host => ([], host) }

def oneBuffer (frames : List Frame) : Line (List Frame) :=
  .start { guestMac := none, mtu := none } scripted (receiveMemory 1) { intid := 32, status := 0 }
    frames

def deliverOnce : List (Turn (List Frame)) :=
  [.activate, .guest [receiveQueue, .new queueMaxSize] (receiveMemory 1).byte, .drainRx]

theorem along_deliverOnce {C : Line (List Frame) → Turn (List Frame) → Prop} {frames : List Frame}
    (hactivate : C (oneBuffer frames) .activate) (hguest : ∀ s queues byte, C s (.guest queues byte))
    (hdrain : ∀ s, s.device.queues[rxQueue]? = some receiveQueue →
      s.world.mem = receiveMemory 1 → (scripted.fetch s.world.host.1).1 = frames → C s .drainRx) :
    Run.Along (Line.step scripted) C deliverOnce (oneBuffer frames) := by
  refine .cons rfl hactivate <| .cons rfl (hguest _ _ _) ⟨hdrain _ rfl rfl rfl, ?_⟩
  exact fun _ _ => trivial

theorem wellFormed_deliverOnce (frames : List Frame) :
    Run.Along (Line.step scripted) Line.WellFormed deliverOnce (oneBuffer frames) := by
  refine along_deliverOnce trivial (fun _ _ _ => trivial) fun s hq hmem _ _ => ?_
  exact ⟨receiveQueue, [(0, [receiveBuffer])], hq, by rw [hmem]; exact usable_one (by simp)⟩

theorem delivered_whole_one_frame :
    Run.Along (Line.step scripted)
      (fun s turn => ∀ s', s.step scripted turn = some s' →
        s'.delivered = s'.taken.map fun frame => some (rxWire frame))
      deliverOnce (oneBuffer [[1, 2]]) := by
  refine (delivered_whole_iff (wellFormed_deliverOnce [[1, 2]])).2 ?_
  refine along_deliverOnce trivial (fun _ _ _ => trivial) fun s hq hmem hfetch _ q l hq' hl => ?_
  cases hq.symm.trans hq'
  have husable : Usable [] receiveQueue s.world.mem [(0, [receiveBuffer])] := by
    rw [hmem]
    exact usable_one (by simp)
  rw [hl.unique husable.posted, hfetch]
  decide

/-- **Two frames and one buffer**: the second is gone. **60 bytes and a buffer of 64**: the last 8
are gone. -/
theorem frame_dropped_and_frame_cut :
    (∀ frames, Run.Along (Line.step scripted) Line.WellFormed deliverOnce (oneBuffer frames)) ∧
    (∃ s ∈ Run.run (Line.step scripted) deliverOnce (oneBuffer [[1], [2]]),
      s.taken = [[1], [2]] ∧ s.delivered = [some (rxWire [1])]) ∧
    ∃ s ∈ Run.run (Line.step scripted) deliverOnce (oneBuffer [List.replicate 60 7]),
      s.taken = [List.replicate 60 7] ∧ s.delivered = [some (rxWire (List.replicate 52 7))] := by
  refine ⟨wellFormed_deliverOnce, ?_⟩
  decide +kernel

end Scenario

end Squib.NetDevice
