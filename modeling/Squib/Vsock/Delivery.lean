import Squib.Lib.Run
import Squib.Virtio.Delivery
import Squib.Vsock.Wire

/-!
# Delivery of packets to the guest
-/

namespace Squib.VsockDevice

open Checked Loop GuestMemory

variable {η : Type}

/-! ## What the guest finds -/

def completion : Event → Option (UInt16 × UInt32)
  | .pushed i head written => if i = rxQueue then some (head, written) else none
  | _ => none

def found (q : Queue) (m : GuestMemory) (x : UInt16 × UInt32) : Option VsockPacket :=
  match (q.chainAt x.1).collect m with
  | .error _ => none
  | .ok descs => VsockPacket.decode ((filled m descs).take x.2.toNat)

theorem completion_eq : completion = completedOn rxQueue := by
  funext e
  cases e <;> rfl

theorem found_eq (q : Queue) (m : GuestMemory) :
    found q m = (Option.bind · VsockPacket.decode) ∘ content q m := by
  funext x
  rw [found, Function.comp_apply, content]
  cases (q.chainAt x.1).collect m <;> rfl

/-! ## One delivery -/

def deliverPacket (pkt : VsockPacket) : Handler RxBuffer η :=
  onChain fun descs rxBuffer w => do
    let wire := (← pkt.hdr.toBytes) ++ pkt.payload
    let (written, w) ← scatter wire descs 0 0 w
    .ok (.complete written, rxBuffer, w)

theorem drainRx_eq (muxer : VsockMuxer η) : drainRx muxer =
    deliver rxQueue (fetchRx muxer) deliverPacket fun pkt rxBuffer => rxBuffer ++ [pkt] := rfl

theorem scatters_deliverPacket (pkt : VsockPacket) :
    Scatters (deliverPacket pkt : Handler RxBuffer η) pkt.wire := by
  intro descs own w
  have hwire : pkt.hdr.wire ++ pkt.payload = pkt.wire := rfl
  simp only [deliverPacket, onChain, VsockHeader.toBytes_eq, bind, Except.bind, hwire]
  cases scatter pkt.wire descs 0 0 w <;> rfl

variable {l : List Buffer} {pkts : List VsockPacket} {q : Queue}

theorem found_of_fills {q' : Queue} {m m' : GuestMemory} {new : List Event}
    (h : Usable (pkts.map fun pkt => pkt.wire.length) q m l)
    (hfills : (new.filterMap (completedOn rxQueue)).map (content q' m') =
      List.zipWith cutOff (pkts.map VsockPacket.wire) l) :
    (new.filterMap completion).map (found q' m') = (pkts.take l.length).map some := by
  have hroom : ∀ p ∈ (pkts.map VsockPacket.wire).zip l, p.1.length ≤ capacity p.2.2 := by
    intro p hp
    obtain ⟨hp₁, hp₂⟩ := List.of_mem_zip hp
    obtain ⟨pkt, hpkt, hp₁⟩ := List.mem_map.1 hp₁
    exact h.room p.2 hp₂ _ (List.mem_map.2 ⟨pkt, hpkt, by rw [hp₁]⟩)
  rw [zipWith_cutOff_eq_take_iff.2 hroom, ← List.map_take, List.map_map] at hfills
  rw [completion_eq, found_eq, ← List.map_map, hfills, List.map_map]
  exact List.map_congr_left fun pkt _ => VsockPacket.decode_wire pkt

theorem requeue_head? (pkts : List VsockPacket) (own : RxBuffer) :
    (pkts.head?.elim own fun pkt => own ++ [pkt]) = own ++ pkts.take 1 := by
  cases pkts <;> simp

theorem drainRx_delivers (muxer : VsockMuxer η) {fd : Frontend RxBuffer} {w : World η}
    (hactive : (fd.state.mem && fd.state.irq) = true) (hq : fd.queues[rxQueue]? = some q)
    (hpkts : fd.own ++ (muxer.drainRx w.host).1 = pkts)
    (h : Usable (pkts.map fun pkt => pkt.wire.length) q w.mem l) :
    ∃ fd' w' new q', drainRx muxer fd w = .ok (true, fd', w') ∧
      fd'.own = (pkts.drop l.length).take 1 ∧ w'.host = (muxer.drainRx w.host).2 ∧
      w'.log = w.log ++ new ∧ fd'.queues[rxQueue]? = some q' ∧
      (new.filterMap completion).map (found q' w'.mem) = (pkts.take l.length).map some := by
  have hfetch : fetchRx muxer fd.own w =
      (pkts, [], { w with host := (muxer.drainRx w.host).2 }) := by
    rw [← hpkts]
    rfl
  obtain ⟨fd', w', new, q', hdrain, hown, hhost, hlog, hq', hfound, -⟩ :=
    deliver_fills scatters_deliverPacket (fun pkt rxBuffer => rxBuffer ++ [pkt]) hactive hq hfetch
      h.anyRoom
  rw [requeue_head?] at hown
  exact ⟨fd', w', new, q', hdrain, hown, hhost, hlog, hq', found_of_fills h hfound⟩

/-! ## Runs -/

def VsockMuxer.recording (muxer : VsockMuxer η) : VsockMuxer (η × List VsockPacket) where
  handleTx pkt host :=
    let (replies, host') := muxer.handleTx pkt host.1
    (replies, host', host.2 ++ replies)
  drainRx host :=
    let (packets, host') := muxer.drainRx host.1
    (packets, host', host.2 ++ packets)

structure Line (η : Type) where
  device : Frontend RxBuffer
  world : World (η × List VsockPacket)
  delivered : List (Option VsockPacket)

namespace Line

def start (config : VsockConfig) (muxer : VsockMuxer η) (mem : GuestMemory) (irq : IrqLine)
    (host : η) : Line η where
  device := (model config muxer).new
  world := { mem, irq, host := (host, []), log := [] }
  delivered := []

variable (muxer : VsockMuxer η) (s : Line η)

def handedOver : List VsockPacket := s.world.host.2

def waiting : List VsockPacket := s.device.own ++ (muxer.drainRx s.world.host.1).1

def received (new : List Event) : List (Option VsockPacket) :=
  match s.device.queues[rxQueue]? with
  | none => []
  | some q => (new.filterMap completion).map (found q s.world.mem)

end Line

inductive Turn (η : Type) where
  | drainTx (fuel : ℕ)
  | drainRx
  | guest (queues : List Queue) (byte : ℕ → UInt8)
  | host (f : η → η)
  | activate

def Line.step (muxer : VsockMuxer η) (s : Line η) : Turn η → Option (Line η)
  | .drainTx fuel =>
    match VsockDevice.drainTx muxer.recording fuel s.device s.world with
    | .error _ => none
    | .ok (_, device, world) => some { s with device, world }
  | .drainRx =>
    match VsockDevice.drainRx muxer.recording s.device s.world with
    | .error _ => none
    | .ok (_, device, world) =>
      let s' := { s with device, world }
      some { s' with
        delivered := s.delivered ++ s'.received (world.log.drop s.world.log.length) }
  | .guest queues byte =>
    some { s with
      device := { s.device with queues }
      world := { s.world with mem := { s.world.mem with byte } } }
  | .host f => some { s with world := { s.world with host := (f s.world.host.1, s.world.host.2) } }
  | .activate => some { s with device := { s.device with state := .full } }

def Line.Active (s : Line η) : Prop := (s.device.state.mem && s.device.state.irq) = true

def Line.WellFormed (muxer : VsockMuxer η) (s : Line η) : Turn η → Prop
  | .drainRx => s.Active → ∃ q l, s.device.queues[rxQueue]? = some q ∧
      Usable ((s.waiting muxer).map fun pkt => pkt.wire.length) q s.world.mem l
  | _ => True

def Line.Fits (muxer : VsockMuxer η) (s : Line η) : Turn η → Prop
  | .drainRx => s.Active → ∀ q, s.device.queues[rxQueue]? = some q →
      (s.waiting muxer).length ≤ q.pending s.world.mem + 1
  | _ => True

def Line.Conserved (s : Line η) : Prop :=
  s.delivered ++ s.device.own.map some = s.handedOver.map some

section Steps

variable {muxer : VsockMuxer η} {s s' : Line η}

theorem conserved_drainRx_iff (h : s.Conserved) (hactive : s.Active) {q : Queue}
    (hq : s.device.queues[rxQueue]? = some q)
    (husable : Usable ((s.waiting muxer).map fun pkt => pkt.wire.length) q s.world.mem l)
    (hstep : s.step muxer .drainRx = some s') :
    s'.Conserved ↔ (s.waiting muxer).length ≤ q.pending s.world.mem + 1 := by
  obtain ⟨fd', w', new, q', hdrain, hown, hhost, hlog, hq', hfound⟩ :=
    drainRx_delivers muxer.recording hactive hq
      (show s.device.own ++ (muxer.recording.drainRx s.world.host).1 = s.waiting muxer from rfl)
      husable
  simp only [Line.step, hdrain, Option.some.injEq] at hstep
  subst hstep
  have hreceived : Line.received { s with device := fd', world := w' }
      (w'.log.drop s.world.log.length) = ((s.waiting muxer).take l.length).map some := by
    rw [Line.received, hlog, List.drop_left]
    simp only [hq']
    exact hfound
  have hhanded : w'.host.2.map some = s.delivered ++ (s.waiting muxer).map some := by
    rw [hhost, Line.waiting, List.map_append, ← List.append_assoc, h, ← List.map_append]
    rfl
  unfold Line.Conserved Line.handedOver
  rw [hreceived, hhanded, hown, List.append_assoc, List.append_cancel_left_eq, ← List.map_append,
    List.map_inj_right (fun _ _ => Option.some.inj), husable.posted.length_eq]
  conv_lhs => rhs; rw [← List.take_append_drop l.length (s.waiting muxer)]
  rw [List.append_cancel_left_eq, List.take_eq_self_iff, List.length_drop]
  omega

theorem conserved_drainRx (h : s.Conserved) (hwell : s.WellFormed muxer .drainRx)
    (hfits : s.Fits muxer .drainRx) (hstep : s.step muxer .drainRx = some s') : s'.Conserved := by
  by_cases hactive : s.Active
  · obtain ⟨q, l, hq, husable⟩ := hwell hactive
    exact (conserved_drainRx_iff h hactive hq husable hstep).2 (hfits hactive q hq)
  · have hidle : drainRx muxer.recording s.device s.world = .ok (true, s.device, s.world) := by
      exact if_neg hactive
    simp only [Line.step, hidle, Option.some.injEq] at hstep
    subst hstep
    have hnone : s.received (s.world.log.drop s.world.log.length) = [] := by
      rw [List.drop_length, Line.received]
      split <;> rfl
    rw [hnone, List.append_nil]
    exact h

def Appends (x x' : RxBuffer × η × List VsockPacket) : Prop :=
  ∃ replies, x'.1 = x.1 ++ replies ∧ x'.2.2 = x.2.2 ++ replies

theorem Appends.refl (x : RxBuffer × η × List VsockPacket) : Appends x x :=
  ⟨[], (List.append_nil _).symm, (List.append_nil _).symm⟩

theorem Appends.trans {x y z : RxBuffer × η × List VsockPacket} (h : Appends x y)
    (h' : Appends y z) : Appends x z := by
  obtain ⟨r, ho, hr⟩ := h
  obtain ⟨r', ho', hr'⟩ := h'
  exact ⟨r ++ r', by rw [ho', ho, List.append_assoc], by rw [hr', hr, List.append_assoc]⟩

variable {fuel : ℕ}

theorem drainTx_appends {fd fd' : Frontend RxBuffer} {w w' : World (η × List VsockPacket)}
    {b : Bool} (hdrain : drainTx muxer.recording fuel fd w = .ok (b, fd', w')) :
    Appends (fd.own, w.host) (fd'.own, w'.host) := by
  refine drain_relates Appends .refl .trans (fun r own w => ?_) hdrain
  cases r with
  | error e => exact returns_ok (.refl _)
  | ok descs =>
    simp only [onChain]
    split_ifs with hlen
    · exact returns_ok (.refl _)
    have hfront := not_lt.1 hlen
    simp only [slice_front hfront, fromBytes_front hfront, slice_acceptedPayload hfront, ok_bind]
    exact returns_ok ⟨_, rfl, rfl⟩

theorem conserved_drainTx (h : s.Conserved) (hstep : s.step muxer (.drainTx fuel) = some s') :
    s'.Conserved := by
  simp only [Line.step] at hstep
  split at hstep
  · cases hstep
  next hdrain =>
  cases hstep
  obtain ⟨replies, hown, hrecord⟩ := drainTx_appends hdrain
  unfold Line.Conserved Line.handedOver at *
  dsimp only at *
  rw [hown, hrecord, List.map_append, List.map_append, ← List.append_assoc, h]

theorem conserved_step (h : s.Conserved) {turn : Turn η} (hwell : s.WellFormed muxer turn)
    (hfits : s.Fits muxer turn) (hstep : s.step muxer turn = some s') : s'.Conserved := by
  cases turn with
  | drainTx fuel => exact conserved_drainTx h hstep
  | drainRx => exact conserved_drainRx h hwell hfits hstep
  | guest queues byte | host f | activate =>
    cases hstep
    exact h

end Steps

/-- **Delivery in order**, if at most one packet more than receive buffers waits at each delivery.
-/
theorem delivered_in_order {config : VsockConfig} {muxer : VsockMuxer η} {mem : GuestMemory}
    {irq : IrqLine} {host : η} {turns : List (Turn η)} {s : Line η}
    (hwell : Run.Along (Line.step muxer) (Line.WellFormed muxer) turns
      (.start config muxer mem irq host))
    (hfits : Run.Along (Line.step muxer) (Line.Fits muxer) turns
      (.start config muxer mem irq host))
    (hrun : Run.run (Line.step muxer) turns (.start config muxer mem irq host) = some s) :
    s.delivered ++ s.device.own.map some = s.handedOver.map some :=
  Run.invariant (fun _ _ _ h hC => conserved_step h hC.1 hC.2)
    (hwell.and hfits) rfl hrun

section Scenario

def scripted : VsockMuxer (List VsockPacket) where
  handleTx _ host := ([], host)
  drainRx host := (host, [])

def oneByte (payload : UInt8) : VsockPacket where
  hdr :=
    { srcCid := 2, dstCid := 3, srcPort := 1024, dstPort := 5001, len := 1, type := 1, op := .rw
      flags := 0, bufAlloc := 0, fwdCnt := 0 }
  payload := [payload]

def receiveQueue : Queue where
  maxSize := queueMaxSize
  size := 4
  ready := true
  descTableAddr := 0x1000
  availRingAddr := 0x1040
  usedRingAddr := 0x1050
  nextAvailIdx := 0
  nextUsedIdx := 0

def receiveBuffer : Descriptor where
  addr := 0x1080
  len := 64
  flags := virtqDescFWrite
  next := 0

def receiveMemory (posted : UInt16) : GuestMemory := ringMemory [receiveBuffer] posted

def twoPackets (posted : UInt16) : Line (List VsockPacket) :=
  .start { guestCid := 3 } scripted (receiveMemory posted) { intid := 32, status := 0 }
    [oneByte 1, oneByte 2]

def deliverOnce (posted : UInt16) : List (Turn (List VsockPacket)) :=
  [.activate, .guest [receiveQueue, .new queueMaxSize, .new queueMaxSize]
    (receiveMemory posted).byte, .drainRx]

variable {a : ℕ} {lens : List ℕ}

theorem inUsedRing_receiveQueue (h : receiveQueue.InUsedRing a) : 0x1050 ≤ a ∧ a < 0x1076 := by
  obtain ⟨n, hn, rfl⟩ := h
  change n < 38 at hn
  change 0x1050 ≤ (0x1050 + n) % 2 ^ 64 ∧ (0x1050 + n) % 2 ^ 64 < 0x1076
  omega

theorem inDriverArea_receiveQueue (h : receiveQueue.InDriverArea a) : a < 0x1050 := by
  obtain ⟨n, hn, rfl⟩ | ⟨n, hn, rfl⟩ := h
  · change n < 14 at hn
    change (0x1040 + n) % 2 ^ 64 < 0x1050
    omega
  · change n < 64 at hn
    change (0x1000 + n) % 2 ^ 64 < 0x1050
    omega

theorem receiveQueue_apart (a : ℕ) (h : receiveQueue.InUsedRing a) :
    ¬ receiveQueue.InDriverArea a := by
  intro hdriver
  have := (inUsedRing_receiveQueue h).1
  have := inDriverArea_receiveQueue hdriver
  omega

theorem usable_none : Usable lens receiveQueue (receiveMemory 0) [] where
  valid := by decide
  posted := by
    rw [Posted]
    decide +kernel
  usedMapped := by decide +kernel
  ringsApart := receiveQueue_apart
  lentApart := nofun
  fillable := ⟨nofun, .nil⟩
  room := nofun
  small := nofun

theorem usable_one (h : ∀ n ∈ lens, n ≤ 64) :
    Usable lens receiveQueue (receiveMemory 1) [(0, [receiveBuffer])] where
  valid := by decide
  posted := by
    simp only [Posted]
    refine ⟨by decide +kernel, by decide +kernel, by decide +kernel⟩
  usedMapped := by decide +kernel
  ringsApart := receiveQueue_apart
  lentApart := by
    intro b hb a ha
    obtain rfl := List.mem_singleton.1 hb
    obtain ⟨d, hd, -, h1, -⟩ := ha
    obtain rfl := List.mem_singleton.1 hd
    change 0x1080 ≤ a at h1
    refine ⟨fun hused => ?_, fun hdriver => ?_⟩
    · have := (inUsedRing_receiveQueue hused).2
      omega
    · have := inDriverArea_receiveQueue hdriver
      omega
  fillable := by
    refine ⟨fun d hd => ?_, List.pairwise_singleton _ _⟩
    obtain rfl := List.mem_singleton.1 hd
    decide +kernel
  room := by
    intro b hb n hn
    obtain rfl := List.mem_singleton.1 hb
    exact h n hn
  small := by
    intro b hb
    obtain rfl := List.mem_singleton.1 hb
    decide

theorem along_deliverOnce {C : Line (List VsockPacket) → Turn (List VsockPacket) → Prop}
    {posted : UInt16} (hactivate : C (twoPackets posted) .activate)
    (hguest : ∀ s queues byte, C s (.guest queues byte))
    (hdrain : ∀ s, s.Active → s.device.queues[rxQueue]? = some receiveQueue →
      s.world.mem = receiveMemory posted → s.waiting scripted = [oneByte 1, oneByte 2] →
      C s .drainRx) :
    Run.Along (Line.step scripted) C (deliverOnce posted) (twoPackets posted) := by
  refine .cons rfl hactivate <| .cons rfl (hguest _ _ _) ⟨hdrain _ rfl rfl rfl rfl, ?_⟩
  exact fun _ _ => trivial

theorem delivered_in_order_one_buffer :
    ∃ s, Run.run (Line.step scripted) (deliverOnce 1) (twoPackets 1) = some s ∧
      s.device.own = [oneByte 2] ∧ s.handedOver = [oneByte 1, oneByte 2] ∧
      s.delivered ++ s.device.own.map some = s.handedOver.map some := by
  obtain ⟨s, hs, hown, hhanded⟩ : ∃ s ∈ Run.run (Line.step scripted) (deliverOnce 1) (twoPackets 1),
      s.device.own = [oneByte 2] ∧ s.handedOver = [oneByte 1, oneByte 2] := by decide +kernel
  have hwell : Run.Along (Line.step scripted) (Line.WellFormed scripted) (deliverOnce 1)
      (twoPackets 1) := by
    refine along_deliverOnce trivial (fun _ _ _ => trivial) fun s _ hq hmem hwaiting _ => ?_
    refine ⟨receiveQueue, [(0, [receiveBuffer])], hq, ?_⟩
    rw [hmem, hwaiting]
    exact usable_one (by decide +kernel)
  have hfits : Run.Along (Line.step scripted) (Line.Fits scripted) (deliverOnce 1)
      (twoPackets 1) := by
    refine along_deliverOnce trivial (fun _ _ _ => trivial) fun s _ hq hmem hwaiting _ q hq' => ?_
    cases hq.symm.trans hq'
    rw [hmem, hwaiting]
    decide +kernel
  exact ⟨s, hs, hown, hhanded, delivered_in_order hwell hfits hs⟩

/-- Two packets wait and no buffer is posted: the second one is lost. -/
theorem second_packet_lost :
    ∃ s, Run.run (Line.step scripted) (deliverOnce 0) (twoPackets 0) = some s ∧
      Run.Along (Line.step scripted) (Line.WellFormed scripted) (deliverOnce 0) (twoPackets 0) ∧
      s.delivered ++ s.device.own.map some ≠ s.handedOver.map some := by
  obtain ⟨s, hs, hlost⟩ : ∃ s ∈ Run.run (Line.step scripted) (deliverOnce 0) (twoPackets 0),
      s.delivered ++ s.device.own.map some ≠ s.handedOver.map some := by decide +kernel
  refine ⟨s, hs, ?_, hlost⟩
  refine along_deliverOnce trivial (fun _ _ _ => trivial) fun s _ hq hmem _ _ => ?_
  refine ⟨receiveQueue, [], hq, ?_⟩
  rw [hmem]
  exact usable_none

end Scenario

end Squib.VsockDevice
