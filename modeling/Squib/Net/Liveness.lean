import Squib.Lib.Fair
import Squib.Net.Delivery

/-!
# Waking the receive queue
-/

namespace Squib.NetDevice

open Checked Loop GuestMemory VirtioMmioTransport
open Run (Exec)

/-! ## The backend -/

def rxQueueCap : ℕ := 256
def txChannelCap : ℕ := 256

structure GvproxyBackend where
  rxBuffer : List Frame := []
  txChannel : List Frame := []
  reading : Bool := true
  gone : ℕ := 0
  deriving DecidableEq, Repr

namespace GvproxyBackend

variable (b : GvproxyBackend)

def full : Bool := rxQueueCap ≤ b.rxBuffer.length

def runReader (maxFrameBytes : ℕ) (frame : Frame) : GvproxyBackend :=
  if !b.reading then b
  else if maxFrameBytes < frame.length then { b with reading := false }
  else if frame.length = 0 then b
  else if b.full then { b with rxBuffer := b.rxBuffer.drop 1 ++ [frame], gone := b.gone + 1 }
  else { b with rxBuffer := b.rxBuffer ++ [frame] }

def runWriter : GvproxyBackend := { b with txChannel := b.txChannel.drop 1 }

def send (frame : Frame) : GvproxyBackend :=
  if b.txChannel.length < txChannelCap then { b with txChannel := b.txChannel ++ [frame] } else b

def recv : List Frame × GvproxyBackend :=
  (b.rxBuffer, { b with rxBuffer := [], gone := b.gone + b.rxBuffer.length })

def Holds (i : ℕ) (frame : Frame) : Prop := b.gone ≤ i ∧ b.rxBuffer[i - b.gone]? = some frame

instance (i : ℕ) (frame : Frame) : Decidable (b.Holds i frame) :=
  inferInstanceAs (Decidable (_ ∧ _))

variable {b} {i : ℕ} {frame : Frame}

theorem Holds.mem (h : b.Holds i frame) : frame ∈ b.rxBuffer := List.mem_of_getElem? h.2

theorem Holds.runReader (h : b.Holds i frame) {maxFrameBytes : ℕ} {frame' : Frame}
    (hkept : (b.runReader maxFrameBytes frame').gone ≤ i) :
    (b.runReader maxFrameBytes frame').Holds i frame := by
  refine ⟨hkept, ?_⟩
  obtain ⟨hlt, hget⟩ := List.getElem?_eq_some_iff.1 h.2
  unfold GvproxyBackend.runReader at hkept ⊢
  split_ifs at hkept ⊢
  · exact h.2
  · exact h.2
  · exact h.2
  · dsimp only at hkept ⊢
    have hi : i - b.gone = i - (b.gone + 1) + 1 := by omega
    rw [List.getElem?_append_left (by rw [List.length_drop]; omega), List.getElem?_drop,
      Nat.add_comm, ← hi]
    exact h.2
  · rw [List.getElem?_append_left hlt]
    exact h.2

end GvproxyBackend

variable {ι : Type}

def gvproxy (interceptor : FrameInterceptor ι) : Ends (GvproxyBackend × ι) where
  backend :=
    { send := fun frame host => (host.1.send frame, host.2)
      recv := fun host => (host.1.recv.1, host.1.recv.2, host.2) }
  interceptor :=
    { interceptTx := fun frame host =>
        let (consumed, own) := interceptor.interceptTx frame host.2
        (consumed, host.1, own)
      drainRx := fun host =>
        let (frames, own) := interceptor.drainRx host.2
        (frames, host.1, own) }

/-! ## The system -/

inductive Move (ι : Type) where
  | read (offset : UInt64) (len : ℕ)
  | write (fuel : ℕ) (offset : UInt64) (data : List UInt8)
  | memory (byte : ℕ → UInt8)
  | reader (frame : Frame)
  | hangUp
  | writer
  | interceptor (f : ι → ι)

def Move.host (maxFrameBytes : ℕ) (host : GvproxyBackend × ι) : Move ι → GvproxyBackend × ι
  | .reader frame => (host.1.runReader maxFrameBytes frame, host.2)
  | .hangUp => ({ host.1 with reading := false }, host.2)
  | .writer => (host.1.runWriter, host.2)
  | .interceptor f => (host.1, f host.2)
  | .read _ _ | .write _ _ _ | .memory _ => host

structure Setup (ι : Type) where
  config : NetConfig
  interceptor : FrameInterceptor ι
  maxFrameBytes : ℕ

section System

variable (setup : Setup ι)

def Setup.ends : Ends (GvproxyBackend × ι) := gvproxy setup.interceptor

def Setup.device : DeviceModel Unit (GvproxyBackend × ι) :=
  NetDevice.new setup.config setup.ends.backend setup.ends.interceptor

def Setup.op : Move ι → Op (GvproxyBackend × ι)
  | .read offset len => .read offset len
  | .write _ offset data => .write offset data
  | .memory byte => .guest byte
  | move => .host fun host => move.host setup.maxFrameBytes host

def Move.fuel : Move ι → ℕ
  | .write fuel _ _ => fuel
  | _ => 0

def step (s : Sys (Frontend Unit) (GvproxyBackend × ι)) (move : Move ι) :
    Option (Sys (Frontend Unit) (GvproxyBackend × ι)) :=
  match exec (setup.device.vtable move.fuel) (setup.op move) s with
  | .ok (true, _, s') => some s'
  | _ => none

def Setup.start (mem : GuestMemory) (own : ι) : Sys (Frontend Unit) (GvproxyBackend × ι) :=
  .fresh setup.device.new (.start mem ({}, own))

end System

section Notifications

variable {setup : Setup ι} {s s' : Sys (Frontend Unit) (GvproxyBackend × ι)} {move : Move ι}

def Notifies (s : Sys (Frontend Unit) (GvproxyBackend × ι)) : Move ι → Prop
  | .write _ offset data => s.transport.status &&& DeviceStatus.driverOk ≠ 0 ∧
      (decode offset data = .queueNotify 0 ∨ decode offset data = .queueNotify 1)
  | _ => False

theorem step_of_not_notifies (hstep : step setup s move = some s') (h : ¬ Notifies s move) :
    s'.world.log = s.world.log ∧
      s'.world.host = move.host setup.maxFrameBytes s.world.host := by
  unfold step at hstep
  split at hstep
  case h_2 => cases hstep
  next bytes s₁ hexec =>
  cases hstep
  cases move with
  | read offset len =>
    simp only [Setup.op, exec] at hexec
    cases hr : s.transport.read _ s.world offset len <;> rw [hr] at hexec <;> cases hexec
    exact ⟨rfl, rfl⟩
  | memory byte | reader frame | hangUp | writer | interceptor f => cases hexec; exact ⟨rfl, rfl⟩
  | write fuel offset data =>
    obtain ⟨t', w'⟩ := s'
    have hc := exec_write hexec
    rw [Notifies] at h
    generalize decode offset data = c at hc h
    cases c with
    | queueNotify queueIndex =>
      simp only [Command.apply, handleQueueNotify] at hc
      split at hc
      · cases hc
        exact ⟨rfl, rfl⟩
      · next hup =>
        -- the device has two queues and passes over the others
        have hother : queueIndex ≠ 1 ∧ queueIndex ≠ 0 := by
          constructor <;> rintro rfl <;> exact h ⟨by simpa using hup, by simp⟩
        have htx : queueIndex.toNat ≠ txQueue := fun h => hother.1 (UInt16.toNat_inj.1 h)
        have hrx : queueIndex.toNat ≠ rxQueue := fun h => hother.2 (UInt16.toNat_inj.1 h)
        have hskip : (setup.device.vtable fuel).processQueue queueIndex s.transport.device s.world =
            .ok (true, s.transport.device, s.world) := by
          change processQueue _ _ fuel queueIndex _ _ = _
          rw [processQueue, if_neg htx, if_neg hrx]
          rfl
        simp only [Move.fuel, hskip] at hc
        cases hc
        exact ⟨rfl, rfl⟩
    | config offset data =>
      simp only [Command.apply] at hc
      split at hc <;> cases hc <;> exact ⟨rfl, rfl⟩
    | deviceFeaturesSel | driverFeatures | driverFeaturesSel | queueSel | queueField | interruptAck
    | status | ignored =>
      cases hc
      exact ⟨rfl, rfl⟩

theorem processQueue_of_notifies (hstep : step setup s move = some s') (h : Notifies s move) :
    ∃ fuel offset data queueIndex, move = .write fuel offset data ∧
      decode offset data = .queueNotify queueIndex ∧ (queueIndex = 0 ∨ queueIndex = 1) ∧
      processQueue setup.ends.backend setup.ends.interceptor fuel queueIndex s.transport.device
        s.world = .ok (true, s'.transport.device, s'.world) := by
  cases move with
  | write fuel offset data =>
    obtain ⟨hup, hd⟩ := h
    obtain ⟨queueIndex, hd, hq⟩ : ∃ queueIndex, decode offset data = .queueNotify queueIndex ∧
        (queueIndex = 0 ∨ queueIndex = 1) := by
      rcases hd with hd | hd
      · exact ⟨0, hd, .inl rfl⟩
      · exact ⟨1, hd, .inr rfl⟩
    refine ⟨fuel, offset, data, queueIndex, rfl, hd, hq, ?_⟩
    unfold step at hstep
    split at hstep
    case h_2 => cases hstep
    next bytes s₁ hexec =>
    cases hstep
    obtain ⟨t', w'⟩ := s'
    have hc := exec_write hexec
    rw [hd] at hc
    simp only [Command.apply, handleQueueNotify] at hc
    rw [if_neg (by simpa using hup)] at hc
    split at hc
    · cases hc
    next hp =>
    cases hc
    exact hp
  | read | memory | reader | hangUp | writer | interceptor => exact absurd h id

def Ready (ends : Ends (GvproxyBackend × ι)) (fd : Frontend Unit)
    (w : World (GvproxyBackend × ι)) : Prop :=
  (fd.state.mem && fd.state.irq) = true ∧ ∃ q l, fd.queues[rxQueue]? = some q ∧
    Usable [] q w.mem l ∧ (ends.fetch w.host).1.length ≤ l.length ∧
    ∀ p ∈ (ends.fetch w.host).1.zip l, virtioNetHdrLen + p.1.length ≤ capacity p.2.2

def Kept (setup : Setup ι) (s : Sys (Frontend Unit) (GvproxyBackend × ι)) : Move ι → Prop
  | .write fuel offset data => s.transport.status &&& DeviceStatus.driverOk ≠ 0 →
      (decode offset data = .queueNotify 0 → Ready setup.ends s.transport.device s.world) ∧
      (decode offset data = .queueNotify 1 → ∀ fd w,
        drainTx setup.ends.backend setup.ends.interceptor fuel s.transport.device s.world =
          .ok (true, fd, w) → Ready setup.ends fd w)
  | _ => True

def Delivers (frame : Frame) (s s' : Sys (Frontend Unit) (GvproxyBackend × ι)) : Prop :=
  ∃ q, s'.transport.device.queues[rxQueue]? = some q ∧
    some (rxWire frame) ∈ ((s'.world.log.drop s.world.log.length).filterMap
      (completedOn rxQueue)).map (content q s'.world.mem) ∧
    ∃ intid, .pulsed intid ∈ s'.world.log.drop s.world.log.length

variable {fd fd' : Frontend Unit} {w w' : World (GvproxyBackend × ι)} {b : Bool} {frame : Frame}

theorem drainRx_delivers (hready : Ready setup.ends fd w)
    (hdrain : drainRx setup.ends.backend setup.ends.interceptor fd w = .ok (b, fd', w'))
    (hframe : frame ∈ w.host.1.rxBuffer) :
    ∃ new q, w'.log = w.log ++ new ∧ fd'.queues[rxQueue]? = some q ∧
      some (rxWire frame) ∈ (new.filterMap (completedOn rxQueue)).map (content q w'.mem) ∧
      ∃ intid, .pulsed intid ∈ new := by
  obtain ⟨hactive, q, l, hq, husable, hlen, hroom⟩ := hready
  have hfetch : fetchRx setup.ends.backend setup.ends.interceptor fd.own w =
      ((setup.ends.fetch w.host).1, fd.own, { w with host := (setup.ends.fetch w.host).2 }) := rfl
  have hmem : frame ∈ (setup.ends.fetch w.host).1 := List.mem_append_right _ hframe
  obtain ⟨fd₁, w₁, new, q', hd, -, -, hlog, hq', hfound, hpulse⟩ :=
    deliver_fills scatters_deliverFrame (fun _ own => own) hactive hq hfetch husable
  rw [← drainRx_eq, hdrain] at hd
  cases hd
  have hwhole : List.zipWith cutOff ((setup.ends.fetch w.host).1.map rxWire) l =
      ((setup.ends.fetch w.host).1.map rxWire).map some := by
    refine zipWith_cutOff_eq_iff.2 ⟨by rwa [List.length_map], ?_⟩
    rw [List.zip_map_left, List.forall_mem_map]
    simpa [rxWire] using hroom
  refine ⟨new, q', hlog, hq', ?_, hpulse (List.ne_nil_of_mem hmem) ?_⟩
  · rw [hfound, hwhole]
    exact List.mem_map_of_mem (List.mem_map_of_mem hmem)
  · have := List.length_pos_of_mem hmem
    exact List.ne_nil_of_length_pos (by omega)

theorem drainTx_rxBuffer {fuel : ℕ}
    (hdrain : drainTx setup.ends.backend setup.ends.interceptor fuel fd w = .ok (b, fd', w')) :
    w'.host.1.rxBuffer = w.host.1.rxBuffer := by
  refine drainTx_keeps (fun host => host.1.rxBuffer) (fun payload host => ?_) hdrain
  simp only [transmit, Setup.ends, gvproxy, GvproxyBackend.send]
  cases (setup.interceptor.interceptTx payload host.2).1
  · dsimp only
    split_ifs <;> rfl
  · rfl

theorem delivers_of_notifies (hstep : step setup s move = some s') (h : Notifies s move)
    (hkept : Kept setup s move) (hframe : frame ∈ s.world.host.1.rxBuffer) :
    Delivers frame s s' := by
  obtain ⟨fuel, offset, data, queueIndex, rfl, hd, rfl | rfl, hp⟩ := processQueue_of_notifies hstep h
  · obtain ⟨new, q, hlog, hq, hfound, hpulse⟩ := drainRx_delivers ((hkept h.1).1 hd) hp hframe
    refine ⟨q, hq, ?_⟩
    rw [hlog, List.drop_left]
    exact ⟨hfound, hpulse⟩
  · have htxQueue : (1 : UInt16).toNat = txQueue := rfl
    rw [processQueue, if_pos htxQueue, Prog.andThen] at hp
    split at hp
    case h_1 => cases hp
    case h_3 => cases hp
    next fd₁ w₁ htx =>
    have hframe' : frame ∈ w₁.host.1.rxBuffer := drainTx_rxBuffer htx ▸ hframe
    obtain ⟨new, q, hlog, hq, hfound, hpulse⟩ :=
      drainRx_delivers ((hkept h.1).2 hd fd₁ w₁ htx) hp hframe'
    obtain ⟨new₁, hevolves, -⟩ := (drainTx_meets _ _ fuel).keeps _ _ _ htx
    refine ⟨q, hq, ?_⟩
    have hlog' : s'.world.log.drop s.world.log.length = new₁ ++ new := by
      rw [hlog, hevolves.log, List.append_assoc, List.drop_left]
    rw [hlog', List.filterMap_append, List.map_append]
    exact ⟨List.mem_append_right _ hfound, hpulse.imp fun _ => List.mem_append_right _⟩

end Notifications

section Executions

variable {setup : Setup ι} {x : Exec (step setup)} {i : ℕ} {frame : Frame}

def Drops (setup : Setup ι) (i : ℕ) (s : Sys (Frontend Unit) (GvproxyBackend × ι))
    (move : Move ι) : Prop :=
  s.world.host.1.gone ≤ i ∧ i < (move.host setup.maxFrameBytes s.world.host).1.gone

def FairScheduler (x : Exec (step setup)) : Prop :=
  x.Fair (fun s => s.world.host.1.txChannel ≠ []) (· = .writer)

theorem holds_step {s s' : Sys (Frontend Unit) (GvproxyBackend × ι)} {move : Move ι}
    (hstep : step setup s move = some s') (h : ¬ Notifies s move) (hdrop : ¬ Drops setup i s move)
    (hholds : s.world.host.1.Holds i frame) : s'.world.host.1.Holds i frame := by
  rw [(step_of_not_notifies hstep h).2]
  cases move with
  | reader frame' => exact hholds.runReader (Nat.not_lt.1 fun hlt => hdrop ⟨hholds.1, hlt⟩)
  | read | write | memory | hangUp | writer | interceptor => exact hholds

/-- **A frame is delivered exactly if the guest notifies a queue**, in an execution in which it
keeps receive buffers at hand and the frame is not dropped. -/
theorem delivered_iff (hkept : x.Always (Kept setup)) {n : ℕ}
    (hholds : (x.state n).world.host.1.Holds i frame)
    (hdrop : ∀ m ≥ n, ∀ move, x.event m = some move → ¬ Drops setup i (x.state m) move) :
    (∃ m ≥ n, (x.state m).world.host.1.Holds i frame ∧
        Delivers frame (x.state m) (x.state (m + 1))) ↔
      ∃ m ≥ n, ∃ move, x.event m = some move ∧ Notifies (x.state m) move := by
  constructor
  · rintro ⟨m, hm, -, q, hq, hfound, intid, hpulse⟩
    cases he : x.event m with
    | none => simp [x.idle m he] at hpulse
    | some move =>
      refine ⟨m, hm, move, he, ?_⟩
      by_contra hnot
      rw [(step_of_not_notifies (x.next m move he) hnot).1, List.drop_length] at hpulse
      cases hpulse
  · intro hnotify
    classical
    -- the frame is still in the buffer when the first notification comes
    obtain ⟨m, ⟨hm, move, he, hnotifies⟩, hfirst⟩ : ∃ m, (n ≤ m ∧ ∃ move, x.event m = some move ∧
        Notifies (x.state m) move) ∧ ∀ k < m, ¬ (n ≤ k ∧ ∃ move, x.event k = some move ∧
        Notifies (x.state k) move) :=
      ⟨Nat.find hnotify, Nat.find_spec hnotify, fun k hk => Nat.find_min hnotify hk⟩
    have hstill : ∀ k, n ≤ k → k ≤ m → (x.state k).world.host.1.Holds i frame := by
      intro k hnk
      induction k, hnk using Nat.le_induction with
      | base => exact fun _ => hholds
      | succ k hnk ih =>
        intro hkm
        cases he : x.event k with
        | none => exact x.idle k he ▸ ih (by omega)
        | some move' =>
          exact holds_step (x.next k move' he)
            (fun hnot => hfirst k (by omega) ⟨hnk, move', he, hnot⟩) (hdrop k hnk move' he)
            (ih (by omega))
    have hthere := hstill m hm le_rfl
    exact ⟨m, hm, hthere, delivers_of_notifies (x.next m move he) hnotifies
      (hkept m move he) hthere.mem⟩

section Scenario

open VsockDevice (receiveQueue receiveBuffer receiveMemory usable_one)

def plainSetup : Setup Unit where
  config := { guestMac := none, mtu := none }
  interceptor := { interceptTx := fun _ own => (false, own), drainRx := fun own => ([], own) }
  maxFrameBytes := 65536

def Move.writeReg (offset : UInt64) (value : UInt32) : Move ι :=
  .write 0 offset (Bytes.leBytes 4 value.toNat)

def frameArrives : List (Move Unit) :=
  [.writeReg 0x70 1, .writeReg 0x70 3, .writeReg 0x70 11, .writeReg 0x30 0, .writeReg 0x38 4,
    .writeReg 0x80 0x1000, .writeReg 0x90 0x1040, .writeReg 0xA0 0x1050, .writeReg 0x44 1,
    .writeReg 0x70 15, .reader [1, 2]]

theorem frameArrives_run : ∃ s,
    Run.run (step plainSetup) frameArrives (plainSetup.start (receiveMemory 1) ()) = some s ∧
      s.transport.status &&& DeviceStatus.driverOk ≠ 0 ∧ s.world.host.1.rxBuffer = [[1, 2]] ∧
      s.world.host.1.gone = 0 ∧ s.world.host.1.txChannel = [] ∧ s.transport.device.state = .full ∧
      s.transport.device.queues[rxQueue]? = some receiveQueue ∧ s.world.mem = receiveMemory 1 ∧
      (step plainSetup s (.writeReg 0x50 0)).isSome = true :=
  ⟨_, rfl, by decide, rfl, rfl, rfl, rfl, rfl, rfl, by decide +kernel⟩

theorem kept_writeReg {s : Sys (Frontend Unit) (GvproxyBackend × ι)} {offset : UInt64}
    (h : offset ≤ 0xFF) (hne : offset.toNat ≠ 0x50) (value : UInt32) :
    Kept setup s (.writeReg offset value) := by
  have hother : ∀ q, decode offset (Bytes.leBytes 4 value.toNat) ≠ .queueNotify q := by
    rw [decode_leBytes h]
    unfold decodeRegister
    split <;> first | contradiction | simp
  exact fun _ => ⟨fun hd => absurd hd (hother 0), fun hd => absurd hd (hother 1)⟩

theorem kept_frameArrives (s : Sys (Frontend Unit) (GvproxyBackend × Unit)) :
    Run.Along (step plainSetup) (Kept plainSetup) frameArrives s := by
  refine Run.Along.of_forall (fun move hmove s => ?_) s
  simp only [frameArrives, List.mem_cons, List.not_mem_nil, or_false] at hmove
  rcases hmove with rfl | rfl | rfl | rfl | rfl | rfl | rfl | rfl | rfl | rfl | rfl
  all_goals first | exact kept_writeReg (by decide) (by decide) _ | trivial

theorem ready_of_frameArrives {s : Sys (Frontend Unit) (GvproxyBackend × Unit)}
    (hbuffer : s.world.host.1.rxBuffer = [[1, 2]]) (hstate : s.transport.device.state = .full)
    (hq : s.transport.device.queues[rxQueue]? = some receiveQueue)
    (hmem : s.world.mem = receiveMemory 1) :
    Ready plainSetup.ends s.transport.device s.world := by
  have hfetch : (plainSetup.ends.fetch s.world.host).1 = [[1, 2]] := hbuffer
  refine ⟨by rw [hstate]; rfl, receiveQueue, [(0, [receiveBuffer])], hq, ?_, ?_⟩
  · rw [hmem]
    exact usable_one (by simp)
  · rw [hfetch]
    decide

def notified : Exec (step plainSetup) :=
  .pad (step plainSetup) (frameArrives ++ [.writeReg 0x50 0]) (plainSetup.start (receiveMemory 1) ())

theorem delivered_after_notification :
    ∃ m ≥ 11, (notified.state m).world.host.1.Holds 0 [1, 2] ∧
      Delivers [1, 2] (notified.state m) (notified.state (m + 1)) := by
  obtain ⟨s, hs, hup, hbuffer, hgone, -, hstate, hq, hmem, hnext⟩ := frameArrives_run
  have hstate11 : notified.state 11 = s := Exec.pad_state_append hs _
  have hevent11 : notified.event 11 = some (.writeReg 0x50 0) := Exec.pad_event_append hs hnext []
  have hkept : notified.Always (Kept plainSetup) := by
    refine Exec.always_pad ((kept_frameArrives _).append fun s' hs' => ?_)
    cases hs.symm.trans hs'
    refine ⟨fun _ => ⟨fun _ => ready_of_frameArrives hbuffer hstate hq hmem, fun hd => ?_⟩,
      fun _ _ => trivial⟩
    cases hd
  have hholds : (notified.state 11).world.host.1.Holds 0 [1, 2] := by
    decide
  refine (delivered_iff hkept hholds fun m hm move he hdrop => ?_).2
    ⟨11, le_rfl, _, hevent11, by rwa [hstate11], .inl (decode_leBytes (by decide) 0)⟩
  obtain rfl | hm := hm.eq_or_lt
  · cases hevent11.symm.trans he
    exact absurd (hdrop.1.trans_lt hdrop.2) (lt_irrefl _)
  · cases (Exec.pad_event_of_le hm).symm.trans he

/-- **The guest does not notify a queue again**: a buffer is at hand and every task has done its
work, but the frame is never delivered. -/
theorem frame_waits_forever :
    ∃ x : Exec (step plainSetup), x.state 0 = plainSetup.start (receiveMemory 1) () ∧
      FairScheduler x ∧ x.Always (Kept plainSetup) ∧
      ∀ m ≥ 11, (x.state m).transport.status &&& DeviceStatus.driverOk ≠ 0 ∧
        Ready plainSetup.ends (x.state m).transport.device (x.state m).world ∧
        (x.state m).world.host.1.Holds 0 [1, 2] ∧
        ¬ Delivers [1, 2] (x.state m) (x.state (m + 1)) := by
  obtain ⟨s, hs, hup, hbuffer, hgone, htx, hstate, hq, hmem, -⟩ := frameArrives_run
  refine ⟨.pad _ frameArrives _, Exec.pad_state_zero _ _, Exec.fair_pad hs fun h => h htx,
    Exec.always_pad (kept_frameArrives _), fun m hm => ?_⟩
  rw [Exec.pad_state_of_le hs hm, Exec.pad_state_of_le hs (Nat.le_succ_of_le hm)]
  refine ⟨hup, ready_of_frameArrives hbuffer hstate hq hmem, ⟨by rw [hgone], ?_⟩, ?_⟩
  · rw [hgone, hbuffer]
    rfl
  · rintro ⟨-, -, -, intid, hpulse⟩
    rw [List.drop_length] at hpulse
    cases hpulse

end Scenario

end Executions

end Squib.NetDevice
