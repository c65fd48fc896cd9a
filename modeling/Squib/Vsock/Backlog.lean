import Squib.Vsock.Credit

/-!
# Payloads held for the host
-/

namespace Squib.Muxer

open VsockDevice (VsockOp VsockHeader VsockPacket)

def Writer.rest : Writer → List UInt8
  | .writing rest => rest
  | _ => []

namespace State

variable (s : State)

def held : ℕ := s.channel.flatten.length + s.writer.rest.length

def outstanding : ℕ := (UInt32.ofNat s.guestSent - UInt32.ofNat s.seenFwd).toNat

end State

def WithinCredit (s : State) : Event → Prop
  | .guest pkt _ => pkt.hdr.op = .rw →
      s.outstanding < s.seenAlloc ∧ s.outstanding + pkt.payload.length ≤ s.seenAlloc
  | _ => True

def Written (s : State) : Event → Prop
  | .guest pkt _ => pkt.hdr.op = .rw → s.guestSent ≤ s.written + s.outstanding
  | _ => True

instance (s : State) : ∀ e, Decidable (WithinCredit s e)
  | .guest pkt _ => inferInstanceAs (Decidable (pkt.hdr.op = .rw →
      s.outstanding < s.seenAlloc ∧ s.outstanding + pkt.payload.length ≤ s.seenAlloc))
  | .device | .timeout | .ack _ | .reader _ | .writer _ | .deliver => .isTrue trivial

instance (s : State) : ∀ e, Decidable (Written s e)
  | .guest pkt _ =>
    inferInstanceAs (Decidable (pkt.hdr.op = .rw → s.guestSent ≤ s.written + s.outstanding))
  | .device | .timeout | .ack _ | .reader _ | .writer _ | .deliver => .isTrue trivial

structure Backlog (s : State) : Prop where
  seen : s.seenAlloc ≤ DEFAULT_BUF_ALLOC.toNat
  queued : ∀ pkt ∈ s.rxQueue, pkt.hdr.bufAlloc ≤ DEFAULT_BUF_ALLOC
  pending : ∀ pkt, .push pkt ∈ s.device → pkt.hdr.bufAlloc ≤ DEFAULT_BUF_ALLOC
  le_sent : s.held + s.written ≤ s.guestSent
  held_le : s.held ≤ DEFAULT_BUF_ALLOC.toNat

section Steps

variable {addr : Addr} {s s' : State}

theorem backlog_init : Backlog (init addr) where
  seen := Nat.zero_le _
  queued := by
    intro pkt hpkt
    obtain rfl := List.mem_singleton.1 hpkt
    exact UInt32.le_refl _
  pending := nofun
  le_sent := Nat.le_refl _
  held_le := Nat.zero_le _

namespace Backlog

variable {pkt : VsockPacket}

theorem push (h : Backlog s) (hpkt : pkt.hdr.bufAlloc ≤ DEFAULT_BUF_ALLOC) : Backlog (s.push pkt) :=
  { h with
    queued := by
      intro p hp
      obtain hp | hp := List.mem_append.1 hp
      · exact h.queued p hp
      · obtain rfl := List.mem_singleton.1 hp
        exact hpkt }

theorem dropReceiver (h : Backlog s) : Backlog s.dropReceiver :=
  { h with
    le_sent := by
      have hheld : s.dropReceiver.held + s.dropReceiver.written = s.written := Nat.zero_add _
      exact hheld.le.trans ((Nat.le_add_left _ _).trans h.le_sent)
    held_le := Nat.zero_le _ }

theorem record (h : Backlog s) (pkt : VsockPacket) (consumed : ℕ) :
    Backlog (s.record pkt consumed) :=
  { h with
    le_sent := by
      refine h.le_sent.trans ?_
      unfold State.record
      dsimp only
      split_ifs <;> omega }

theorem entry (h : Backlog s) (entry : Option Connection) (accepted : ℕ) {device : List Pending}
    (hdevice : ∀ pkt, .push pkt ∈ device → pkt.hdr.bufAlloc ≤ DEFAULT_BUF_ALLOC) :
    Backlog { s with entry, device, accepted } :=
  { h with pending := hdevice }

theorem send (h : Backlog s) (consumed : ℕ) (hop : pkt.hdr.op = .rw)
    (hcredit : s.outstanding + pkt.payload.length ≤ s.seenAlloc)
    (hwritten : s.guestSent ≤ s.written + s.outstanding) :
    Backlog { s.record pkt consumed with channel := s.channel ++ [pkt.payload] } := by
  have hheld : State.held { s.record pkt consumed with channel := s.channel ++ [pkt.payload] } =
      s.held + pkt.payload.length := by
    simp only [State.held, State.record, List.flatten_append, List.flatten_singleton,
      List.length_append]
    omega
  have hsent : (s.record pkt consumed).guestSent = s.guestSent + pkt.payload.length := if_pos hop
  have hle := h.le_sent
  have hseen := h.seen
  exact
    { h with
      le_sent := by
        change _ + s.written ≤ (s.record pkt consumed).guestSent
        omega
      held_le := by
        omega }

theorem accept (h : Backlog s) (consumed : ℕ) (c : Connection) (hop : pkt.hdr.op = .rw)
    (hcredit : s.outstanding + pkt.payload.length ≤ s.seenAlloc)
    (hwritten : s.guestSent ≤ s.written + s.outstanding) :
    Backlog (acceptRw addr pkt (s.record pkt consumed) c) := by
  unfold acceptRw State.send
  split_ifs with hfinished
  · refine (h.record pkt consumed).entry _ _ ?_
    simp [Addr.packet]
  · refine (h.send consumed hop hcredit hwritten).entry _ _ ?_
    simp [Addr.packet]

theorem notify (h : Backlog s) : Backlog s.notify := by
  unfold State.notify
  split <;> exact { h with }

theorem tail (h : Backlog s) {a : Pending} {rest : List Pending} (hdevice : s.device = a :: rest) :
    Backlog { s with device := rest } :=
  { h with
    pending := fun pkt hpkt => h.pending pkt (hdevice ▸ List.mem_cons_of_mem a hpkt) }

theorem write (h : Backlog s) {channel : List (List UInt8)} {writer : Writer} {n : ℕ}
    (hheld : State.held { s with channel, writer } + n ≤ s.held) :
    Backlog { s with channel, writer, written := s.written + n } := by
  have hle := h.le_sent
  have hbound := h.held_le
  exact
    { h with
      le_sent := by
        change State.held { s with channel, writer } + (s.written + n) ≤ s.guestSent
        omega
      held_le := by
        change State.held { s with channel, writer } ≤ _
        omega }

end Backlog

theorem backlog_handleTx (h : Backlog s) {pkt : VsockPacket} {consumed : ℕ}
    (hcredit : WithinCredit s (.guest pkt consumed)) (hwritten : Written s (.guest pkt consumed)) :
    Backlog (handleTx addr pkt (s.record pkt consumed)).2 ∧
      ∀ p ∈ (handleTx addr pkt (s.record pkt consumed)).1,
        p.hdr.bufAlloc ≤ DEFAULT_BUF_ALLOC := by
  have hrecord := h.record pkt consumed
  unfold handleTx
  cases hop : pkt.hdr.op <;> dsimp only
  case rw =>
    split
    · exact ⟨hrecord, by simp⟩
    · split_ifs
      · exact ⟨hrecord, by simp⟩
      · exact ⟨h.accept consumed _ hop (hcredit hop).2 (hwritten hop), by simp⟩
  case request => exact ⟨hrecord, by simp [Addr.rst]⟩
  case invalid => exact ⟨hrecord, by simp⟩
  case shutdown | rst => exact ⟨{ hrecord with }, by simp⟩
  all_goals
    split
    · exact ⟨hrecord, by simp⟩
    · refine ⟨hrecord.entry _ _ ?_, by simp⟩
      simp [Addr.packet]

theorem backlog_deviceStep (h : Backlog s) (hstep : deviceStep s = some s') : Backlog s' := by
  unfold deviceStep at hstep
  split at hstep
  case h_1 => cases hstep
  case h_2 pkt rest hdevice =>
    cases hstep
    have hpkt := h.pending pkt (hdevice ▸ List.mem_cons_self)
    exact (h.push hpkt).tail hdevice
  case h_3 rest hdevice =>
    cases hstep
    have hsignal : Backlog { s with signalled := true } := { h with }
    exact hsignal.tail hdevice
  case h_4 rest hdevice =>
    cases hstep
    exact h.notify.tail (State.notify_device.trans hdevice)

theorem backlog_readerStep (h : Backlog s) {input : List UInt8}
    (hstep : readerStep addr s input = some s') : Backlog s' := by
  unfold readerStep at hstep
  cases hreader : s.reader <;> rw [hreader] at hstep
  case refused =>
    cases hstep
    exact { h.dropReceiver with }
  case pushing data fwdCnt =>
    cases hstep
    have hpush : Backlog (s.push (addr.packet .rw 0 fwdCnt data)) := h.push (UInt32.le_refl _)
    exact { hpush with }
  case shuttingDown fwdCnt =>
    cases hstep
    have hpush : Backlog (s.push (addr.packet .shutdown 3 fwdCnt [])) := h.push (UInt32.le_refl _)
    exact { hpush with }
  -- the other steps move the reader, and one of them counts bytes in the entry
  all_goals
    dsimp only at hstep
    repeat' split at hstep
    all_goals cases hstep
    all_goals exact { h with }

theorem backlog_writerStep (h : Backlog s) {n : ℕ} (hstep : writerStep s n = some s') :
    Backlog s' := by
  unfold writerStep at hstep
  split at hstep
  case h_1 => cases hstep
  case h_2 hwriter =>
    split at hstep
    case h_1 payload channel hchannel =>
      cases hstep
      refine h.write (n := 0) ?_
      simp [State.held, hchannel, Writer.rest, Nat.add_comm]
    case h_2 =>
      split_ifs at hstep
      cases hstep
      exact h.dropReceiver
  case h_3 rest hwriter =>
    split_ifs at hstep with hempty hzero hle
    · cases hstep
      refine h.write (n := 0) ?_
      simp [State.held, Writer.rest]
    · cases hstep
      exact h.dropReceiver
    · cases hstep
      refine h.write ?_
      simp only [State.held, hwriter, Writer.rest, List.length_drop]
      omega
  case h_4 => cases hstep

theorem backlog_step (h : Backlog s) {e : Event} (hcredit : WithinCredit s e)
    (hwritten : Written s e) (hstep : step addr s e = some s') : Backlog s' := by
  cases e with
  | guest pkt consumed =>
    simp only [step] at hstep
    split_ifs at hstep with hdevice
    cases hstep
    obtain ⟨hinv, hreplies⟩ : Backlog (handleTx addr pkt (s.record pkt consumed)).2 ∧ _ :=
      backlog_handleTx h hcredit hwritten
    exact List.foldlRecOn _ _ hinv fun t ht p hp => ht.push (hreplies p hp)
  | device => exact backlog_deviceStep h hstep
  | timeout =>
    simp only [step] at hstep
    split_ifs at hstep
    cases hstep
    exact { h with }
  | ack ok =>
    simp only [step] at hstep
    split_ifs at hstep
    · cases hstep
      have hspawned : Backlog { s with writer := .idle } :=
        h.write (n := 0) (Nat.add_le_add_left (Nat.zero_le _) _)
      exact { hspawned with }
    · cases hstep
      exact { h.dropReceiver with }
  | reader input => exact backlog_readerStep h hstep
  | writer n => exact backlog_writerStep h hstep
  | deliver =>
    simp only [step] at hstep
    split at hstep
    case h_1 => cases hstep
    case h_2 pkt rxQueue hqueue =>
      cases hstep
      exact
        { h with
          seen := h.queued pkt (hqueue ▸ List.mem_cons_self)
          queued := fun p hp => h.queued p (hqueue ▸ List.mem_cons_of_mem pkt hp) }

end Steps

/-- **Bounded backlog**, if the guest keeps to its credit and has seen only written bytes as
forwarded whenever it sends a payload. -/
theorem held_le_bufAlloc {addr : Addr} {es : List Event} {s : State}
    (hcredit : Run.Along (step addr) WithinCredit es (init addr))
    (hwritten : Run.Along (step addr) Written es (init addr))
    (hrun : Run.run (step addr) es (init addr) = some s) :
    s.held ≤ DEFAULT_BUF_ALLOC.toNat := by
  have hbacklog : Backlog s :=
    Run.invariant (fun _ _ _ h hC => backlog_step h hC.1 hC.2) (hcredit.and hwritten)
      backlog_init hrun
  exact hbacklog.held_le

section Scenario

def twoPayloads (payload : List UInt8) : List Event :=
  [.deliver, guestSends .response [] 0, .device, .device, guestSends .rw payload 0, .device,
    .device, .deliver, guestSends .rw payload 0]

def mebibyte : List UInt8 := .replicate DEFAULT_BUF_ALLOC.toNat 0

theorem held_le_bufAlloc_one_payload :
    ∃ s, Run.run (step sampleAddr) ((twoPayloads [7]).take 5) (init sampleAddr) = some s ∧
      s.held = 1 ∧ s.held ≤ DEFAULT_BUF_ALLOC.toNat := by
  obtain ⟨s, hs, hheld⟩ : ∃ s ∈ Run.run (step sampleAddr) ((twoPayloads [7]).take 5)
      (init sampleAddr), s.held = 1 := by decide +kernel
  exact ⟨s, hs, hheld, held_le_bufAlloc (by decide +kernel) (by decide +kernel) hs⟩

theorem twoPayloads_held (payload : List UInt8)
    (hlength : payload.length = DEFAULT_BUF_ALLOC.toNat) :
    Run.Along (step sampleAddr) WithinCredit (twoPayloads payload) (init sampleAddr) ∧
    ∃ s, Run.run (step sampleAddr) (twoPayloads payload) (init sampleAddr) = some s ∧
      s.held = 2 * DEFAULT_BUF_ALLOC.toNat := by
  refine ⟨?_, _, rfl, ?_⟩
  · refine .cons rfl trivial <| .cons rfl nofun <| .cons rfl trivial <| .cons rfl trivial <|
      .cons rfl ?_ <| .cons rfl trivial <| .cons rfl trivial <| .cons rfl trivial <|
      .cons rfl ?_ trivial
    · intro _
      rw [hlength]
      decide
    · intro _
      -- the credit for the first payload has reached the guest
      have hzero : (UInt32.ofNat (0 + payload.length) - UInt32.ofNat (saturatingAdd 0
          (.ofNat (min payload.length (2 ^ 32 - 1)))).toNat).toNat = 0 := by
        rw [hlength]
        decide
      have hpos : 0 < DEFAULT_BUF_ALLOC.toNat := by decide
      exact ⟨hzero.trans_lt hpos, (Nat.add_le_add hzero.le hlength.le).trans (Nat.zero_add _).le⟩
  · change [payload, payload].flatten.length + 0 = _
    simp [hlength]
    omega

theorem two_mebibytes_held :
    ∃ s, Run.run (step sampleAddr) (twoPayloads mebibyte) (init sampleAddr) = some s ∧
      Run.Along (step sampleAddr) WithinCredit (twoPayloads mebibyte) (init sampleAddr) ∧
      DEFAULT_BUF_ALLOC.toNat < s.held := by
  obtain ⟨hcredit, s, hs, hheld⟩ := twoPayloads_held mebibyte List.length_replicate
  refine ⟨s, hs, hcredit, ?_⟩
  rw [hheld]
  decide

end Scenario

end Squib.Muxer
