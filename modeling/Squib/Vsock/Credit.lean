import Squib.Vsock.Muxer

/-!
# Credit-based flow control
-/

namespace Squib.Muxer

open VsockDevice (VsockOp VsockHeader VsockPacket)

variable {c : Connection}

theorem Connection.toNat_credit (h : c.guestFwdCnt.toNat ≤ c.hostForwarded.toNat) :
    c.credit.toNat = c.guestBufAlloc.toNat - (c.hostForwarded.toNat - c.guestFwdCnt.toNat) := by
  have hsub : (c.hostForwarded - c.guestFwdCnt).toNat =
      c.hostForwarded.toNat - c.guestFwdCnt.toNat :=
    UInt32.toNat_sub_of_le _ _ (UInt32.le_iff_toNat_le.2 h)
  rw [credit]
  split_ifs with hlt
  · rw [UInt32.lt_iff_toNat_lt] at hlt
    rw [UInt32.toNat_zero]
    omega
  · rw [UInt32.toNat_sub_of_le _ _ (UInt32.not_lt.1 hlt), hsub]

/-! ## What the reader holds -/

namespace Reader

def inFlight : Reader → ℕ
  | .pushing data _ => data.length
  | _ => 0

def claimed : Reader → ℕ
  | .sizing => 1
  | .reading chunk => chunk
  | .counting data => data.length
  | .pushing data _ => data.length
  | _ => 0

def heldFwd : Reader → Option UInt32
  | .pushing _ fwdCnt => some fwdCnt
  | .shuttingDown fwdCnt => some fwdCnt
  | _ => none

def Running : Reader → Prop
  | .connecting | .refused | .done => False
  | _ => True

end Reader

/-! ## The guest and the runs -/

def WellBehaved (bufAlloc : UInt32) (s : State) : Event → Prop
  | .guest pkt consumed =>
    pkt.hdr.bufAlloc = bufAlloc ∧ pkt.hdr.fwdCnt = .ofNat consumed ∧
      s.reported ≤ consumed ∧ consumed ≤ s.sent
  | _ => True

instance (bufAlloc : UInt32) (s : State) (e : Event) : Decidable (WellBehaved bufAlloc s e) := by
  cases e <;> unfold WellBehaved <;> infer_instance

def Timely (s : State) : Event → Prop
  | .guest pkt consumed =>
    (pkt.hdr.op = .rw → s.live ≠ none →
      s.accepted + pkt.payload.length < 2 ^ 32 ∧ (s.reader.heldFwd = none ∨ pkt.payload = [])) ∧
    (pkt.hdr.op = .shutdown ∨ pkt.hdr.op = .rst ∨ s.live = none →
      s.reader = .waiting false → consumed = s.reported) ∧
    (pkt.hdr.op = .request ∨ pkt.hdr.op = .invalid → consumed = s.reported) ∧
    (pkt.hdr.op = .request → s.accepted = 0)
  | .reader _ =>
    match s.reader with
    | .counting data => s.sent + data.length < 2 ^ 32
    | .ending => s.entry = none → s.accepted = 0
    | _ => True
  | _ => True

instance (s : State) (e : Event) : Decidable (Timely s e) := by
  cases e
  case reader input =>
    unfold Timely
    cases s.reader <;> infer_instance
  all_goals
    unfold Timely
    infer_instance

structure Inv (bufAlloc : UInt32) (s : State) : Prop where
  accepted_lt : s.accepted < 2 ^ 32
  sent_lt : s.sent + s.reader.inFlight < 2 ^ 32
  reported_le : s.reported ≤ s.sent
  window : s.sent + s.reader.claimed ≤ s.reported + bufAlloc.toNat
  forwarded : ∀ c, s.entry = some c → c.hostForwarded.toNat = s.sent + s.reader.inFlight
  received : ∀ c, s.entry = some c → c.guestRxForwarded.toNat = s.accepted
  fwdCnt : ∀ c, s.entry = some c → c.closed = false → c.guestFwdCnt.toNat = s.reported
  buffer : ∀ c, s.entry = some c → c.responseSignal = false → c.guestBufAlloc = bufAlloc
  answered : ∀ c, s.entry = some c → s.signalled = true ∨ .signal ∈ s.device →
    c.responseSignal = false
  running : s.reader.Running → s.signalled = true
  waiting : s.reader = .waiting false →
    .notify ∈ s.device ∨ s.sent = s.reported + bufAlloc.toNat
  pending : ∀ pkt, .push pkt ∈ s.device → pkt.hdr.fwdCnt.toNat = s.accepted
  held : ∀ fwdCnt, s.reader.heldFwd = some fwdCnt → fwdCnt.toNat = s.accepted
  pushed : ∀ x ∈ s.pushed, x.1.hdr.fwdCnt.toNat = x.2 % 2 ^ 32

theorem State.live_eq_some {s : State} : s.live = some c ↔ s.entry = some c ∧ c.closed = false := by
  simp [State.live]

section Steps

variable {addr : Addr} {bufAlloc : UInt32} {s s' : State}

theorem inv_init : Inv bufAlloc (init addr) where
  accepted_lt := Nat.two_pow_pos 32
  sent_lt := Nat.two_pow_pos 32
  reported_le := Nat.le_refl _
  window := Nat.zero_le _
  forwarded := by rintro c ⟨⟩; rfl
  received := by rintro c ⟨⟩; rfl
  fwdCnt := by rintro c ⟨⟩ _; rfl
  buffer := by rintro c ⟨⟩ h; cases h
  answered := by
    rintro c - (h | h)
    · cases h
    · cases h
  running := False.elim
  waiting := nofun
  pending := nofun
  held := nofun
  pushed := by
    intro x hx
    obtain rfl := List.mem_singleton.1 hx
    rfl

/-! ### The reader -/

theorem Inv.sent_le (h : Inv bufAlloc s) : s.sent ≤ s.reported + bufAlloc.toNat :=
  (Nat.le_add_right _ _).trans h.window

variable {r₀ : Reader} {c : Connection} {woken : Bool} {input : List UInt8}

theorem Inv.goto (h : Inv bufAlloc s) (hreader : s.reader = r₀) (r : Reader)
    (hflight : r.inFlight = r₀.inFlight)
    (hclaimed : s.sent + r.claimed ≤ s.reported + bufAlloc.toNat)
    (hrunning : r.Running → r₀.Running)
    (hwaiting : r = .waiting false → .notify ∈ s.device ∨ s.sent = s.reported + bufAlloc.toNat)
    (hheld : ∀ fwdCnt, r.heldFwd = some fwdCnt → fwdCnt.toNat = s.accepted) :
    Inv bufAlloc (s.goto r) := by
  subst hreader
  exact
    { h with
      sent_lt := by
        have := h.sent_lt
        rwa [← hflight] at this
      window := hclaimed
      forwarded := by
        intro c hc
        have := h.forwarded c hc
        rwa [← hflight] at this
      running := fun hr => h.running (hrunning hr)
      waiting := hwaiting
      held := hheld }

theorem Inv.goto_done (h : Inv bufAlloc s) (hreader : s.reader = r₀) (hflight : r₀.inFlight = 0) :
    Inv bufAlloc (s.goto .done) :=
  h.goto hreader .done hflight.symm h.sent_le False.elim nofun nofun

theorem Inv.onLive (h : Inv bufAlloc s) (hreader : s.reader = r₀) (hflight : r₀.inFlight = 0)
    {k : Connection → Option State} (hopen : ∀ c, s.live = some c → k c = some s' → Inv bufAlloc s')
    (hstep : (match s.live with | none => some (s.goto .done) | some c => k c) = some s') :
    Inv bufAlloc s' := by
  cases hlive : s.live with
  | none =>
    rw [hlive] at hstep
    cases hstep
    exact h.goto_done hreader hflight
  | some c =>
    rw [hlive] at hstep
    exact hopen c hlive hstep

theorem Inv.toNat_credit (h : Inv bufAlloc s) (hreader : s.reader = r₀) (hlive : s.live = some c)
    (hrunning : r₀.Running) (hflight : r₀.inFlight = 0) :
    c.credit.toNat = bufAlloc.toNat - (s.sent - s.reported) := by
  subst hreader
  obtain ⟨hc, hopen⟩ := State.live_eq_some.1 hlive
  have hforwarded := h.forwarded c hc
  have hfwd := h.fwdCnt c hc hopen
  have hbuf := h.buffer c hc (h.answered c hc (.inl (h.running hrunning)))
  have hle := h.reported_le
  rw [hflight, Nat.add_zero] at hforwarded
  rw [Connection.toNat_credit (by omega), hforwarded, hfwd, hbuf]

theorem Inv.push (h : Inv bufAlloc s) {pkt : VsockPacket}
    (hfwd : pkt.hdr.fwdCnt.toNat = s.accepted) : Inv bufAlloc (s.push pkt) :=
  { h with
    pushed := by
      intro x hx
      obtain hx | hx := List.mem_append.1 hx
      · exact h.pushed x hx
      · obtain rfl := List.mem_singleton.1 hx
        exact hfwd.trans (Nat.mod_eq_of_lt h.accepted_lt).symm }

theorem Inv.pushAll (h : Inv bufAlloc s) {pkts : List VsockPacket}
    (hfwd : ∀ p ∈ pkts, p.hdr.fwdCnt.toNat = s.accepted) :
    Inv bufAlloc (pkts.foldl State.push s) := by
  induction pkts generalizing s with
  | nil => exact h
  | cons pkt pkts ih =>
    exact ih (h.push (hfwd pkt List.mem_cons_self)) fun p hp => hfwd p (List.mem_cons_of_mem _ hp)

theorem Inv.setEntry_none (h : Inv bufAlloc s) : Inv bufAlloc (s.setEntry none) :=
  { h with
    forwarded := nofun
    received := nofun
    fwdCnt := nofun
    buffer := nofun
    answered := nofun }

theorem Inv.dropReceiver (h : Inv bufAlloc s) : Inv bufAlloc s.dropReceiver :=
  { h with }

variable {data : List UInt8}

theorem Inv.count (h : Inv bufAlloc s) (hreader : s.reader = .counting data) (hc : s.entry = some c)
    (hlt : s.sent + data.length < 2 ^ 32) :
    Inv bufAlloc { s with
      entry := some { c with hostForwarded := saturatingAdd c.hostForwarded (.ofNat data.length) }
      reader := .pushing data c.guestRxForwarded } := by
  have hforwarded : c.hostForwarded.toNat = s.sent := by
    have := h.forwarded c hc
    rwa [hreader] at this
  have hlength : (UInt32.ofNat data.length).toNat = data.length :=
    UInt32.toNat_ofNat_of_lt' (by simp only [UInt32.size]; omega)
  have hwindow := h.window
  rw [hreader] at hwindow
  exact
    { h with
      sent_lt := hlt
      window := hwindow
      forwarded := by
        rintro c' ⟨⟩
        rw [toNat_saturatingAdd (by omega), hforwarded, hlength]
        rfl
      received := by rintro c' ⟨⟩; exact h.received c hc
      fwdCnt := by rintro c' ⟨⟩; exact h.fwdCnt c hc
      buffer := by rintro c' ⟨⟩; exact h.buffer c hc
      answered := by rintro c' ⟨⟩; exact h.answered c hc
      running := fun _ => h.running (by rw [hreader]; trivial)
      waiting := nofun
      held := by rintro fwdCnt ⟨⟩; exact h.received c hc }

theorem Inv.queue (h : Inv bufAlloc s) {fwdCnt : UInt32} (hreader : s.reader = .pushing data fwdCnt) :
    Inv bufAlloc { s.push (addr.packet .rw 0 fwdCnt data) with
      reader := .top, sent := s.sent + data.length } := by
  have hpush : Inv bufAlloc (s.push (addr.packet .rw 0 fwdCnt data)) :=
    h.push (h.held fwdCnt (by rw [hreader]; rfl))
  have hlt := h.sent_lt
  have hwindow := h.window
  have hforwarded := h.forwarded
  rw [hreader] at hlt hwindow hforwarded
  exact
    { hpush with
      sent_lt := hlt
      reported_le := h.reported_le.trans (Nat.le_add_right _ _)
      window := hwindow
      forwarded := hforwarded
      running := fun _ => h.running (by rw [hreader]; trivial)
      waiting := nofun
      held := nofun }

theorem Inv.full (h : Inv bufAlloc s) (hreader : s.reader = r₀) (hlive : s.live = some c)
    (hrunning : r₀.Running) (hflight : r₀.inFlight = 0) (hzero : c.credit = 0) :
    s.sent = s.reported + bufAlloc.toNat := by
  have hcredit := h.toNat_credit hreader hlive hrunning hflight
  have hreported := h.reported_le
  have hsent := h.sent_le
  rw [hzero, UInt32.toNat_zero] at hcredit
  omega

theorem Inv.check (h : Inv bufAlloc s) (hreader : s.reader = .armed woken) (hlive : s.live = some c) :
    Inv bufAlloc (if 0 < c.credit then s.goto .sizing else s.goto (.waiting woken)) := by
  split_ifs with hpos
  · have hcredit := h.toNat_credit hreader hlive trivial rfl
    rw [UInt32.lt_iff_toNat_lt] at hpos
    refine h.goto hreader .sizing rfl ?_ (fun _ => trivial) nofun nofun
    rw [Reader.claimed]
    omega
  · have hzero : c.credit = 0 := UInt32.le_zero_iff.1 (UInt32.not_lt.1 hpos)
    refine h.goto hreader (.waiting woken) rfl h.sent_le (fun _ => trivial) ?_ nofun
    exact fun _ => .inr (h.full hreader hlive trivial rfl hzero)

theorem Inv.size (h : Inv bufAlloc s) (hreader : s.reader = .sizing) (hlive : s.live = some c) :
    Inv bufAlloc (s.goto (.reading (max (min RW_CHUNK_BYTES c.credit.toNat) 1))) := by
  have hcredit := h.toNat_credit hreader hlive trivial rfl
  have hwindow := h.window
  rw [hreader, Reader.claimed] at hwindow
  refine h.goto hreader _ rfl ?_ (fun _ => trivial) nofun nofun
  rw [Reader.claimed]
  omega

theorem inv_readerStep (h : Inv bufAlloc s) (htimely : Timely s (.reader input))
    (hstep : readerStep addr s input = some s') : Inv bufAlloc s' := by
  have hsent := h.sent_le
  rw [Timely] at htimely
  unfold readerStep at hstep
  cases hreader : s.reader <;> rw [hreader] at hstep htimely
  case connecting => cases hstep
  case refused =>
    cases hstep
    exact h.setEntry_none.dropReceiver.goto_done hreader rfl
  case top =>
    refine h.onLive hreader rfl (fun c _ hk => ?_) hstep
    cases hk
    exact h.goto hreader .arming rfl hsent (fun _ => trivial) nofun nofun
  case arming =>
    cases hstep
    exact h.goto hreader (.armed false) rfl hsent (fun _ => trivial) nofun nofun
  case armed woken =>
    refine h.onLive hreader rfl (fun c hlive hk => ?_) hstep
    have hcheck := h.check hreader hlive
    simp only [← apply_ite some, Option.some.injEq] at hk
    rwa [hk] at hcheck
  case waiting woken =>
    cases woken with
    | false => cases hstep
    | true =>
      cases hstep
      exact h.goto hreader .top rfl hsent (fun _ => trivial) nofun nofun
  case sizing =>
    refine h.onLive hreader rfl (fun c hlive hk => ?_) hstep
    cases hk
    exact h.size hreader hlive
  case reading chunk =>
    have hwindow := h.window
    rw [hreader, Reader.claimed] at hwindow
    dsimp only at hstep
    split_ifs at hstep with hempty hle
    · cases hstep
      exact h.goto hreader .ending rfl hsent (fun _ => trivial) nofun nofun
    · cases hstep
      refine h.goto hreader (.counting input) rfl ?_ (fun _ => trivial) nofun nofun
      rw [Reader.claimed]
      omega
  case counting data =>
    refine h.onLive hreader rfl (fun c hlive hk => ?_) hstep
    cases hk
    exact h.count hreader (State.live_eq_some.1 hlive).1 htimely
  case pushing data fwdCnt =>
    cases hstep
    exact h.queue hreader
  case ending =>
    cases hstep
    refine h.goto hreader (.shuttingDown _) rfl hsent (fun _ => trivial) nofun ?_
    rintro fwdCnt ⟨⟩
    cases hc : s.entry with
    | none => exact (htimely hc).symm
    | some c => exact h.received c hc
  case shuttingDown fwdCnt =>
    cases hstep
    have hheld : fwdCnt.toNat = s.accepted := h.held fwdCnt (by rw [hreader]; rfl)
    exact (h.push hheld).goto hreader .removing rfl hsent (fun _ => trivial) nofun nofun
  case removing =>
    cases hstep
    exact h.setEntry_none.goto_done hreader rfl
  case done => cases hstep

/-! ### The device thread -/

theorem Inv.tail (h : Inv bufAlloc s) {a : Pending} {rest : List Pending}
    (hdevice : s.device = a :: rest) (hnotify : s.reader = .waiting false → a ≠ .notify) :
    Inv bufAlloc { s with device := rest } := by
  have hmem : ∀ {x}, x ∈ rest → x ∈ s.device := fun hx => hdevice ▸ List.mem_cons_of_mem a hx
  exact
    { h with
      answered := fun c hc hsignal => h.answered c hc (hsignal.imp_right hmem)
      waiting := by
        intro hw
        refine (h.waiting hw).imp_left fun hx => ?_
        rw [hdevice] at hx
        exact (List.mem_cons.1 hx).resolve_left (hnotify hw).symm
      pending := fun pkt hpkt => h.pending pkt (hmem hpkt) }

theorem State.notify_device : s.notify.device = s.device := by
  unfold State.notify
  cases s.reader <;> rfl

theorem Inv.notify (h : Inv bufAlloc s) :
    Inv bufAlloc s.notify ∧ s.notify.reader ≠ .waiting false := by
  unfold State.notify
  cases hreader : s.reader
  case armed woken =>
    exact ⟨h.goto hreader (.armed true) rfl h.sent_le (fun _ => trivial) nofun nofun, nofun⟩
  case waiting woken =>
    exact ⟨h.goto hreader (.waiting true) rfl h.sent_le (fun _ => trivial) nofun nofun, nofun⟩
  all_goals exact ⟨h, by rw [hreader]; nofun⟩

theorem inv_deviceStep (h : Inv bufAlloc s) (hstep : deviceStep s = some s') : Inv bufAlloc s' := by
  unfold deviceStep at hstep
  split at hstep
  case h_1 => cases hstep
  case h_2 pkt rest hdevice =>
    cases hstep
    have hfwd := h.pending pkt (hdevice ▸ List.mem_cons_self)
    exact (h.push hfwd).tail hdevice nofun
  case h_3 rest hdevice =>
    cases hstep
    have hsignal : Inv bufAlloc { s with signalled := true } :=
      { h with
        answered := fun c hc _ => h.answered c hc (.inr (hdevice ▸ List.mem_cons_self))
        running := fun _ => rfl }
    exact hsignal.tail hdevice nofun
  case h_4 rest hdevice =>
    cases hstep
    obtain ⟨hnotify, hreader⟩ := h.notify
    exact hnotify.tail (State.notify_device.trans hdevice) fun hw => absurd hw hreader

/-! ### The guest -/

structure Reports (bufAlloc : UInt32) (s : State) (pkt : VsockPacket) (consumed : ℕ) : Prop where
  bufAlloc_eq : pkt.hdr.bufAlloc = bufAlloc
  fwdCnt_eq : pkt.hdr.fwdCnt = .ofNat consumed
  reported_le : s.reported ≤ consumed
  le_sent : consumed ≤ s.sent

section Guest

variable {pkt : VsockPacket} {consumed : ℕ}

theorem State.record_eq_self (hop : pkt.hdr.op ≠ .rw) (hconsumed : consumed = s.reported) :
    s.record pkt consumed = s := by
  rw [State.record, if_neg hop, hconsumed]

theorem Inv.record (h : Inv bufAlloc s) (hreport : Reports bufAlloc s pkt consumed)
    (hdevice : s.device = []) (hlive : s.live = none)
    (hkept : s.reader = .waiting false → consumed = s.reported) :
    Inv bufAlloc (s.record pkt consumed) :=
  { h with
    reported_le := hreport.le_sent
    window := h.window.trans (Nat.add_le_add_right hreport.reported_le _)
    fwdCnt := by
      intro c hc hopen
      have hsome : s.live = some c := State.live_eq_some.2 ⟨hc, hopen⟩
      rw [hlive] at hsome
      cases hsome
    waiting := by
      intro hw
      obtain hnotify | hfull := h.waiting hw
      · rw [hdevice] at hnotify
        cases hnotify
      · exact .inr (hfull.trans (by rw [← hkept hw]; rfl)) }

variable {c : Connection} {device : List Pending}

theorem Inv.refresh (h : Inv bufAlloc s) (hreport : Reports bufAlloc s pkt consumed)
    {c' : Connection} (hc : s.entry = some c) {accepted : ℕ}
    (hforwarded : c'.hostForwarded = c.hostForwarded)
    (hwindow : c'.guestBufAlloc = pkt.hdr.bufAlloc ∧ c'.guestFwdCnt = pkt.hdr.fwdCnt)
    (hsignal : s.signalled = true ∨ .signal ∈ device → c'.responseSignal = false)
    (hlt : accepted < 2 ^ 32) (hreceived : c'.guestRxForwarded.toNat = accepted)
    (hnotify : .notify ∈ device)
    (hpending : ∀ pkt, .push pkt ∈ device → pkt.hdr.fwdCnt.toNat = accepted)
    (hheld : ∀ fwdCnt, s.reader.heldFwd = some fwdCnt → fwdCnt.toNat = accepted) :
    Inv bufAlloc { s.record pkt consumed with entry := some c', device, accepted } :=
  { h with
    accepted_lt := hlt
    reported_le := hreport.le_sent
    window := h.window.trans (Nat.add_le_add_right hreport.reported_le _)
    forwarded := by
      rintro _ ⟨⟩
      rw [hforwarded]
      exact h.forwarded c hc
    received := by rintro _ ⟨⟩; exact hreceived
    fwdCnt := by
      rintro _ ⟨⟩ -
      have hconsumed := hreport.le_sent
      have hsent := h.sent_lt
      rw [hwindow.2, hreport.fwdCnt_eq]
      exact UInt32.toNat_ofNat_of_lt' (by simp only [UInt32.size]; omega)
    buffer := by
      rintro _ ⟨⟩ -
      rw [hwindow.1, hreport.bufAlloc_eq]
    answered := by rintro _ ⟨⟩; exact hsignal
    waiting := fun _ => .inl hnotify
    pending := hpending
    held := hheld }

theorem Inv.accept (h : Inv bufAlloc s) (hreport : Reports bufAlloc s pkt consumed)
    (hc : s.entry = some c) (hlt : s.accepted + pkt.payload.length < 2 ^ 32)
    (hheld : s.reader.heldFwd = none ∨ pkt.payload = []) :
    Inv bufAlloc (acceptRw addr pkt (s.record pkt consumed) c) := by
  have hlength : (UInt32.ofNat (min pkt.payload.length (2 ^ 32 - 1))).toNat =
      pkt.payload.length := by
    rw [Nat.min_eq_left (by omega)]
    exact UInt32.toNat_ofNat_of_lt' (by simp only [UInt32.size]; omega)
  have hreceived : (saturatingAdd c.guestRxForwarded
      (.ofNat (min pkt.payload.length (2 ^ 32 - 1)))).toNat = s.accepted + pkt.payload.length := by
    have hbefore := h.received c hc
    rw [toNat_saturatingAdd (by omega), hbefore, hlength]
  have hkept : ∀ fwdCnt, s.reader.heldFwd = some fwdCnt →
      fwdCnt.toNat = s.accepted + pkt.payload.length := by
    intro fwdCnt hfwd
    obtain hnone | hempty := hheld
    · rw [hfwd] at hnone
      cases hnone
    · rw [hempty]
      exact h.held fwdCnt hfwd
  have hanswered : ∀ {upd}, s.signalled = true ∨ .signal ∈ [Pending.push upd, .notify] →
      c.responseSignal = false :=
    fun hsignal => h.answered c hc (.inl (hsignal.resolve_right (by simp)))
  have hpending : ∀ {upd : VsockPacket}, upd.hdr.fwdCnt.toNat = s.accepted + pkt.payload.length →
      ∀ p, .push p ∈ [Pending.push upd, .notify] →
        p.hdr.fwdCnt.toNat = s.accepted + pkt.payload.length := by
    intro upd hupd p hp
    obtain rfl : p = upd := by simpa using hp
    exact hupd
  unfold acceptRw State.send
  split_ifs with hfinished
  · exact h.refresh hreport hc rfl ⟨rfl, rfl⟩ hanswered hlt hreceived (by simp)
      (hpending hreceived) hkept
  · have hsent : Inv bufAlloc { s with channel := s.channel ++ [pkt.payload] } := { h with }
    exact hsent.refresh { hreport with } hc rfl ⟨rfl, rfl⟩ hanswered hlt hreceived (by simp)
      (hpending hreceived) hkept

theorem Inv.credit (h : Inv bufAlloc s) (hreport : Reports bufAlloc s pkt consumed)
    (hc : s.entry = some c) (hnotify : .notify ∈ device) (hsignal : .signal ∉ device)
    (hpending : ∀ p, .push p ∈ device → p.hdr.fwdCnt = c.guestRxForwarded) :
    Inv bufAlloc { s.record pkt consumed with entry := some (c.refresh pkt.hdr), device } := by
  have hreceived := h.received c hc
  refine h.refresh hreport hc rfl ⟨rfl, rfl⟩ ?_ h.accepted_lt hreceived hnotify ?_ h.held
  · exact fun hanswered => h.answered c hc (.inl (hanswered.resolve_right hsignal))
  · intro p hp
    rw [hpending p hp]
    exact hreceived

def Handled (bufAlloc : UInt32) (r : List VsockPacket × State) : Prop :=
  Inv bufAlloc r.2 ∧ ∀ p ∈ r.1, p.hdr.fwdCnt.toNat = r.2.accepted

theorem Inv.handled (h : Inv bufAlloc s) : Handled bufAlloc ([], s) := ⟨h, nofun⟩

theorem handled_onEntry {k : Connection → List VsockPacket × State}
    (hnone : s.entry = none → Inv bufAlloc s)
    (hsome : ∀ c, s.entry = some c → Handled bufAlloc (k c)) :
    Handled bufAlloc (match s.entry with | none => ([], s) | some c => k c) := by
  cases hc : s.entry with
  | none => exact (hnone hc).handled
  | some c => exact hsome c hc

theorem handled_handleTx (h : Inv bufAlloc s) (hdevice : s.device = [])
    (hwell : WellBehaved bufAlloc s (.guest pkt consumed))
    (htimely : Timely s (.guest pkt consumed)) :
    Handled bufAlloc (handleTx addr pkt (s.record pkt consumed)) := by
  obtain ⟨hbuf, hfwd, hge, hle⟩ := hwell
  have hreport : Reports bufAlloc s pkt consumed := ⟨hbuf, hfwd, hge, hle⟩
  obtain ⟨hrw, hclose, hunread, hrequest⟩ := htimely
  -- without an open entry, the packet is only recorded
  have hdead (hlive : s.live = none) : Inv bufAlloc (s.record pkt consumed) :=
    h.record hreport hdevice hlive (hclose (.inr (.inr hlive)))
  have hnone (hc : s.entry = none) : Inv bufAlloc (s.record pkt consumed) :=
    hdead (by rw [State.live, hc]; rfl)
  have hremove (hkept : s.reader = .waiting false → consumed = s.reported) :
      Inv bufAlloc ((s.record pkt consumed).setEntry none) :=
    h.setEntry_none.record { hreport with } hdevice rfl hkept
  unfold handleTx
  cases hop : pkt.hdr.op <;> dsimp only
  case request =>
    rw [State.record_eq_self (by simp [hop]) (hunread (.inl hop))]
    refine ⟨h, fun p hp => ?_⟩
    obtain rfl := List.mem_singleton.1 hp
    exact (hrequest hop).symm
  case invalid =>
    rw [State.record_eq_self (by simp [hop]) (hunread (.inr hop))]
    exact h.handled
  case shutdown => exact (hremove (hclose (.inl hop))).handled
  case rst => exact (hremove (hclose (.inr (.inl hop)))).handled
  case response =>
    refine handled_onEntry hnone fun c hc => Inv.handled ?_
    refine h.refresh hreport hc rfl ⟨rfl, rfl⟩ (fun _ => rfl) h.accepted_lt (h.received c hc)
      (by simp) ?_ h.held
    intro p hp
    split at hp <;> simp at hp
  case rw =>
    refine handled_onEntry hnone fun c (hc : s.entry = some c) => ?_
    split_ifs with hclosed
    · refine (hdead ?_).handled
      rw [State.live, hc, Option.filter_some, if_neg (by simp [hclosed])]
    · have hlive : s.live = some c := State.live_eq_some.2 ⟨hc, by simpa using hclosed⟩
      obtain ⟨hlt, hheld⟩ := hrw hop (by rw [hlive]; nofun)
      exact (h.accept hreport hc hlt hheld).handled
  case creditUpdate =>
    refine handled_onEntry hnone fun c hc => Inv.handled ?_
    exact h.credit hreport hc (by simp) (by simp) (by simp)
  case creditRequest =>
    refine handled_onEntry hnone fun c hc => Inv.handled ?_
    exact h.credit hreport hc (by simp) (by simp) (by simp [Addr.packet])

end Guest

/-! ### Runs -/

theorem inv_writerStep (h : Inv bufAlloc s) {n : ℕ} (hstep : writerStep s n = some s') :
    Inv bufAlloc s' := by
  unfold writerStep at hstep
  split at hstep
  case h_1 => cases hstep
  case h_2 =>
    split at hstep
    · cases hstep
      exact { h with }
    · split_ifs at hstep
      cases hstep
      exact h.dropReceiver
  case h_3 =>
    split_ifs at hstep
    · cases hstep
      exact { h with }
    · cases hstep
      exact h.dropReceiver
    · cases hstep
      exact { h with }
  case h_4 => cases hstep

theorem inv_step (h : Inv bufAlloc s) {e : Event} (hwell : WellBehaved bufAlloc s e)
    (htimely : Timely s e) (hstep : step addr s e = some s') : Inv bufAlloc s' := by
  cases e with
  | guest pkt consumed =>
    simp only [step] at hstep
    split_ifs at hstep with hdevice
    cases hstep
    obtain ⟨hinv, hreplies⟩ : Handled bufAlloc (handleTx addr pkt (s.record pkt consumed)) :=
      handled_handleTx h hdevice hwell htimely
    exact hinv.pushAll hreplies
  | device => exact inv_deviceStep h hstep
  | timeout =>
    simp only [step] at hstep
    split_ifs at hstep with hguard
    cases hstep
    exact h.goto hguard.1 .refused rfl h.sent_le False.elim nofun nofun
  | ack ok =>
    simp only [step] at hstep
    split_ifs at hstep with hguard
    · cases hstep
      exact
        { h.goto_done hguard.1 rfl with
          running := fun _ => hguard.2
          waiting := nofun
          held := nofun }
    · cases hstep
      exact h.dropReceiver.goto_done hguard.1 rfl
  | reader input => exact inv_readerStep h htimely hstep
  | writer n => exact inv_writerStep h hstep
  | deliver =>
    simp only [step] at hstep
    split at hstep
    · cases hstep
    · cases hstep
      exact { h with }

theorem readerStep_waits (hstep : readerStep addr s input = some s')
    (hwaits : s'.reader = .waiting woken) :
    s.reader = .armed woken ∧ ∃ c, s.live = some c ∧ c.credit = 0 := by
  unfold readerStep at hstep
  grind [State.goto]

theorem Inv.full_of_waits (h : Inv bufAlloc s) (hstep : step addr s (.reader input) = some s')
    (hwaits : s'.reader = .waiting woken) : s.sent = s.reported + bufAlloc.toNat := by
  obtain ⟨hreader, c, hlive, hzero⟩ := readerStep_waits hstep hwaits
  exact h.full hreader hlive trivial rfl hzero

end Steps

/-- **Flow control.** With timely steps and a guest that keeps to the protocol: at most a buffer is
outstanding, the reader waits only while it is full, and every packet reports the bytes accepted
until it was queued. -/
theorem flow_control {addr : Addr} {bufAlloc : UInt32} {es : List Event} {s : State}
    (hwell : Run.Along (step addr) (WellBehaved bufAlloc) es (init addr))
    (htimely : Run.Along (step addr) Timely es (init addr))
    (hrun : Run.run (step addr) es (init addr) = some s) :
    s.sent ≤ s.reported + bufAlloc.toNat ∧
    (∀ input s' woken, step addr s (.reader input) = some s' → s'.reader = .waiting woken →
      s.sent = s.reported + bufAlloc.toNat) ∧
    (s.reader = .waiting false → .notify ∉ s.device → s.sent = s.reported + bufAlloc.toNat) ∧
    ∀ pkt accepted, (pkt, accepted) ∈ s.pushed → pkt.hdr.fwdCnt.toNat = accepted % 2 ^ 32 := by
  have hinv : Inv bufAlloc s :=
    Run.invariant (fun _ _ _ h hC => inv_step h hC.1 hC.2) (hwell.and htimely)
      inv_init hrun
  refine ⟨hinv.sent_le, fun _ _ _ => hinv.full_of_waits, fun hwaits hnotify => ?_,
    fun pkt accepted => hinv.pushed (pkt, accepted)⟩
  exact (hinv.waiting hwaits).resolve_left hnotify

section Scenario

def sampleAddr : Addr where
  guestCid := 3
  hostPort := 1024
  guestPort := 5001

def guestSends (op : VsockOp) (payload : List UInt8) (consumed : ℕ) : Event :=
  .guest
    { hdr :=
        { srcCid := sampleAddr.guestCid, dstCid := VMADDR_CID_HOST
          srcPort := sampleAddr.guestPort, dstPort := sampleAddr.hostPort
          len := .ofNat payload.length, type := TYPE_STREAM, op, flags := 0
          bufAlloc := 1, fwdCnt := .ofNat consumed }
      payload }
    consumed

def opened : List Event :=
  [guestSends .response [] 0, .device, .device, .ack true,
    .reader [], .reader [], .reader [], .reader []]

def oneByteEachWay : List Event :=
  opened ++ [guestSends .rw [7] 0, .device, .device, .reader [9], .reader [], .reader [],
    .reader [], .reader [], .reader []]

def guestCloses : List Event :=
  opened ++ [guestSends .rw [7] 0, .device, .device, guestSends .shutdown [] 0,
    .reader [], .reader [], .reader []]

theorem flow_control_one_byte :
    ∃ s, Run.run (step sampleAddr) oneByteEachWay (init sampleAddr) = some s ∧
      s.reader = .waiting false ∧ s.sent = s.reported + 1 ∧
      ∀ pkt accepted, (pkt, accepted) ∈ s.pushed → pkt.hdr.fwdCnt.toNat = accepted % 2 ^ 32 := by
  obtain ⟨s, hs, hreader, hdevice⟩ : ∃ s ∈ Run.run (step sampleAddr) oneByteEachWay
      (init sampleAddr), s.reader = .waiting false ∧ s.device = [] := by decide +kernel
  have hwell : Run.Along (step sampleAddr) (WellBehaved 1) oneByteEachWay (init sampleAddr) := by
    decide +kernel
  have hflow := flow_control hwell (by decide +kernel) hs
  exact ⟨s, hs, hreader, hflow.2.2.1 hreader (by rw [hdevice]; nofun), hflow.2.2.2⟩

/-- The shutdown packet reports no byte, although one was accepted. -/
theorem shutdown_reports_zero :
    ∃ s, Run.run (step sampleAddr) guestCloses (init sampleAddr) = some s ∧
      Run.Along (step sampleAddr) (WellBehaved 1) guestCloses (init sampleAddr) ∧
      ∃ pkt, (pkt, 1) ∈ s.pushed ∧ pkt.hdr.fwdCnt.toNat ≠ 1 % 2 ^ 32 := by
  obtain ⟨s, hs, hmem⟩ : ∃ s ∈ Run.run (step sampleAddr) guestCloses (init sampleAddr),
      (sampleAddr.packet .shutdown 3 0 [], 1) ∈ s.pushed := by decide +kernel
  exact ⟨s, hs, by decide +kernel, _, hmem, by decide⟩

end Scenario

end Squib.Muxer
