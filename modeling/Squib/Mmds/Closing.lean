import Squib.Mmds.Session

/-!
# The client's FIN
-/

namespace Squib.Metadata

open Checked Internet Run

def OutboundFrame.numbers (f : OutboundFrame) : UInt32 × UInt8 :=
  (be32 (byte 28) (byte 29) (byte 30) (byte 31), byte 33)
where
  byte (i : ℕ) : UInt8 := f.ethPayload.getD i 0

namespace TcpServer

def numbers (s : TcpServer) : List (UInt32 × UInt8) := s.outQueue.map OutboundFrame.numbers

variable {s t u : TcpServer} {key : ConnKey} {c : Conn} {η : Type} {checks : Bool}
  {handler : Handler η} {payload : List UInt8} {x x' : η} {tcp : TcpHeader}

theorem numbers_push (s : TcpServer) (tcp : TcpHeader) (dst : Ipv4Addr) (payload : List UInt8) :
    (s.push tcp dst payload).numbers = s.numbers ++ [(tcp.ack, tcp.flags)] := by
  rw [numbers, push, List.map_append]
  exact congrArg (fun ack => s.numbers ++ [(ack, tcp.flags)]) (be32_toBe32 tcp.ack)

theorem numbers_onFin (hc : s.conns.lookup key = some c) :
    (s.onFin key).numbers = s.numbers ++ [(c.rcvNxt + 1, TCP_FIN ||| TCP_ACK)] := by
  rw [onFin, hc]
  exact numbers_push ..

def Acks (s t : TcpServer) (n : UInt32) : Prop :=
  ∃ ns, t.numbers = s.numbers ++ ns ∧ ∀ m ∈ ns, m.1 = n ∧ m.2 &&& TCP_RST = 0

structure Expects (s t : TcpServer) (key : ConnKey) (n : UInt32) : Prop where
  acks : Acks s t n
  next : ∃ c, t.conns.lookup key = some c ∧ c.rcvNxt = n

variable {n : UInt32}

theorem acks_of_eq (h : t.numbers = s.numbers) : Acks s t n :=
  ⟨[], h.trans (List.append_nil _).symm, nofun⟩

theorem Acks.send (h : Acks s t n) (flags : UInt8) (hflags : flags &&& TCP_RST = 0) (c : Conn)
    (hc : c.rcvNxt = n) (port : UInt16) (seq : UInt32) (payload : List UInt8) :
    Expects s (t.send key c (.build port key.srcPort seq c.rcvNxt flags 0xFFFF) payload) key n := by
  obtain ⟨ns, hns, hall⟩ := h
  refine ⟨⟨ns ++ [(c.rcvNxt, flags)], ?_, fun m hm => ?_⟩, _, AList.lookup_insert _, hc⟩
  · rw [TcpServer.send, numbers_push, ← List.append_assoc, ← hns]
    rfl
  · obtain hm | hm := List.mem_append.1 hm
    · exact hall m hm
    · rw [List.mem_singleton.1 hm]
      exact ⟨hc, hflags⟩

theorem Expects.sendResponse (h : Expects s t key n) (response : HttpResponse) :
    Expects s (t.sendResponse key response) key n := by
  obtain ⟨c, hc, hn⟩ := h.next
  rw [TcpServer.sendResponse, hc]
  exact h.acks.send (TCP_ACK ||| TCP_PSH ||| TCP_FIN) (by decide)
    { c with sndNxt := c.sndNxt + .ofNat response.toWire.length + 1, state := .lastAck } hn _ _ _

theorem Acks.put (h : Acks s t n) (hc : c.rcvNxt = n) : Expects s (t.put key c) key n :=
  ⟨h, c, AList.lookup_insert _, hc⟩

theorem expects_onData (hc : s.conns.lookup key = some c)
    (h : s.onData checks handler key payload x = .ok (t, x')) :
    Expects s t key (c.rcvNxt + .ofNat payload.length) := by
  rw [onData, hc] at h
  obtain ⟨outcome, -, h⟩ := bind_eq_ok.1 h
  have hack : Expects s (s.send key _ _ []) key (c.rcvNxt + .ofNat payload.length) :=
    (acks_of_eq rfl).send TCP_ACK (by decide)
      { c with rcvNxt := c.rcvNxt + .ofNat payload.length, rcvBuf := c.rcvBuf ++ payload } rfl
      s.serverPort c.sndNxt []
  cases outcome with
  | incomplete =>
    cases h
    exact hack
  | malformed =>
    cases h
    exact hack.sendResponse _
  | tooLarge =>
    cases h
    exact hack.sendResponse _
  | complete req =>
    cases h
    exact (hack.acks.put rfl).sendResponse _

theorem expects_data
    (h : (if payload ≠ [] then t.onData checks handler key payload x else .ok (t, x)) = .ok (u, x'))
    (ht : t.numbers = s.numbers) (hc : t.conns.lookup key = some c) :
    Expects s u key (c.rcvNxt + .ofNat payload.length) := by
  split_ifs at h with hp
  · have hdata := expects_onData hc h
    refine ⟨?_, hdata.next⟩
    rw [Acks, ← ht]
    exact hdata.acks
  · cases h
    rw [not_not.1 hp]
    exact ⟨acks_of_eq ht, c, hc, (UInt32.add_zero _).symm⟩

theorem dispatch_fin (hrst : tcp.isRst = false) (hopen : ¬ Flow.Opens tcp)
    (hc : s.conns.lookup key = some c) (hfin : tcp.isFin = true)
    (hseq : tcp.seq = c.rcvNxt ∨ tcp.seq + .ofNat payload.length = c.rcvNxt)
    (h : s.dispatch checks handler key tcp payload x = .ok (t, x')) :
    if c.state = .established ∧ (payload = [] ∨ tcp.seq = c.rcvNxt) then
      ∃ u, Acks s u (tcp.seq + .ofNat payload.length) ∧
        t.numbers = u.numbers ++ [(tcp.seq + .ofNat payload.length + 1, TCP_FIN ||| TCP_ACK)]
    else Acks s t (tcp.seq + .ofNat payload.length) := by
  have hsyn : ¬ (tcp.isSyn = true ∧ ¬ tcp.isAck = true) := fun hs =>
    hopen ⟨hrst, hs.1, by simpa using hs.2⟩
  rw [dispatch, if_neg (by simp [hrst]), if_neg hsyn, hc] at h
  dsimp only at h
  have hstate : (c.note (.received tcp payload)).state = c.state := rfl
  have hrcv : (c.note (.received tcp payload)).rcvNxt = c.rcvNxt := rfl
  generalize c.note (.received tcp payload) = d at h hstate hrcv
  rw [← hrcv] at hseq ⊢
  rw [← hstate]
  by_cases hdrop : tcp.seq ≠ d.rcvNxt ∧ payload ≠ []
  · rw [if_pos hdrop] at h
    rw [if_neg fun hp => hp.2.elim hdrop.2 hdrop.1]
    cases h
    exact acks_of_eq rfl
  · rw [if_neg hdrop] at h
    have hnext : tcp.seq = d.rcvNxt := by
      by_contra hne
      have hp : payload = [] := by
        by_contra hp
        exact hdrop ⟨hne, hp⟩
      simp [hp, hne] at hseq
    rw [hnext]
    cases hd : d.state with
    | synReceived =>
      rw [hd] at h
      by_cases hack : tcp.isAck = true ∧ tcp.ack = d.sndNxt
      · rw [if_pos hack] at h
        have hdata : Expects s t key _ := expects_data h rfl (AList.lookup_insert _)
        exact hdata.acks
      · rw [if_neg hack] at h
        cases h
        exact acks_of_eq rfl
    | established =>
      rw [hd] at h
      rw [if_pos ⟨rfl, .inr rfl⟩]
      rw [← apply_ite (fun x => x >>= _)] at h
      obtain ⟨⟨u, y⟩, hu, h⟩ := bind_eq_ok.1 h
      have hdata : Expects s u key _ := expects_data hu rfl (AList.lookup_insert _)
      obtain ⟨c', hc', hn⟩ := hdata.next
      rw [if_pos hfin] at h
      cases h
      refine ⟨u, hdata.acks, ?_⟩
      rw [numbers_onFin hc', hn]
    | lastAck =>
      rw [hd] at h
      split_ifs at h <;> cases h <;> exact acks_of_eq rfl

theorem follows_of_dispatch (h : s.dispatch checks handler key tcp payload x = .ok (t, x')) :
    ∃ flow, Follows s t key tcp flow := by
  by_cases hover : Flow.Overflows checks s.nextIss (s.conns.lookup key) tcp payload
  · obtain ⟨crash, hcrash⟩ := dispatch_eq_error checks handler x hover
    rw [hcrash] at h
    cases h
  · obtain ⟨u, hu, hflow⟩ := dispatch_eq_ok checks handler x hover
    rw [hu] at h
    cases h
    exact ⟨_, hflow⟩

end TcpServer

/-! ## Runs -/

structure Watched (η : Type) where
  server : TcpServer
  handled : η
  expected : ConnKey → Option UInt32

namespace Watched

variable {η : Type}

def start (ip : Ipv4Addr) (port : UInt16) (x : η) : Watched η := ⟨.new ip port, x, fun _ => none⟩

def observe (w : Watched η) (body : List UInt8) (t : TcpServer) : ConnKey → Option UInt32 :=
  match w.server.segment body with
  | .ok (some (ip, tcp, _)) =>
    let key : ConnKey := ⟨ip.src, tcp.srcPort⟩
    Function.update w.expected key <|
      match t.conns.lookup key with
      | some c => some c.rcvNxt
      | none => if tcp.isRst ∨ w.server.conns.lookup key = none then none else w.expected key
  | _ => w.expected

def step (checks : Bool) (handler : Handler η) (w : Watched η) (frame : MacAddr × List UInt8) :
    Option (Watched η) :=
  match w.server.handleIpFrame checks handler frame.1 frame.2 w.handled with
  | .ok (_, server, handled) => some ⟨server, handled, w.observe frame.2 server⟩
  | .error _ => none

def Tracks (w : Watched η) : Prop :=
  ∀ key c, w.server.conns.lookup key = some c → w.expected key = some c.rcvNxt

def finInSequence (w : Watched η) (body : List UInt8) : Option (ConnKey × TcpHeader × List UInt8) :=
  match w.server.segment body with
  | .ok (some (ip, tcp, payload)) =>
    if tcp.isFin ∧ tcp.isRst = false ∧ ¬ Flow.Opens tcp ∧
        (w.expected ⟨ip.src, tcp.srcPort⟩ = some tcp.seq ∨
          w.expected ⟨ip.src, tcp.srcPort⟩ = some (tcp.seq + .ofNat payload.length)) then
      some (⟨ip.src, tcp.srcPort⟩, tcp, payload)
    else none
  | _ => none

def Answered (w w' : Watched η) (tcp : TcpHeader) (payload : List UInt8) : Prop :=
  let ns := w'.server.numbers.drop w.server.numbers.length
  (∃ m ∈ ns, m.1 = tcp.seq + .ofNat payload.length + 1 ∧ m.2 &&& TCP_ACK ≠ 0) ∧
    ∀ m ∈ ns, m.2 &&& TCP_RST = 0

instance (w w' : Watched η) (tcp : TcpHeader) (payload : List UInt8) :
    Decidable (w.Answered w' tcp payload) :=
  inferInstanceAs (Decidable ((∃ m ∈ _, _) ∧ ∀ m ∈ _, _))

variable {checks : Bool} {handler : Handler η} {w w' : Watched η} {frame : MacAddr × List UInt8}
  {tcp : TcpHeader} {payload : List UInt8} {es : List (MacAddr × List UInt8)} {key : ConnKey}

theorem step_packet {ip : Ipv4Header} (hseg : w.server.segment frame.2 = .ok (some (ip, tcp, payload)))
    (h : w.step checks handler frame = some w') :
    ∃ s : TcpServer, s.conns = w.server.conns ∧ s.numbers = w.server.numbers ∧
      s.dispatch checks handler ⟨ip.src, tcp.srcPort⟩ tcp payload w.handled =
        .ok (w'.server, w'.handled) ∧ w'.expected = w.observe frame.2 w'.server := by
  refine ⟨{ w.server with guestMac := some frame.1 }, rfl, rfl, ?_⟩
  rw [step, MmdsInterceptor.handleIpFrame_eq, hseg] at h
  dsimp only at h
  cases hd : TcpServer.dispatch { w.server with guestMac := some frame.1 } checks handler
      ⟨ip.src, tcp.srcPort⟩ tcp payload w.handled with
  | error e =>
    rw [hd] at h
    cases h
  | ok r =>
    rw [hd] at h
    cases h
    exact ⟨rfl, rfl⟩

theorem tracks_step (hw : w.Tracks) (h : w.step checks handler frame = some w') : w'.Tracks := by
  obtain ⟨r, hseg, -⟩ := w.server.segment_returns frame.2
  cases r with
  | none =>
    rw [step, MmdsInterceptor.handleIpFrame_eq, hseg] at h
    cases h
    rw [observe, hseg]
    exact hw
  | some seg =>
    obtain ⟨ip, tcp, payload⟩ := seg
    obtain ⟨s, hconns, -, hd, hexpected⟩ := step_packet hseg h
    obtain ⟨flow, hflow⟩ := TcpServer.follows_of_dispatch hd
    intro key c hc
    rw [hexpected, observe, hseg]
    dsimp only
    by_cases hkey : key = ⟨ip.src, tcp.srcPort⟩
    · subst hkey
      rw [Function.update_self, hc]
    · rw [Function.update_of_ne hkey]
      rw [hflow.conns, Flow.lookup_store_ne hkey, hconns] at hc
      exact hw key c hc

theorem answered_iff {ns : List (UInt32 × UInt8)} (h : w'.server.numbers = w.server.numbers ++ ns) :
    w.Answered w' tcp payload ↔
      (∃ m ∈ ns, m.1 = tcp.seq + .ofNat payload.length + 1 ∧ m.2 &&& TCP_ACK ≠ 0) ∧
        ∀ m ∈ ns, m.2 &&& TCP_RST = 0 := by
  rw [Answered, h, List.drop_left]

/-- **Which FINs are answered.** -/
theorem fin_answered_iff {x : η} {ip : Ipv4Addr} {port : UInt16}
    (hrun : run (step checks handler) es (start ip port x) = some w)
    (hstep : w.step checks handler frame = some w')
    (hfin : w.finInSequence frame.2 = some (key, tcp, payload)) :
    w.Answered w' tcp payload ↔ ∃ c, w.server.conns.lookup key = some c ∧
      c.state = .established ∧ (payload = [] ∨ tcp.seq = c.rcvNxt) := by
  have hstart : (start ip port x).Tracks := fun key c h => by cases h
  have htracks : w.Tracks := invariant_of_step (fun _ _ _ => tracks_step) hstart hrun
  unfold finInSequence at hfin
  split at hfin
  · next ip tcp payload hseg =>
    split_ifs at hfin with hplace
    cases hfin
    obtain ⟨hfin, hrst, hopen, hseq⟩ := hplace
    obtain ⟨s, hconns, hnumbers, hd, -⟩ := step_packet hseg hstep
    cases hc : w.server.conns.lookup ⟨ip.src, tcp.srcPort⟩ with
    | none =>
      rw [TcpServer.dispatch_unknown _ _ _ hrst hopen (hconns ▸ hc)] at hd
      have hsent := congrArg (TcpServer.numbers ·.1) (Except.ok.inj hd)
      rw [TcpServer.numbers_push, hnumbers] at hsent
      have hflags : ¬ ((TCP_RST ||| TCP_ACK) &&& TCP_RST = 0) := by decide
      rw [answered_iff hsent.symm, iff_false_right nofun]
      exact fun h => hflags (h.2 _ (List.mem_singleton_self _))
    | some c =>
      rw [htracks _ c hc, Option.some_inj, Option.some_inj] at hseq
      have hsent := TcpServer.dispatch_fin hrst hopen (hconns ▸ hc) hfin (hseq.imp Eq.symm Eq.symm) hd
      simp only [Option.some.injEq, exists_eq_left']
      split_ifs at hsent with hplace
      · obtain ⟨u, ⟨ns, hns, hall⟩, hlast⟩ := hsent
        rw [hns, hnumbers, List.append_assoc] at hlast
        rw [answered_iff hlast, iff_true_right hplace]
        have hflags : (TCP_FIN ||| TCP_ACK) &&& TCP_ACK ≠ 0 ∧
            (TCP_FIN ||| TCP_ACK) &&& TCP_RST = 0 := by decide
        refine ⟨⟨_, List.mem_append_right _ (List.mem_singleton_self _), rfl, hflags.1⟩, fun m hm => ?_⟩
        obtain hm | hm := List.mem_append.1 hm
        · exact (hall m hm).2
        · rw [List.mem_singleton.1 hm]
          exact hflags.2
      · obtain ⟨ns, hns, hall⟩ := hsent
        rw [hnumbers] at hns
        rw [answered_iff hns, iff_false_right hplace]
        rintro ⟨⟨m, hm, hack, -⟩, -⟩
        rw [(hall m hm).1] at hack
        simp at hack
  · cases hfin

section Scenario

def fromGuest (seq ack : UInt32) (flags : UInt8) : MacAddr × List UInt8 :=
  (guestMac, (guestFrame seq ack flags []).drop ETHER_HDR_LEN)

def guestFin : MacAddr × List UInt8 := fromGuest 100 0x40000001 (TCP_ACK ||| TCP_FIN)

def serveEmpty : Watched Unit → MacAddr × List UInt8 → Option (Watched Unit) :=
  step true fun _ x => (⟨200, []⟩, x)

def listening : Watched Unit := start MMDS_DEFAULT_IPV4 80 ()

theorem fin_answered_established :
    ∃ w w' tcp, run serveEmpty [fromGuest 99 0 TCP_SYN, fromGuest 100 0x40000001 TCP_ACK]
        listening = some w ∧ serveEmpty w guestFin = some w' ∧ w.Answered w' tcp [] := by
  obtain ⟨w, hw, w', hw', r, hr, c, hc, hp, hstate⟩ : ∃ w ∈ run serveEmpty
      [fromGuest 99 0 TCP_SYN, fromGuest 100 0x40000001 TCP_ACK] listening,
      ∃ w' ∈ serveEmpty w guestFin, ∃ r ∈ w.finInSequence guestFin.2,
        ∃ c ∈ w.server.conns.lookup r.1, r.2.2 = [] ∧ c.state = .established := by
    decide +kernel
  refine ⟨w, w', r.2.1, hw, hw', ?_⟩
  rw [← hp]
  exact (fin_answered_iff hw hw' hr).2 ⟨c, hc, hstate, .inl hp⟩

/-- The server takes the acknowledgement, ignores the FIN and sends nothing. -/
theorem fin_of_handshake_unanswered :
    ∃ w ∈ run serveEmpty [fromGuest 99 0 TCP_SYN] listening, ∃ w' ∈ serveEmpty w guestFin,
      ∃ r ∈ w.finInSequence guestFin.2, ¬ w.Answered w' r.2.1 r.2.2 := by
  decide +kernel

end Scenario

end Watched

end Squib.Metadata
