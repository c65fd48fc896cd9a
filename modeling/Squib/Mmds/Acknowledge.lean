import Squib.Mmds.Session

/-!
# The acknowledgement numbers of the server
-/

namespace Squib.Metadata

open Run

/-! ## The receiver -/

structure Receiver where
  opened : Bool
  bytes : ℕ
  fin : Bool
  deriving DecidableEq, Repr

namespace Receiver

def start : Receiver := { opened := false, bytes := 0, fin := false }

def position (r : Receiver) (iss : UInt32) : UInt32 := iss + 1 + .ofNat r.bytes

def ack (r : Receiver) (iss : UInt32) : UInt32 := r.position iss + if r.fin then 1 else 0

variable (clientIss serverIss : UInt32)

def Completes (r : Receiver) (tcp : TcpHeader) (payload : List UInt8) : Prop :=
  tcp.isAck = true ∧ tcp.ack = serverIss + 1 ∧
    (payload ≠ [] → tcp.seq = r.position clientIss)

instance (r : Receiver) (tcp : TcpHeader) (payload : List UInt8) :
    Decidable (r.Completes clientIss serverIss tcp payload) := by
  unfold Completes
  infer_instance

def accept (r : Receiver) (tcp : TcpHeader) (payload : List UInt8) : Receiver :=
  if r.fin then r
  else
    let bytes := if tcp.seq = r.position clientIss then r.bytes + payload.length else r.bytes
    { opened := true, bytes
      fin := tcp.isFin && tcp.seq + .ofNat payload.length == clientIss + 1 + .ofNat bytes }

def step (r : Receiver) : Happening → Receiver
  | .received tcp payload =>
    if r.opened ∨ r.Completes clientIss serverIss tcp payload then r.accept clientIss tcp payload
    else r
  | _ => r

def of (log : List Happening) : Receiver := log.foldl (step clientIss serverIss) start

theorem position_start : start.position clientIss = clientIss + 1 := by
  simp [position, start]

section Accept

variable {clientIss} {r : Receiver} {tcp : TcpHeader} {payload : List UInt8}

theorem accept_inOrder (hfin : r.fin = false)
    (hseq : payload ≠ [] → tcp.seq = r.position clientIss) :
    r.accept clientIss tcp payload =
      { opened := true, bytes := r.bytes + payload.length
        fin := tcp.isFin && tcp.seq + .ofNat payload.length ==
          clientIss + 1 + .ofNat (r.bytes + payload.length) } := by
  have hbytes : (if tcp.seq = r.position clientIss then r.bytes + payload.length else r.bytes) =
      r.bytes + payload.length := by
    split_ifs with h
    · rfl
    · have hp : payload = [] := by
        by_contra hp
        exact h (hseq hp)
      rw [hp]
      rfl
  rw [accept, hfin, if_neg Bool.false_ne_true, hbytes]

theorem accept_outOfOrder (hfin : r.fin = false) (hseq : tcp.seq ≠ r.position clientIss) :
    r.accept clientIss tcp payload =
      { opened := true, bytes := r.bytes
        fin := tcp.isFin && tcp.seq + .ofNat payload.length == r.position clientIss } := by
  rw [accept, hfin, if_neg hseq]
  rfl

end Accept

theorem of_append_singleton (log : List Happening) (x : Happening) :
    of clientIss serverIss (log ++ [x]) =
      (of clientIss serverIss log).step clientIss serverIss x := by
  rw [of, List.foldl_append]
  rfl

end Receiver

def Acknowledges (clientIss serverIss : UInt32) (before : List Happening) : Happening → Prop
  | .sent hdr _ => hdr.ack = (Receiver.of clientIss serverIss before).ack clientIss
  | _ => True

instance (clientIss serverIss : UInt32) (before : List Happening) (x : Happening) :
    Decidable (Acknowledges clientIss serverIss before x) := by
  unfold Acknowledges
  cases x <;> infer_instance

namespace Conn

def receiver (c : Conn) : Receiver := .of c.clientIss c.serverIss c.log

def AcksExact (c : Conn) : Prop := Each (Acknowledges c.clientIss c.serverIss) c.log

instance (c : Conn) : Decidable c.AcksExact := by
  unfold AcksExact
  infer_instance

theorem receiver_note (c : Conn) (x : Happening) :
    (c.note x).receiver = c.receiver.step c.clientIss c.serverIss x :=
  Receiver.of_append_singleton ..

/-! ## What is sent -/

structure Exact (c : Conn) : Prop where
  acks : c.AcksExact
  next : c.rcvNxt = c.receiver.ack c.clientIss

variable {c : Conn} {port : UInt16} {key : ConnKey}

theorem Exact.send (h : c.Exact) {hdr : TcpHeader} (payload : List UInt8)
    (hack : hdr.ack = c.rcvNxt) : (c.note (.sent hdr payload)).Exact :=
  ⟨each_append_singleton.2 ⟨h.acks, hack.trans h.next⟩, by
    rw [receiver_note]
    exact h.next⟩

variable {payload : List UInt8}

theorem exact_take (hacks : c.AcksExact)
    (hnext : c.rcvNxt + .ofNat payload.length = c.receiver.ack c.clientIss) :
    (c.take port key payload).Exact :=
  Exact.send (c := { c with rcvNxt := c.rcvNxt + .ofNat payload.length
                            rcvBuf := c.rcvBuf ++ payload }) ⟨hacks, hnext⟩ [] rfl

theorem Exact.respond (h : c.Exact) (response : HttpResponse) :
    (c.respond port key response).Exact :=
  Exact.send (c := { c with sndNxt := c.sndNxt + .ofNat response.toWire.length + 1
                            state := .lastAck }) ⟨h.acks, h.next⟩ _ rfl

theorem exact_close (hacks : c.AcksExact) (hnext : c.rcvNxt + 1 = c.receiver.ack c.clientIss) :
    (c.close port key).Exact :=
  Exact.send (c := { c with rcvNxt := c.rcvNxt + 1, sndNxt := c.sndNxt + 1, state := .lastAck })
    ⟨hacks, hnext⟩ [] rfl

variable {η : Type} (port key) (handler : Handler η) (x : η)

theorem exact_data (hacks : c.AcksExact)
    (hnext : c.rcvNxt + .ofNat payload.length = c.receiver.ack c.clientIss) :
    (c.data port key handler payload x).1.Exact := by
  unfold data
  split_ifs with hp
  · subst hp
    exact ⟨hacks, by simpa using hnext⟩
  · have htake : (c.take port key payload).Exact := exact_take hacks hnext
    unfold answer
    split
    · exact htake
    · exact htake.respond _
    · exact htake.respond _
    · next req _ =>
      have hserved : ((c.take port key payload).note (.served req)).Exact :=
        ⟨each_append_singleton.2 ⟨htake.acks, trivial⟩, by
          rw [receiver_note]
          exact htake.next⟩
      exact hserved.respond _

theorem receiver_data (payload : List UInt8) :
    (c.data port key handler payload x).1.receiver = c.receiver ∧
      (c.data port key handler payload x).1.clientIss = c.clientIss := by
  have htake : (c.take port key payload).receiver = c.receiver := receiver_note ..
  have hrespond : ∀ (d : Conn) response, (d.respond port key response).receiver = d.receiver :=
    fun d response => receiver_note ..
  unfold data
  split_ifs with hp
  · exact ⟨rfl, rfl⟩
  · unfold answer
    split
    · exact ⟨htake, rfl⟩
    · exact ⟨(hrespond _ _).trans htake, rfl⟩
    · exact ⟨(hrespond _ _).trans htake, rfl⟩
    · exact ⟨(hrespond _ _).trans ((receiver_note ..).trans htake), rfl⟩

theorem state_data (payload : List UInt8) :
    (c.data port key handler payload x).1.state = c.state ∨
      (c.data port key handler payload x).1.state = .lastAck := by
  unfold data
  split_ifs with hp
  · exact .inl rfl
  · unfold answer
    split
    · exact .inl rfl
    · exact .inr rfl
    · exact .inr rfl
    · exact .inr rfl

/-! ## What is received -/

def FinInPlace (c : Conn) (tcp : TcpHeader) (payload : List UInt8) : Prop :=
  tcp.isFin = true →
    match c.state with
    | .synReceived => tcp.isAck = true → tcp.ack = c.sndNxt → tcp.seq ≠ c.rcvNxt
    | .established => payload = [] ∧ tcp.seq = c.rcvNxt ∨
        payload ≠ [] ∧ tcp.seq ≠ c.rcvNxt ∧ tcp.seq + .ofNat payload.length ≠ c.rcvNxt
    | .lastAck => True

instance (c : Conn) (tcp : TcpHeader) (payload : List UInt8) :
    Decidable (c.FinInPlace tcp payload) := by
  unfold FinInPlace
  cases c.state <;> infer_instance

structure Tracked (c : Conn) : Prop where
  acks : c.AcksExact
  synReceived : c.state = .synReceived →
    c.receiver = .start ∧ c.rcvNxt = c.clientIss + 1 ∧ c.sndNxt = c.serverIss + 1
  established : c.state = .established →
    c.receiver.opened = true ∧ c.receiver.fin = false ∧ c.rcvNxt = c.receiver.position c.clientIss

theorem tracked_accept (iss : UInt32) (tcp : TcpHeader) : (accept port iss tcp).Tracked := by
  refine ⟨?_, fun _ => ⟨rfl, rfl, rfl⟩, nofun⟩
  refine each_append_singleton.2 ⟨nofun, ?_⟩
  change tcp.seq + 1 = tcp.seq + 1 + .ofNat 0 + 0
  simp

theorem tracked_data (hacks : c.AcksExact) (hstate : c.state = .established)
    (hopened : c.receiver.opened = true) (hfin : c.receiver.fin = false)
    (hnext : c.rcvNxt + .ofNat payload.length = c.receiver.position c.clientIss) :
    (c.data port key handler payload x).1.Tracked := by
  have hack : c.receiver.ack c.clientIss = c.receiver.position c.clientIss := by
    rw [Receiver.ack, hfin]
    simp
  have hexact : (c.data port key handler payload x).1.Exact :=
    exact_data port key handler x hacks (hnext.trans hack.symm)
  obtain ⟨hreceiver, hiss⟩ := receiver_data port key handler x payload
  refine ⟨hexact.acks, fun hs => ?_, fun _ => ?_⟩
  · obtain h | h := state_data port key handler x payload
    · rw [h, hstate] at hs
      cases hs
    · rw [h] at hs
      cases hs
  · rw [hreceiver]
    refine ⟨hopened, hfin, ?_⟩
    rw [hexact.next, hreceiver, hiss, hack]

variable {port key}

section Segments

variable {tcp : TcpHeader} {payload : List UInt8}

theorem receiver_received : (c.note (.received tcp payload)).receiver =
    if c.receiver.opened ∨ c.receiver.Completes c.clientIss c.serverIss tcp payload then
      c.receiver.accept c.clientIss tcp payload
    else c.receiver :=
  receiver_note ..

theorem Tracked.acks_received (h : c.Tracked) : (c.note (.received tcp payload)).AcksExact :=
  each_append_singleton.2 ⟨h.acks, trivial⟩

theorem Tracked.drop (h : c.Tracked) (hplace : c.FinInPlace tcp payload)
    (hwhy : (tcp.seq ≠ c.rcvNxt ∧ payload ≠ []) ∨
      (c.state = .synReceived ∧ ¬ (tcp.isAck = true ∧ tcp.ack = c.sndNxt)) ∨ c.state = .lastAck) :
    (c.note (.received tcp payload)).Tracked := by
  refine ⟨h.acks_received, fun hstate => ?_, fun hstate => ?_⟩ <;> rw [note_state] at hstate
  · obtain ⟨hstart, hrcv, hsnd⟩ := h.synReceived hstate
    rw [receiver_received, if_neg, hstart]
    · exact ⟨rfl, hrcv, hsnd⟩
    · rw [hstart]
      rintro (hopened | ⟨hack, hack', hseq⟩)
      · cases hopened
      · rw [Receiver.position_start, ← hrcv] at hseq
        obtain hout | ⟨-, hno⟩ | hlast := hwhy
        · exact hout.1 (hseq hout.2)
        · exact hno ⟨hack, hack'.trans hsnd.symm⟩
        · exact TcpState.noConfusion (hstate.symm.trans hlast)
  · obtain ⟨hopened, hnofin, hrcv⟩ := h.established hstate
    obtain hout | ⟨hsyn, -⟩ | hlast := hwhy
    · rw [receiver_received, hopened,
        Receiver.accept_outOfOrder hnofin (hrcv ▸ hout.1)]
      refine ⟨rfl, ?_, hrcv⟩
      cases hfin : tcp.isFin with
      | false => rfl
      | true =>
        have := hplace hfin
        rw [hstate] at this
        obtain ⟨hp, -⟩ | ⟨-, -, hend⟩ := this
        · exact absurd hp hout.2
        · simpa [← hrcv] using hend
    · exact TcpState.noConfusion (hstate.symm.trans hsyn)
    · exact TcpState.noConfusion (hstate.symm.trans hlast)

theorem Tracked.receive {c' : Conn} (h : c.Tracked) (hplace : c.FinInPlace tcp payload)
    (hc' : (c.receive port key handler tcp payload x).1 = some c') : c'.Tracked := by
  have hacks : (c.note (.received tcp payload)).AcksExact := h.acks_received
  have hreceiver := @receiver_received c tcp payload
  cases receives_of_receive hc' with
  | drop hwhy => exact h.drop hplace hwhy
  | establish hstate hack hseq =>
    obtain ⟨hstart, hrcv, hsnd⟩ := h.synReceived hstate
    have hseq' : payload ≠ [] → tcp.seq = Receiver.start.position c.clientIss := fun hp => by
      rw [Receiver.position_start, ← hrcv]
      exact hseq hp
    rw [hstart, if_pos (.inr ⟨hack.1, hack.2.trans hsnd, hseq'⟩),
      Receiver.accept_inOrder rfl hseq'] at hreceiver
    have hfin : (tcp.isFin && tcp.seq + .ofNat payload.length ==
        c.clientIss + 1 + .ofNat (Receiver.start.bytes + payload.length)) = false := by
      cases hfin : tcp.isFin with
      | false => rfl
      | true =>
        have hne := hplace hfin
        rw [hstate] at hne
        have hp : payload = [] := by
          by_contra hp
          exact hne hack.1 hack.2 (hseq hp)
        simpa [Receiver.start, ← hrcv] using hne hack.1 hack.2
    rw [hfin] at hreceiver
    refine tracked_data port key handler x hacks rfl (congrArg Receiver.opened hreceiver)
      (congrArg Receiver.fin hreceiver) ?_
    change c.rcvNxt + .ofNat payload.length =
      (c.note (.received tcp payload)).receiver.position c.clientIss
    rw [hreceiver, Receiver.position, hrcv]
    simp [Receiver.start]
  | keep hstate hseq hfin =>
    obtain ⟨hopened, hnofin, hrcv⟩ := h.established hstate
    rw [hopened, if_pos (.inl rfl), Receiver.accept_inOrder hnofin fun hp => (hseq hp).trans hrcv,
      hfin, Bool.false_and] at hreceiver
    refine tracked_data port key handler x hacks hstate (by rw [hreceiver]) (by rw [hreceiver]) ?_
    rw [hreceiver, Receiver.position, UInt32.ofNat_add, ← UInt32.add_assoc]
    exact congrArg (· + UInt32.ofNat payload.length) hrcv
  | close hstate hseq hfin =>
    obtain ⟨hopened, hnofin, hrcv⟩ := h.established hstate
    have hempty : payload = [] ∧ tcp.seq = c.rcvNxt := by
      have := hplace hfin
      rw [hstate] at this
      obtain hempty | ⟨hp, hne, -⟩ := this
      · exact hempty
      · exact absurd (hseq hp) hne
    obtain ⟨rfl, hpos⟩ := hempty
    rw [hopened, Receiver.accept_inOrder hnofin nofun, hfin,
      hpos] at hreceiver
    refine ⟨(exact_close hacks ?_).acks, nofun, nofun⟩
    change c.rcvNxt + 1 = (c.note (.received tcp [])).receiver.ack c.clientIss
    rw [hreceiver, hrcv]
    simp [Receiver.ack, Receiver.position]

end Segments

end Conn

namespace Session

variable {Value : Type} {checks : Bool} {ext : External Value} {mmds : Mmds Value}
  {tokens : TokenStore} {es : List Event} {t : Session Value}

def FinInPlace (s : Session Value) (e : Event) : Prop :=
  ∀ r, s.received e = some r → r.1.FinInPlace r.2.hdr r.2.payload

instance (s : Session Value) (e : Event) : Decidable (s.FinInPlace e) :=
  decidable_of_iff ((s.received e).all (fun r => r.1.FinInPlace r.2.hdr r.2.payload) = true) <| by
    simp only [FinInPlace, Option.all_eq_true, decide_eq_true_eq]

/-- **What the server acknowledges on its connections.** -/
theorem acks_exact (hplace : Along (step checks ext) FinInPlace es (start mmds tokens))
    (hrun : run (step checks ext) es (start mmds tokens) = some t) : Flows Conn.AcksExact t := by
  have htracked : Flows Conn.Tracked t := by
    refine invariant (fun s e t hs hC h => ?_) hplace (flows_start _ mmds tokens) hrun
    exact flows_step h hs Conn.tracked_accept
      fun handler port x c c' a hr hc hc' => hc.receive handler x (hC _ hr) hc'
  exact fun key c hc => (htracked key c hc).acks

end Session

section Scenario

open Session

def finAt (seq : UInt32) : List Event :=
  [.frame stillEnv (guestFrame 99 0 TCP_SYN []),
    .frame stillEnv (guestFrame 100 0x40000001 TCP_ACK []),
    .frame stillEnv (guestFrame 100 0x40000001 TCP_ACK (Text.bytes "GET /")),
    .frame stillEnv (guestFrame seq 0x40000001 (TCP_ACK ||| TCP_FIN) [])]

theorem acks_exact_finAt :
    ∃ t, run (step true unitExternal) (finAt 105) (start unitStore .new) = some t ∧
      Flows Conn.AcksExact t := by
  have hsome : (run (step true unitExternal) (finAt 105) (start unitStore .new)).isSome := by
    decide +kernel
  obtain ⟨t, ht⟩ := Option.isSome_iff_exists.1 hsome
  exact ⟨t, ht, acks_exact (by decide +kernel) ht⟩

/-- The bytes between 105 and 200 are missing, and the FIN is acknowledged as if it were next. -/
theorem missing_bytes_acknowledged :
    ∃ t, run (step true unitExternal) (finAt 200) (start unitStore .new) = some t ∧
      ¬ Flows Conn.AcksExact t := by
  obtain ⟨t, ht, c, hc, hacks⟩ : ∃ t ∈ run (step true unitExternal) (finAt 200)
      (start unitStore .new), ∃ c ∈ t.endpoint.flow ⟨guestIp, guestPort⟩, ¬ c.AcksExact := by
    decide +kernel
  exact ⟨t, ht, fun hall => hacks (hall _ c hc)⟩

end Scenario

end Squib.Metadata
