import Squib.Mmds.Session

/-!
# The sequence numbers of the server
-/

namespace Squib.Metadata

open Run

/-! ## The two properties -/

def Happening.sentFin : Happening → Bool
  | .sent hdr _ => hdr.isFin
  | _ => false

def Happening.Silent : Happening → Prop
  | .sent _ _ => False
  | _ => True

def finSent (log : List Happening) : Bool := log.any Happening.sentFin

def sendPosition (iss : UInt32) (log : List Happening) : UInt32 :=
  iss + 1 + .ofNat (log.flatMap Happening.sentBytes).length + if finSent log then 1 else 0

def AtPosition (iss : UInt32) (before : List Happening) : Happening → Prop
  | .sent hdr _ => before ≠ [] → hdr.seq = sendPosition iss before
  | _ => True

def BehindFin (before : List Happening) : Happening → Prop
  | .sent hdr payload => finSent before = true → hdr.isFin = false ∧ payload = []
  | _ => True

instance (iss : UInt32) (before : List Happening) (x : Happening) :
    Decidable (AtPosition iss before x) :=
  match x with
  | .sent hdr _ => inferInstanceAs (Decidable (before ≠ [] → hdr.seq = sendPosition iss before))
  | .received _ _ | .served _ => .isTrue trivial

instance (before : List Happening) (x : Happening) : Decidable (BehindFin before x) :=
  match x with
  | .sent hdr payload =>
    inferInstanceAs (Decidable (finSent before = true → hdr.isFin = false ∧ payload = []))
  | .received _ _ | .served _ => .isTrue trivial

namespace Conn

def SeqNumbers (c : Conn) : Prop := Each (AtPosition c.serverIss) c.log

def OneFin (c : Conn) : Prop := Each BehindFin c.log

instance (c : Conn) : Decidable c.OneFin := by
  unfold OneFin
  infer_instance

end Conn

theorem finSent_append_singleton (log : List Happening) (x : Happening) :
    finSent (log ++ [x]) = (finSent log || x.sentFin) := by
  simp [finSent]

theorem sendPosition_append_singleton (iss : UInt32) (log : List Happening) (x : Happening) :
    sendPosition iss (log ++ [x]) = iss + 1 + .ofNat (log.flatMap Happening.sentBytes).length +
      .ofNat x.sentBytes.length + if finSent log || x.sentFin then 1 else 0 := by
  rw [sendPosition, finSent_append_singleton, List.flatMap_append, List.length_append,
    UInt32.ofNat_add, List.flatMap_singleton, ← UInt32.add_assoc (iss + 1)]

theorem sendPosition_of_empty {iss : UInt32} {log : List Happening} {x : Happening}
    (hbytes : x.sentBytes = []) (hfin : x.sentFin = false) :
    sendPosition iss (log ++ [x]) = sendPosition iss log := by
  rw [sendPosition_append_singleton, hbytes, hfin]
  simp [sendPosition]

namespace Happening.Silent

variable {x : Happening}

theorem sentBytes_eq (h : x.Silent) : x.sentBytes = [] := by cases x <;> trivial

theorem sentFin_eq (h : x.Silent) : x.sentFin = false := by cases x <;> trivial

theorem atPosition (h : x.Silent) (iss : UInt32) (log : List Happening) : AtPosition iss log x := by
  cases x <;> trivial

theorem behindFin (h : x.Silent) (log : List Happening) : BehindFin log x := by
  cases x <;> trivial

end Happening.Silent

namespace Conn

structure Numbered (c : Conn) : Prop where
  numbers : c.SeqNumbers
  started : c.log ≠ []
  next : c.sndNxt = sendPosition c.serverIss c.log

variable {c : Conn} {port : UInt16} {key : ConnKey}

theorem Numbered.note (h : c.Numbered) {x : Happening} (hx : x.Silent) : (c.note x).Numbered :=
  ⟨each_append_singleton.2 ⟨h.numbers, hx.atPosition _ _⟩, by simp,
    h.next.trans (sendPosition_of_empty hx.sentBytes_eq hx.sentFin_eq).symm⟩

variable {payload : List UInt8} {d c' : Conn} {hdr tcp : TcpHeader}

theorem Numbered.send (h : c.Numbered) (hlog : d.log = c.log ++ [.sent hdr payload])
    (hseq : hdr.seq = c.sndNxt) (hiss : d.serverIss = c.serverIss)
    (hnext : d.sndNxt = sendPosition d.serverIss d.log) : d.Numbered := by
  refine ⟨?_, by simp [hlog], hnext⟩
  rw [SeqNumbers, hlog, hiss]
  exact each_append_singleton.2 ⟨h.numbers, fun _ => hseq.trans h.next⟩

theorem isFin_build (port dstPort : UInt16) (seq ack : UInt32) (flags : UInt8) (window : UInt16) :
    (TcpHeader.build port dstPort seq ack flags window).isFin = (flags &&& TCP_FIN != 0) := rfl

theorem Numbered.take (h : c.Numbered) (payload : List UInt8) :
    (c.take port key payload).Numbered := by
  refine h.send take_log rfl rfl ?_
  rw [take_log, sendPosition_of_empty rfl (by rw [Happening.sentFin, isFin_build]; decide)]
  exact h.next

theorem Numbered.respond (h : c.Numbered) (hfin : finSent c.log = false) (response : HttpResponse) :
    (c.respond port key response).Numbered := by
  refine h.send respond_log rfl rfl ?_
  rw [respond_log, respond_sndNxt, sendPosition_append_singleton, h.next, sendPosition, hfin,
    Happening.sentFin, reply, isFin_build]
  have hflag : ((TCP_ACK ||| TCP_PSH ||| TCP_FIN) &&& TCP_FIN != 0) = true := by decide
  simp [hflag, Happening.sentBytes]

theorem Numbered.close (h : c.Numbered) : (c.close port key).SeqNumbers :=
  each_append_singleton.2 ⟨h.numbers, fun _ => h.next⟩

structure Orderly (c : Conn) : Prop where
  numbers : c.SeqNumbers
  started : c.log ≠ []
  next : c.state ≠ .lastAck → c.Numbered ∧ finSent c.log = false

theorem orderly_accept (iss : UInt32) (tcp : TcpHeader) : (accept port iss tcp).Orderly := by
  have hlog : (accept port iss tcp).log = [] ++ [.sent (TcpHeader.build port tcp.srcPort iss
    (tcp.seq + 1) (TCP_SYN ||| TCP_ACK) 0xFFFF) []] := rfl
  have hnumbers : (accept port iss tcp).SeqNumbers := by
    exact each_append_singleton.2 ⟨nofun, fun h => absurd rfl h⟩
  have hfin : finSent (accept port iss tcp).log = false := by
    rw [hlog, finSent_append_singleton, Happening.sentFin, isFin_build]
    decide
  refine ⟨hnumbers, by simp [hlog], fun _ => ⟨⟨hnumbers, by simp [hlog], ?_⟩, hfin⟩⟩
  have hnext : (accept port iss tcp).sndNxt = (accept port iss tcp).serverIss + 1 := rfl
  rw [sendPosition, hfin, hlog, hnext]
  simp [Happening.sentBytes]

theorem finSent_note {x : Happening} (hx : x.Silent) (h : finSent c.log = false) :
    finSent (c.note x).log = false := by
  rw [note_log, finSent_append_singleton, h, hx.sentFin_eq]
  rfl

theorem finSent_take (h : finSent c.log = false) (payload : List UInt8) :
    finSent (c.take port key payload).log = false := by
  rw [take_log, finSent_append_singleton, h, Happening.sentFin, isFin_build]
  decide

variable {η : Type} (handler : Handler η) (x : η)

theorem Numbered.data (h : c.Numbered) (hfin : finSent c.log = false) (payload : List UInt8) :
    (c.data port key handler payload x).1.Numbered := by
  unfold Conn.data
  split_ifs with hp
  · exact h
  · have htake : (c.take port key payload).Numbered := h.take payload
    have hfin' : finSent (c.take port key payload).log = false := finSent_take hfin payload
    unfold Conn.answer
    split
    · exact htake
    · exact htake.respond hfin' _
    · exact htake.respond hfin' _
    · next req _ =>
      have hserved : (Happening.served req).Silent := trivial
      exact (htake.note hserved).respond (finSent_note hserved hfin') _

theorem finSent_data (hfin : finSent c.log = false) (payload : List UInt8)
    (hstate : (c.data port key handler payload x).1.state ≠ .lastAck) :
    finSent (c.data port key handler payload x).1.log = false := by
  unfold Conn.data at hstate ⊢
  split_ifs at hstate ⊢ with hp
  · exact hfin
  · unfold Conn.answer at hstate ⊢
    split at hstate
    · exact finSent_take hfin payload
    · exact absurd rfl hstate
    · exact absurd rfl hstate
    · exact absurd rfl hstate

theorem Orderly.note (h : c.Orderly) {x : Happening} (hx : x.Silent) : (c.note x).Orderly :=
  ⟨each_append_singleton.2 ⟨h.numbers, hx.atPosition _ _⟩, by simp, fun hs =>
    ⟨(h.next hs).1.note hx, finSent_note hx (h.next hs).2⟩⟩

theorem Orderly.receive (h : c.Orderly)
    (hc' : (c.receive port key handler tcp payload x).1 = some c') : c'.Orderly := by
  have hnote : (c.note (.received tcp payload)).Orderly := h.note trivial
  -- what the data leaves behind is in order, if the connection is open
  have hdata : ∀ d : Conn, d.Numbered → finSent d.log = false →
      (d.data port key handler payload x).1.Orderly := fun d hd hfin =>
    ⟨(hd.data handler x hfin payload).numbers, (hd.data handler x hfin payload).started,
      fun hs => ⟨hd.data handler x hfin payload, finSent_data handler x hfin payload hs⟩⟩
  cases receives_of_receive hc' with
  | drop _ => exact hnote
  | establish hstate hack hseq =>
    obtain ⟨⟨hnumbers, hstarted, hnext⟩, hfin⟩ := hnote.next (by simp [hstate])
    exact hdata _ ⟨hnumbers, hstarted, hnext⟩ hfin
  | keep hstate hseq hfin =>
    obtain ⟨hnumbered, hfin⟩ := hnote.next (by simp [hstate])
    exact hdata _ hnumbered hfin
  | close hstate hseq hfin =>
    obtain ⟨hnumbered, hfin⟩ := hnote.next (by simp [hstate])
    exact ⟨(hnumbered.data handler x hfin payload).close, by simp, fun hs => absurd rfl hs⟩

/-! ### FIN -/

structure Open (c : Conn) : Prop where
  oneFin : c.OneFin
  fin : finSent c.log = false

theorem Open.send (h : c.Open) (hlog : d.log = c.log ++ [.sent hdr payload]) : d.OneFin := by
  rw [OneFin, hlog]
  refine each_append_singleton.2 ⟨h.oneFin, fun hfin => ?_⟩
  rw [h.fin] at hfin
  cases hfin

theorem Open.note (h : c.Open) {x : Happening} (hx : x.Silent) : (c.note x).Open :=
  ⟨each_append_singleton.2 ⟨h.oneFin, hx.behindFin _⟩, finSent_note hx h.fin⟩

theorem Open.take (h : c.Open) (payload : List UInt8) : (c.take port key payload).Open :=
  ⟨h.send take_log, finSent_take h.fin payload⟩

theorem Open.data (h : c.Open) (payload : List UInt8) :
    (c.data port key handler payload x).1.OneFin := by
  unfold Conn.data
  split_ifs with hp
  · exact h.oneFin
  · have htake : (c.take port key payload).Open := h.take payload
    unfold Conn.answer
    split
    · exact htake.oneFin
    · exact htake.send respond_log
    · exact htake.send respond_log
    · next req _ =>
      have hserved : ((c.take port key payload).note (.served req)).Open := htake.note trivial
      exact hserved.send respond_log

def Decides (c : Conn) (tcp : TcpHeader) (payload : List UInt8) : Prop :=
  c.Takes tcp payload ∧ parseHttp (c.rcvBuf ++ payload) ≠ .incomplete

instance (c : Conn) (tcp : TcpHeader) (payload : List UInt8) :
    Decidable (c.Decides tcp payload) := by
  unfold Decides
  infer_instance

theorem Open.data_of_incomplete (h : c.Open)
    (hdec : payload ≠ [] → parseHttp (c.rcvBuf ++ payload) = .incomplete) :
    (c.data port key handler payload x).1.Open := by
  unfold Conn.data
  split_ifs with hp
  · exact h
  · have hbuf : (c.take port key payload).rcvBuf = c.rcvBuf ++ payload := rfl
    rw [Conn.answer, hbuf, hdec hp]
    exact h.take payload

structure SingleFin (c : Conn) : Prop where
  oneFin : c.OneFin
  fin : c.state ≠ .lastAck → finSent c.log = false

theorem singleFin_accept (iss : UInt32) (tcp : TcpHeader) : (accept port iss tcp).SingleFin := by
  refine ⟨?_, fun hs => ((orderly_accept iss tcp).next hs).2⟩
  exact each_append_singleton.2 ⟨nofun, nofun⟩

theorem SingleFin.note (h : c.SingleFin) {x : Happening} (hx : x.Silent) : (c.note x).SingleFin :=
  ⟨each_append_singleton.2 ⟨h.oneFin, hx.behindFin _⟩, fun hs => finSent_note hx (h.fin hs)⟩

theorem SingleFin.receive (h : c.SingleFin)
    (hapart : c.state = .established → tcp.isFin = true → ¬ c.Decides tcp payload)
    (hc' : (c.receive port key handler tcp payload x).1 = some c') : c'.SingleFin := by
  have hnote : (c.note (.received tcp payload)).SingleFin := h.note trivial
  have hdata : ∀ d : Conn, d.Open → (d.data port key handler payload x).1.SingleFin := fun d hd =>
    ⟨hd.data handler x payload, finSent_data handler x hd.fin payload⟩
  cases receives_of_receive hc' with
  | drop _ => exact hnote
  | establish hstate hack hseq | keep hstate hseq hfin =>
    exact hdata _ ⟨hnote.oneFin, hnote.fin (by simp [hstate])⟩
  | close hstate hseq hfin =>
    have hopen : (c.note (.received tcp payload)).Open :=
      ⟨hnote.oneFin, hnote.fin (by simp [hstate])⟩
    refine ⟨(hopen.data_of_incomplete handler x fun hp => ?_).send close_log,
      fun hs => absurd rfl hs⟩
    by_contra hdec
    exact hapart hstate hfin ⟨⟨hp, hseq hp, .inl hstate⟩, hdec⟩

end Conn

namespace Session

variable {Value : Type} {checks : Bool} {ext : External Value} {mmds : Mmds Value}
  {tokens : TokenStore} {es : List Event} {t : Session Value}

def FinApart (s : Session Value) (e : Event) : Prop :=
  ∀ r, s.received e = some r → r.1.state = .established → r.2.hdr.isFin = true →
    ¬ r.1.Decides r.2.hdr r.2.payload

instance (s : Session Value) (e : Event) : Decidable (s.FinApart e) :=
  decidable_of_iff ((s.received e).all (fun r => r.1.state = .established → r.2.hdr.isFin = true →
    ¬ r.1.Decides r.2.hdr r.2.payload) = true) <| by
    simp only [FinApart, Option.all_eq_true, decide_eq_true_eq]

/-- **What the server sends on its connections.** -/
theorem sends_in_order (hrun : run (step checks ext) es (start mmds tokens) = some t) :
    Flows Conn.SeqNumbers t ∧
      (Along (step checks ext) FinApart es (start mmds tokens) → Flows Conn.OneFin t) := by
  constructor
  · have horderly : Flows Conn.Orderly t := by
      refine invariant_of_step (fun s e t hs h => ?_) (flows_start _ mmds tokens) hrun
      exact flows_step h hs (fun port iss tcp => Conn.orderly_accept iss tcp)
        fun handler port x c c' a _ hc hc' => hc.receive handler x hc'
    exact fun key c hc => (horderly key c hc).numbers
  · intro hapart
    have hsingle : Flows Conn.SingleFin t := by
      refine invariant (fun s e t hs hC h => ?_) hapart (flows_start _ mmds tokens) hrun
      exact flows_step h hs (fun port iss tcp => Conn.singleFin_accept iss tcp)
        fun handler port x c c' a hr hc hc' => hc.receive handler x (hC _ hr) hc'
    exact fun key c hc => (hsingle key c hc).oneFin

end Session

section Scenario

open Session

def askRoot (flags : UInt8) : List Event :=
  [.frame stillEnv (guestFrame 99 0 TCP_SYN []),
    .frame stillEnv (guestFrame 100 0x40000001 TCP_ACK []),
    .frame stillEnv (guestFrame 100 0x40000001 flags (Text.bytes "GET / HTTP/1.1\r\n\r\n"))]

theorem sends_in_order_askRoot :
    ∃ t, run (step true unitExternal) (askRoot TCP_ACK) (start unitStore .new) = some t ∧
      Flows Conn.SeqNumbers t ∧ Flows Conn.OneFin t := by
  have hsome : (run (step true unitExternal) (askRoot TCP_ACK) (start unitStore .new)).isSome := by
    decide +kernel
  obtain ⟨t, ht⟩ := Option.isSome_iff_exists.1 hsome
  exact ⟨t, ht, (sends_in_order ht).1, (sends_in_order ht).2 (by decide +kernel)⟩

/-- With FIN in the request, the server sends FIN twice. -/
theorem fin_sent_twice :
    ∃ t, run (step true unitExternal) (askRoot (TCP_ACK ||| TCP_FIN)) (start unitStore .new) =
        some t ∧
      ¬ Flows Conn.OneFin t := by
  obtain ⟨t, ht, c, hc, hfin⟩ : ∃ t ∈ run (step true unitExternal) (askRoot (TCP_ACK ||| TCP_FIN))
      (start unitStore .new), ∃ c ∈ t.endpoint.flow ⟨guestIp, guestPort⟩, ¬ c.OneFin := by
    decide +kernel
  exact ⟨t, ht, fun hall => hfin (hall _ c hc)⟩

end Scenario

end Squib.Metadata
