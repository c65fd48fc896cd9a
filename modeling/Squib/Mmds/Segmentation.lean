import Squib.Mmds.Session

/-!
# A request cut into segments
-/

namespace Squib.Metadata

open Checked Run

/-! ## The parser on longer and longer buffers -/

section Parser

variable {needle buf more : List UInt8}

theorem isPrefixOf_append (h : needle.length ≤ buf.length) :
    needle.isPrefixOf (buf ++ more) = needle.isPrefixOf buf := by
  rw [Bool.eq_iff_iff, List.isPrefixOf_iff_prefix, List.isPrefixOf_iff_prefix]
  exact ⟨fun hp => List.prefix_of_prefix_length_le hp (List.prefix_append buf more) h,
    fun hp => hp.trans (List.prefix_append buf more)⟩

theorem findSubsequence_append : ∀ {buf : List UInt8} {i : ℕ},
    findSubsequence needle buf = some i → findSubsequence needle (buf ++ more) = some i
  | [], i, h => by cases h
  | a :: rest, i, h => by
    have hlen : needle.length ≤ (a :: rest).length :=
      (Nat.le_add_left _ i).trans (findSubsequence_add_le h)
    have hstarts : needle.isPrefixOf (a :: rest ++ more) = needle.isPrefixOf (a :: rest) :=
      isPrefixOf_append hlen
    rw [List.cons_append] at hstarts ⊢
    rw [findSubsequence] at h ⊢
    rw [hstarts]
    split_ifs at h ⊢
    · exact h
    · obtain ⟨j, hj, rfl⟩ := Option.map_eq_some_iff.1 h
      rw [findSubsequence_append hj]
      rfl

theorem requestEnd_append {n : ℕ} (h : requestEnd buf = some n) :
    requestEnd (buf ++ more) = some n := by
  obtain ⟨headerEnd, hfound, hn⟩ := Option.bind_eq_some_iff.1 h
  have hle : headerEnd + 4 ≤ buf.length := findSubsequence_add_le hfound
  rw [requestEnd, findSubsequence_append hfound, Option.bind_some,
    List.take_append_of_le_length (by omega)]
  exact hn

theorem parseHttp_append (hlen : (buf ++ more).length ≤ MAX_REQUEST_BYTES)
    (h : parseHttp buf ≠ .incomplete) : parseHttp (buf ++ more) = parseHttp buf := by
  have hlen' : ¬ buf.length > MAX_REQUEST_BYTES := by
    rw [List.length_append] at hlen
    omega
  unfold parseHttp at h ⊢
  rw [if_neg hlen'] at h ⊢
  rw [if_neg (by omega)]
  cases hfound : findSubsequence crlfCrlf buf with
  | none =>
    rw [hfound] at h
    exact absurd rfl h
  | some headerEnd =>
    have hle : headerEnd + 4 ≤ buf.length := findSubsequence_add_le hfound
    rw [hfound] at h
    rw [findSubsequence_append hfound]
    dsimp only at h ⊢
    rw [List.take_append_of_le_length (show headerEnd ≤ buf.length by omega)]
    cases hhead : readHead (buf.take headerEnd) with
    | none => rfl
    | some head =>
      obtain ⟨method, path, headers⟩ := head
      rw [hhead] at h
      dsimp only at h ⊢
      by_cases hlarge : headerEnd + 4 + headers.contentLength > MAX_REQUEST_BYTES
      · rw [if_pos hlarge, if_pos hlarge]
      · rw [if_neg hlarge] at h ⊢
        by_cases hshort : buf.length < headerEnd + 4 + headers.contentLength
        · rw [if_pos hshort] at h
          exact absurd rfl h
        · have hmore : ¬ (buf ++ more).length < headerEnd + 4 + headers.contentLength := by
            rw [List.length_append]
            omega
          rw [if_neg hshort, if_neg hmore, if_neg hlarge, List.drop_append_of_le_length hle,
            List.take_append_of_le_length (by rw [List.length_drop]; omega)]

end Parser

/-! ## What the server answers -/

section Reply

variable {η : Type} (handler : Handler η)

def responseTo (outcome : HttpParseOutcome) (h : η) : List UInt8 × η :=
  match outcome with
  | .incomplete => ([], h)
  | .malformed => (TcpServer.malformedRequest.toWire, h)
  | .tooLarge => (TcpServer.requestTooLarge.toWire, h)
  | .complete req => ((handler req h).1.toWire, (handler req h).2)

variable (port : UInt16) (key : ConnKey) (c : Conn) (h : η)

theorem Conn.output_answer :
    (c.answer port key handler h).1.output =
        c.output ++ (responseTo handler (parseHttp c.rcvBuf) h).1 ∧
      (c.answer port key handler h).2 = (responseTo handler (parseHttp c.rcvBuf) h).2 := by
  have hrespond : ∀ (d : Conn) response,
      (d.respond port key response).output = d.output ++ response.toWire :=
    fun d response => output_note ..
  unfold answer responseTo
  cases parseHttp c.rcvBuf with
  | incomplete => exact ⟨(List.append_nil _).symm, rfl⟩
  | malformed | tooLarge => exact ⟨hrespond .., rfl⟩
  | complete req =>
    refine ⟨(hrespond ..).trans ?_, rfl⟩
    rw [output_note]
    simp [Happening.sentBytes]

theorem Conn.state_answer (hdec : parseHttp c.rcvBuf ≠ .incomplete) :
    (c.answer port key handler h).1.state = .lastAck := by
  unfold answer
  cases hparse : parseHttp c.rcvBuf with
  | incomplete => exact absurd hparse hdec
  | malformed | tooLarge | complete req => rfl

theorem Conn.receive_lastAck {c : Conn} (hstate : c.state = .lastAck) (tcp : TcpHeader)
    (payload : List UInt8) :
    c.receive port key handler tcp payload h = (some (c.note (.received tcp payload)), h) ∨
      c.receive port key handler tcp payload h = (none, h) := by
  have hstate' : (c.note (.received tcp payload)).state = .lastAck := hstate
  unfold receive
  dsimp only
  rw [hstate']
  dsimp only
  split_ifs
  · exact .inl rfl
  · exact .inr rfl
  · exact .inl rfl

theorem Conn.receive_inOrder {c : Conn} {tcp : TcpHeader} {payload : List UInt8}
    (hstate : c.state = .established) (hseq : tcp.seq = c.rcvNxt) (hfin : tcp.isFin = false)
    (hp : payload ≠ []) :
    c.receive port key handler tcp payload h =
      (some (((c.note (.received tcp payload)).take port key payload).answer port key handler h).1,
        (((c.note (.received tcp payload)).take port key payload).answer port key handler h).2) := by
  have hstate' : (c.note (.received tcp payload)).state = .established := hstate
  have hseq' : tcp.seq = (c.note (.received tcp payload)).rcvNxt := hseq
  unfold receive
  rw [if_neg fun hout => hout.1 hseq', hstate', hfin]
  dsimp only
  rw [data, if_neg hp, if_neg Bool.false_ne_true]

end Reply

/-! ## The segments of a request -/

namespace TcpServer

variable {η : Type} (checks : Bool) (handler : Handler η) (key : ConnKey)

def feed : List (TcpHeader × List UInt8) → TcpServer → η → Except Crash (TcpServer × η)
  | [], s, h => .ok (s, h)
  | (tcp, payload) :: segs, s, h => do
    let (s, h) ← s.dispatch checks handler key tcp payload h
    feed segs s h

def InOrder : UInt32 → List (TcpHeader × List UInt8) → Prop
  | _, [] => True
  | seq, (tcp, payload) :: segs =>
    (tcp.seq = seq ∧ payload ≠ [] ∧ tcp.isRst = false ∧ ¬ Flow.Opens tcp ∧ tcp.isFin = false) ∧
      InOrder (seq + .ofNat payload.length) segs

def Done (s : TcpServer) : Prop := ∀ c, s.conns.lookup key = some c → c.state = .lastAck

variable {checks handler key} {s : TcpServer} {h : η} {c : Conn}

theorem dispatch_done {tcp : TcpHeader} {payload : List UInt8} (hdone : s.Done key)
    (hrst : tcp.isRst = false) (hopen : ¬ Flow.Opens tcp) :
    ∃ t, s.dispatch checks handler key tcp payload h = .ok (t, h) ∧ t.Done key ∧
      t.emitted = s.emitted := by
  cases hc : s.conns.lookup key with
  | none =>
    rw [dispatch_unknown checks handler h hrst hopen hc]
    refine ⟨_, rfl, ?_, by rw [emitted_push, List.append_nil]⟩
    intro c hc'
    cases hc.symm.trans hc'
  | some c =>
    have hstate := hdone c hc
    have hnot : ¬ c.Takes tcp payload := fun htakes => by
      have := htakes.2.2
      simp [hstate] at this
    obtain ⟨t, ht, hact⟩ := dispatch_conn checks handler h hrst hopen hc fun ho => hnot ho.1
    refine ⟨t, ?_⟩
    obtain hrecv | hrecv := Conn.receive_lastAck handler s.serverPort key h hstate tcp payload
    · rw [hrecv] at ht hact
      refine ⟨ht, fun c' hc' => ?_, ?_⟩
      · cases hact.lookup.symm.trans hc'
        exact hstate
      · exact (hact.emitted_eq (Conn.output_note ..)).trans (List.append_nil _)
    · rw [hrecv] at ht hact
      refine ⟨ht, fun c' hc' => ?_, by rw [hact]; rfl⟩
      rw [hact] at hc'
      cases (AList.lookup_erase key _).symm.trans hc'

variable {segs : List (TcpHeader × List UInt8)}

theorem feed_done : ∀ {seq : UInt32} {s : TcpServer},
    InOrder seq segs → s.Done key →
      ∃ t, feed checks handler key segs s h = .ok (t, h) ∧ t.emitted = s.emitted := by
  induction segs with
  | nil => exact fun _ _ => ⟨_, rfl, rfl⟩
  | cons seg segs ih =>
    obtain ⟨tcp, payload⟩ := seg
    rintro seq s ⟨⟨-, -, hrst, hopen, -⟩, hsegs⟩ hdone
    obtain ⟨t, ht, hdone', hemit⟩ : ∃ t, s.dispatch checks handler key tcp payload h = .ok (t, h) ∧
      t.Done key ∧ t.emitted = s.emitted := dispatch_done hdone hrst hopen
    obtain ⟨u, hu, hemit'⟩ := ih hsegs hdone'
    refine ⟨u, ?_, hemit'.trans hemit⟩
    rw [feed, ht]
    exact hu

theorem feed_eq :
    ∀ {s : TcpServer} {c : Conn} {r : List UInt8},
    s.conns.lookup key = some c → c.state = .established → parseHttp c.rcvBuf = .incomplete →
      InOrder c.rcvNxt segs → r = c.rcvBuf ++ segs.flatMap Prod.snd →
      r.length ≤ MAX_REQUEST_BYTES → ¬ LengthOverflow r →
      ∃ t, feed checks handler key segs s h = .ok (t, (responseTo handler (parseHttp r) h).2) ∧
        t.emitted = s.emitted ++ (responseTo handler (parseHttp r) h).1 := by
  induction segs with
  | nil =>
    intro s c r _ _ hparse _ hr _ _
    rw [List.flatMap_nil, List.append_nil] at hr
    rw [hr, hparse]
    exact ⟨s, rfl, (List.append_nil _).symm⟩
  | cons seg segs ih =>
    obtain ⟨tcp, payload⟩ := seg
    rintro s c r hc hstate hparse ⟨⟨hseq, hp, hrst, hopen, hfin⟩, hsegs⟩ hr hlen hover
    rw [List.flatMap_cons, ← List.append_assoc] at hr
    have hfit : ¬ LengthOverflow (c.rcvBuf ++ payload) := fun hoverflow => by
      obtain ⟨n, hn, hlarge⟩ := (Option.any_eq_true _ _).1 hoverflow.2
      refine hover ⟨hlen, ?_⟩
      rw [hr, requestEnd_append hn]
      exact hlarge
    obtain ⟨t, ht, hact⟩ := dispatch_conn checks handler h hrst hopen hc fun ho => hfit ho.2
    rw [Conn.receive_inOrder handler s.serverPort key h hstate hseq hfin hp] at ht hact
    have hbuf : ((c.note (.received tcp payload)).take s.serverPort key payload).rcvBuf =
        c.rcvBuf ++ payload := rfl
    have hout : ((c.note (.received tcp payload)).take s.serverPort key payload).output =
        c.output := by
      simp [Conn.output, Happening.sentBytes]
    obtain ⟨hanswer, hstate'⟩ := Conn.output_answer handler s.serverPort key
      ((c.note (.received tcp payload)).take s.serverPort key payload) h
    rw [hbuf, hout] at hanswer
    rw [hbuf] at hstate'
    have hemit := hact.emitted_eq hanswer
    rw [hstate'] at ht
    rw [feed, ht]
    by_cases hinc : parseHttp (c.rcvBuf ++ payload) = .incomplete
    · -- the connection waits for more
      have hwait : ((c.note (.received tcp payload)).take s.serverPort key payload).answer
          s.serverPort key handler h =
          ((c.note (.received tcp payload)).take s.serverPort key payload, h) := by
        rw [Conn.answer, hbuf, hinc]
      rw [hwait] at hact
      rw [hinc] at hemit ⊢
      obtain ⟨u, hu, hemit'⟩ := ih hact.lookup hstate hinc hsegs hr hlen hover
      refine ⟨u, hu, ?_⟩
      rw [hemit', hemit]
      simp [responseTo]
    · -- the rest of the request is ignored
      have hstable : parseHttp r = parseHttp (c.rcvBuf ++ payload) := by
        rw [hr] at hlen ⊢
        exact parseHttp_append hlen hinc
      have hdone : t.Done key := fun c' hc' => by
        cases hact.lookup.symm.trans hc'
        exact Conn.state_answer handler s.serverPort key _ h (hbuf ▸ hinc)
      obtain ⟨u, hu, hemit'⟩ : ∃ u, feed checks handler key segs t
          (responseTo handler (parseHttp (c.rcvBuf ++ payload)) h).2 = .ok (u, _) ∧
          u.emitted = t.emitted := feed_done hsegs hdone
      rw [hstable]
      exact ⟨u, hu, hemit'.trans hemit⟩

end TcpServer

/-! ## Calls of the handler -/

def Handler.recording {η : Type} (handler : Handler η) : Handler (List HttpRequest × η) :=
  fun req (calls, h) => ((handler req h).1, (calls ++ [req], (handler req h).2))

def Happening.isServed : Happening → Bool
  | .served _ => true
  | _ => false

namespace Conn

structure ServedOnce (c : Conn) : Prop where
  once : c.log.countP Happening.isServed ≤ 1
  closed : c.state ≠ .lastAck → c.log.countP Happening.isServed = 0

variable {c : Conn} {port : UInt16} {key : ConnKey} {η : Type} (handler : Handler η) (x : η)

theorem ServedOnce.data (payload : List UInt8) (h : c.log.countP Happening.isServed = 0) :
    (c.data port key handler payload x).1.ServedOnce := by
  unfold Conn.data
  split_ifs with hp
  · exact ⟨(Nat.le_of_eq h).trans (Nat.zero_le 1), fun _ => h⟩
  · have htake : (c.take port key payload).log.countP Happening.isServed = 0 := by
      simp [h, Happening.isServed]
    unfold Conn.answer
    split
    · exact ⟨(Nat.le_of_eq htake).trans (Nat.zero_le 1), fun _ => htake⟩
    · exact ⟨by simp [h, Happening.isServed], fun hs => absurd rfl hs⟩
    · exact ⟨by simp [h, Happening.isServed], fun hs => absurd rfl hs⟩
    · exact ⟨by simp [h, Happening.isServed, List.countP_cons], fun hs => absurd rfl hs⟩

theorem ServedOnce.receive {c' : Conn} {tcp : TcpHeader} {payload : List UInt8} (h : c.ServedOnce)
    (hc' : (c.receive port key handler tcp payload x).1 = some c') : c'.ServedOnce := by
  have hnote : (c.note (.received tcp payload)).log.countP Happening.isServed =
      c.log.countP Happening.isServed := by
    simp [Happening.isServed]
  cases receives_of_receive hc' with
  | drop _ => exact ⟨hnote ▸ h.once, fun hs => hnote.trans (h.closed hs)⟩
  | establish hstate hack hseq | keep hstate hseq hfin =>
    exact ServedOnce.data handler x payload (hnote.trans (h.closed (by simp [hstate])))
  | close hstate hseq hfin =>
    have hdata : (Conn.data port key handler _ payload x).1.ServedOnce :=
      ServedOnce.data handler x payload (hnote.trans (h.closed (by simp [hstate])))
    exact ⟨by simpa [Happening.isServed] using hdata.once, fun hs => absurd rfl hs⟩

end Conn

theorem served_once_however_cut {η Value : Type} (checks : Bool) (handler : Handler η)
    (ext : External Value) :
    (∀ (s : TcpServer) (key : ConnKey) (c : Conn) (h : η) (r : List UInt8) (whole : TcpHeader)
      (segs : List (TcpHeader × List UInt8)),
      s.conns.lookup key = some c → c.state = .established → c.rcvBuf = [] →
      r.length ≤ MAX_REQUEST_BYTES → (∀ n, requestEnd r = some n → n < 2 ^ 64) →
      TcpServer.InOrder c.rcvNxt [(whole, r)] →
      TcpServer.InOrder c.rcvNxt segs → segs.flatMap Prod.snd = r →
      ∃ t t' calls h',
        TcpServer.feed checks handler.recording key [(whole, r)] s ([], h) = .ok (t, (calls, h')) ∧
        TcpServer.feed checks handler.recording key segs s ([], h) = .ok (t', (calls, h')) ∧
        calls.length ≤ 1 ∧ t'.emitted = t.emitted) ∧
    (∀ (mmds : Mmds Value) (tokens : TokenStore) (es : List Event) (t : Session Value),
      run (Session.step checks ext) es (Session.start mmds tokens) = some t →
      Session.Flows (fun c => c.log.countP Happening.isServed ≤ 1) t) := by
  constructor
  · intro s key c h r whole segs hc hstate hbuf hlen hend hwhole hsegs hr
    have hover : ¬ LengthOverflow r := fun hover => by
      obtain ⟨n, hn, hlarge⟩ := (Option.any_eq_true _ _).1 hover.2
      exact absurd (hend n hn) (Nat.not_lt.2 (of_decide_eq_true hlarge))
    have hparse : parseHttp c.rcvBuf = .incomplete := by
      rw [hbuf]
      rfl
    -- both runs answer what the parser makes of the whole request
    have hfeed : ∀ segs, TcpServer.InOrder c.rcvNxt segs → segs.flatMap Prod.snd = r →
        ∃ t, TcpServer.feed checks handler.recording key segs s ([], h) =
            .ok (t, (responseTo handler.recording (parseHttp r) ([], h)).2) ∧
          t.emitted = s.emitted ++ (responseTo handler.recording (parseHttp r) ([], h)).1 := by
      intro segs hsegs hr
      exact TcpServer.feed_eq hc hstate hparse hsegs (by simp [hbuf, hr]) hlen hover
    obtain ⟨t, ht, hemit⟩ := hfeed [(whole, r)] hwhole (by simp)
    obtain ⟨t', ht', hemit'⟩ := hfeed segs hsegs hr
    refine ⟨t, t', _, _, ht, ht', ?_, hemit'.trans hemit.symm⟩
    cases parseHttp r <;> simp [responseTo, Handler.recording]
  · intro mmds tokens es t hrun
    have honce : Session.Flows Conn.ServedOnce t := by
      refine invariant_of_step (fun s e t hs h => ?_) (Session.flows_start _ mmds tokens) hrun
      refine Session.flows_step h hs (fun port iss tcp => ?_)
        fun handler port x c c' a _ hc hc' => hc.receive handler x hc'
      exact ⟨Nat.zero_le 1, fun _ => rfl⟩
    exact fun key c hc => (honce key c hc).once

section Scenario

def oneConn : TcpServer :=
  (TcpServer.new MMDS_DEFAULT_IPV4 80).put ⟨guestIp, guestPort⟩
    { Conn.fresh 99 0x40000000 with state := .established }

def dataSegment (seq : UInt32) (text : String) : TcpHeader × List UInt8 :=
  (TcpHeader.build guestPort 80 seq 0x40000001 TCP_ACK 0xFFFF, Text.bytes text)

theorem served_once_in_two_segments :
    ∃ t t' calls h',
      TcpServer.feed true (Handler.recording fun _ n => ({ status := 200, body := [] }, n + 1))
        ⟨guestIp, guestPort⟩ [dataSegment 100 "GET / HTTP/1.1\r\n\r\n"] oneConn ([], 0) =
          .ok (t, (calls, h')) ∧
      TcpServer.feed true (Handler.recording fun _ n => ({ status := 200, body := [] }, n + 1))
        ⟨guestIp, guestPort⟩ [dataSegment 100 "GET / HTTP/1.1", dataSegment 114 "\r\n\r\n"] oneConn
          ([], 0) = .ok (t', (calls, h')) ∧
      calls.length ≤ 1 ∧ t'.emitted = t.emitted := by
  have hend : requestEnd (Text.bytes "GET / HTTP/1.1\r\n\r\n") = some 18 := by decide +kernel
  refine (served_once_however_cut true (fun _ n => ({ status := 200, body := [] }, n + 1))
    unitExternal).1 oneConn _ { Conn.fresh 99 0x40000000 with state := .established } 0
    (Text.bytes "GET / HTTP/1.1\r\n\r\n") (dataSegment 100 "").1
    [dataSegment 100 "GET / HTTP/1.1", dataSegment 114 "\r\n\r\n"] (AList.lookup_insert _) rfl rfl
    (by decide +kernel) (fun n hn => ?_) ?_ ?_ (by decide +kernel)
  · cases hend.symm.trans hn
    decide
  · exact ⟨⟨rfl, by decide +kernel, by decide, by decide, by decide⟩, trivial⟩
  · exact ⟨⟨rfl, by decide +kernel, by decide, by decide, by decide⟩,
      ⟨by decide +kernel, by decide +kernel, by decide, by decide, by decide⟩, trivial⟩

end Scenario

end Squib.Metadata
