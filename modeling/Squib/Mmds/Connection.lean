import Squib.Mmds.Tcp

/-!
# One flow of the TCP server
-/

namespace Squib.Metadata

open Checked Internet

/-! ## The connection -/

def Happening.sentBytes : Happening → List UInt8
  | .sent _ payload => payload
  | _ => []

namespace Conn

def fresh (clientSeq serverIss : UInt32) : Conn where
  state := .synReceived
  sndNxt := serverIss + 1
  rcvNxt := clientSeq + 1
  rcvBuf := []
  clientIss := clientSeq
  serverIss := serverIss
  log := []

def accept (port : UInt16) (serverIss : UInt32) (tcp : TcpHeader) : Conn :=
  (fresh tcp.seq serverIss).note
    (.sent (TcpHeader.build port tcp.srcPort serverIss (tcp.seq + 1) (TCP_SYN ||| TCP_ACK) 0xFFFF)
      [])

section Parts

variable (port : UInt16) (key : ConnKey)

def reply (c : Conn) (flags : UInt8) : TcpHeader :=
  TcpHeader.build port key.srcPort c.sndNxt c.rcvNxt flags 0xFFFF

def take (c : Conn) (payload : List UInt8) : Conn :=
  let c : Conn :=
    { c with rcvNxt := c.rcvNxt + .ofNat payload.length, rcvBuf := c.rcvBuf ++ payload }
  c.note (.sent (c.reply port key TCP_ACK) [])

def respond (c : Conn) (response : HttpResponse) : Conn :=
  Conn.note { c with sndNxt := c.sndNxt + .ofNat response.toWire.length + 1, state := .lastAck }
    (.sent (c.reply port key (TCP_ACK ||| TCP_PSH ||| TCP_FIN)) response.toWire)

def close (c : Conn) : Conn :=
  let c : Conn := { c with rcvNxt := c.rcvNxt + 1 }
  Conn.note { c with sndNxt := c.sndNxt + 1, state := .lastAck }
    (.sent (c.reply port key (TCP_FIN ||| TCP_ACK)) [])

variable {η : Type} (handler : Handler η)

def answer (c : Conn) (h : η) : Conn × η :=
  match parseHttp c.rcvBuf with
  | .incomplete => (c, h)
  | .malformed => (c.respond port key TcpServer.malformedRequest, h)
  | .tooLarge => (c.respond port key TcpServer.requestTooLarge, h)
  | .complete req => ((c.note (.served req)).respond port key (handler req h).1, (handler req h).2)

def data (c : Conn) (payload : List UInt8) (h : η) : Conn × η :=
  if payload = [] then (c, h) else (c.take port key payload).answer port key handler h

def receive (c : Conn) (tcp : TcpHeader) (payload : List UInt8) (h : η) : Option Conn × η :=
  let c := c.note (.received tcp payload)
  if tcp.seq ≠ c.rcvNxt ∧ payload ≠ [] then (some c, h)
  else
    match c.state with
    | .synReceived =>
      if tcp.isAck ∧ tcp.ack = c.sndNxt then
        let (c, h) := Conn.data port key handler { c with state := .established } payload h
        (some c, h)
      else (some c, h)
    | .established =>
      let (c, h) := c.data port key handler payload h
      (some (if tcp.isFin then c.close port key else c), h)
    | .lastAck => if tcp.isAck ∧ tcp.ack = c.sndNxt then (none, h) else (some c, h)

end Parts

section Receives

variable (port : UInt16) (key : ConnKey) {η : Type} (handler : Handler η) (x : η) (c : Conn)
  (tcp : TcpHeader) (payload : List UInt8)

inductive Receives : Conn → Prop where
  | drop (hwhy : (tcp.seq ≠ c.rcvNxt ∧ payload ≠ []) ∨
        (c.state = .synReceived ∧ ¬ (tcp.isAck = true ∧ tcp.ack = c.sndNxt)) ∨ c.state = .lastAck) :
      Receives (c.note (.received tcp payload))
  | establish (hstate : c.state = .synReceived) (hack : tcp.isAck = true ∧ tcp.ack = c.sndNxt)
      (hseq : payload ≠ [] → tcp.seq = c.rcvNxt) :
      Receives (Conn.data port key handler
        { c.note (.received tcp payload) with state := .established } payload x).1
  | keep (hstate : c.state = .established) (hseq : payload ≠ [] → tcp.seq = c.rcvNxt)
      (hfin : tcp.isFin = false) :
      Receives ((c.note (.received tcp payload)).data port key handler payload x).1
  | close (hstate : c.state = .established) (hseq : payload ≠ [] → tcp.seq = c.rcvNxt)
      (hfin : tcp.isFin = true) :
      Receives (((c.note (.received tcp payload)).data port key handler payload x).1.close port key)

variable {port key handler x c tcp payload}

theorem receives_of_receive {c' : Conn}
    (h : (c.receive port key handler tcp payload x).1 = some c') :
    Receives port key handler x c tcp payload c' := by
  have hstate' : (c.note (.received tcp payload)).state = c.state := rfl
  unfold receive at h
  dsimp only at h
  by_cases hdrop : tcp.seq ≠ (c.note (.received tcp payload)).rcvNxt ∧ payload ≠ []
  · rw [if_pos hdrop] at h
    cases h
    exact .drop (.inl hdrop)
  · have hseq : payload ≠ [] → tcp.seq = c.rcvNxt := fun hp => by
      by_contra hne
      exact hdrop ⟨hne, hp⟩
    rw [if_neg hdrop, hstate'] at h
    cases hstate : c.state with
    | synReceived =>
      rw [hstate] at h
      by_cases hack : tcp.isAck = true ∧ tcp.ack = (c.note (.received tcp payload)).sndNxt
      · rw [if_pos hack] at h
        cases h
        exact .establish hstate hack hseq
      · rw [if_neg hack] at h
        cases h
        exact .drop (.inr (.inl ⟨hstate, hack⟩))
    | established =>
      rw [hstate] at h
      cases hfin : tcp.isFin with
      | true =>
        rw [hfin] at h
        cases h
        exact .close hstate hseq hfin
      | false =>
        rw [hfin] at h
        cases h
        exact .keep hstate hseq hfin
    | lastAck =>
      rw [hstate] at h
      dsimp only at h
      split_ifs at h
      cases h
      exact .drop (.inr (.inr hstate))

end Receives

section Fields

variable {port : UInt16} {key : ConnKey} {c : Conn} {payload : List UInt8} {response : HttpResponse}
  {x : Happening}

@[simp] theorem note_log : (c.note x).log = c.log ++ [x] := rfl

@[simp] theorem note_state : (c.note x).state = c.state := rfl

@[simp] theorem take_log : (c.take port key payload).log = c.log ++
    [.sent (TcpHeader.build port key.srcPort c.sndNxt (c.rcvNxt + .ofNat payload.length) TCP_ACK
      0xFFFF) []] := rfl

@[simp] theorem respond_log : (c.respond port key response).log = c.log ++
    [.sent (c.reply port key (TCP_ACK ||| TCP_PSH ||| TCP_FIN)) response.toWire] := rfl

@[simp] theorem respond_sndNxt : (c.respond port key response).sndNxt =
    c.sndNxt + .ofNat response.toWire.length + 1 := rfl

@[simp] theorem respond_serverIss : (c.respond port key response).serverIss = c.serverIss := rfl

@[simp] theorem close_log : (c.close port key).log = c.log ++
    [.sent (TcpHeader.build port key.srcPort c.sndNxt (c.rcvNxt + 1) (TCP_FIN ||| TCP_ACK) 0xFFFF)
      []] := rfl

end Fields

def Takes (c : Conn) (tcp : TcpHeader) (payload : List UInt8) : Prop :=
  payload ≠ [] ∧ tcp.seq = c.rcvNxt ∧
    (c.state = .established ∨ c.state = .synReceived ∧ tcp.isAck ∧ tcp.ack = c.sndNxt)

instance (c : Conn) (tcp : TcpHeader) (payload : List UInt8) : Decidable (c.Takes tcp payload) := by
  unfold Takes
  infer_instance

def output (c : Conn) : List UInt8 := c.log.flatMap Happening.sentBytes

theorem output_note (c : Conn) (x : Happening) : (c.note x).output = c.output ++ x.sentBytes := by
  simp [output]

variable {checks : Bool}

theorem addU32_one_eq {a : UInt32} (h : ¬ (checks = true ∧ a = 0xFFFFFFFF)) :
    addU32 checks a 1 = .ok (a + 1) := by
  rw [addU32, if_neg]
  rintro ⟨hchecks, hle⟩
  refine h ⟨hchecks, UInt32.toNat_inj.1 ?_⟩
  have := a.toNat_lt
  simp only [UInt32.reduceToNat] at hle ⊢
  omega

theorem addU32_max : addU32 true 0xFFFFFFFF 1 = .error .overflow := rfl

variable {clientSeq serverIss : UInt32}

theorem new_eq_ok (h : ¬ (checks = true ∧ (clientSeq = 0xFFFFFFFF ∨ serverIss = 0xFFFFFFFF))) :
    new checks clientSeq serverIss = .ok (fresh clientSeq serverIss) := by
  rw [new, addU32_one_eq fun h' => h ⟨h'.1, .inr h'.2⟩, addU32_one_eq fun h' => h ⟨h'.1, .inl h'.2⟩]
  rfl

theorem new_eq_error (h : checks = true ∧ (clientSeq = 0xFFFFFFFF ∨ serverIss = 0xFFFFFFFF)) :
    new checks clientSeq serverIss = .error .overflow := by
  obtain ⟨rfl, h⟩ := h
  by_cases hiss : serverIss = 0xFFFFFFFF
  · rw [hiss]
    rfl
  · rw [new, addU32_one_eq fun h' => hiss h'.2, h.resolve_right hiss]
    rfl

end Conn

/-! ## The table -/

def OutboundFrame.payload (f : OutboundFrame) : List UInt8 :=
  f.ethPayload.drop (IPV4_HDR_LEN + TCP_HDR_LEN)

namespace TcpServer

def emitted (s : TcpServer) : List UInt8 := s.outQueue.flatMap OutboundFrame.payload

theorem payload_buildOutbound (s : TcpServer) (tcp : TcpHeader) (dst : Ipv4Addr)
    (payload : List UInt8) : (s.buildOutbound tcp dst payload).1.payload = payload := rfl

theorem emitted_push (s : TcpServer) (tcp : TcpHeader) (dst : Ipv4Addr) (payload : List UInt8) :
    (s.push tcp dst payload).emitted = s.emitted ++ payload := by
  have h := s.payload_buildOutbound tcp dst payload
  simp only [emitted, push, List.flatMap_append, List.flatMap_cons, List.flatMap_nil,
    List.append_nil, h]
  rfl

structure Acts (s t : TcpServer) (key : ConnKey) (c c' : Conn) : Prop where
  conns : t.conns = s.conns.insert key c'
  serverPort : t.serverPort = s.serverPort
  serverIp : t.serverIp = s.serverIp
  nextIss : t.nextIss = s.nextIss
  sends : ∃ bytes, t.emitted = s.emitted ++ bytes ∧ c'.output = c.output ++ bytes

section Acts

variable {s t u : TcpServer} {key : ConnKey} {c c' c'' : Conn}

theorem Acts.lookup (h : Acts s t key c c') : t.conns.lookup key = some c' := by
  rw [h.conns, AList.lookup_insert]

theorem Acts.emitted_eq (h : Acts s t key c c') {bytes : List UInt8}
    (hbytes : c'.output = c.output ++ bytes) : t.emitted = s.emitted ++ bytes := by
  obtain ⟨bytes', hs, hc⟩ := h.sends
  rw [hs, List.append_cancel_left (hc.symm.trans hbytes)]

theorem Acts.trans (h₁ : Acts s t key c c') (h₂ : Acts t u key c' c'') : Acts s u key c c'' := by
  obtain ⟨bs₁, hs₁, hc₁⟩ := h₁.sends
  obtain ⟨bs₂, hs₂, hc₂⟩ := h₂.sends
  refine ⟨?_, h₂.serverPort.trans h₁.serverPort, h₂.serverIp.trans h₁.serverIp,
    h₂.nextIss.trans h₁.nextIss, bs₁ ++ bs₂, ?_, ?_⟩
  · rw [h₂.conns, h₁.conns, AList.insert_insert]
  · rw [hs₂, hs₁, List.append_assoc]
  · rw [hc₂, hc₁, List.append_assoc]

theorem acts_put (h : c'.output = c.output) : Acts s (s.put key c') key c c' :=
  ⟨rfl, rfl, rfl, rfl, [], (List.append_nil _).symm, by rw [h, List.append_nil]⟩

theorem acts_send (tcp : TcpHeader) (payload : List UInt8) (h : c'.output = c.output) :
    Acts s (s.send key c' tcp payload) key c (c'.note (.sent tcp payload)) := by
  refine ⟨rfl, rfl, rfl, rfl, payload, ?_, ?_⟩
  · rw [send, emitted_push]
    rfl
  · rw [Conn.output_note, h]
    rfl

theorem acts_sendResponse (hc : s.conns.lookup key = some c) (response : HttpResponse) :
    Acts s (s.sendResponse key response) key c (c.respond s.serverPort key response) := by
  rw [sendResponse, hc]
  exact acts_send _ _ rfl

theorem acts_onFin (hc : s.conns.lookup key = some c) :
    Acts s (s.onFin key) key c (c.close s.serverPort key) := by
  rw [onFin, hc]
  exact acts_send _ _ rfl

variable {η : Type} (checks : Bool) (handler : Handler η) {payload : List UInt8} (h : η)

theorem onData_eq_ok (hc : s.conns.lookup key = some c)
    (hfit : ¬ LengthOverflow (c.rcvBuf ++ payload)) :
    ∃ t, s.onData checks handler key payload h =
        .ok (t, ((c.take s.serverPort key payload).answer s.serverPort key handler h).2) ∧
      Acts s t key c ((c.take s.serverPort key payload).answer s.serverPort key handler h).1 := by
  -- the acknowledgement comes first in every case
  have htake : Acts s (s.send key _ _ []) key c (c.take s.serverPort key payload) :=
    acts_send _ _ rfl
  have hanswer : ∀ response, Acts s (sendResponse (s.send key _ _ []) key response) key c
      ((c.take s.serverPort key payload).respond s.serverPort key response) := fun response =>
    htake.trans (acts_sendResponse htake.lookup response)
  have hbuf : (c.take s.serverPort key payload).rcvBuf = c.rcvBuf ++ payload := rfl
  rw [onData, hc, Conn.answer, hbuf]
  dsimp only
  rw [tryParseHttp_eq hfit]
  cases parseHttp (c.rcvBuf ++ payload) with
  | incomplete => exact ⟨_, rfl, htake⟩
  | malformed => exact ⟨_, rfl, hanswer _⟩
  | tooLarge => exact ⟨_, rfl, hanswer _⟩
  | complete req =>
    have hserved : Acts s (put _ key _) key c
        ((c.take s.serverPort key payload).note (.served req)) :=
      htake.trans (acts_put (by simp [Conn.output_note, Happening.sentBytes]))
    exact ⟨_, rfl, hserved.trans (acts_sendResponse hserved.lookup _)⟩

theorem onData_eq_error (hc : s.conns.lookup key = some c)
    (hover : LengthOverflow (c.rcvBuf ++ payload)) :
    ∃ crash, s.onData checks handler key payload h = .error crash := by
  obtain ⟨crash, hcrash⟩ := tryParseHttp_error hover
  refine ⟨crash, ?_⟩
  rw [onData, hc]
  dsimp only
  rw [hcrash]
  rfl

theorem Acts.data (hact : Acts s t key c c')
    (hfit : payload ≠ [] → ¬ LengthOverflow (c'.rcvBuf ++ payload)) :
    ∃ u, (if payload ≠ [] then t.onData checks handler key payload h else .ok (t, h)) =
        .ok (u, (c'.data s.serverPort key handler payload h).2) ∧
      Acts s u key c (c'.data s.serverPort key handler payload h).1 := by
  by_cases hp : payload = []
  · rw [if_neg (not_not.2 hp), Conn.data, if_pos hp]
    exact ⟨t, rfl, hact⟩
  · obtain ⟨u, hu, hact'⟩ := onData_eq_ok checks handler h hact.lookup (hfit hp)
    rw [hact.serverPort] at hu hact'
    rw [if_pos hp, Conn.data, if_neg hp]
    exact ⟨u, hu, hact.trans hact'⟩

end Acts

end TcpServer

namespace Flow

def Opens (tcp : TcpHeader) : Prop := tcp.isRst = false ∧ tcp.isSyn = true ∧ tcp.isAck = false

instance (tcp : TcpHeader) : Decidable (Opens tcp) := by
  unfold Opens
  infer_instance

def receive {η : Type} (port : UInt16) (iss : UInt32) (key : ConnKey) (handler : Handler η)
    (flow : Option Conn) (tcp : TcpHeader) (payload : List UInt8) (h : η) : Option Conn × η :=
  if tcp.isRst then (none, h)
  else if Opens tcp then (some (Conn.accept port iss tcp), h)
  else
    match flow with
    | none => (none, h)
    | some c => c.receive port key handler tcp payload h

def Overflows (checks : Bool) (iss : UInt32) (flow : Option Conn) (tcp : TcpHeader)
    (payload : List UInt8) : Prop :=
  if Opens tcp then checks = true ∧ (tcp.seq = 0xFFFFFFFF ∨ iss = 0xFFFFFFFF)
  else tcp.isRst = false ∧
    flow.any (fun c => c.Takes tcp payload ∧ LengthOverflow (c.rcvBuf ++ payload)) = true

instance (checks : Bool) (iss : UInt32) (flow : Option Conn) (tcp : TcpHeader)
    (payload : List UInt8) : Decidable (Overflows checks iss flow tcp payload) := by
  unfold Overflows
  infer_instance

def store (conns : AList fun _ : ConnKey => Conn) (key : ConnKey) :
    Option Conn → AList fun _ : ConnKey => Conn
  | none => conns.erase key
  | some c => conns.insert key c

theorem lookup_store (conns : AList fun _ : ConnKey => Conn) (key : ConnKey) (flow : Option Conn) :
    (store conns key flow).lookup key = flow := by
  cases flow with
  | none => exact AList.lookup_erase key conns
  | some c => exact AList.lookup_insert conns

variable {conns : AList fun _ : ConnKey => Conn} {key : ConnKey}

theorem lookup_store_ne {k : ConnKey} (h : k ≠ key) (flow : Option Conn) :
    (store conns key flow).lookup k = conns.lookup k := by
  cases flow with
  | none => exact AList.lookup_erase_ne h
  | some c => exact AList.lookup_insert_ne h

theorem store_none (h : conns.lookup key = none) : store conns key none = conns :=
  AList.ext (List.kerase_of_notMem_keys (AList.lookup_eq_none.1 h))

theorem erase_insert (conns : AList fun _ : ConnKey => Conn) (key : ConnKey) (c : Conn) :
    (conns.insert key c).erase key = conns.erase key := by
  refine AList.ext ?_
  exact List.kerase_cons_eq rfl

end Flow

namespace TcpServer

variable {s : TcpServer} {η : Type} (checks : Bool) (handler : Handler η) {key : ConnKey}
  {tcp : TcpHeader} {payload : List UInt8} (h : η) {c : Conn}

theorem dispatch_unknown (hrst : tcp.isRst = false) (hopen : ¬ Flow.Opens tcp)
    (hc : s.conns.lookup key = none) :
    s.dispatch checks handler key tcp payload h =
      .ok (s.push (TcpHeader.build s.serverPort tcp.srcPort tcp.ack
        (tcp.seq + .ofNat payload.length) (TCP_RST ||| TCP_ACK) 0) key.srcIp [], h) := by
  have hsyn : ¬ (tcp.isSyn = true ∧ ¬ tcp.isAck = true) := fun hs =>
    hopen ⟨hrst, hs.1, by simpa using hs.2⟩
  rw [dispatch, if_neg (by simp [hrst]), if_neg hsyn, hc]
  rfl

theorem dispatch_conn (hrst : tcp.isRst = false) (hopen : ¬ Flow.Opens tcp)
    (hc : s.conns.lookup key = some c)
    (hfit : ¬ (c.Takes tcp payload ∧ LengthOverflow (c.rcvBuf ++ payload))) :
    ∃ t, s.dispatch checks handler key tcp payload h =
        .ok (t, (c.receive s.serverPort key handler tcp payload h).2) ∧
      match (c.receive s.serverPort key handler tcp payload h).1 with
      | some c' => Acts s t key c c'
      | none => t = (s.put key (c.note (.received tcp payload))).remove key := by
  have hsyn : ¬ (tcp.isSyn = true ∧ ¬ tcp.isAck = true) := fun hs =>
    hopen ⟨hrst, hs.1, by simpa using hs.2⟩
  rw [dispatch, if_neg (by simp [hrst]), if_neg hsyn, hc, Conn.receive]
  dsimp only
  have hput : Acts s (s.put key (c.note (.received tcp payload))) key c
      (c.note (.received tcp payload)) := acts_put (by simp [Conn.output_note, Happening.sentBytes])
  have hfit' : ¬ ((c.note (.received tcp payload)).Takes tcp payload ∧
      LengthOverflow ((c.note (.received tcp payload)).rcvBuf ++ payload)) := hfit
  generalize c.note (.received tcp payload) = d at hput hfit' ⊢
  by_cases hseq : tcp.seq ≠ d.rcvNxt ∧ payload ≠ []
  · rw [if_pos hseq, if_pos hseq]
    exact ⟨_, rfl, hput⟩
  · rw [if_neg hseq, if_neg hseq]
    have hin : payload ≠ [] → tcp.seq = d.rcvNxt := fun hp => by
      by_contra hne
      exact hseq ⟨hne, hp⟩
    cases hstate : d.state with
    | synReceived =>
      dsimp only
      by_cases hack : tcp.isAck = true ∧ tcp.ack = d.sndNxt
      · rw [if_pos hack, if_pos hack]
        have hest : Acts s (put _ key _) key c { d with state := .established } :=
          hput.trans (acts_put rfl)
        exact hest.data checks handler h fun hp hover =>
          hfit' ⟨⟨hp, hin hp, .inr ⟨hstate, hack⟩⟩, hover⟩
      · rw [if_neg hack, if_neg hack]
        exact ⟨_, rfl, hput⟩
    | established =>
      obtain ⟨t, ht, hact⟩ := hput.data checks handler h fun hp hover =>
        hfit' ⟨⟨hp, hin hp, .inl hstate⟩, hover⟩
      rw [← apply_ite (fun x => x >>= _), ht, ok_bind]
      by_cases hfin : tcp.isFin = true
      · have hclose := acts_onFin hact.lookup
        rw [hact.serverPort] at hclose
        rw [if_pos hfin, if_pos hfin]
        exact ⟨_, rfl, hact.trans hclose⟩
      · rw [if_neg hfin, if_neg hfin]
        exact ⟨_, rfl, hact⟩
    | lastAck =>
      dsimp only
      by_cases hack : tcp.isAck = true ∧ tcp.ack = d.sndNxt
      · rw [if_pos hack, if_pos hack]
        exact ⟨_, rfl, rfl⟩
      · rw [if_neg hack, if_neg hack]
        exact ⟨_, rfl, hput⟩

theorem dispatch_conn_error (hrst : tcp.isRst = false) (hopen : ¬ Flow.Opens tcp)
    (hc : s.conns.lookup key = some c) (htakes : c.Takes tcp payload)
    (hover : LengthOverflow (c.rcvBuf ++ payload)) :
    ∃ crash, s.dispatch checks handler key tcp payload h = .error crash := by
  have hsyn : ¬ (tcp.isSyn = true ∧ ¬ tcp.isAck = true) := fun hs =>
    hopen ⟨hrst, hs.1, by simpa using hs.2⟩
  have hfail : ∀ t : TcpServer, ∀ d : Conn, d.rcvBuf = c.rcvBuf →
      ∃ crash, (t.put key d).onData checks handler key payload h = .error crash := fun t d hd =>
    onData_eq_error checks handler h (AList.lookup_insert _) (hd ▸ hover)
  have htakes' : (c.note (.received tcp payload)).Takes tcp payload := htakes
  have hbuf : (c.note (.received tcp payload)).rcvBuf = c.rcvBuf := rfl
  rw [dispatch, if_neg (by simp [hrst]), if_neg hsyn, hc]
  dsimp only
  generalize c.note (.received tcp payload) = d at htakes' hbuf ⊢
  obtain ⟨hp, hseq, hstate | ⟨hstate, hack⟩⟩ := htakes'
  · obtain ⟨crash, hcrash⟩ := hfail s d hbuf
    rw [if_neg fun hdrop => hdrop.1 hseq, hstate]
    dsimp only
    rw [if_pos hp, hcrash]
    exact ⟨crash, rfl⟩
  · rw [if_neg fun hdrop => hdrop.1 hseq, hstate]
    rw [if_pos hack, if_pos hp]
    exact hfail _ _ hbuf

structure Follows (s t : TcpServer) (key : ConnKey) (tcp : TcpHeader) (flow : Option Conn) :
    Prop where
  conns : t.conns = Flow.store s.conns key flow
  serverPort : t.serverPort = s.serverPort
  serverIp : t.serverIp = s.serverIp
  nextIss : t.nextIss = if Flow.Opens tcp then s.nextIss + 0x10000 else s.nextIss

theorem dispatch_eq_ok
    (hfit : ¬ Flow.Overflows checks s.nextIss (s.conns.lookup key) tcp payload) :
    ∃ t, s.dispatch checks handler key tcp payload h =
        .ok (t, (Flow.receive s.serverPort s.nextIss key handler (s.conns.lookup key) tcp
          payload h).2) ∧
      Follows s t key tcp (Flow.receive s.serverPort s.nextIss key handler (s.conns.lookup key) tcp
        payload h).1 := by
  unfold Flow.receive
  by_cases hrst : tcp.isRst = true
  · have hopen : ¬ Flow.Opens tcp := fun ho => by simp [ho.1] at hrst
    rw [dispatch, if_pos hrst, if_pos hrst]
    exact ⟨_, rfl, rfl, rfl, rfl, (if_neg hopen).symm⟩
  · rw [if_neg hrst]
    rw [Bool.not_eq_true] at hrst
    by_cases hopen : Flow.Opens tcp
    · have hsyn : tcp.isSyn = true ∧ ¬ tcp.isAck = true := ⟨hopen.2.1, by simp [hopen.2.2]⟩
      rw [Flow.Overflows, if_pos hopen] at hfit
      rw [dispatch, if_neg (by simp [hrst]), if_pos hsyn, if_pos hopen, handleSyn]
      rw [Conn.new_eq_ok hfit]
      exact ⟨_, rfl, rfl, rfl, rfl, (if_pos hopen).symm⟩
    · rw [if_neg hopen]
      cases hc : s.conns.lookup key with
      | none =>
        rw [dispatch_unknown checks handler h hrst hopen hc]
        exact ⟨_, rfl, (Flow.store_none hc).symm, rfl, rfl, (if_neg hopen).symm⟩
      | some c =>
        rw [Flow.Overflows, if_neg hopen, hc] at hfit
        obtain ⟨t, ht, hflow⟩ := dispatch_conn checks handler h hrst hopen hc
          fun htakes => hfit ⟨hrst, decide_eq_true htakes⟩
        refine ⟨t, ht, ?_⟩
        cases hc' : (c.receive s.serverPort key handler tcp payload h).1 with
        | none =>
          rw [hc'] at hflow
          rw [hflow]
          exact ⟨Flow.erase_insert _ _ _, rfl, rfl, (if_neg hopen).symm⟩
        | some c' =>
          rw [hc'] at hflow
          exact ⟨hflow.conns, hflow.serverPort, hflow.serverIp,
            hflow.nextIss.trans (if_neg hopen).symm⟩

theorem dispatch_eq_error
    (hover : Flow.Overflows checks s.nextIss (s.conns.lookup key) tcp payload) :
    ∃ crash, s.dispatch checks handler key tcp payload h = .error crash := by
  by_cases hopen : Flow.Opens tcp
  · have hsyn : tcp.isSyn = true ∧ ¬ tcp.isAck = true := ⟨hopen.2.1, by simp [hopen.2.2]⟩
    rw [Flow.Overflows, if_pos hopen] at hover
    rw [dispatch, if_neg (by simp [hopen.1]), if_pos hsyn, handleSyn]
    rw [Conn.new_eq_error hover]
    exact ⟨.overflow, rfl⟩
  · rw [Flow.Overflows, if_neg hopen] at hover
    obtain ⟨hrst, hany⟩ := hover
    obtain ⟨c, hc, htakes⟩ := (Option.any_eq_true _ _).1 hany
    have htakes := of_decide_eq_true htakes
    exact dispatch_conn_error checks handler h hrst hopen hc htakes.1 htakes.2

end TcpServer

end Squib.Metadata
