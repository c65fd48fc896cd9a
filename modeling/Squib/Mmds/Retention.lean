import Mathlib.Algebra.Group.Action.Defs
import Mathlib.Algebra.Order.BigOperators.Group.List
import Mathlib.Algebra.Order.Ring.Nat
import Squib.Lib.Bytes
import Squib.Mmds.Emission
import Squib.Mmds.Panic
import Squib.Mmds.Secrecy

/-!
# What the endpoint retains
-/

namespace Squib.Metadata

open Run

/-! ## One receive buffer -/

namespace Conn

def MAX_BUFFER : ℕ := MAX_REQUEST_BYTES + 65535

structure Bounded (c : Conn) : Prop where
  buffer : c.rcvBuf.length ≤ MAX_BUFFER
  waiting : c.state ≠ .lastAck → c.rcvBuf.length ≤ MAX_REQUEST_BYTES

variable {port : UInt16} {key : ConnKey} {c : Conn} {η : Type} {handler : Handler η} {x : η}

theorem bounded_of_le (h : c.rcvBuf.length ≤ MAX_REQUEST_BYTES) : c.Bounded :=
  ⟨Nat.le_add_right_of_le h, fun _ => h⟩

theorem length_le_of_incomplete {buf : List UInt8} (h : parseHttp buf = .incomplete) :
    buf.length ≤ MAX_REQUEST_BYTES := by
  by_contra hlen
  rw [parseHttp, if_pos (Nat.not_le.1 hlen)] at h
  cases h

variable {payload : List UInt8}

theorem bounded_data (hc : c.rcvBuf.length ≤ MAX_REQUEST_BYTES) (hp : payload.length < 65536) :
    (c.data port key handler payload x).1.Bounded := by
  have hbuf : (c.take port key payload).rcvBuf = c.rcvBuf ++ payload := rfl
  have hclosed : ∀ d : Conn, d.state = .lastAck → d.rcvBuf = c.rcvBuf ++ payload → d.Bounded := by
    intro d hstate hd
    refine ⟨?_, fun hne => absurd hstate hne⟩
    rw [hd, List.length_append]
    exact Nat.add_le_add hc (Nat.le_of_lt_succ hp)
  rw [Conn.data]
  split_ifs
  · exact bounded_of_le hc
  · rw [answer, hbuf]
    cases hparse : parseHttp (c.rcvBuf ++ payload) with
    | incomplete => exact bounded_of_le (length_le_of_incomplete hparse)
    | malformed | tooLarge | complete req => exact hclosed _ rfl rfl

theorem Bounded.receive {c' : Conn} {tcp : TcpHeader} (h : c.Bounded) (hp : payload.length < 65536)
    (hc' : (c.receive port key handler tcp payload x).1 = some c') : c'.Bounded := by
  obtain ⟨hbuffer, hwaiting⟩ := h
  cases receives_of_receive hc' with
  | drop => exact ⟨hbuffer, hwaiting⟩
  | establish hstate | keep hstate => exact bounded_data (hwaiting (by rw [hstate]; nofun)) hp
  | close hstate =>
    have hdata : ((c.note (.received tcp payload)).data port key handler payload x).1.Bounded :=
      bounded_data (hwaiting (by rw [hstate]; nofun)) hp
    exact ⟨hdata.buffer, nofun⟩

end Conn

section Request

variable {port : UInt16} {key : ConnKey} {c : Conn} {η : Type} {handler : Handler η} {x : η}
  {tcp : TcpHeader} {payload : List UInt8}

theorem Conn.data_snd {d : Conn} (hd : d.rcvBuf = c.rcvBuf)
    (htakes : payload ≠ [] → c.Takes tcp payload) :
    (d.data port key handler payload x).2 =
      (c.request tcp payload).elim x fun req => (handler req x).2 := by
  have hbuf : (d.take port key payload).rcvBuf = c.rcvBuf ++ payload := by
    rw [← hd]
    rfl
  rw [data]
  by_cases hp : payload = []
  · rw [if_pos hp, request, if_neg fun h => h.1 hp]
    rfl
  · rw [if_neg hp, request, if_pos (htakes hp), answer, hbuf]
    cases parseHttp (c.rcvBuf ++ payload) <;> rfl

theorem Conn.receive_snd : (c.receive port key handler tcp payload x).2 =
    (c.request tcp payload).elim x fun req => (handler req x).2 := by
  have hnone : ¬ c.Takes tcp payload →
      x = (c.request tcp payload).elim x fun req => (handler req x).2 := fun h => by
    rw [request, if_neg h]
    rfl
  have hseq' : (c.note (.received tcp payload)).rcvNxt = c.rcvNxt := rfl
  have hsnd' : (c.note (.received tcp payload)).sndNxt = c.sndNxt := rfl
  rw [receive]
  rw [hseq', hsnd', note_state]
  by_cases hdrop : tcp.seq ≠ c.rcvNxt ∧ payload ≠ []
  · rw [if_pos hdrop]
    exact hnone fun h => hdrop.1 h.2.1
  · have hseq : payload ≠ [] → tcp.seq = c.rcvNxt := fun hp => by
      by_contra hne
      exact hdrop ⟨hne, hp⟩
    rw [if_neg hdrop]
    cases hstate : c.state with
    | synReceived =>
      by_cases hack : tcp.isAck = true ∧ tcp.ack = c.sndNxt
      · rw [if_pos hack]
        exact data_snd rfl fun hp => ⟨hp, hseq hp, .inr ⟨hstate, hack⟩⟩
      · rw [if_neg hack]
        refine hnone fun h => ?_
        obtain ⟨-, -, hest | hsyn⟩ := h
        · rw [hstate] at hest
          cases hest
        · exact hack hsyn.2
    | established => exact data_snd rfl fun hp => ⟨hp, hseq hp, .inl hstate⟩
    | lastAck =>
      have hx := hnone fun h => by
        obtain ⟨-, -, hest | hsyn⟩ := h
        · rw [hstate] at hest
          cases hest
        · rw [hstate] at hsyn
          cases hsyn.1
      dsimp only
      split_ifs
      · exact hx
      · exact hx

theorem Flow.receive_snd {iss : UInt32} {flow : Option Conn} :
    (Flow.receive port iss key handler flow tcp payload x).2 =
      (Flow.request flow tcp payload).elim x fun req => (handler req x).2 := by
  unfold receive request
  by_cases hrst : tcp.isRst = true
  · rw [if_pos hrst, if_pos (.inl hrst)]
    rfl
  · rw [if_neg hrst]
    by_cases hopen : Flow.Opens tcp
    · rw [if_pos hopen, if_pos (.inr hopen)]
      rfl
    · rw [if_neg hopen, if_neg (not_or.2 ⟨hrst, hopen⟩)]
      cases flow with
      | none => rfl
      | some c => exact Conn.receive_snd

end Request

section Table

variable {α β : Type} [DecidableEq α] {a : α} {b : β} {s : AList fun _ : α => β}

theorem length_keys_insert_le : (s.insert a b).keys.length ≤ s.keys.length + 1 := by
  rw [AList.keys_insert]
  exact Nat.succ_le_succ List.length_erase_le

theorem length_keys_insert_of_mem (h : a ∈ s) : (s.insert a b).keys.length = s.keys.length := by
  have ha : a ∈ s.keys := AList.mem_keys.1 h
  have hpos := List.length_pos_of_mem ha
  rw [AList.keys_insert, List.length_cons, List.length_erase_of_mem ha]
  omega

theorem length_keys_insert_of_notMem (h : a ∉ s) :
    (s.insert a b).keys.length = s.keys.length + 1 := by
  rw [AList.keys_insert, List.length_cons, List.erase_of_not_mem fun ha => h (AList.mem_keys.2 ha)]

theorem keys_foldl_erase_sublist (purge : List α) :
    (purge.foldl (fun s a => s.erase a) s).keys.Sublist s.keys := by
  induction purge generalizing s with
  | nil => exact List.Sublist.refl _
  | cons a purge ih =>
    refine ih.trans ?_
    rw [AList.keys_erase]
    exact List.erase_sublist

end Table

def HttpRequest.asksToken (req : HttpRequest) : Bool :=
  req.method = Text.bytes "PUT" ∧ req.path = Text.bytes "/latest/api/token" ∧
    req.ttlHeader.any fun ttl => MIN_TTL_SECONDS ≤ ttl ∧ ttl ≤ MAX_TTL_SECONDS

namespace TokenStore

def TOKEN_WIRE_LEN : ℕ := 43

variable {Value : Type} {ext : External Value} {env : Env} {mmds : Mmds Value} {t t' : TokenStore}

def Issues (ext : External Value) (t t' : TokenStore) : Prop :=
  ∃ (bytes : Vector UInt8 32) (expiresAt : ℕ),
    t'.tokens = t.tokens.insert (ext.encode bytes.toList) expiresAt

theorem keys_validate_sublist (t : TokenStore) (now : ℕ) (candidate : List UInt8) :
    (t.validate now candidate).2.tokens.keys.Sublist t.tokens.keys :=
  keys_foldl_erase_sublist _

theorem httpHandler_cases (req : HttpRequest) :
    (httpHandler ext env mmds req t).2.tokens.keys.Sublist t.tokens.keys ∨
      req.asksToken = true ∧ Issues ext t (httpHandler ext env mmds req t).2 := by
  have hrefl : t.tokens.keys.Sublist t.tokens.keys := List.Sublist.refl _
  have hservice : (httpHandler ext env mmds req t).2 = (serviceHttpRequest ext env mmds req t).2 :=
    rfl
  rw [hservice, serviceHttpRequest]
  by_cases hpath : req.path.length > MAX_HTTP_PATH_BYTES
  · rw [if_pos hpath]
    exact .inl hrefl
  by_cases hchars : ¬ pathCharsetOk req.path = true
  · rw [if_neg hpath, if_pos hchars]
    exact .inl hrefl
  by_cases hbody : req.body.length > mmds.sizeCap
  · rw [if_neg hpath, if_neg hchars, if_pos hbody]
    exact .inl hrefl
  rw [if_neg hpath, if_neg hchars, if_neg hbody]
  by_cases hput : req.method = Text.bytes "PUT" ∧ req.path = Text.bytes "/latest/api/token"
  · rw [if_pos hput]
    cases httl : req.ttlHeader with
    | none => exact .inl hrefl
    | some ttl =>
      have hissue : ∀ tokens, (t.issue ext env ttl).2 = tokens →
          tokens.tokens.keys.Sublist t.tokens.keys ∨ req.asksToken = true ∧ Issues ext t tokens := by
        rintro tokens rfl
        obtain ⟨e, hissue⟩ | ⟨hrange, bytes, hissue⟩ := t.issue_cases ext env ttl
        · rw [hissue]
          exact .inl hrefl
        · rw [hissue]
          refine .inr ⟨?_, bytes, _, rfl⟩
          simp [HttpRequest.asksToken, hput, httl, hrange]
      dsimp only
      split
      · next token tokens h => exact hissue tokens (by rw [h])
      · next e tokens h => exact hissue tokens (by rw [h])
  rw [if_neg hput]
  by_cases hget : req.method = Text.bytes "GET"
  · rw [if_pos hget]
    refine .inl ?_
    by_cases hv2 : mmds.version = .v2
    · rw [if_pos hv2]
      cases req.tokenHeader with
      | none => exact hrefl
      | some token =>
        have hvalidate := t.keys_validate_sublist env.now token
        dsimp only
        split_ifs
        · exact hvalidate
        · exact hvalidate
        · exact hrefl
    · rw [if_neg hv2]
  · rw [if_neg hget]
    exact .inl hrefl

structure Within (n : ℕ) (t : TokenStore) : Prop where
  length : t.tokens.keys.length ≤ n
  token : ∀ token ∈ t.tokens.keys, token.length ≤ TOKEN_WIRE_LEN

theorem Within.httpHandler {n : ℕ} {req : HttpRequest} (h : t.Within n)
    (hencode : ∀ bytes : Vector UInt8 32, (ext.encode bytes.toList).length ≤ TOKEN_WIRE_LEN)
    (hcap : req.asksToken = true → t.tokens.keys.length < n) :
    (httpHandler ext env mmds req t).2.Within n := by
  obtain hsub | ⟨hasks, bytes, expiresAt, hinsert⟩ :
      _ ∨ req.asksToken = true ∧ _ := httpHandler_cases req
  · exact ⟨hsub.length_le.trans h.length, fun token ht => h.token token (hsub.subset ht)⟩
  · constructor
    · rw [hinsert]
      exact length_keys_insert_le.trans (hcap hasks)
    · intro token ht
      rw [hinsert, ← AList.mem_keys, AList.mem_insert] at ht
      obtain rfl | ht := ht
      · exact hencode bytes
      · exact h.token token ht

end TokenStore

/-! ## The bound -/

def MmdsInterceptor.retained {Value : Type} (s : MmdsInterceptor Value) : ℕ :=
  (s.tcp.conns.entries.map fun e => 1 + e.2.rcvBuf.length).sum +
    (s.tokens.tokens.entries.map fun e => 1 + e.1.length).sum

theorem sum_entries_le {α β : Type} {s : AList fun _ : α => β} {n m : ℕ}
    (size : (Sigma fun _ : α => β) → ℕ) (hlen : s.keys.length ≤ n)
    (hsize : ∀ e ∈ s.entries, size e ≤ m) : (s.entries.map size).sum ≤ n * m := by
  have hsum := List.sum_le_card_nsmul (s.entries.map size) m fun x hx => by
    obtain ⟨e, he, rfl⟩ := List.mem_map.1 hx
    exact hsize e he
  have hlen' : s.entries.length ≤ n := by
    rwa [AList.keys, List.keys, List.length_map] at hlen
  rw [List.length_map] at hsum
  exact hsum.trans (Nat.mul_le_mul_right m hlen')

namespace Session

variable {Value : Type} {checks : Bool} {ext : External Value} {s t : Session Value} {e : Event}

def Capped (maxConns maxTokens : ℕ) (s : Session Value) (e : Event) : Prop :=
  ∀ a, s.arrival e = some a →
    (Flow.Opens a.hdr → s.endpoint.flow a.key = none →
      s.endpoint.tcp.conns.keys.length < maxConns) ∧
    ∀ req, Flow.request (s.endpoint.flow a.key) a.hdr a.payload = some req → req.asksToken = true →
      s.endpoint.tokens.tokens.keys.length < maxTokens

instance (maxConns maxTokens : ℕ) (s : Session Value) (e : Event) :
    Decidable (s.Capped maxConns maxTokens e) :=
  decidable_of_iff ((s.arrival e).all (fun a =>
      (Flow.Opens a.hdr → s.endpoint.flow a.key = none →
        s.endpoint.tcp.conns.keys.length < maxConns) ∧
      (Flow.request (s.endpoint.flow a.key) a.hdr a.payload).all (fun req =>
        req.asksToken = true →
          s.endpoint.tokens.tokens.keys.length < maxTokens) = true) = true) <| by
    simp only [Capped, Option.all_eq_true, decide_eq_true_eq]

structure Within (maxConns maxTokens : ℕ) (s : Session Value) : Prop where
  conns : s.endpoint.tcp.conns.keys.length ≤ maxConns
  buffers : Flows Conn.Bounded s
  tokens : s.endpoint.tokens.Within maxTokens

variable {maxConns maxTokens : ℕ}

theorem within_start (mmds : Mmds Value) : (start mmds .new).Within maxConns maxTokens where
  conns := Nat.zero_le _
  buffers := flows_start _ mmds .new
  tokens := ⟨Nat.zero_le _, nofun⟩

variable {a : Arrival}

theorem length_payload_lt (ha : s.arrival e = some a) : a.payload.length < 65536 := by
  cases e with
  | drain | setIpv4 ip => cases ha
  | frame env bytes =>
    have ha' : s.endpoint.arrival bytes = some a := ha
    obtain ⟨⟨mac, body⟩, -, h⟩ := Option.bind_eq_some_iff.1 ha'
    dsimp only at h
    split at h
    · next ip hdr payload hsegment =>
      cases h
      exact (TcpServer.segment_eq_some_iff.1 hsegment).length_payload_lt
    · cases h

theorem length_conns_le {env : Env} (ha : s.arrival e = some a)
    (hserved : MmdsInterceptor.Served ext env s.endpoint a t.endpoint)
    (hcap : s.Capped maxConns maxTokens e) (hs : s.endpoint.tcp.conns.keys.length ≤ maxConns) :
    t.endpoint.tcp.conns.keys.length ≤ maxConns := by
  rw [hserved.follows.conns]
  cases hflow : (s.endpoint.next ext env a).1 with
  | none =>
    refine Nat.le_trans ?_ hs
    rw [Flow.store, AList.keys_erase]
    exact List.length_erase_le
  | some c =>
    rw [Flow.store]
    by_cases hmem : a.key ∈ s.endpoint.tcp.conns
    · rw [length_keys_insert_of_mem hmem]
      exact hs
    · -- only a SYN makes a connection out of none
      have hnone : s.endpoint.flow a.key = none := AList.lookup_eq_none.2 hmem
      have hopens : Flow.Opens a.hdr := by
        by_contra hopens
        rw [MmdsInterceptor.next, hnone, Flow.receive] at hflow
        split_ifs at hflow
      exact length_keys_insert_le.trans ((hcap a ha).1 hopens hnone)

theorem within_step (hencode : ∀ bytes : Vector UInt8 32,
      (ext.encode bytes.toList).length ≤ TokenStore.TOKEN_WIRE_LEN)
    (hs : s.Within maxConns maxTokens) (hcap : s.Capped maxConns maxTokens e)
    (h : s.step checks ext e = some t) : t.Within maxConns maxTokens := by
  have hbuffers : Flows Conn.Bounded t :=
    flows_step h hs.buffers (fun port iss tcp => Conn.bounded_of_le (Nat.zero_le _))
      fun handler port x c c' a hreceived hc hc' => by
        obtain ⟨b, hb, hif⟩ := Option.bind_eq_some_iff.1 hreceived
        split_ifs at hif
        obtain ⟨d, -, hd⟩ := Option.map_eq_some_iff.1 hif
        cases hd
        exact hc.receive (length_payload_lt hb) hc'
  obtain ⟨-, hquiet⟩ | ⟨env, a, ha, hserved⟩ := step_cases h
  · refine ⟨?_, hbuffers, ?_⟩
    · rw [hquiet.conns]
      exact hs.conns
    · rw [hquiet.tokens]
      exact hs.tokens
  · refine ⟨length_conns_le ha hserved hcap hs.conns, hbuffers, ?_⟩
    rw [hserved.tokens, MmdsInterceptor.next, Flow.receive_snd]
    cases hreq : Flow.request (s.endpoint.flow a.key) a.hdr a.payload with
    | none => exact hs.tokens
    | some req => exact hs.tokens.httpHandler hencode ((hcap a ha).2 req hreq)

theorem Within.retained (h : s.Within maxConns maxTokens) : s.endpoint.retained ≤
    maxConns * (1 + Conn.MAX_BUFFER) + maxTokens * (1 + TokenStore.TOKEN_WIRE_LEN) := by
  refine Nat.add_le_add (sum_entries_le _ h.conns ?_) (sum_entries_le _ h.tokens.length ?_)
  · rintro ⟨key, c⟩ he
    exact Nat.add_le_add_left (h.buffers key c (AList.mem_lookup_iff.2 he)).buffer 1
  · rintro ⟨token, expiresAt⟩ he
    exact Nat.add_le_add_left (h.tokens.token token (List.mem_keys_of_mem he)) 1

/-- **The retained memory**, as long as no table grows beyond its cap. -/
theorem retained_le (hencode : ∀ bytes : Vector UInt8 32,
      (ext.encode bytes.toList).length ≤ TokenStore.TOKEN_WIRE_LEN)
    (mmds : Mmds Value) (maxConns maxTokens : ℕ) {es : List Event}
    (hcap : Along (step checks ext) (Capped maxConns maxTokens) es (start mmds .new))
    (hrun : run (step checks ext) es (start mmds .new) = some t) :
    t.endpoint.retained ≤
      maxConns * (1 + Conn.MAX_BUFFER) + maxTokens * (1 + TokenStore.TOKEN_WIRE_LEN) := by
  have hwithin : t.Within maxConns maxTokens :=
    invariant (fun _ _ _ => within_step hencode) hcap (within_start mmds) hrun
  exact hwithin.retained

end Session

/-! ## A guest that asks for tokens -/

section Scenario

open Session Bytes

variable {payload : List UInt8}

theorem arrival_of_segment {s : MmdsInterceptor Unit} {frame body : List UInt8} {mac : MacAddr}
    {ip : Ipv4Header} {hdr : TcpHeader} (hpacket : s.tcpPacket frame = some (mac, body))
    (hsegment : s.tcp.segment body = .ok (some (ip, hdr, payload))) :
    s.arrival frame =
      some { mac, key := { srcIp := ip.src, srcPort := hdr.srcPort }, hdr, payload } := by
  rw [MmdsInterceptor.arrival, hpacket, Option.bind_some]
  dsimp only
  rw [hsegment]

def guestArrival (seq ack : UInt32) (flags : UInt8) (payload : List UInt8) : Arrival where
  mac := guestMac
  key := guestKey
  hdr := TcpHeader.build guestPort MmdsInterceptor.HTTP_PORT seq ack flags 0xFFFF
  payload := payload

theorem arrival_guestFrame {s : MmdsInterceptor Unit} {seq ack : UInt32} {flags : UInt8}
    (hip : s.mmdsIp = MMDS_DEFAULT_IPV4) (hserverIp : s.tcp.serverIp = MMDS_DEFAULT_IPV4)
    (hport : s.tcp.serverPort = MmdsInterceptor.HTTP_PORT) (hflags : flags &&& 0x3F = flags)
    (hlen : payload.length + 40 ≤ 65535) :
    s.arrival (guestFrame seq ack flags payload) = some (guestArrival seq ack flags payload) := by
  generalize hhdr : TcpHeader.build guestPort MmdsInterceptor.HTTP_PORT seq ack flags 0xFFFF = hdr
  have hplain : hdr.Plain := hhdr ▸ TcpHeader.plain_build hflags
  have hframe : guestFrame seq ack flags payload =
      EthernetHeader.toBytes
          { dst := MMDS_SYNTHETIC_MAC, src := guestMac, ethertype := ETHERTYPE_IPV4 } ++
        packet guestIp MMDS_DEFAULT_IPV4 1 hdr payload := by
    rw [guestFrame, hhdr, List.append_assoc, packet]
  have hsegment : s.tcp.segment (packet guestIp MMDS_DEFAULT_IPV4 1 hdr payload) =
      .ok (some (_, hdr, payload)) :=
    TcpServer.segment_eq_some_iff.2 (carries_packet hplain hserverIp (hhdr ▸ hport) hlen)
  obtain ⟨-, hprotocol, -, hdst⟩ := Ipv4Header.reads_toBytes (.build guestIp MMDS_DEFAULT_IPV4 .tcp
    (clampU16 (TCP_HDR_LEN + payload.length)) 1) (hdr.toBytesWithPayload guestIp MMDS_DEFAULT_IPV4
      payload)
  rw [← packet_eq] at hprotocol hdst
  have hdst' : readIpv4 (packet guestIp MMDS_DEFAULT_IPV4 1 hdr payload) 16 = .ok s.mmdsIp := by
    rw [hdst, hip]
    rfl
  have hpacket : s.tcpPacket (guestFrame seq ack flags payload) =
      some (guestMac, packet guestIp MMDS_DEFAULT_IPV4 1 hdr payload) := by
    rw [MmdsInterceptor.tcpPacket, hframe, EthernetHeader.parse_toBytes]
    dsimp only
    rw [List.drop_left' (EthernetHeader.length_toBytes _), if_pos ⟨rfl, hdst', hprotocol⟩]
  rw [arrival_of_segment hpacket hsegment, ← hhdr]
  rfl

def counterEnv (k : ℕ) : Env where
  now := 0
  entropy := some ⟨(leBytes 32 k).toArray, by simp⟩

def putToken : List UInt8 :=
  Text.bytes "PUT /latest/api/token HTTP/1.1\r\nX-aws-ec2-metadata-token-ttl-seconds: 21600\r\n\r\n"

def askToken (iss : UInt32) (k : ℕ) : List Event :=
  [.frame (counterEnv k) (guestFrame 0 0 TCP_SYN []),
    .frame (counterEnv k) (guestFrame 1 (iss + 1) TCP_ACK putToken)]

theorem retained_le_askToken :
    ∃ t, run (step true unitExternal) (askToken 0x40000000 0 ++ askToken 0x40010000 1)
        (start unitStore .new) = some t ∧
      t.endpoint.retained ≤
        1 * (1 + Conn.MAX_BUFFER) + 2 * (1 + TokenStore.TOKEN_WIRE_LEN) := by
  have hsome : (run (step true unitExternal) (askToken 0x40000000 0 ++ askToken 0x40010000 1)
      (start unitStore .new)).isSome := by
    decide +kernel
  obtain ⟨t, ht⟩ := Option.isSome_iff_exists.1 hsome
  refine ⟨t, ht, retained_le (fun bytes => ?_) unitStore 1 2 ?_ ht⟩
  · have hlen : (unitExternal.encode bytes.toList).length = 32 := by simp [unitExternal]
    rw [hlen]
    decide
  · decide +kernel

structure Flooded (k : ℕ) (s : Session Unit) : Prop where
  mmdsIp : s.endpoint.mmdsIp = MMDS_DEFAULT_IPV4
  serverIp : s.endpoint.tcp.serverIp = MMDS_DEFAULT_IPV4
  serverPort : s.endpoint.tcp.serverPort = MmdsInterceptor.HTTP_PORT
  mmds : s.endpoint.mmds = unitStore
  aligned : IssAligned s
  length : s.endpoint.tokens.tokens.keys.length = k
  token : ∀ token ∈ s.endpoint.tokens.tokens.keys, ∃ j < k, token = leBytes 32 j

theorem flooded_start : Flooded 0 (start unitStore .new) where
  mmdsIp := rfl
  serverIp := rfl
  serverPort := rfl
  mmds := rfl
  aligned := issAligned_start _ _
  length := rfl
  token := nofun

variable {s : Session Unit} {k : ℕ}

theorem Flooded.of_served {checks : Bool} {a : Arrival} {e : Event} {t : Session Unit} {n : ℕ}
    (h : Flooded k s) (ht : s.step checks unitExternal e = some t)
    (hserved : MmdsInterceptor.Served unitExternal (counterEnv k) s.endpoint a t.endpoint)
    (hlength : t.endpoint.tokens.tokens.keys.length = n)
    (htoken : ∀ token ∈ t.endpoint.tokens.tokens.keys, ∃ j < n, token = leBytes 32 j) :
    Flooded n t where
  mmdsIp := hserved.mmdsIp.trans h.mmdsIp
  serverIp := hserved.follows.serverIp.trans h.serverIp
  serverPort := hserved.follows.serverPort.trans h.serverPort
  mmds := hserved.mmds.trans h.mmds
  aligned := issAligned_step h.aligned ht
  length := hlength
  token := htoken

theorem Flooded.syn (checks : Bool) (h : Flooded k s) : ∃ t,
    s.step checks unitExternal (.frame (counterEnv k) (guestFrame 0 0 TCP_SYN [])) = some t ∧
      Flooded k t ∧ t.endpoint.flow guestKey = some (Conn.accept MmdsInterceptor.HTTP_PORT
        s.endpoint.tcp.nextIss (guestArrival 0 0 TCP_SYN []).hdr) := by
  have ha : s.endpoint.arrival (guestFrame 0 0 TCP_SYN []) = some (guestArrival 0 0 TCP_SYN []) :=
    arrival_guestFrame h.mmdsIp h.serverIp h.serverPort rfl (by decide)
  have hopens : Flow.Opens (guestArrival 0 0 TCP_SYN []).hdr := by decide
  have hfit : ¬ s.endpoint.Overflows checks (guestArrival 0 0 TCP_SYN []) := by
    refine (not_overflows_iff h.aligned).2 ⟨fun _ => ?_, fun _ hno => absurd hopens hno⟩
    rintro ⟨-, hseq⟩
    exact absurd hseq (by decide)
  obtain ⟨t, ht, hserved⟩ := step_of_arrival ha hfit
  have hnext : s.endpoint.next unitExternal (counterEnv k) (guestArrival 0 0 TCP_SYN []) =
      (some (Conn.accept MmdsInterceptor.HTTP_PORT s.endpoint.tcp.nextIss
        (guestArrival 0 0 TCP_SYN []).hdr), s.endpoint.tokens) := by
    unfold MmdsInterceptor.next Flow.receive
    rw [if_neg (by decide), if_pos hopens, h.serverPort]
  have htokens : t.endpoint.tokens = s.endpoint.tokens := by rw [hserved.tokens, hnext]
  refine ⟨t, ht, h.of_served ht hserved ?_ ?_, ?_⟩
  · rw [htokens, h.length]
  · rw [htokens]
    exact h.token
  · rw [MmdsInterceptor.flow, hserved.follows.conns, hnext]
    exact Flow.lookup_store _ _ _

def tokenRequest : HttpRequest where
  method := Text.bytes "PUT"
  path := Text.bytes "/latest/api/token"
  tokenHeader := none
  ttlHeader := some 21600
  body := []

theorem parseHttp_putToken : parseHttp putToken = .complete tokenRequest := by
  decide +kernel

theorem httpHandler_tokenRequest (tokens : TokenStore) :
    (httpHandler unitExternal (counterEnv k) unitStore tokenRequest tokens).2.tokens =
      tokens.tokens.insert (leBytes 32 k) (0 + 21600 * 10 ^ 9) := by
  rfl

section Put

variable {iss : UInt32}

theorem request_putToken :
    Flow.request (some (.accept MmdsInterceptor.HTTP_PORT iss (guestArrival 0 0 TCP_SYN []).hdr))
      (guestArrival 1 (iss + 1) TCP_ACK putToken).hdr putToken = some tokenRequest := by
  have hrst : (guestArrival 1 (iss + 1) TCP_ACK putToken).hdr.isRst = false :=
    (by decide : (TCP_ACK &&& TCP_RST != 0) = false)
  have hack : (guestArrival 1 (iss + 1) TCP_ACK putToken).hdr.isAck = true :=
    (by decide : (TCP_ACK &&& TCP_ACK != 0) = true)
  have hopens : ¬ Flow.Opens (guestArrival 1 (iss + 1) TCP_ACK putToken).hdr := fun ho =>
    Bool.false_ne_true (ho.2.2.symm.trans hack)
  have htakes : (Conn.accept MmdsInterceptor.HTTP_PORT iss (guestArrival 0 0 TCP_SYN []).hdr).Takes
      (guestArrival 1 (iss + 1) TCP_ACK putToken).hdr putToken :=
    ⟨by decide +kernel, rfl, .inr ⟨rfl, hack, rfl⟩⟩
  have hbuf : (Conn.accept MmdsInterceptor.HTTP_PORT iss
      (guestArrival 0 0 TCP_SYN []).hdr).rcvBuf ++ putToken = putToken := rfl
  rw [Flow.request, if_neg (by simp [hrst, hopens]), Option.bind_some, Conn.request,
    if_pos htakes, hbuf, parseHttp_putToken]

theorem Flooded.notMem_tokens (h : Flooded k s) (hk : k < 256 ^ 32) :
    leBytes 32 k ∉ s.endpoint.tokens.tokens := by
  intro hmem
  obtain ⟨j, hj, heq⟩ := h.token _ (AList.mem_keys.1 hmem)
  have hnat := congrArg leNat heq
  rw [leNat_leBytes, leNat_leBytes] at hnat
  omega

theorem Flooded.put (checks : Bool) (h : Flooded k s) (hk : k < 256 ^ 32)
    (hflow : s.endpoint.flow guestKey =
      some (Conn.accept MmdsInterceptor.HTTP_PORT iss (guestArrival 0 0 TCP_SYN []).hdr)) :
    ∃ t, s.step checks unitExternal
        (.frame (counterEnv k) (guestFrame 1 (iss + 1) TCP_ACK putToken)) = some t ∧
      Flooded (k + 1) t := by
  have ha : s.endpoint.arrival (guestFrame 1 (iss + 1) TCP_ACK putToken) =
      some (guestArrival 1 (iss + 1) TCP_ACK putToken) :=
    arrival_guestFrame h.mmdsIp h.serverIp h.serverPort rfl (by decide +kernel)
  have hfit : ¬ s.endpoint.Overflows checks (guestArrival 1 (iss + 1) TCP_ACK putToken) := by
    refine (not_overflows_iff h.aligned).2 ⟨fun ho => ?_, fun _ _ c hc _ => ?_⟩
    · exact absurd ho.2.2 (by decide : ¬ (TCP_ACK &&& TCP_ACK != 0) = false)
    · rw [show (guestArrival 1 (iss + 1) TCP_ACK putToken).key = guestKey from rfl, hflow] at hc
      cases hc
      exact (by decide +kernel : ¬ LengthOverflow putToken)
  obtain ⟨t, ht, hserved⟩ := step_of_arrival ha hfit
  have htokens : t.endpoint.tokens.tokens =
      s.endpoint.tokens.tokens.insert (leBytes 32 k) (0 + 21600 * 10 ^ 9) := by
    have hnext : (s.endpoint.next unitExternal (counterEnv k)
        (guestArrival 1 (iss + 1) TCP_ACK putToken)).2 =
        (httpHandler unitExternal (counterEnv k) s.endpoint.mmds tokenRequest
          s.endpoint.tokens).2 := by
      rw [MmdsInterceptor.next, Flow.receive_snd]
      exact congrArg (fun r => Option.elim r _ _) (hflow ▸ request_putToken)
    rw [hserved.tokens, hnext, h.mmds, httpHandler_tokenRequest]
  refine ⟨t, ht, h.of_served ht hserved ?_ fun token htoken => ?_⟩
  · rw [htokens, length_keys_insert_of_notMem (h.notMem_tokens hk), h.length]
  · rw [htokens, ← AList.mem_keys, AList.mem_insert] at htoken
    obtain rfl | htoken := htoken
    · exact ⟨k, Nat.lt_succ_self k, rfl⟩
    · obtain ⟨j, hj, heq⟩ := h.token token htoken
      exact ⟨j, Nat.lt_succ_of_lt hj, heq⟩

end Put

theorem exists_flooded (checks : Bool) (n : ℕ) (hn : n ≤ 256 ^ 32) : ∃ es t,
    run (step checks unitExternal) es (start unitStore .new) = some t ∧ Flooded n t := by
  induction n with
  | zero => exact ⟨[], _, rfl, flooded_start⟩
  | succ n ih =>
    obtain ⟨es, s, hs, hflooded⟩ := ih (Nat.le_of_succ_le hn)
    obtain ⟨s₁, h₁, hflooded₁, hflow⟩ := hflooded.syn checks
    obtain ⟨s₂, h₂, hflooded₂⟩ := hflooded₁.put checks hn hflow
    refine ⟨es ++ askToken s.endpoint.tcp.nextIss n, s₂, ?_, hflooded₂⟩
    rw [run_append, hs, Option.bind_some, askToken, run_cons h₁, run_cons h₂, run_nil]

/-- **What is retained is not bounded** by any size that memory can have. -/
theorem retained_unbounded : ¬ ∃ checks, ∃ bound < 2 ^ 64, ∀ es t,
    run (step checks unitExternal) es (start unitStore .new) = some t →
      t.endpoint.retained ≤ bound := by
  rintro ⟨checks, bound, hbound, hretained⟩
  obtain ⟨es, t, ht, hflooded⟩ := exists_flooded checks (bound + 1)
    (Nat.le_trans hbound (by decide))
  have hle := hretained es t ht
  have hlen : bound + 1 ≤ t.endpoint.retained :=
    calc bound + 1 = (t.endpoint.tokens.tokens.entries.map fun e => 1 + e.1.length).length := by
          rw [← hflooded.length, AList.keys, List.keys, List.length_map, List.length_map]
      _ ≤ (t.endpoint.tokens.tokens.entries.map fun e => 1 + e.1.length).sum :=
          List.length_le_sum_of_one_le _ fun i hi => by
            obtain ⟨e, -, rfl⟩ := List.mem_map.1 hi
            exact Nat.le_add_right 1 _
      _ ≤ t.endpoint.retained := Nat.le_add_left _ _
  omega

end Scenario

end Squib.Metadata
