import Squib.Lib.Run
import Squib.Mmds.Connection
import Squib.Mmds.Interceptor

/-!
# Runs of the interceptor
-/

namespace Squib.Metadata

open Checked Internet

structure Arrival where
  mac : MacAddr
  key : ConnKey
  hdr : TcpHeader
  payload : List UInt8
  deriving DecidableEq, Repr

/-! ## The frames that the TCP server takes -/

def tcpHdrEnd (body : List UInt8) : ℕ :=
  IPV4_HDR_LEN + 4 * (body.getD (IPV4_HDR_LEN + 12) 0 >>> 4).toNat

structure TcpServer.Carries (s : TcpServer) (body : List UInt8) (ip : Ipv4Header) (tcp : TcpHeader)
    (payload : List UInt8) : Prop where
  ip_parse : Ipv4Header.parse body = .ok (.ok ip)
  protocol : ip.protocol = IpProtocol.tcp.toWire
  dst : ip.dst = s.serverIp
  length : IPV4_HDR_LEN < ip.totalLen.toNat ∧ ip.totalLen.toNat ≤ body.length ∧
    IPV4_HDR_LEN + 13 ≤ body.length
  header : tcpHdrEnd body ≤ ip.totalLen.toNat
  payload_eq : payload = (body.drop (tcpHdrEnd body)).take (ip.totalLen.toNat - tcpHdrEnd body)
  tcp_parse : TcpHeader.parse ((body.drop IPV4_HDR_LEN).take (tcpHdrEnd body - IPV4_HDR_LEN)) payload
    ip.src ip.dst = .ok (.ok tcp)
  port : tcp.dstPort = s.serverPort

theorem TcpServer.segment_returns (s : TcpServer) (body : List UInt8) :
    Returns (s.segment body) fun r =>
      ∀ ip tcp payload, r = some (ip, tcp, payload) → s.Carries body ip tcp payload := by
  unfold segment
  obtain ⟨r, hip, -⟩ := Ipv4Header.parse_returns body
  rw [hip, ok_bind]
  cases r with
  | error e => exact returns_pure nofun
  | ok ip =>
    dsimp only
    by_cases hproto : ip.protocol ≠ IpProtocol.tcp.toWire
    · rw [if_pos hproto]
      exact returns_pure nofun
    by_cases hdst : ip.dst ≠ s.serverIp
    · rw [if_neg hproto, if_pos hdst]
      exact returns_pure nofun
    rw [if_neg hproto, if_neg hdst]
    by_cases hlen : ip.totalLen.toNat > body.length ∨ IPV4_HDR_LEN ≥ ip.totalLen.toNat
    · rw [if_pos hlen]
      exact returns_pure nofun
    by_cases hshort : body.length < IPV4_HDR_LEN + 13
    · rw [if_neg hlen, if_pos hshort]
      exact returns_pure nofun
    rw [if_neg hlen, if_neg hshort]
    refine (returns_index (by omega)).bind fun o ho => ?_
    have hend : IPV4_HDR_LEN + 4 * (o >>> 4).toNat = tcpHdrEnd body := by
      rw [tcpHdrEnd, List.getD_eq_getElem?_getD, ho, Option.getD_some]
    rw [hend]
    by_cases hhdr : tcpHdrEnd body > ip.totalLen.toNat
    · rw [if_pos hhdr]
      exact returns_pure nofun
    have hle : IPV4_HDR_LEN ≤ tcpHdrEnd body := Nat.le_add_right _ _
    rw [if_neg hhdr]
    refine (returns_slice (by omega) (by omega)).bind fun payload hpayload => ?_
    refine (returns_slice hle (by omega)).bind fun tcpBytes htcpBytes => ?_
    obtain ⟨r, htcp, -⟩ := TcpHeader.parse_returns tcpBytes payload ip.src ip.dst
    rw [htcp]
    cases r with
    | error e => exact returns_pure nofun
    | ok tcp =>
      refine returns_pure fun ip' tcp' payload' h => ?_
      by_cases hport : tcp.dstPort ≠ s.serverPort
      · rw [if_pos hport] at h
        cases h
      · rw [if_neg hport] at h
        cases h
        exact ⟨hip, not_not.1 hproto, not_not.1 hdst, ⟨by omega, by omega, by omega⟩, by omega,
          hpayload.1, htcpBytes.1 ▸ htcp, not_not.1 hport⟩

theorem TcpServer.segment_eq_some_iff {s : TcpServer} {body payload : List UInt8} {ip : Ipv4Header}
    {tcp : TcpHeader} :
    s.segment body = .ok (some (ip, tcp, payload)) ↔ s.Carries body ip tcp payload := by
  constructor
  · exact fun h => (s.segment_returns body).of_eq h ip tcp payload rfl
  · rintro ⟨hip, hproto, hdst, ⟨h₁, h₂, h₃⟩, hhdr, rfl, htcp, hport⟩
    obtain ⟨o, ho, ho'⟩ : Returns (index body (IPV4_HDR_LEN + 12)) _ := returns_index (by omega)
    have hend : IPV4_HDR_LEN + 4 * (o >>> 4).toNat = tcpHdrEnd body := by
      rw [tcpHdrEnd, List.getD_eq_getElem?_getD, ho', Option.getD_some]
    have hle : IPV4_HDR_LEN ≤ tcpHdrEnd body := Nat.le_add_right _ _
    rw [segment, hip, ok_bind]
    dsimp only
    rw [if_neg (not_not.2 hproto), if_neg (not_not.2 hdst), if_neg (by omega), if_neg (by omega),
      ho, ok_bind, hend, if_neg (by omega), slice, if_pos ⟨hhdr, h₂⟩, ok_bind, slice,
      if_pos ⟨hle, by omega⟩, ok_bind, htcp, ok_bind]
    dsimp only
    rw [if_neg (not_not.2 hport)]
    rfl

namespace MmdsInterceptor

variable {Value : Type} (s : MmdsInterceptor Value)

def tcpPacket (frame : List UInt8) : Option (MacAddr × List UInt8) :=
  match EthernetHeader.parse frame with
  | .ok (.ok eth) =>
    let body := frame.drop ETHER_HDR_LEN
    if eth.ethertype = ETHERTYPE_IPV4 ∧ readIpv4 body 16 = .ok s.mmdsIp ∧
        index body 9 = .ok IP_PROTO_TCP then some (eth.src, body)
    else none
  | _ => none

def arrival (frame : List UInt8) : Option Arrival :=
  (s.tcpPacket frame).bind fun (mac, body) =>
    match s.tcp.segment body with
    | .ok (some (ip, hdr, payload)) =>
      some { mac, key := { srcIp := ip.src, srcPort := hdr.srcPort }, hdr, payload }
    | _ => none

def arpRequest (frame : List UInt8) : Option (MacAddr × Ipv4Addr) :=
  match EthernetHeader.parse frame with
  | .ok (.ok eth) =>
    if eth.ethertype = ETHERTYPE_ARP then
      match ArpPacket.parse (frame.drop ETHER_HDR_LEN) with
      | .ok (.ok arp) =>
        if arp.op = ARP_OP_REQUEST ∧ arp.targetIp = s.mmdsIp then some (eth.src, arp.senderIp)
        else none
      | _ => none
    else none
  | _ => none

def serve (checks : Bool) (ext : External Value) (env : Env) (a : Arrival) :
    Except Crash (MmdsInterceptor Value) := do
  let (tcp, tokens) ← TcpServer.dispatch { s.tcp with guestMac := some a.mac } checks
    (httpHandler ext env s.mmds) a.key a.hdr a.payload s.tokens
  return { s with tcp, tokens }.flushTcpOutbound

def decline (frame : List UInt8) : Bool × MmdsInterceptor Value :=
  match s.arpRequest frame with
  | some (mac, ip) =>
    (true, { s with pendingRx := s.pendingRx ++ [buildArpReplyFrame s.mmdsMac s.mmdsIp mac ip] })
  | none =>
    match s.tcpPacket frame with
    | some _ => (false, s.flushTcpOutbound)
    | none => (false, s)

variable {s} {frame : List UInt8} (checks : Bool) (ext : External Value) (env : Env)

theorem slice_body (h : ETHER_HDR_LEN ≤ frame.length) :
    slice frame ETHER_HDR_LEN frame.length = .ok (frame.drop ETHER_HDR_LEN) := by
  rw [slice, if_pos ⟨h, Nat.le_refl _⟩, List.take_of_length_le (by rw [List.length_drop])]

theorem handleArp_eq (eth : EthernetHeader) (body : List UInt8) :
    s.handleArp eth body = .ok
      (match ArpPacket.parse body with
      | .ok (.ok arp) =>
        if arp.op = ARP_OP_REQUEST ∧ arp.targetIp = s.mmdsIp then
          (true, { s with pendingRx := s.pendingRx ++
            [buildArpReplyFrame s.mmdsMac s.mmdsIp eth.src arp.senderIp] })
        else (false, s)
      | _ => (false, s)) := by
  obtain ⟨r, hr, -⟩ := ArpPacket.parse_returns body
  rw [handleArp, hr, ok_bind]
  cases r with
  | error e => rfl
  | ok arp =>
    dsimp only
    by_cases h : arp.op = ARP_OP_REQUEST ∧ arp.targetIp = s.mmdsIp
    · rw [if_pos h, if_neg (by tauto)]
      rfl
    · rw [if_neg h, if_pos (by tauto)]
      rfl

theorem handleIpFrame_eq {η : Type} (tcp : TcpServer) (handler : Handler η) (mac : MacAddr)
    (body : List UInt8) (h : η) :
    tcp.handleIpFrame checks handler mac body h =
      match tcp.segment body with
      | .ok (some (ip, hdr, payload)) =>
        (TcpServer.dispatch { tcp with guestMac := some mac } checks handler
          { srcIp := ip.src, srcPort := hdr.srcPort } hdr payload h).map fun r => (true, r)
      | _ => .ok (false, tcp, h) := by
  obtain ⟨r, hr, -⟩ := tcp.segment_returns body
  rw [TcpServer.handleIpFrame, hr]
  cases r with
  | none => rfl
  | some seg =>
    obtain ⟨ip, hdr, payload⟩ := seg
    cases TcpServer.dispatch { tcp with guestMac := some mac } checks handler
      { srcIp := ip.src, srcPort := hdr.srcPort } hdr payload h with
    | error e => rfl
    | ok r => rfl

theorem handleIpv4_eq (eth : EthernetHeader) (body : List UInt8) :
    s.handleIpv4 checks ext env eth body =
      if readIpv4 body 16 = .ok s.mmdsIp ∧ index body 9 = .ok IP_PROTO_TCP then
        match s.tcp.segment body with
        | .ok (some (ip, hdr, payload)) =>
          (s.serve checks ext env
            { mac := eth.src, key := { srcIp := ip.src, srcPort := hdr.srcPort }, hdr
              payload }).map fun t => (true, t)
        | _ => .ok (false, s.flushTcpOutbound)
      else .ok (false, s) := by
  unfold handleIpv4
  by_cases hlen : body.length < 20
  · rw [if_pos hlen, if_neg]
    · rfl
    · rintro ⟨h, -⟩
      have := le_length_of_readIpv4 h
      omega
  · rw [if_neg hlen]
    obtain ⟨dst, hdst, -⟩ : Returns (readIpv4 body 16) fun _ => True :=
      returns_readIpv4 (by omega)
    obtain ⟨proto, hproto, -⟩ : Returns (index body 9) _ := returns_index (by omega)
    rw [hdst, hproto, lift_ok, ok_bind, lift_ok, ok_bind]
    by_cases hip : dst = s.mmdsIp
    · rw [if_neg (not_not.2 hip)]
      by_cases htcp : proto = IP_PROTO_TCP
      · rw [if_pos htcp, if_pos ⟨congrArg _ hip, congrArg _ htcp⟩, handleIpFrame_eq]
        obtain ⟨r, hr, -⟩ := s.tcp.segment_returns body
        rw [hr]
        cases r with
        | none => rfl
        | some seg =>
          obtain ⟨ip, hdr, payload⟩ := seg
          dsimp only
          rw [serve]
          cases TcpServer.dispatch { s.tcp with guestMac := some eth.src } checks
            (httpHandler ext env s.mmds) { srcIp := ip.src, srcPort := hdr.srcPort } hdr payload
            s.tokens with
          | error e => rfl
          | ok r => rfl
      · rw [if_neg htcp, if_neg fun h => htcp (Except.ok.inj h.2)]
        rfl
    · rw [if_pos hip, if_neg fun h => hip (Except.ok.inj h.1)]
      rfl

theorem intercept_eq (s : MmdsInterceptor Value) (frame : List UInt8) :
    s.intercept checks ext env frame =
      match s.arrival frame with
      | some a => (s.serve checks ext env a).map fun t => (true, t)
      | none => .ok (s.decline frame) := by
  obtain ⟨r, hr, hlen⟩ := EthernetHeader.parse_returns frame
  rw [intercept, hr, lift_ok, ok_bind]
  cases r with
  | error e =>
    have htcp : s.tcpPacket frame = none := by rw [tcpPacket, hr]
    have harp : s.arpRequest frame = none := by rw [arpRequest, hr]
    rw [arrival, decline, htcp, harp]
    rfl
  | ok eth =>
    dsimp only
    rw [slice_body (hlen eth rfl).1, lift_ok, ok_bind, ok_bind]
    by_cases harp : eth.ethertype = ETHERTYPE_ARP
    · have htcp : s.tcpPacket frame = none := by
        rw [tcpPacket, hr]
        exact if_neg fun h => absurd (harp.symm.trans h.1) (by decide)
      have harp' : s.arpRequest frame =
          match ArpPacket.parse (frame.drop ETHER_HDR_LEN) with
          | .ok (.ok arp) =>
            if arp.op = ARP_OP_REQUEST ∧ arp.targetIp = s.mmdsIp then some (eth.src, arp.senderIp)
            else none
          | _ => none := by
        rw [arpRequest, hr]
        exact if_pos harp
      obtain ⟨r, hparse, -⟩ := ArpPacket.parse_returns (frame.drop ETHER_HDR_LEN)
      rw [if_pos harp, handleArp_eq, arrival, decline, htcp, harp', hparse]
      cases r with
      | error e => rfl
      | ok arp =>
        dsimp only
        split_ifs <;> rfl
    · have harp' : s.arpRequest frame = none := by
        rw [arpRequest, hr]
        exact if_neg harp
      rw [if_neg harp]
      by_cases hip : eth.ethertype = ETHERTYPE_IPV4
      · rw [if_pos hip, handleIpv4_eq]
        by_cases hbody : readIpv4 (frame.drop ETHER_HDR_LEN) 16 = .ok s.mmdsIp ∧
            index (frame.drop ETHER_HDR_LEN) 9 = .ok IP_PROTO_TCP
        · have htcp : s.tcpPacket frame = some (eth.src, frame.drop ETHER_HDR_LEN) := by
            rw [tcpPacket, hr]
            exact if_pos ⟨hip, hbody⟩
          obtain ⟨r, hseg, -⟩ := s.tcp.segment_returns (frame.drop ETHER_HDR_LEN)
          rw [if_pos hbody, arrival, decline, htcp, harp', Option.bind_some]
          dsimp only
          rw [hseg]
          cases r with
          | none | some seg => rfl
        · have htcp : s.tcpPacket frame = none := by
            rw [tcpPacket, hr]
            exact if_neg fun h => hbody h.2
          rw [if_neg hbody, arrival, decline, htcp, harp']
          rfl
      · have htcp : s.tcpPacket frame = none := by
          rw [tcpPacket, hr]
          exact if_neg fun h => hip h.1
        rw [if_neg hip, arrival, decline, htcp, harp']
        rfl

/-! ## What becomes of the state -/

def flow (s : MmdsInterceptor Value) (key : ConnKey) : Option Conn := s.tcp.conns.lookup key

def next (s : MmdsInterceptor Value) (a : Arrival) : Option Conn × TokenStore :=
  Flow.receive s.tcp.serverPort s.tcp.nextIss a.key (httpHandler ext env s.mmds) (s.flow a.key) a.hdr
    a.payload s.tokens

structure Quiet (s t : MmdsInterceptor Value) : Prop where
  conns : t.tcp.conns = s.tcp.conns
  serverPort : t.tcp.serverPort = s.tcp.serverPort
  nextIss : t.tcp.nextIss = s.tcp.nextIss
  tokens : t.tokens = s.tokens
  mmds : t.mmds = s.mmds

structure Served (s : MmdsInterceptor Value) (a : Arrival) (t : MmdsInterceptor Value) : Prop where
  follows : TcpServer.Follows s.tcp t.tcp a.key a.hdr (s.next ext env a).1
  tokens : t.tokens = (s.next ext env a).2
  mmds : t.mmds = s.mmds
  mmdsIp : t.mmdsIp = s.mmdsIp

def Overflows (s : MmdsInterceptor Value) (a : Arrival) : Prop :=
  Flow.Overflows checks s.tcp.nextIss (s.flow a.key) a.hdr a.payload

variable {a : Arrival}

theorem serve_eq_ok (h : ¬ s.Overflows checks a) :
    ∃ t, s.serve checks ext env a = .ok t ∧ Served ext env s a t := by
  obtain ⟨tcp, htcp, hfollows⟩ : ∃ tcp,
      TcpServer.dispatch { s.tcp with guestMac := some a.mac } checks (httpHandler ext env s.mmds)
        a.key a.hdr a.payload s.tokens = .ok (tcp, (s.next ext env a).2) ∧
      TcpServer.Follows { s.tcp with guestMac := some a.mac } tcp a.key a.hdr (s.next ext env a).1 :=
    TcpServer.dispatch_eq_ok checks _ _ h
  refine ⟨flushTcpOutbound { s with tcp, tokens := (s.next ext env a).2 }, ?_, ?_, rfl, rfl, rfl⟩
  · rw [serve, htcp]
    rfl
  · exact ⟨hfollows.conns, hfollows.serverPort, hfollows.serverIp, hfollows.nextIss⟩

theorem serve_eq_error (h : s.Overflows checks a) :
    ∃ crash, s.serve checks ext env a = .error crash := by
  obtain ⟨crash, hcrash⟩ : ∃ crash,
      TcpServer.dispatch { s.tcp with guestMac := some a.mac } checks (httpHandler ext env s.mmds)
        a.key a.hdr a.payload s.tokens = .error crash :=
    TcpServer.dispatch_eq_error checks _ _ h
  exact ⟨crash, by rw [serve, hcrash]; rfl⟩

theorem quiet_decline (s : MmdsInterceptor Value) (frame : List UInt8) :
    Quiet s (s.decline frame).2 := by
  unfold decline
  cases s.arpRequest frame with
  | some sender => exact ⟨rfl, rfl, rfl, rfl, rfl⟩
  | none =>
    cases s.tcpPacket frame with
    | some packet | none => exact ⟨rfl, rfl, rfl, rfl, rfl⟩

end MmdsInterceptor

/-! ## Runs -/

inductive Event where
  | frame (env : Env) (bytes : List UInt8)
  | drain
  | setIpv4 (ip : Ipv4Addr)

structure Session (Value : Type) where
  endpoint : MmdsInterceptor Value
  delivered : List (List UInt8)

namespace Session

variable {Value : Type}

def start (mmds : Mmds Value) (tokens : TokenStore) : Session Value where
  endpoint := .new mmds tokens
  delivered := []

def step (checks : Bool) (ext : External Value) (s : Session Value) : Event → Option (Session Value)
  | .frame env bytes =>
    match s.endpoint.intercept checks ext env bytes with
    | .ok (_, endpoint) => some { s with endpoint }
    | .error _ => none
  | .drain =>
    let (frames, endpoint) := s.endpoint.drainRx
    some { endpoint, delivered := s.delivered ++ frames }
  | .setIpv4 ip => some { s with endpoint := s.endpoint.setIpv4 ip }

def arrival (s : Session Value) : Event → Option Arrival
  | .frame _ bytes => s.endpoint.arrival bytes
  | _ => none

variable {checks : Bool} {ext : External Value} {s t : Session Value} {e : Event}

theorem step_of_none (ha : s.arrival e = none) :
    ∃ t, s.step checks ext e = some t ∧ MmdsInterceptor.Quiet s.endpoint t.endpoint := by
  cases e with
  | drain | setIpv4 ip => exact ⟨_, rfl, ⟨rfl, rfl, rfl, rfl, rfl⟩⟩
  | frame env bytes =>
    have ha' : s.endpoint.arrival bytes = none := ha
    refine ⟨{ s with endpoint := (s.endpoint.decline bytes).2 }, ?_,
      MmdsInterceptor.quiet_decline s.endpoint bytes⟩
    rw [step, MmdsInterceptor.intercept_eq, ha']

section Frame

variable {env : Env} {bytes : List UInt8} {a : Arrival}

theorem step_of_arrival (ha : s.endpoint.arrival bytes = some a)
    (hfit : ¬ s.endpoint.Overflows checks a) :
    ∃ t, s.step checks ext (.frame env bytes) = some t ∧
      MmdsInterceptor.Served ext env s.endpoint a t.endpoint := by
  obtain ⟨m, hm, hserved⟩ := MmdsInterceptor.serve_eq_ok checks ext env hfit
  refine ⟨{ s with endpoint := m }, ?_, hserved⟩
  rw [step, MmdsInterceptor.intercept_eq, ha]
  dsimp only
  rw [hm]
  rfl

theorem step_of_overflows (ha : s.endpoint.arrival bytes = some a)
    (hover : s.endpoint.Overflows checks a) : s.step checks ext (.frame env bytes) = none := by
  obtain ⟨crash, hcrash⟩ := MmdsInterceptor.serve_eq_error checks ext env hover
  rw [step, MmdsInterceptor.intercept_eq, ha]
  dsimp only
  rw [hcrash]
  rfl

end Frame

theorem step_cases (h : s.step checks ext e = some t) :
    (s.arrival e = none ∧ MmdsInterceptor.Quiet s.endpoint t.endpoint) ∨
      ∃ env a, s.arrival e = some a ∧ MmdsInterceptor.Served ext env s.endpoint a t.endpoint := by
  cases ha : s.arrival e with
  | none =>
    obtain ⟨t', ht', hquiet⟩ := step_of_none ha
    rw [ht'] at h
    cases h
    exact .inl ⟨rfl, hquiet⟩
  | some a =>
    cases e with
    | drain | setIpv4 ip => cases ha
    | frame env bytes =>
      by_cases hover : s.endpoint.Overflows checks a
      · rw [step_of_overflows ha hover] at h
        cases h
      · obtain ⟨t', ht', hserved⟩ := step_of_arrival ha hover
        rw [ht'] at h
        cases h
        exact .inr ⟨env, a, rfl, hserved⟩

def received (s : Session Value) (e : Event) : Option (Conn × Arrival) :=
  (s.arrival e).bind fun a =>
    if a.hdr.isRst = true ∨ Flow.Opens a.hdr then none
    else (s.endpoint.flow a.key).map fun c => (c, a)

def Flows (P : Conn → Prop) (s : Session Value) : Prop :=
  ∀ key c, s.endpoint.flow key = some c → P c

theorem flows_start (P : Conn → Prop) (mmds : Mmds Value) (tokens : TokenStore) :
    Flows P (start mmds tokens) := nofun

theorem flows_step {P : Conn → Prop} (h : s.step checks ext e = some t) (hs : Flows P s)
    (hopen : ∀ port iss tcp, P (Conn.accept port iss tcp))
    (hreceive : ∀ {η : Type} (handler : Handler η) (port : UInt16) (x : η) (c c' : Conn)
      (a : Arrival), s.received e = some (c, a) → P c →
      (c.receive port a.key handler a.hdr a.payload x).1 = some c' → P c') :
    Flows P t := by
  obtain ⟨-, hquiet⟩ | ⟨env, a, ha, hserved⟩ := step_cases h
  · intro key c hc
    rw [MmdsInterceptor.flow, hquiet.conns] at hc
    exact hs key c hc
  · intro key c hc
    rw [MmdsInterceptor.flow, hserved.follows.conns] at hc
    by_cases hkey : key = a.key
    · rw [hkey, Flow.lookup_store, MmdsInterceptor.next] at hc
      unfold Flow.receive at hc
      split_ifs at hc with hrst hopens
      · cases hc
        exact hopen _ _ _
      · cases hflow : s.endpoint.flow a.key with
        | none =>
          rw [hflow] at hc
          cases hc
        | some d =>
          rw [hflow] at hc
          have hd : s.received e = some (d, a) := by
            rw [received, ha, Option.bind_some, if_neg (not_or.2 ⟨hrst, hopens⟩), hflow]
            rfl
          exact hreceive _ _ _ d c a hd (hs _ d hflow) hc
    · rw [Flow.lookup_store_ne hkey] at hc
      exact hs key c hc

end Session

/-! ## A guest -/

def guestMac : MacAddr := ⟨0x06, 0x00, 0xAB, 0xCD, 0xEF, 0x01⟩
def guestIp : Ipv4Addr := ⟨169, 254, 1, 1⟩
def guestPort : UInt16 := 40000

def guestFrame (seq ack : UInt32) (flags : UInt8) (payload : List UInt8) : List UInt8 :=
  let eth : EthernetHeader :=
    { dst := MMDS_SYNTHETIC_MAC, src := guestMac, ethertype := ETHERTYPE_IPV4 }
  let tcp := TcpHeader.build guestPort MmdsInterceptor.HTTP_PORT seq ack flags 0xFFFF
  let tcpBytes := tcp.toBytesWithPayload guestIp MMDS_DEFAULT_IPV4 payload
  let ip := Ipv4Header.build guestIp MMDS_DEFAULT_IPV4 .tcp (clampU16 tcpBytes.length) 1
  eth.toBytes ++ ip.toBytes ++ tcpBytes

def unitExternal : External Unit where
  encode := id
  pointer _ _ := none
  toVec _ := some []

def unitStore : Mmds Unit := { version := .v2, data := (), sizeCap := 8192 }

def stillEnv : Env := { now := 0, entropy := none }

end Squib.Metadata
