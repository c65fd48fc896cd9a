import Squib.Mmds.Session
import Squib.Virtio.Devices.Net

/-!
# Which frames for the service reach the host network
-/

namespace Squib.Metadata

open Checked Internet

/-! ## Parsing frames -/

theorem ArpPacket.parse_eq_ok {body : List UInt8} {op : UInt16} {ip : Ipv4Addr}
    (htype : readBe16 body 0 = .ok ARP_HTYPE_ETHER) (hptype : readBe16 body 2 = .ok ARP_PTYPE_IPV4)
    (hhlen : index body 4 = .ok ARP_HLEN) (hplen : index body 5 = .ok ARP_PLEN)
    (hop : readBe16 body 6 = .ok op) (hip : readIpv4 body 24 = .ok ip) :
    ∃ arp, parse body = .ok (.ok arp) ∧ arp.op = op ∧ arp.targetIp = ip := by
  have hlen : 24 + 4 ≤ body.length := le_length_of_readIpv4 hip
  obtain ⟨senderMac, h₈, -⟩ : Returns (readMac body 8) _ := returns_readMac (by omega)
  obtain ⟨senderIp, h₁₄, -⟩ : Returns (readIpv4 body 14) _ := returns_readIpv4 (by omega)
  obtain ⟨targetMac, h₁₈, -⟩ : Returns (readMac body 18) _ := returns_readMac (by omega)
  have hshort : ¬ body.length < ARP_PACKET_LEN := Nat.not_lt.2 hlen
  refine ⟨{ op, senderMac, senderIp, targetMac, targetIp := ip }, ?_, rfl, rfl⟩
  rw [parse, if_neg hshort, htype, hptype, hhlen, hplen, hop, h₈, h₁₄, h₁₈, hip]
  rfl

theorem EthernetHeader.parse_eq_ok {frame : List UInt8} {ethertype : UInt16}
    (h : readBe16 frame 12 = .ok ethertype) :
    ∃ eth, parse frame = .ok (.ok eth) ∧ eth.ethertype = ethertype := by
  have hlen : 12 + 2 ≤ frame.length := le_length_of_readBe16 h
  obtain ⟨dst, h₀, -⟩ : Returns (readMac frame 0) _ := returns_readMac (by omega)
  obtain ⟨src, h₆, -⟩ : Returns (readMac frame 6) _ := returns_readMac (by omega)
  have hshort : ¬ frame.length < ETHER_HDR_LEN := Nat.not_lt.2 hlen
  refine ⟨{ dst, src, ethertype }, ?_, rfl⟩
  rw [parse, if_neg hshort, h₀, h₆, h]
  rfl

namespace MmdsInterceptor

variable {Value : Type} (s : MmdsInterceptor Value)

/-! ## Frames for the service -/

def Ipv4For (frame : List UInt8) : Prop :=
  readBe16 frame 12 = .ok ETHERTYPE_IPV4 ∧ readIpv4 frame 30 = .ok s.mmdsIp

def ArpFor (frame : List UInt8) : Prop :=
  readBe16 frame 12 = .ok ETHERTYPE_ARP ∧ readBe16 frame 14 = .ok ARP_HTYPE_ETHER ∧
    readBe16 frame 16 = .ok ARP_PTYPE_IPV4 ∧ index frame 18 = .ok ARP_HLEN ∧
    index frame 19 = .ok ARP_PLEN ∧ readBe16 frame 20 = .ok ARP_OP_REQUEST ∧
    readIpv4 frame 38 = .ok s.mmdsIp

instance (frame : List UInt8) : Decidable (s.Ipv4For frame) := by
  unfold Ipv4For
  infer_instance

instance (frame : List UInt8) : Decidable (s.ArpFor frame) := by
  unfold ArpFor
  infer_instance

variable {s} {frame : List UInt8}

theorem arpRequest_of_arpFor (h : s.ArpFor frame) : (s.arpRequest frame).isSome := by
  obtain ⟨htype, h₀, h₂, h₄, h₅, h₆, h₂₄⟩ := h
  obtain ⟨eth, heth, htype⟩ := EthernetHeader.parse_eq_ok htype
  obtain ⟨arp, harp, hop, hip⟩ : ∃ arp, ArpPacket.parse (frame.drop ETHER_HDR_LEN) = .ok (.ok arp) ∧
      arp.op = ARP_OP_REQUEST ∧ arp.targetIp = s.mmdsIp := ArpPacket.parse_eq_ok
    ((readBe16_drop ..).trans h₀) ((readBe16_drop ..).trans h₂) ((index_drop ..).trans h₄)
    ((index_drop ..).trans h₅) ((readBe16_drop ..).trans h₆) ((readIpv4_drop ..).trans h₂₄)
  rw [arpRequest, heth]
  dsimp only
  rw [if_pos htype, harp]
  dsimp only
  rw [if_pos ⟨hop, hip⟩]
  rfl

theorem arpRequest_eq_none (h : readBe16 frame 12 = .ok ETHERTYPE_IPV4) :
    s.arpRequest frame = none := by
  obtain ⟨eth, heth, htype⟩ := EthernetHeader.parse_eq_ok h
  rw [arpRequest, heth]
  exact if_neg fun harp => absurd (htype.symm.trans harp) (by decide)

theorem arrival_eq_none (h : readBe16 frame 12 = .ok ETHERTYPE_ARP) : s.arrival frame = none := by
  obtain ⟨eth, heth, htype⟩ := EthernetHeader.parse_eq_ok h
  have htcp : s.tcpPacket frame = none := by
    rw [tcpPacket, heth]
    exact if_neg fun hip => absurd (htype.symm.trans hip.1) (by decide)
  rw [arrival, htcp]
  rfl

theorem exists_arrival_iff (h : s.Ipv4For frame) (P : ConnKey → TcpHeader → List UInt8 → Prop) :
    (∃ a, s.arrival frame = some a ∧ P a.key a.hdr a.payload) ↔
      ∃ ip tcp payload, s.tcp.Carries (frame.drop ETHER_HDR_LEN) ip tcp payload ∧
        P { srcIp := ip.src, srcPort := tcp.srcPort } tcp payload := by
  obtain ⟨eth, heth, htype⟩ := EthernetHeader.parse_eq_ok h.1
  have hdst : readIpv4 (frame.drop ETHER_HDR_LEN) 16 = .ok s.mmdsIp := (readIpv4_drop ..).trans h.2
  constructor
  · rintro ⟨a, ha, hP⟩
    obtain ⟨⟨mac, body⟩, hbody, ha⟩ := Option.bind_eq_some_iff.1 ha
    rw [tcpPacket, heth] at hbody
    dsimp only at hbody
    split_ifs at hbody
    cases hbody
    obtain ⟨r, hseg, hcarries⟩ := s.tcp.segment_returns (frame.drop ETHER_HDR_LEN)
    dsimp only at ha
    rw [hseg] at ha
    cases r with
    | none => cases ha
    | some seg =>
      obtain ⟨ip, tcp, payload⟩ := seg
      cases ha
      exact ⟨ip, tcp, payload, hcarries ip tcp payload rfl, hP⟩
  · rintro ⟨ip, tcp, payload, hcarries, hP⟩
    have hproto : index (frame.drop ETHER_HDR_LEN) 9 = .ok IP_PROTO_TCP := by
      rw [((Ipv4Header.parse_returns _).of_eq hcarries.ip_parse ip rfl).protocol, hcarries.protocol]
      rfl
    have htcp : s.tcpPacket frame = some (eth.src, frame.drop ETHER_HDR_LEN) := by
      rw [tcpPacket, heth]
      exact if_pos ⟨htype, hdst, hproto⟩
    refine ⟨{ mac := eth.src, key := { srcIp := ip.src, srcPort := tcp.srcPort }, hdr := tcp
              payload }, ?_, hP⟩
    rw [arrival, htcp, Option.bind_some]
    dsimp only
    rw [TcpServer.segment_eq_some_iff.2 hcarries]

theorem intercept_true_iff (checks : Bool) (ext : External Value) (env : Env)
    (s : MmdsInterceptor Value) (frame : List UInt8) :
    (∃ t, s.intercept checks ext env frame = .ok (true, t)) ↔
      (∃ a, s.arrival frame = some a ∧ ¬ s.Overflows checks a) ∨
      (s.arrival frame = none ∧ (s.arpRequest frame).isSome) := by
  rw [intercept_eq]
  cases ha : s.arrival frame with
  | some a =>
    by_cases hover : s.Overflows checks a
    · obtain ⟨crash, hcrash⟩ := serve_eq_error checks ext env hover
      simp [hcrash, hover, Except.map]
    · obtain ⟨t, ht, -⟩ := serve_eq_ok checks ext env hover
      simp [ht, hover, Except.map]
  | none =>
    rw [decline]
    cases s.arpRequest frame with
    | some sender => simp
    | none => cases s.tcpPacket frame <;> simp

end MmdsInterceptor

/-! ## What reaches the host network -/

structure Host (Value : Type) where
  endpoint : MmdsInterceptor Value
  sent : List NetDevice.Frame

section Host

variable {Value : Type}

def netInterceptor (checks : Bool) (ext : External Value) (env : Env) :
    NetDevice.FrameInterceptor (Option (Host Value)) where
  interceptTx frame host :=
    match host with
    | none => (true, none)
    | some host =>
      match host.endpoint.intercept checks ext env frame with
      | .ok (consumed, endpoint) => (consumed, some { host with endpoint })
      | .error _ => (true, none)
  drainRx host :=
    match host with
    | none => ([], none)
    | some host =>
      let (frames, endpoint) := host.endpoint.drainRx
      (frames, some { host with endpoint })

def netBackend : NetDevice.NetBackend (Option (Host Value)) where
  send frame host := host.map fun host => { host with sent := host.sent ++ [frame] }
  recv host := ([], host)

def Reaches (checks : Bool) (ext : External Value) (env : Env) (host : Host Value)
    (frame : NetDevice.Frame) : Prop :=
  ∃ endpoint, NetDevice.transmit netBackend (netInterceptor checks ext env) frame (some host) =
    some { endpoint, sent := host.sent ++ [frame] }

theorem reaches_iff (checks : Bool) (ext : External Value) (env : Env) (host : Host Value)
    (frame : NetDevice.Frame) :
    Reaches checks ext env host frame ↔
      host.endpoint.arrival frame = none ∧ host.endpoint.arpRequest frame = none := by
  unfold Reaches NetDevice.transmit netInterceptor netBackend
  dsimp only
  rw [MmdsInterceptor.intercept_eq]
  cases ha : host.endpoint.arrival frame with
  | some a =>
    dsimp only
    cases host.endpoint.serve checks ext env a with
    | error crash => simp [Except.map]
    | ok t => simp [Except.map]
  | none =>
    dsimp only
    rw [MmdsInterceptor.decline]
    cases host.endpoint.arpRequest frame with
    | some sender => simp
    | none => cases host.endpoint.tcpPacket frame <;> simp

/-- **Which frames for the service are consumed**, and which reach the host network. -/
theorem intercept_consumes_iff (checks : Bool) (ext : External Value) (env : Env)
    (host : Host Value) (frame : NetDevice.Frame)
    (hbound : host.endpoint.Ipv4For frame ∨ host.endpoint.ArpFor frame) :
    ((∃ t, host.endpoint.intercept checks ext env frame = .ok (true, t)) ↔
      host.endpoint.ArpFor frame ∨
      ∃ ip tcp payload, host.endpoint.tcp.Carries (frame.drop ETHER_HDR_LEN) ip tcp payload ∧
        ¬ Flow.Overflows checks host.endpoint.tcp.nextIss
          (host.endpoint.flow { srcIp := ip.src, srcPort := tcp.srcPort }) tcp payload) ∧
    (Reaches checks ext env host frame ↔
      ¬ (host.endpoint.ArpFor frame ∨
        ∃ ip tcp payload, host.endpoint.tcp.Carries (frame.drop ETHER_HDR_LEN) ip tcp payload)) := by
  rw [MmdsInterceptor.intercept_true_iff, reaches_iff]
  obtain hip | harp := hbound
  · have harp : ¬ host.endpoint.ArpFor frame := fun h => by
      rw [MmdsInterceptor.ArpFor, hip.1] at h
      exact absurd (Except.ok.inj h.1) (by decide)
    have hnone : host.endpoint.arpRequest frame = none :=
      MmdsInterceptor.arpRequest_eq_none hip.1
    have hfits := MmdsInterceptor.exists_arrival_iff hip fun key tcp payload =>
      ¬ Flow.Overflows checks host.endpoint.tcp.nextIss (host.endpoint.flow key) tcp payload
    have harrives := MmdsInterceptor.exists_arrival_iff hip fun _ _ _ => True
    simp only [and_true] at harrives
    rw [← hfits, ← harrives, hnone]
    simp only [harp, false_or, Option.isSome_none, Bool.false_eq_true, and_false, or_false,
      and_true]
    exact ⟨Iff.rfl, by simp [Option.eq_none_iff_forall_ne_some]⟩
  · have hnone : host.endpoint.arrival frame = none := MmdsInterceptor.arrival_eq_none harp.1
    have hsome := MmdsInterceptor.arpRequest_of_arpFor harp
    rw [hnone]
    simp [harp, hsome, Option.isSome_iff_ne_none.1 hsome]

end Host

section Scenario

def unitHost : Host Unit := { endpoint := .new unitStore .new, sent := [] }

def whoHas : NetDevice.Frame :=
  let eth : EthernetHeader := { dst := broadcastMac, src := guestMac, ethertype := ETHERTYPE_ARP }
  let arp : ArpPacket :=
    { op := ARP_OP_REQUEST, senderMac := guestMac, senderIp := guestIp
      targetMac := ⟨0, 0, 0, 0, 0, 0⟩, targetIp := MMDS_DEFAULT_IPV4 }
  eth.toBytes ++ arp.toBytes

def datagram : NetDevice.Frame :=
  let eth : EthernetHeader :=
    { dst := MMDS_SYNTHETIC_MAC, src := guestMac, ethertype := ETHERTYPE_IPV4 }
  let udp := toBe16 guestPort ++ toBe16 53 ++ toBe16 8 ++ toBe16 0
  eth.toBytes ++ (Ipv4Header.build guestIp MMDS_DEFAULT_IPV4 .udp 8 1).toBytes ++ udp

theorem intercept_consumes_whoHas :
    unitHost.endpoint.ArpFor whoHas ∧
      ∃ t, unitHost.endpoint.intercept true unitExternal stillEnv whoHas = .ok (true, t) := by
  have harp : unitHost.endpoint.ArpFor whoHas := by decide +kernel
  exact ⟨harp, (intercept_consumes_iff true unitExternal stillEnv unitHost whoHas
    (.inr harp)).1.2 (.inl harp)⟩

theorem datagram_reaches_host :
    unitHost.endpoint.Ipv4For datagram ∧
      (unitHost.endpoint.intercept true unitExternal stillEnv datagram).map Prod.fst = .ok false ∧
      (NetDevice.transmit netBackend (netInterceptor true unitExternal stillEnv) datagram
        (some unitHost)).map Host.sent = some [datagram] := by
  decide +kernel

end Scenario

end Squib.Metadata
