import Squib.Mmds.Session

/-!
# The frames of a response

A response is sent in one segment, whose packet has 16-bit length fields.
-/

namespace Squib.Metadata

open Checked Internet

/-! ## Headers are read as they were written -/

variable {bytes : List UInt8} {i : ℕ}

theorem readBe16_toBe16 {x : UInt16} (h₀ : index bytes i = .ok (.ofNat (x.toNat / 256)))
    (h₁ : index bytes (i + 1) = .ok (.ofNat x.toNat)) : readBe16 bytes i = .ok x := by
  rw [readBe16, h₀, h₁, ok_bind, ok_bind, be16_toBe16]
  rfl

theorem readBe32_toBe32 {x : UInt32} (h₀ : index bytes i = .ok (.ofNat (x.toNat / 256 / 256 / 256)))
    (h₁ : index bytes (i + 1) = .ok (.ofNat (x.toNat / 256 / 256)))
    (h₂ : index bytes (i + 2) = .ok (.ofNat (x.toNat / 256)))
    (h₃ : index bytes (i + 3) = .ok (.ofNat x.toNat)) : readBe32 bytes i = .ok x := by
  rw [readBe32, h₀, h₁, h₂, h₃, ok_bind, ok_bind, ok_bind, ok_bind, be32_toBe32]
  rfl

theorem EthernetHeader.length_toBytes (h : EthernetHeader) : h.toBytes.length = ETHER_HDR_LEN := rfl

theorem EthernetHeader.parse_toBytes (h : EthernetHeader) (rest : List UInt8) :
    parse (h.toBytes ++ rest) = .ok (.ok h) := by
  have hbytes : h.toBytes ++ rest = h.dst.a :: h.dst.b :: h.dst.c :: h.dst.d :: h.dst.e :: h.dst.f ::
      h.src.a :: h.src.b :: h.src.c :: h.src.d :: h.src.e :: h.src.f ::
      .ofNat (h.ethertype.toNat / 256) :: .ofNat h.ethertype.toNat :: rest := rfl
  have hlen : ¬ (h.toBytes ++ rest).length < ETHER_HDR_LEN := by
    simp [hbytes, ETHER_HDR_LEN]
  generalize h.toBytes ++ rest = xs at *
  have hdst : readMac xs 0 = .ok h.dst := hbytes ▸ rfl
  have hsrc : readMac xs 6 = .ok h.src := hbytes ▸ rfl
  have htype : readBe16 xs 12 = .ok h.ethertype := hbytes ▸ readBe16_toBe16 rfl rfl
  rw [parse, if_neg hlen, hdst, hsrc, htype]
  rfl

@[simp] theorem Ipv4Addr.length_toBytes (ip : Ipv4Addr) : ip.toBytes.length = 4 := rfl

namespace Ipv4Header

variable (h : Ipv4Header)

theorem length_layout {checksum : List UInt8} (hlen : checksum.length = 2) :
    (h.layout checksum).length = IPV4_HDR_LEN := by
  simp [layout, hlen, IPV4_HDR_LEN]

@[simp] theorem length_toBytes : h.toBytes.length = IPV4_HDR_LEN := h.length_layout rfl

theorem layout_append (x : UInt16) (rest : List UInt8) : h.layout (toBe16 x) ++ rest =
    h.versionIhl :: h.tos :: .ofNat (h.totalLen.toNat / 256) :: .ofNat h.totalLen.toNat ::
      .ofNat (h.id.toNat / 256) :: .ofNat h.id.toNat :: .ofNat (h.flagsFrag.toNat / 256) ::
      .ofNat h.flagsFrag.toNat :: h.ttl :: h.protocol :: .ofNat (x.toNat / 256) :: .ofNat x.toNat ::
      h.src.a :: h.src.b :: h.src.c :: h.src.d :: h.dst.a :: h.dst.b :: h.dst.c :: h.dst.d :: rest :=
  rfl

theorem reads_toBytes (rest : List UInt8) : readBe16 (h.toBytes ++ rest) 2 = .ok h.totalLen ∧
    index (h.toBytes ++ rest) 9 = .ok h.protocol ∧ readIpv4 (h.toBytes ++ rest) 12 = .ok h.src ∧
    readIpv4 (h.toBytes ++ rest) 16 = .ok h.dst := by
  rw [toBytes, layout_append]
  exact ⟨readBe16_toBe16 rfl rfl, rfl, rfl, rfl⟩

theorem parse_toBytes (hversion : h.versionIhl = 0x45) (hfrag : h.flagsFrag = 0x4000)
    (hsum : h.checksum = 0) (rest : List UInt8) : parse (h.toBytes ++ rest) = .ok (.ok h) := by
  have hhdr : slice (h.toBytes ++ rest) 0 IPV4_HDR_LEN = .ok h.toBytes := by
    rw [slice]
    simp
  have hzero : (h.toBytes.set 10 0).set 11 0 = h.layout [0, 0] := rfl
  have hlen : ¬ (h.toBytes ++ rest).length < IPV4_HDR_LEN := by simp
  have hbytes := h.layout_append (onesComplementSum (h.layout [0, 0])) rest
  rw [← toBytes] at hbytes
  generalize h.toBytes ++ rest = xs at *
  have hversion' : index xs 0 = .ok h.versionIhl := hbytes ▸ rfl
  have htos : index xs 1 = .ok h.tos := hbytes ▸ rfl
  have htotal : readBe16 xs 2 = .ok h.totalLen := hbytes ▸ readBe16_toBe16 rfl rfl
  have hid : readBe16 xs 4 = .ok h.id := hbytes ▸ readBe16_toBe16 rfl rfl
  have hfrag' : readBe16 xs 6 = .ok h.flagsFrag := hbytes ▸ readBe16_toBe16 rfl rfl
  have httl : index xs 8 = .ok h.ttl := hbytes ▸ rfl
  have hprotocol : index xs 9 = .ok h.protocol := hbytes ▸ rfl
  have hchecksum : readBe16 xs 10 = .ok (onesComplementSum (h.layout [0, 0])) :=
    hbytes ▸ readBe16_toBe16 rfl rfl
  have hsrc : readIpv4 xs 12 = .ok h.src := hbytes ▸ rfl
  have hdst : readIpv4 xs 16 = .ok h.dst := hbytes ▸ rfl
  unfold parse
  rw [if_neg hlen, hversion', ok_bind, hversion, if_neg (by decide), if_neg (by decide), htotal,
    ok_bind, hfrag', ok_bind, hfrag, if_neg (by decide), htos, hid, httl, hprotocol, hchecksum, hsrc,
    hdst, hhdr]
  simp only [ok_bind, hzero]
  rw [if_neg (not_not.2 rfl), ← hversion, ← hfrag, ← hsum]
  rfl

end Ipv4Header

namespace TcpHeader

structure Plain (h : TcpHeader) : Prop where
  dataOffset : h.dataOffset = 5
  flags : h.flags &&& 0x3F = h.flags
  checksum : h.checksum = 0
  mss : h.mss = none

theorem plain_build {srcPort dstPort window : UInt16} {seq ack : UInt32} {flags : UInt8}
    (h : flags &&& 0x3F = flags) : (build srcPort dstPort seq ack flags window).Plain :=
  ⟨rfl, h, rfl, rfl⟩

variable (h : TcpHeader)

theorem length_layout {checksum : List UInt8} (hlen : checksum.length = 2) :
    (h.layout checksum).length = TCP_HDR_LEN := by
  simp [layout, hlen, TCP_HDR_LEN]

theorem length_toBytesWithPayload (src dst : Ipv4Addr) (payload : List UInt8) :
    (h.toBytesWithPayload src dst payload).length = TCP_HDR_LEN + payload.length := by
  rw [toBytesWithPayload, List.length_append, h.length_layout rfl]

def covered (src dst : Ipv4Addr) (payload checksum : List UInt8) : List UInt8 :=
  pseudoHeader src dst (clampU16 (TCP_HDR_LEN + payload.length)) ++ (h.layout checksum ++ payload)

theorem layout_append (x : UInt16) (rest : List UInt8) : h.layout (toBe16 x) ++ rest =
    .ofNat (h.srcPort.toNat / 256) :: .ofNat h.srcPort.toNat :: .ofNat (h.dstPort.toNat / 256) ::
      .ofNat h.dstPort.toNat :: .ofNat (h.seq.toNat / 256 / 256 / 256) ::
      .ofNat (h.seq.toNat / 256 / 256) :: .ofNat (h.seq.toNat / 256) :: .ofNat h.seq.toNat ::
      .ofNat (h.ack.toNat / 256 / 256 / 256) :: .ofNat (h.ack.toNat / 256 / 256) ::
      .ofNat (h.ack.toNat / 256) :: .ofNat h.ack.toNat :: (h.dataOffset <<< 4) :: h.flags ::
      .ofNat (h.window.toNat / 256) :: .ofNat h.window.toNat :: .ofNat (x.toNat / 256) ::
      .ofNat x.toNat :: .ofNat (h.urgent.toNat / 256) :: .ofNat h.urgent.toNat :: rest := rfl

theorem parse_layout (hplain : h.Plain) (src dst : Ipv4Addr) (payload : List UInt8) :
    parse (h.layout (toBe16 (onesComplementSum (h.covered src dst payload [0, 0])))) payload src
      dst = .ok (.ok h) := by
  generalize hcks : onesComplementSum (h.covered src dst payload [0, 0]) = cks
  have hlen : (h.layout (toBe16 cks)).length = TCP_HDR_LEN := h.length_layout rfl
  have hxs := h.layout_append cks []
  rw [List.append_nil] at hxs
  generalize h.layout (toBe16 cks) = xs at *
  have hsrcPort : readBe16 xs 0 = .ok h.srcPort := hxs ▸ readBe16_toBe16 rfl rfl
  have hdstPort : readBe16 xs 2 = .ok h.dstPort := hxs ▸ readBe16_toBe16 rfl rfl
  have hseq : readBe32 xs 4 = .ok h.seq := hxs ▸ readBe32_toBe32 rfl rfl rfl rfl
  have hack : readBe32 xs 8 = .ok h.ack := hxs ▸ readBe32_toBe32 rfl rfl rfl rfl
  have hoffset : index xs 12 = .ok (h.dataOffset <<< 4) := hxs ▸ rfl
  have hflags : index xs 13 = .ok h.flags := hxs ▸ rfl
  have hwindow : readBe16 xs 14 = .ok h.window := hxs ▸ readBe16_toBe16 rfl rfl
  have hsum : readBe16 xs 16 = .ok cks := hxs ▸ readBe16_toBe16 rfl rfl
  have hurgent : readBe16 xs 18 = .ok h.urgent := hxs ▸ readBe16_toBe16 rfl rfl
  -- the walk over the options stops before the first turn
  have hfive : ((5 : UInt8) <<< 4) >>> 4 = 5 := rfl
  have hwalk : Loop.loop (mssOption xs (4 * (5 : UInt8).toNat)) (4 * (5 : UInt8).toNat + 1)
      (TCP_HDR_LEN, none) = .ok (true, TCP_HDR_LEN, none) := rfl
  have hfront : slice xs 0 16 = .ok ((h.layout [0, 0]).take 16) := hxs ▸ rfl
  have hback : slice xs 18 (4 * (5 : UInt8).toNat) = .ok ((h.layout [0, 0]).drop 18) := hxs ▸ rfl
  have hbuf : pseudoHeader src dst (clampU16 (4 * (5 : UInt8).toNat + payload.length)) ++
      (h.layout [0, 0]).take 16 ++ [0, 0] ++ (h.layout [0, 0]).drop 18 ++ payload =
      h.covered src dst payload [0, 0] := by
    rfl
  unfold parse
  rw [if_neg (by omega), hoffset, ok_bind, hplain.dataOffset, hfive]
  rw [if_neg (by rw [hlen]; decide), hsrcPort, hdstPort, hseq, hack, hflags, hwindow, hsum, hurgent,
    hwalk, hfront, hback]
  simp only [ok_bind, hbuf, hcks, hplain.flags]
  rw [if_neg (not_not.2 rfl), ← hplain.dataOffset, ← hplain.checksum, ← hplain.mss]
  rfl

theorem toBytesWithPayload_eq (src dst : Ipv4Addr) (payload : List UInt8) :
    h.toBytesWithPayload src dst payload =
      h.layout (toBe16 (onesComplementSum (h.covered src dst payload [0, 0]))) ++ payload := by
  have hlen : (h.layout [0, 0]).length = TCP_HDR_LEN := h.length_layout rfl
  rw [toBytesWithPayload, List.length_append, hlen, covered]

end TcpHeader

/-! ## Packets -/

def packet (src dst : Ipv4Addr) (id : UInt16) (tcp : TcpHeader) (payload : List UInt8) :
    List UInt8 :=
  let tcpBytes := tcp.toBytesWithPayload src dst payload
  (Ipv4Header.build src dst .tcp (clampU16 tcpBytes.length) id).toBytes ++ tcpBytes

section Packet

variable {src dst : Ipv4Addr} {id : UInt16} {tcp : TcpHeader} {payload : List UInt8}

theorem packet_eq : packet src dst id tcp payload =
    (Ipv4Header.build src dst .tcp (clampU16 (TCP_HDR_LEN + payload.length)) id).toBytes ++
      tcp.toBytesWithPayload src dst payload := by
  rw [packet, tcp.length_toBytesWithPayload]

theorem length_packet : (packet src dst id tcp payload).length = payload.length + 40 := by
  rw [packet_eq, List.length_append, Ipv4Header.length_toBytes, tcp.length_toBytesWithPayload,
    IPV4_HDR_LEN, TCP_HDR_LEN]
  omega

theorem toNat_totalLen (n : ℕ) :
    (Ipv4Header.build src dst .tcp (clampU16 n) id).totalLen.toNat = min (n + 20) 65535 := by
  simp only [Ipv4Header.build, Ipv4Header.saturatingAdd16, clampU16, IPV4_HDR_LEN,
    UInt16.toNat_ofNat']
  omega

theorem carries_packet {s : TcpServer} (hplain : tcp.Plain) (hdst : s.serverIp = dst)
    (hport : s.serverPort = tcp.dstPort) (hlen : payload.length + 40 ≤ 65535) :
    s.Carries (packet src dst id tcp payload)
      (Ipv4Header.build src dst .tcp (clampU16 (TCP_HDR_LEN + payload.length)) id) tcp payload := by
  have htotal : (Ipv4Header.build src dst .tcp (clampU16 (TCP_HDR_LEN + payload.length))
      id).totalLen.toNat = payload.length + 40 := by
    rw [toNat_totalLen, TCP_HDR_LEN]
    omega
  have htcp : (packet src dst id tcp payload).drop IPV4_HDR_LEN =
      tcp.layout (toBe16 (onesComplementSum (tcp.covered src dst payload [0, 0]))) ++ payload := by
    rw [packet_eq, List.drop_left' (Ipv4Header.length_toBytes _), tcp.toBytesWithPayload_eq]
  have hend : tcpHdrEnd (packet src dst id tcp payload) = 40 := by
    have hoffset : (packet src dst id tcp payload)[IPV4_HDR_LEN + 12]? =
        some (tcp.dataOffset <<< 4) := by
      rw [← List.getElem?_drop, htcp]
      rfl
    rw [tcpHdrEnd, List.getD_eq_getElem?_getD, hoffset, hplain.dataOffset]
    rfl
  have hpayload : (packet src dst id tcp payload).drop 40 = payload := by
    rw [show 40 = IPV4_HDR_LEN + TCP_HDR_LEN from rfl, ← List.drop_drop, htcp,
      List.drop_left' (tcp.length_layout rfl)]
  refine ⟨?_, rfl, hdst.symm, ⟨?_, ?_, ?_⟩, ?_, ?_, ?_, hport.symm⟩
  · rw [packet_eq]
    exact Ipv4Header.parse_toBytes _ rfl rfl rfl _
  · rw [IPV4_HDR_LEN]
    omega
  · rw [htotal, length_packet]
  · rw [length_packet, IPV4_HDR_LEN]
    omega
  · omega
  · rw [hend, hpayload, List.take_of_length_le (by omega)]
  · rw [hend, htcp, show 40 - IPV4_HDR_LEN = TCP_HDR_LEN from rfl,
      List.take_left' (tcp.length_layout rfl)]
    exact tcp.parse_layout hplain src dst payload

end Packet

/-! ## Lengths and checksums -/

structure WellFormed (bytes : List UInt8) : Prop where
  totalLen : Returns (readBe16 bytes 2) fun n => n.toNat = bytes.length
  header : residue (wordSum (bytes.take IPV4_HDR_LEN)) = 65535
  segment : Returns (readIpv4 bytes 12) fun src => Returns (readIpv4 bytes 16) fun dst =>
    residue (wordSum (pseudoHeader src dst (.ofNat (bytes.length - IPV4_HDR_LEN)) ++
      bytes.drop IPV4_HDR_LEN)) = 65535

theorem residue_onesComplementSum {text : List UInt8 → List UInt8} (xs ys : List UInt8)
    (htext : ∀ checksum, text checksum = xs ++ checksum ++ ys) (hxs : xs.length % 2 = 0)
    (hlen : xs.length + ys.length ≤ 65560) :
    residue (wordSum (text (toBe16 (onesComplementSum (text [0, 0]))))) = 65535 := by
  have hle := wordSum_le (text [0, 0])
  simp only [htext, List.length_append, List.length_cons, List.length_nil] at hle
  rw [htext, wordSum_insert ys _ hxs, htext, toNat_onesComplementSum (by omega)]
  exact residue_checksum _

theorem Ipv4Header.residue_toBytes (h : Ipv4Header) : residue (wordSum h.toBytes) = 65535 := by
  refine residue_onesComplementSum ([h.versionIhl, h.tos] ++ toBe16 h.totalLen ++ toBe16 h.id ++
    toBe16 h.flagsFrag ++ [h.ttl, h.protocol]) (h.src.toBytes ++ h.dst.toBytes) ?_ (by simp)
    (by simp)
  intro checksum
  rw [layout, List.append_assoc (_ ++ checksum)]

theorem TcpHeader.residue_covered (h : TcpHeader) {src dst : Ipv4Addr} {payload : List UInt8}
    (hlen : payload.length + 40 ≤ 65535) :
    residue (wordSum (h.covered src dst payload
      (toBe16 (onesComplementSum (h.covered src dst payload [0, 0]))))) = 65535 := by
  refine residue_onesComplementSum (pseudoHeader src dst (clampU16 (TCP_HDR_LEN + payload.length)) ++
    (toBe16 h.srcPort ++ toBe16 h.dstPort ++ toBe32 h.seq ++ toBe32 h.ack ++
      [h.dataOffset <<< 4, h.flags] ++ toBe16 h.window)) (toBe16 h.urgent ++ payload) ?_
    (by simp [pseudoHeader]) ?_
  · intro checksum
    simp [covered, layout]
  · simp [pseudoHeader]
    omega

section Packet

variable {src dst : Ipv4Addr} {id : UInt16} {tcp : TcpHeader} {payload : List UInt8}

theorem wellFormed_packet_iff :
    WellFormed (packet src dst id tcp payload) ↔ payload.length + 40 ≤ 65535 := by
  obtain ⟨htotal, -, hsrc, hdst⟩ := Ipv4Header.reads_toBytes (.build src dst .tcp
    (clampU16 (TCP_HDR_LEN + payload.length)) id) (tcp.toBytesWithPayload src dst payload)
  rw [← packet_eq] at htotal hsrc hdst
  constructor
  · rintro ⟨hlen, -, -⟩
    have hn := hlen.of_eq htotal
    rw [toNat_totalLen, length_packet] at hn
    omega
  · intro hlen
    have htake : (packet src dst id tcp payload).take IPV4_HDR_LEN = (Ipv4Header.build src dst .tcp
        (clampU16 (TCP_HDR_LEN + payload.length)) id).toBytes := by
      rw [packet_eq, List.take_left' (Ipv4Header.length_toBytes _)]
    have hdrop : (packet src dst id tcp payload).drop IPV4_HDR_LEN =
        tcp.toBytesWithPayload src dst payload := by
      rw [packet_eq, List.drop_left' (Ipv4Header.length_toBytes _)]
    have htcpLen : UInt16.ofNat ((packet src dst id tcp payload).length - IPV4_HDR_LEN) =
        clampU16 (TCP_HDR_LEN + payload.length) := by
      rw [length_packet, clampU16, IPV4_HDR_LEN, TCP_HDR_LEN,
        show payload.length + 40 - 20 = min (20 + payload.length) 65535 by omega]
    refine ⟨⟨_, htotal, ?_⟩, ?_, ⟨src, hsrc, dst, hdst, ?_⟩⟩
    · dsimp only
      rw [toNat_totalLen, length_packet, TCP_HDR_LEN]
      omega
    · rw [htake, Ipv4Header.residue_toBytes]
    · rw [htcpLen, hdrop, tcp.toBytesWithPayload_eq]
      exact tcp.residue_covered hlen

end Packet

/-! ## Reassembly -/

def receiveBytes (ip : Ipv4Addr) (port : UInt16) (r : UInt32 × List UInt8) (bytes : List UInt8) :
    UInt32 × List UInt8 :=
  match (TcpServer.new ip port).segment bytes with
  | .ok (some (_, hdr, payload)) =>
    if hdr.seq = r.1 then (r.1 + .ofNat payload.length, r.2 ++ payload) else r
  | _ => r

def reassemble (ip : Ipv4Addr) (port : UInt16) (next : UInt32) (packets : List (List UInt8)) :
    List UInt8 :=
  (packets.foldl (receiveBytes ip port) (next, [])).2

section Reassemble

variable {src dst : Ipv4Addr} {id : UInt16} {tcp : TcpHeader} {payload : List UInt8}

theorem reassemble_packet (hplain : tcp.Plain) (hlen : payload.length + 40 ≤ 65535) :
    reassemble dst tcp.dstPort tcp.seq [packet src dst id tcp payload] = payload := by
  have hcarries : (TcpServer.new dst tcp.dstPort).Carries (packet src dst id tcp payload) _ tcp
      payload := carries_packet hplain rfl rfl hlen
  have hsegment := TcpServer.segment_eq_some_iff.2 hcarries
  rw [reassemble, List.foldl_cons, List.foldl_nil, receiveBytes, hsegment]
  dsimp only
  rw [if_pos rfl, List.nil_append]

theorem TcpServer.Carries.length_payload_lt {s : TcpServer} {bytes : List UInt8} {ip : Ipv4Header}
    (h : s.Carries bytes ip tcp payload) : payload.length < 65536 := by
  have hlt := ip.totalLen.toNat_lt
  rw [h.payload_eq, List.length_take]
  omega

theorem length_reassemble_lt (ip : Ipv4Addr) (port : UInt16) (next : UInt32) (bytes : List UInt8) :
    (reassemble ip port next [bytes]).length < 65536 := by
  rw [reassemble, List.foldl_cons, receiveBytes]
  split
  · next ip' hdr payload hsegment =>
    have hcarries := TcpServer.segment_eq_some_iff.1 hsegment
    split_ifs
    · exact hcarries.length_payload_lt
    · simp
  · simp

end Reassemble

/-! ## Responses -/

theorem HttpResponse.length_body_le (r : HttpResponse) : r.body.length ≤ r.toWire.length := by
  rw [toWire, List.length_append]
  exact Nat.le_add_left _ _

section Response

variable {s : TcpServer} {key : ConnKey} {c : Conn}

def responseHeader (s : TcpServer) (key : ConnKey) (c : Conn) : TcpHeader :=
  TcpHeader.build s.serverPort key.srcPort c.sndNxt c.rcvNxt (TCP_ACK ||| TCP_PSH ||| TCP_FIN) 0xFFFF

theorem outQueue_sendResponse (hc : s.conns.lookup key = some c) (r : HttpResponse) :
    (s.sendResponse key r).outQueue = s.outQueue ++ [{
      dstMac := s.guestMac.getD broadcastMac
      ethPayload :=
        packet s.serverIp key.srcIp (s.ipId + 1) (responseHeader s key c) r.toWire }] := by
  unfold TcpServer.sendResponse
  rw [hc]
  rfl

/-- **The frames for a response** are well formed, and a receiver recovers the response from them,
exactly if the response fits into one packet. -/
theorem response_recovered_iff (hc : s.conns.lookup key = some c) (r : HttpResponse) :
    ∃ frames, (s.sendResponse key r).outQueue = s.outQueue ++ frames ∧
      ((∀ f ∈ frames, WellFormed f.ethPayload) ∧
          reassemble key.srcIp key.srcPort c.sndNxt (frames.map (·.ethPayload)) = r.toWire ↔
        IPV4_HDR_LEN + TCP_HDR_LEN + r.toWire.length ≤ 65535) := by
  refine ⟨_, outQueue_sendResponse hc r, ?_⟩
  generalize r.toWire = wire
  constructor
  · rintro ⟨hwell, -⟩
    have hlen := wellFormed_packet_iff.1 (hwell _ (List.mem_singleton_self _))
    rw [IPV4_HDR_LEN, TCP_HDR_LEN]
    omega
  · intro hlen
    have hlen' : wire.length + 40 ≤ 65535 := by
      rw [IPV4_HDR_LEN, TCP_HDR_LEN] at hlen
      omega
    have hplain : (responseHeader s key c).Plain := TcpHeader.plain_build rfl
    have hbytes : reassemble key.srcIp (responseHeader s key c).dstPort (responseHeader s key c).seq
        [packet s.serverIp key.srcIp (s.ipId + 1) (responseHeader s key c) wire] = wire :=
      reassemble_packet hplain hlen'
    refine ⟨fun f hf => ?_, hbytes⟩
    rw [List.mem_singleton.1 hf]
    exact wellFormed_packet_iff.2 hlen'

section Scenario

def guestKey : ConnKey := { srcIp := guestIp, srcPort := guestPort }

def waitingConn : Conn where
  state := .established
  sndNxt := 0x40000001
  rcvNxt := 100
  rcvBuf := []
  clientIss := 99
  serverIss := 0x40000000
  log := []

def waitingServer : TcpServer :=
  (TcpServer.new MMDS_DEFAULT_IPV4 MmdsInterceptor.HTTP_PORT).put guestKey waitingConn

theorem response_recovered_malformedRequest :
    ∃ frames, (waitingServer.sendResponse guestKey TcpServer.malformedRequest).outQueue = frames ∧
      (∀ f ∈ frames, WellFormed f.ethPayload) ∧
      reassemble guestIp guestPort 0x40000001 (frames.map (·.ethPayload)) =
        TcpServer.malformedRequest.toWire := by
  have hc : waitingServer.conns.lookup guestKey = some waitingConn := rfl
  obtain ⟨frames, hframes, hiff⟩ := response_recovered_iff hc TcpServer.malformedRequest
  exact ⟨frames, hframes, hiff.2 (by decide +kernel)⟩

def largeBody : List UInt8 := List.replicate 65536 65

def largeExternal : External Unit := { unitExternal with toVec _ := some largeBody }

def largeStore : Mmds Unit := { version := .v1, data := (), sizeCap := 131072 }

def getRoot : HttpRequest where
  method := Text.bytes "GET"
  path := Text.bytes "/"
  tokenHeader := none
  ttlHeader := none
  body := []

def largeResponse : HttpResponse := (httpHandler largeExternal stillEnv largeStore getRoot .new).1

theorem large_response_lost :
    largeResponse = { status := 200, body := largeBody } ∧
      largeBody.length ≤ largeStore.sizeCap ∧
      ∃ f, (waitingServer.sendResponse guestKey largeResponse).outQueue = [f] ∧
        ¬ WellFormed f.ethPayload ∧
        reassemble guestIp guestPort 0x40000001 [f.ethPayload] ≠ largeResponse.toWire := by
  have hc : waitingServer.conns.lookup guestKey = some waitingConn := rfl
  have hresponse : largeResponse = { status := 200, body := largeBody } := rfl
  have hbody : largeBody.length = 65536 := List.length_replicate
  have hlen : 65536 ≤ largeResponse.toWire.length :=
    calc 65536 = largeResponse.body.length := by rw [hresponse, hbody]
      _ ≤ largeResponse.toWire.length := largeResponse.length_body_le
  refine ⟨hresponse, by rw [hbody]; decide, _, outQueue_sendResponse hc largeResponse, ?_, ?_⟩
  · rw [wellFormed_packet_iff]
    omega
  · intro h
    have hlt := length_reassemble_lt guestIp guestPort 0x40000001 (packet waitingServer.serverIp
      guestKey.srcIp (waitingServer.ipId + 1) (responseHeader waitingServer guestKey waitingConn)
      largeResponse.toWire)
    rw [h] at hlt
    omega

end Scenario

end Response

end Squib.Metadata
