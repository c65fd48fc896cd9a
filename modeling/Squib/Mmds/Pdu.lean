import Squib.Core.Arith
import Squib.Lib.Internet
import Squib.Lib.Loop

/-!
# Ethernet, ARP, IPv4 and TCP headers
-/

namespace Squib.Metadata

open Checked Internet

/-! ## Addresses and errors -/

structure Ipv4Addr where
  a : UInt8
  b : UInt8
  c : UInt8
  d : UInt8
  deriving DecidableEq, Repr

structure MacAddr where
  a : UInt8
  b : UInt8
  c : UInt8
  d : UInt8
  e : UInt8
  f : UInt8
  deriving DecidableEq, Repr

def Ipv4Addr.toBytes (ip : Ipv4Addr) : List UInt8 := [ip.a, ip.b, ip.c, ip.d]

def MacAddr.toBytes (mac : MacAddr) : List UInt8 := [mac.a, mac.b, mac.c, mac.d, mac.e, mac.f]

inductive PduError where
  | tooShort
  | unsupported (field : String)
  | badChecksum
  deriving DecidableEq, Repr

section Read

variable (bytes : List UInt8) (i : ℕ)

def readBe16 : Except Panic UInt16 := do
  let a ← index bytes i
  let b ← index bytes (i + 1)
  return be16 a b

def readBe32 : Except Panic UInt32 := do
  let a ← index bytes i
  let b ← index bytes (i + 1)
  let c ← index bytes (i + 2)
  let d ← index bytes (i + 3)
  return be32 a b c d

def readIpv4 : Except Panic Ipv4Addr := do
  let a ← index bytes i
  let b ← index bytes (i + 1)
  let c ← index bytes (i + 2)
  let d ← index bytes (i + 3)
  return { a, b, c, d }

def readMac : Except Panic MacAddr := do
  let a ← index bytes i
  let b ← index bytes (i + 1)
  let c ← index bytes (i + 2)
  let d ← index bytes (i + 3)
  let e ← index bytes (i + 4)
  let f ← index bytes (i + 5)
  return { a, b, c, d, e, f }

end Read

/-! ## The checksum -/

def addWords : UInt32 → List UInt8 → UInt32
  | sum, a :: b :: rest => addWords (sum + (be16 a b).toUInt32) rest
  | sum, [a] => sum + (be16 a 0).toUInt32
  | sum, [] => sum

def foldCarries : ℕ → UInt32 → UInt32
  | 0, sum => sum
  | n + 1, sum =>
    if sum >>> 16 ≠ 0 then foldCarries n ((sum &&& (0xFFFF : UInt32)) + (sum >>> 16)) else sum

def onesComplementSum (bytes : List UInt8) : UInt16 :=
  ~~~ (foldCarries 2 (addWords 0 bytes)).toUInt16

theorem toNat_addWords : ∀ (sum : UInt32) (bytes : List UInt8),
    (addWords sum bytes).toNat = (sum.toNat + wordSum bytes) % 2 ^ 32
  | sum, a :: b :: rest => by
    rw [addWords, toNat_addWords _ rest, wordSum, UInt32.toNat_add, UInt16.toNat_toUInt32]
    omega
  | sum, [a] => by
    rw [addWords, wordSum, UInt32.toNat_add, UInt16.toNat_toUInt32]
  | sum, [] => by
    rw [addWords, wordSum, Nat.add_zero, Nat.mod_eq_of_lt sum.toNat_lt]

theorem toNat_shiftRight_sixteen (sum : UInt32) : (sum >>> 16).toNat = sum.toNat / 65536 := by
  rw [UInt32.toNat_shiftRight, Nat.shiftRight_eq_div_pow]
  rfl

theorem toNat_fold_step (sum : UInt32) :
    ((sum &&& (0xFFFF : UInt32)) + (sum >>> 16)).toNat = carry sum.toNat := by
  have hsum := sum.toNat_lt
  have hand : (sum &&& (0xFFFF : UInt32)).toNat = sum.toNat % 65536 := by
    exact Nat.and_two_pow_sub_one_eq_mod sum.toNat 16
  rw [UInt32.toNat_add, hand, toNat_shiftRight_sixteen, carry, Nat.mod_eq_of_lt (by omega)]

theorem shiftRight_sixteen_eq_zero {sum : UInt32} : sum >>> 16 = 0 ↔ sum.toNat < 65536 := by
  rw [← UInt32.toNat_inj, toNat_shiftRight_sixteen, UInt32.toNat_zero]
  omega

theorem toNat_foldCarries (sum : UInt32) : (foldCarries 2 sum).toNat = residue sum.toNat := by
  have hlt := carry_carry_lt sum.toNat_lt
  simp only [foldCarries]
  split_ifs with h₁ h₂
  · rw [toNat_fold_step, toNat_fold_step, ← residue_of_lt hlt, residue_carry, residue_carry]
  · rw [not_not, shiftRight_sixteen_eq_zero, toNat_fold_step] at h₂
    rw [toNat_fold_step, ← residue_of_lt h₂, residue_carry]
  · rw [not_not, shiftRight_sixteen_eq_zero] at h₁
    rw [residue_of_lt h₁]

variable {bytes : List UInt8}

theorem toNat_onesComplementSum (h : wordSum bytes < 2 ^ 32) :
    (onesComplementSum bytes).toNat = 65535 - residue (wordSum bytes) := by
  have hlt := residue_lt (wordSum bytes)
  rw [onesComplementSum, UInt16.toNat_not, UInt32.toNat_toUInt16, toNat_foldCarries, toNat_addWords,
    UInt32.toNat_zero, Nat.zero_add, Nat.mod_eq_of_lt h, Nat.mod_eq_of_lt hlt]
  rfl

theorem foldCarries_add (n : ℕ) : ∀ (m : ℕ) (sum : UInt32),
    foldCarries (m + n) sum = foldCarries n (foldCarries m sum)
  | 0, sum => by rw [Nat.zero_add, foldCarries]
  | m + 1, sum => by
    rw [Nat.add_right_comm, foldCarries, foldCarries]
    split_ifs with h
    · exact foldCarries_add n m _
    · cases n with
      | zero => rfl
      | succ n => rw [foldCarries, if_neg h]

theorem foldCarries_two_shiftRight (sum : UInt32) : foldCarries 2 sum >>> 16 = 0 := by
  rw [shiftRight_sixteen_eq_zero, toNat_foldCarries]
  exact residue_lt _

/-- **The checksum of RFC 1071.** The loop over the carries ends within two rounds. -/
theorem onesComplementSum_rfc1071 {bytes : List UInt8} (h : bytes.length ≤ 65547) :
    (∀ n, foldCarries (2 + n) (addWords 0 bytes) = foldCarries 2 (addWords 0 bytes)) ∧
    foldCarries 2 (addWords 0 bytes) >>> 16 = 0 ∧
    onesComplementSum bytes = ~~~ onesSum bytes ∧
    ∀ xs ys, bytes = xs ++ [0, 0] ++ ys → xs.length % 2 = 0 →
      onesSum (xs ++ toBe16 (onesComplementSum bytes) ++ ys) = 0xFFFF := by
  have hdone := foldCarries_two_shiftRight (addWords 0 bytes)
  have hle := wordSum_le bytes
  have hsum := @toNat_onesComplementSum bytes (by omega)
  refine ⟨fun n => ?_, hdone, ?_, fun xs ys hbytes hxs => ?_⟩
  · rw [foldCarries_add]
    cases n with
    | zero => rfl
    | succ n => rw [foldCarries, if_neg (not_not.2 hdone)]
  · apply UInt16.toNat.inj
    rw [hsum, UInt16.toNat_not, toNat_onesSum]
    rfl
  · apply UInt16.toNat.inj
    rw [toNat_onesSum, wordSum_insert ys _ hxs, ← hbytes, hsum]
    exact residue_checksum _

theorem onesComplementSum_rfc1071_insert :
    [69, 0, 0, 0].length ≤ 65547 ∧
      onesSum ([69, 0] ++ toBe16 (onesComplementSum [69, 0, 0, 0]) ++ []) = 0xFFFF :=
  ⟨by decide, (onesComplementSum_rfc1071 (by decide)).2.2.2 [69, 0] [] rfl rfl⟩

/-! ## Ethernet -/

def ETHER_HDR_LEN : ℕ := 14
def ETHERTYPE_IPV4 : UInt16 := 0x0800
def ETHERTYPE_ARP : UInt16 := 0x0806

structure EthernetHeader where
  dst : MacAddr
  src : MacAddr
  ethertype : UInt16
  deriving DecidableEq, Repr

namespace EthernetHeader

def parse (frame : List UInt8) : Except Panic (Except PduError EthernetHeader) := do
  if frame.length < ETHER_HDR_LEN then return .error .tooShort
  let dst ← readMac frame 0
  let src ← readMac frame 6
  let ethertype ← readBe16 frame 12
  return .ok { dst, src, ethertype }

def toBytes (h : EthernetHeader) : List UInt8 :=
  h.dst.toBytes ++ h.src.toBytes ++ toBe16 h.ethertype

end EthernetHeader

/-! ## ARP -/

def ARP_PACKET_LEN : ℕ := 28
def ARP_HTYPE_ETHER : UInt16 := 1
def ARP_PTYPE_IPV4 : UInt16 := 0x0800
def ARP_HLEN : UInt8 := 6
def ARP_PLEN : UInt8 := 4
def ARP_OP_REQUEST : UInt16 := 1
def ARP_OP_REPLY : UInt16 := 2

structure ArpPacket where
  op : UInt16
  senderMac : MacAddr
  senderIp : Ipv4Addr
  targetMac : MacAddr
  targetIp : Ipv4Addr
  deriving DecidableEq, Repr

namespace ArpPacket

def parse (arpBody : List UInt8) : Except Panic (Except PduError ArpPacket) := do
  if arpBody.length < ARP_PACKET_LEN then return .error .tooShort
  let htype ← readBe16 arpBody 0
  let ptype ← readBe16 arpBody 2
  let hlen ← index arpBody 4
  let plen ← index arpBody 5
  let op ← readBe16 arpBody 6
  if htype ≠ ARP_HTYPE_ETHER then return .error (.unsupported "ARP htype is not Ethernet")
  if ptype ≠ ARP_PTYPE_IPV4 then return .error (.unsupported "ARP ptype is not IPv4")
  if hlen ≠ ARP_HLEN ∨ plen ≠ ARP_PLEN then return .error (.unsupported "ARP hlen/plen mismatch")
  let senderMac ← readMac arpBody 8
  let senderIp ← readIpv4 arpBody 14
  let targetMac ← readMac arpBody 18
  let targetIp ← readIpv4 arpBody 24
  return .ok { op, senderMac, senderIp, targetMac, targetIp }

def toBytes (p : ArpPacket) : List UInt8 :=
  toBe16 ARP_HTYPE_ETHER ++ toBe16 ARP_PTYPE_IPV4 ++ [ARP_HLEN, ARP_PLEN] ++ toBe16 p.op ++
    p.senderMac.toBytes ++ p.senderIp.toBytes ++ p.targetMac.toBytes ++ p.targetIp.toBytes

end ArpPacket

def buildArpReplyFrame (fromMac : MacAddr) (fromIp : Ipv4Addr) (toMac : MacAddr)
    (toIp : Ipv4Addr) : List UInt8 :=
  let eth : EthernetHeader := { dst := toMac, src := fromMac, ethertype := ETHERTYPE_ARP }
  let arp : ArpPacket :=
    { op := ARP_OP_REPLY, senderMac := fromMac, senderIp := fromIp
      targetMac := toMac, targetIp := toIp }
  eth.toBytes ++ arp.toBytes

/-! ## IPv4 -/

def IPV4_HDR_LEN : ℕ := 20
def DEFAULT_TTL : UInt8 := 64

inductive IpProtocol where
  | icmp
  | tcp
  | udp
  deriving DecidableEq, Repr

def IpProtocol.toWire : IpProtocol → UInt8
  | .icmp => 1
  | .tcp => 6
  | .udp => 17

structure Ipv4Header where
  versionIhl : UInt8
  tos : UInt8
  totalLen : UInt16
  id : UInt16
  flagsFrag : UInt16
  ttl : UInt8
  protocol : UInt8
  checksum : UInt16
  src : Ipv4Addr
  dst : Ipv4Addr
  deriving DecidableEq, Repr

namespace Ipv4Header

def parse (bytes : List UInt8) : Except Panic (Except PduError Ipv4Header) := do
  if bytes.length < IPV4_HDR_LEN then return .error .tooShort
  let versionIhl ← index bytes 0
  if versionIhl >>> 4 ≠ 4 then return .error (.unsupported "IPv4: version != 4")
  if versionIhl &&& 0x0F ≠ 5 then
    return .error (.unsupported "IPv4: header has options (IHL > 5)")
  let totalLen ← readBe16 bytes 2
  let flagsFrag ← readBe16 bytes 6
  if flagsFrag &&& 0x2000 ≠ 0 ∨ flagsFrag &&& 0x1FFF ≠ 0 then
    return .error (.unsupported "IPv4: fragmentation")
  let tos ← index bytes 1
  let id ← readBe16 bytes 4
  let ttl ← index bytes 8
  let protocol ← index bytes 9
  let checksum ← readBe16 bytes 10
  let src ← readIpv4 bytes 12
  let dst ← readIpv4 bytes 16
  let hdr ← slice bytes 0 IPV4_HDR_LEN
  let hdrZero := (hdr.set 10 0).set 11 0
  if onesComplementSum hdrZero ≠ checksum then return .error .badChecksum
  return .ok { versionIhl, tos, totalLen, id, flagsFrag, ttl, protocol, checksum := 0, src, dst }

def saturatingAdd16 (a b : UInt16) : UInt16 := .ofNat (min (a.toNat + b.toNat) 65535)

def build (src dst : Ipv4Addr) (protocol : IpProtocol) (payloadLen id : UInt16) : Ipv4Header where
  versionIhl := 0x45
  tos := 0
  totalLen := saturatingAdd16 (.ofNat IPV4_HDR_LEN) payloadLen
  id := id
  flagsFrag := 0x4000
  ttl := DEFAULT_TTL
  protocol := protocol.toWire
  checksum := 0
  src := src
  dst := dst

def layout (h : Ipv4Header) (checksum : List UInt8) : List UInt8 :=
  [h.versionIhl, h.tos] ++ toBe16 h.totalLen ++ toBe16 h.id ++ toBe16 h.flagsFrag ++
    [h.ttl, h.protocol] ++ checksum ++ h.src.toBytes ++ h.dst.toBytes

def toBytes (h : Ipv4Header) : List UInt8 :=
  h.layout (toBe16 (onesComplementSum (h.layout [0, 0])))

end Ipv4Header

/-! ## TCP -/

def TCP_HDR_LEN : ℕ := 20
def TCP_FIN : UInt8 := 1
def TCP_SYN : UInt8 := 2
def TCP_RST : UInt8 := 4
def TCP_PSH : UInt8 := 8
def TCP_ACK : UInt8 := 16

def clampU16 (n : ℕ) : UInt16 := .ofNat (min n 65535)

def pseudoHeader (src dst : Ipv4Addr) (tcpLen : UInt16) : List UInt8 :=
  src.toBytes ++ dst.toBytes ++ [0, IpProtocol.tcp.toWire] ++ toBe16 tcpLen

structure TcpHeader where
  srcPort : UInt16
  dstPort : UInt16
  seq : UInt32
  ack : UInt32
  dataOffset : UInt8
  flags : UInt8
  window : UInt16
  checksum : UInt16
  urgent : UInt16
  mss : Option UInt16
  deriving DecidableEq, Repr

namespace TcpHeader

def mssOption (bytes : List UInt8) (hdrLen : ℕ) (s : ℕ × Option UInt16) :
    Except Panic (Loop.Ctl (ℕ × Option UInt16)) := do
  let (i, mss) := s
  if ¬ i + 1 < hdrLen then return .brk s
  let kind ← index bytes i
  if kind = 0 then return .brk s
  if kind = 1 then return .next (i + 1, mss)
  if i + 1 ≥ hdrLen then return .brk s
  let len ← index bytes (i + 1)
  if len.toNat < 2 ∨ i + len.toNat > hdrLen then return .brk s
  if kind = 2 ∧ len.toNat = 4 ∧ i + 4 ≤ hdrLen then
    let value ← readBe16 bytes (i + 2)
    return .next (i + len.toNat, some value)
  return .next (i + len.toNat, mss)

def parse (bytes payload : List UInt8) (srcIp dstIp : Ipv4Addr) :
    Except Panic (Except PduError TcpHeader) := do
  if bytes.length < TCP_HDR_LEN then return .error .tooShort
  let offsetByte ← index bytes 12
  let dataOffset := offsetByte >>> 4
  let hdrLen := 4 * dataOffset.toNat
  if hdrLen < TCP_HDR_LEN ∨ bytes.length < hdrLen then return .error .tooShort
  let srcPort ← readBe16 bytes 0
  let dstPort ← readBe16 bytes 2
  let seq ← readBe32 bytes 4
  let ack ← readBe32 bytes 8
  let flags ← index bytes 13
  let window ← readBe16 bytes 14
  let checksum ← readBe16 bytes 16
  let urgent ← readBe16 bytes 18
  let (_, _, mss) ← Loop.loop (mssOption bytes hdrLen) (hdrLen + 1) (TCP_HDR_LEN, none)
  let front ← slice bytes 0 16
  let back ← slice bytes 18 hdrLen
  let tcpLen := clampU16 (hdrLen + payload.length)
  let sumBuf := pseudoHeader srcIp dstIp tcpLen ++ front ++ [0, 0] ++ back ++ payload
  if onesComplementSum sumBuf ≠ checksum then return .error .badChecksum
  return .ok
    { srcPort, dstPort, seq, ack, dataOffset, flags := flags &&& 0x3F, window, checksum := 0
      urgent, mss }

def build (srcPort dstPort : UInt16) (seq ack : UInt32) (flags : UInt8) (window : UInt16) :
    TcpHeader where
  srcPort := srcPort
  dstPort := dstPort
  seq := seq
  ack := ack
  dataOffset := 5
  flags := flags
  window := window
  checksum := 0
  urgent := 0
  mss := none

def layout (h : TcpHeader) (checksum : List UInt8) : List UInt8 :=
  toBe16 h.srcPort ++ toBe16 h.dstPort ++ toBe32 h.seq ++ toBe32 h.ack ++
    [h.dataOffset <<< 4, h.flags] ++ toBe16 h.window ++ checksum ++ toBe16 h.urgent

def toBytesWithPayload (h : TcpHeader) (srcIp dstIp : Ipv4Addr) (payload : List UInt8) :
    List UInt8 :=
  let out := h.layout [0, 0] ++ payload
  let sumBuf := pseudoHeader srcIp dstIp (clampU16 out.length) ++ out
  h.layout (toBe16 (onesComplementSum sumBuf)) ++ payload

variable (h : TcpHeader)

def isSyn : Bool := h.flags &&& TCP_SYN != 0
def isFin : Bool := h.flags &&& TCP_FIN != 0
def isRst : Bool := h.flags &&& TCP_RST != 0
def isAck : Bool := h.flags &&& TCP_ACK != 0

end TcpHeader

/-! ## Reads that succeed -/

theorem le_length_of_readBe16 {i : ℕ} {x : UInt16} (h : readBe16 bytes i = .ok x) :
    i + 2 ≤ bytes.length := by
  by_contra hlen
  unfold readBe16 at h
  rw [index_eq_error (show bytes.length ≤ i + 1 by omega)] at h
  cases h₀ : index bytes i with
  | error e => rw [h₀] at h; cases h
  | ok a => rw [h₀] at h; cases h

theorem le_length_of_readIpv4 {i : ℕ} {ip : Ipv4Addr} (h : readIpv4 bytes i = .ok ip) :
    i + 4 ≤ bytes.length := by
  by_contra hlen
  have herror : ∀ a b c : UInt8, (index bytes (i + 3) >>= fun d =>
      (pure { a, b, c, d } : Except Panic Ipv4Addr)) ≠ .ok ip := fun a b c => by
    rw [index_eq_error (by omega)]
    nofun
  unfold readIpv4 at h
  cases h₀ : index bytes i with
  | error e => rw [h₀] at h; cases h
  | ok a =>
    cases h₁ : index bytes (i + 1) with
    | error e => rw [h₀, h₁] at h; cases h
    | ok b =>
      cases h₂ : index bytes (i + 2) with
      | error e => rw [h₀, h₁, h₂] at h; cases h
      | ok c =>
        rw [h₀, h₁, h₂] at h
        exact herror a b c h

section Drop

variable (xs : List UInt8) (n i : ℕ)

theorem readBe16_drop : readBe16 (xs.drop n) i = readBe16 xs (n + i) := by
  simp only [readBe16, index_drop, Nat.add_assoc]

theorem readIpv4_drop : readIpv4 (xs.drop n) i = readIpv4 xs (n + i) := by
  simp only [readIpv4, index_drop, Nat.add_assoc]

end Drop

/-! ## Parsing does not panic -/

section Returns

variable {bytes : List UInt8} {i : ℕ}

theorem returns_readBe16 (h : i + 2 ≤ bytes.length) :
    Returns (readBe16 bytes i) fun _ => True :=
  (returns_index (by omega)).bind fun _ _ => (returns_index (by omega)).bind fun _ _ =>
    returns_pure trivial

theorem returns_readBe32 (h : i + 4 ≤ bytes.length) :
    Returns (readBe32 bytes i) fun _ => True :=
  (returns_index (by omega)).bind fun _ _ => (returns_index (by omega)).bind fun _ _ =>
    (returns_index (by omega)).bind fun _ _ => (returns_index (by omega)).bind fun _ _ =>
    returns_pure trivial

theorem returns_readIpv4 (h : i + 4 ≤ bytes.length) :
    Returns (readIpv4 bytes i) fun _ => True :=
  (returns_index (by omega)).bind fun _ _ => (returns_index (by omega)).bind fun _ _ =>
    (returns_index (by omega)).bind fun _ _ => (returns_index (by omega)).bind fun _ _ =>
    returns_pure trivial

theorem returns_readMac (h : i + 6 ≤ bytes.length) :
    Returns (readMac bytes i) fun _ => True :=
  (returns_index (by omega)).bind fun _ _ => (returns_index (by omega)).bind fun _ _ =>
    (returns_index (by omega)).bind fun _ _ => (returns_index (by omega)).bind fun _ _ =>
    (returns_index (by omega)).bind fun _ _ => (returns_index (by omega)).bind fun _ _ =>
    returns_pure trivial

theorem EthernetHeader.parse_returns (frame : List UInt8) :
    Returns (parse frame) fun r => ∀ eth, r = .ok eth →
      ETHER_HDR_LEN ≤ frame.length ∧ readBe16 frame 12 = .ok eth.ethertype := by
  unfold parse
  split_ifs with hlen
  · exact returns_pure nofun
  · have hlen' : 14 ≤ frame.length := Nat.not_lt.1 hlen
    refine (returns_readMac (by omega)).bind fun _ _ => ?_
    refine (returns_readMac (by omega)).bind fun _ _ => ?_
    refine (returns_readBe16 (by omega)).eq.bind fun ethertype htype => ?_
    refine returns_pure fun eth h => ?_
    cases h
    exact ⟨hlen', htype⟩

theorem ArpPacket.parse_returns (arpBody : List UInt8) :
    Returns (parse arpBody) fun _ => True := by
  unfold parse
  split_ifs with hlen
  · exact returns_pure trivial
  · have hlen' : 28 ≤ arpBody.length := Nat.not_lt.1 hlen
    refine (returns_readBe16 (by omega)).bind fun _ _ => ?_
    refine (returns_readBe16 (by omega)).bind fun _ _ => ?_
    refine (returns_index (by omega)).bind fun _ _ => ?_
    refine (returns_index (by omega)).bind fun _ _ => ?_
    refine (returns_readBe16 (by omega)).bind fun _ _ => ?_
    split_ifs
    · exact returns_pure trivial
    · exact returns_pure trivial
    · exact returns_pure trivial
    · refine (returns_readMac (by omega)).bind fun _ _ => ?_
      refine (returns_readIpv4 (by omega)).bind fun _ _ => ?_
      refine (returns_readMac (by omega)).bind fun _ _ => ?_
      refine (returns_readIpv4 (by omega)).bind fun _ _ => ?_
      exact returns_pure trivial

theorem residue_of_readBe16 {x : UInt16} (hi : i % 2 = 0) (hx : readBe16 bytes i = .ok x)
    (hlen : bytes.length ≤ 65560)
    (hsum : onesComplementSum (bytes.take i ++ [0, 0] ++ bytes.drop (i + 2)) = x) :
    residue (wordSum bytes) = 65535 := by
  have hle := le_length_of_readBe16 hx
  have hbytes : bytes.take i ++ toBe16 x ++ bytes.drop (i + 2) = bytes := by
    obtain ⟨a, ha, ha'⟩ : Returns (index bytes i) _ := returns_index (by omega)
    obtain ⟨b, hb, hb'⟩ : Returns (index bytes (i + 1)) _ := returns_index (by omega)
    rw [readBe16, ha, hb] at hx
    cases hx
    obtain ⟨_, rfl⟩ := List.getElem?_eq_some_iff.1 ha'
    obtain ⟨_, rfl⟩ := List.getElem?_eq_some_iff.1 hb'
    rw [toBe16_be16, List.append_assoc, List.cons_append, List.cons_append, List.nil_append,
      ← List.drop_eq_getElem_cons, ← List.drop_eq_getElem_cons, List.take_append_drop]
  have htake : (bytes.take i).length = i := List.length_take_of_le (by omega)
  have hbound := wordSum_le (bytes.take i ++ [0, 0] ++ bytes.drop (i + 2))
  simp only [List.length_append, List.length_cons, List.length_nil, List.length_drop] at hbound
  rw [← hbytes, wordSum_insert _ _ (by rwa [htake]), ← hsum, toNat_onesComplementSum (by omega)]
  exact residue_checksum _

theorem set_set_zero (h : i + 2 ≤ bytes.length) :
    (bytes.set i 0).set (i + 1) 0 = bytes.take i ++ [0, 0] ++ bytes.drop (i + 2) := by
  have htake : (bytes.take i).length = i := List.length_take_of_le (by omega)
  have hset : bytes.set i 0 = bytes.take i ++ 0 :: bytes.drop (i + 1) := by
    rw [List.set_eq_take_append_cons_drop, if_pos (by omega)]
  rw [hset, List.set_append_right _ _ (by omega), htake, Nat.add_sub_cancel_left,
    List.drop_eq_getElem_cons (by omega), List.append_assoc]
  rfl

structure Ipv4Header.Read (bytes : List UInt8) (ip : Ipv4Header) : Prop where
  totalLen : readBe16 bytes 2 = .ok ip.totalLen
  protocol : index bytes 9 = .ok ip.protocol
  src : readIpv4 bytes 12 = .ok ip.src
  dst : readIpv4 bytes 16 = .ok ip.dst
  sum : residue (wordSum (bytes.take IPV4_HDR_LEN)) = 65535

theorem Ipv4Header.parse_returns (bytes : List UInt8) :
    Returns (parse bytes) fun r => ∀ ip, r = .ok ip → Read bytes ip := by
  unfold parse
  split_ifs with hlen
  · exact returns_pure nofun
  · have hlen' : 20 ≤ bytes.length := Nat.not_lt.1 hlen
    refine (returns_index (by omega)).bind fun _ _ => ?_
    split_ifs
    · exact returns_pure nofun
    · exact returns_pure nofun
    · refine (returns_readBe16 (by omega)).eq.bind fun totalLen htotal => ?_
      refine (returns_readBe16 (by omega)).bind fun _ _ => ?_
      split_ifs
      · exact returns_pure nofun
      · refine (returns_index (by omega)).bind fun _ _ => ?_
        refine (returns_readBe16 (by omega)).bind fun _ _ => ?_
        refine (returns_index (by omega)).bind fun _ _ => ?_
        refine (returns_index (by omega)).eq.bind fun protocol hprotocol => ?_
        refine (returns_readBe16 (by omega)).eq.bind fun checksum hchecksum => ?_
        refine (returns_readIpv4 (by omega)).eq.bind fun src hsrc => ?_
        refine (returns_readIpv4 (by omega)).eq.bind fun dst hdst => ?_
        refine (returns_slice (Nat.zero_le _) hlen').bind fun hdr hhdr => ?_
        dsimp only
        split_ifs with hsum
        · exact returns_pure nofun
        · refine returns_pure fun ip h => ?_
          cases h
          obtain ⟨rfl, -⟩ := hhdr
          have hlength : (bytes.take IPV4_HDR_LEN).length = 20 := List.length_take_of_le hlen'
          have hread : readBe16 (bytes.take IPV4_HDR_LEN) 10 = .ok checksum := by
            rw [← hchecksum]
            simp [readBe16, index, IPV4_HDR_LEN]
          refine ⟨htotal, hprotocol, hsrc, hdst, residue_of_readBe16 rfl hread (by omega) ?_⟩
          rw [← set_set_zero (by omega)]
          exact not_not.1 hsum

theorem TcpHeader.mssOption_returns {hdrLen : ℕ} (hlen : hdrLen ≤ bytes.length)
    (s : ℕ × Option UInt16) :
    Returns (mssOption bytes hdrLen s) fun c =>
      ∀ s', c = .next s' → s.1 < hdrLen ∧ s.1 < s'.1 := by
  obtain ⟨i, mss⟩ := s
  unfold mssOption
  by_cases hi : i + 1 < hdrLen
  · have hi' : ¬ i + 1 ≥ hdrLen := by omega
    simp only [hi]
    refine (returns_index (by omega)).bind fun kind _ => ?_
    split_ifs
    · exact returns_pure nofun
    · refine returns_pure fun s' h => ?_
      cases h
      omega
    · refine (returns_index (by omega)).bind fun len _ => ?_
      split_ifs with hlen hmss
      · exact returns_pure nofun
      · refine (returns_readBe16 (by omega)).bind fun value _ => ?_
        refine returns_pure fun s' h => ?_
        cases h
        omega
      · refine returns_pure fun s' h => ?_
        cases h
        omega
  · simp only [hi]
    exact returns_pure nofun

theorem TcpHeader.parse_returns (bytes payload : List UInt8) (srcIp dstIp : Ipv4Addr) :
    Returns (parse bytes payload srcIp dstIp) fun r => ∀ tcp, r = .ok tcp →
      TCP_HDR_LEN ≤ bytes.length ∧ (bytes.length = 4 * (bytes.getD 12 0 >>> 4).toNat →
        bytes.length + payload.length ≤ 65535 →
        residue (wordSum (pseudoHeader srcIp dstIp (.ofNat (bytes.length + payload.length)) ++
          (bytes ++ payload))) = 65535) := by
  unfold parse
  split_ifs with hlen
  · exact returns_pure nofun
  · have hlen' : 20 ≤ bytes.length := Nat.not_lt.1 hlen
    refine (returns_index (by omega)).bind fun offsetByte hoffset => ?_
    dsimp only
    split_ifs with hhdr
    · exact returns_pure nofun
    · obtain ⟨h₁, h₂⟩ := not_or.1 hhdr
      have h₁' : 20 ≤ 4 * (offsetByte >>> 4).toNat := Nat.not_lt.1 h₁
      refine (returns_readBe16 (by omega)).bind fun _ _ => ?_
      refine (returns_readBe16 (by omega)).bind fun _ _ => ?_
      refine (returns_readBe32 (by omega)).bind fun _ _ => ?_
      refine (returns_readBe32 (by omega)).bind fun _ _ => ?_
      refine (returns_index (by omega)).bind fun _ _ => ?_
      refine (returns_readBe16 (by omega)).bind fun _ _ => ?_
      refine (returns_readBe16 (by omega)).eq.bind fun checksum hchecksum => ?_
      refine (returns_readBe16 (by omega)).bind fun _ _ => ?_
      have hloop : Returns (Loop.loop (mssOption bytes (4 * (offsetByte >>> 4).toNat))
          (4 * (offsetByte >>> 4).toNat + 1) (TCP_HDR_LEN, none)) fun _ => True :=
        (Loop.loop_returns (fun _ => True) (fun _ _ => True) (fun _ => trivial)
          (fun _ _ => trivial) (fun s _ => (mssOption_returns (Nat.not_lt.1 h₂) s).mono
            fun _ _ => ⟨trivial, trivial⟩) _ _ trivial).mono fun _ _ => trivial
      refine hloop.bind fun _ _ => ?_
      refine (returns_slice (by omega) (by omega)).bind fun front hfront => ?_
      refine (returns_slice (by omega) (by omega)).bind fun back hback => ?_
      split_ifs with hsum
      · exact returns_pure nofun
      · refine returns_pure fun tcp _ => ⟨hlen', fun hall hle => ?_⟩
        rw [List.getD_eq_getElem?_getD, hoffset, Option.getD_some] at hall
        obtain ⟨rfl, -⟩ := hfront
        obtain ⟨rfl, -⟩ := hback
        rw [← hall, clampU16,
          Nat.min_eq_left hle] at hsum
        generalize hpre : pseudoHeader srcIp dstIp (.ofNat (bytes.length + payload.length)) = pre at *
        have hprelen : pre.length = 12 := hpre ▸ rfl
        have hread : readBe16 (pre ++ (bytes ++ payload)) 28 = .ok checksum := by
          rw [← hchecksum]
          simp only [readBe16, index]
          rw [List.getElem?_append_right (by omega), List.getElem?_append_left (by omega),
            List.getElem?_append_right (by omega), List.getElem?_append_left (by omega), hprelen]
        refine residue_of_readBe16 rfl hread (by simp; omega) ?_
        rw [← not_not.1 hsum]
        simp [List.take_append, List.drop_append, hprelen, List.take_of_length_le,
          List.drop_eq_nil_of_le, Nat.sub_eq_zero_of_le (show 16 ≤ bytes.length by omega),
          Nat.sub_eq_zero_of_le (show 18 ≤ bytes.length by omega)]

end Returns

end Squib.Metadata
