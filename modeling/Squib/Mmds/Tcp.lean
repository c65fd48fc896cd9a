import Mathlib.Data.List.AList
import Squib.Mmds.Http
import Squib.Mmds.Pdu

/-!
# The TCP server
-/

namespace Squib.Metadata

open Checked Internet

inductive TcpState where
  | synReceived
  | established
  | lastAck
  deriving DecidableEq, Repr

structure ConnKey where
  srcIp : Ipv4Addr
  srcPort : UInt16
  deriving DecidableEq, Repr

inductive Happening where
  | received (hdr : TcpHeader) (payload : List UInt8)
  | sent (hdr : TcpHeader) (payload : List UInt8)
  | served (req : HttpRequest)
  deriving DecidableEq, Repr

structure Conn where
  state : TcpState
  sndNxt : UInt32
  rcvNxt : UInt32
  rcvBuf : List UInt8
  clientIss : UInt32
  serverIss : UInt32
  log : List Happening
  deriving DecidableEq, Repr

namespace Conn

def new (checks : Bool) (clientSeq serverIss : UInt32) : Except Crash Conn := do
  let sndNxt ← addU32 checks serverIss 1
  let rcvNxt ← addU32 checks clientSeq 1
  return { state := .synReceived, sndNxt, rcvNxt, rcvBuf := [], clientIss := clientSeq, serverIss
           log := [] }

def note (c : Conn) (x : Happening) : Conn := { c with log := c.log ++ [x] }

end Conn

structure OutboundFrame where
  dstMac : MacAddr
  ethPayload : List UInt8
  deriving DecidableEq, Repr

structure TcpServer where
  serverPort : UInt16
  serverIp : Ipv4Addr
  guestMac : Option MacAddr
  conns : AList fun _ : ConnKey => Conn
  nextIss : UInt32
  ipId : UInt16
  outQueue : List OutboundFrame

def broadcastMac : MacAddr := ⟨0xFF, 0xFF, 0xFF, 0xFF, 0xFF, 0xFF⟩

abbrev Handler (η : Type) := HttpRequest → η → HttpResponse × η

namespace TcpServer

def new (serverIp : Ipv4Addr) (serverPort : UInt16) : TcpServer where
  serverPort := serverPort
  serverIp := serverIp
  guestMac := none
  conns := ∅
  nextIss := 0x40000000
  ipId := 1
  outQueue := []

variable (s : TcpServer)

/-! ## Sending -/

def buildOutbound (tcp : TcpHeader) (dstIp : Ipv4Addr) (payload : List UInt8) :
    OutboundFrame × TcpServer :=
  let s := { s with ipId := s.ipId + 1 }
  let tcpBytes := tcp.toBytesWithPayload s.serverIp dstIp payload
  let ip := Ipv4Header.build s.serverIp dstIp .tcp (clampU16 tcpBytes.length) s.ipId
  ({ dstMac := s.guestMac.getD broadcastMac, ethPayload := ip.toBytes ++ tcpBytes }, s)

def push (tcp : TcpHeader) (dstIp : Ipv4Addr) (payload : List UInt8) : TcpServer :=
  let (frame, s) := s.buildOutbound tcp dstIp payload
  { s with outQueue := s.outQueue ++ [frame] }

def put (key : ConnKey) (conn : Conn) : TcpServer := { s with conns := s.conns.insert key conn }

def remove (key : ConnKey) : TcpServer := { s with conns := s.conns.erase key }

def send (key : ConnKey) (conn : Conn) (tcp : TcpHeader) (payload : List UInt8) : TcpServer :=
  (s.put key (conn.note (.sent tcp payload))).push tcp key.srcIp payload

def sendResponse (key : ConnKey) (response : HttpResponse) : TcpServer :=
  let wire := response.toWire
  match s.conns.lookup key with
  | none => s
  | some conn =>
    let sndSeq := conn.sndNxt
    let conn := { conn with sndNxt := sndSeq + .ofNat wire.length + 1, state := .lastAck }
    s.send key conn
      (TcpHeader.build s.serverPort key.srcPort sndSeq conn.rcvNxt (TCP_ACK ||| TCP_PSH ||| TCP_FIN)
        0xFFFF)
      wire

/-! ## Receiving -/

def handleSyn (checks : Bool) (key : ConnKey) (tcp : TcpHeader) : Except Crash TcpServer := do
  let serverIss := s.nextIss
  let s := { s with nextIss := s.nextIss + 0x10000 }
  let conn ← Conn.new checks tcp.seq serverIss
  return s.send key conn
    (TcpHeader.build s.serverPort tcp.srcPort serverIss conn.rcvNxt (TCP_SYN ||| TCP_ACK) 0xFFFF) []

def malformedRequest : HttpResponse where
  status := 400
  body := Text.bytes "\x7b\"fault_message\":\"malformed request\"\x7d"

def requestTooLarge : HttpResponse where
  status := 413
  body := Text.bytes "\x7b\"fault_message\":\"request too large\"\x7d"

variable {η : Type} (checks : Bool) (handler : Handler η)

def onData (key : ConnKey) (payload : List UInt8) (h : η) : Except Crash (TcpServer × η) :=
  match s.conns.lookup key with
  | none => .ok (s, h)
  | some conn => do
    let conn := { conn with
      rcvNxt := conn.rcvNxt + .ofNat payload.length, rcvBuf := conn.rcvBuf ++ payload }
    let ack := TcpHeader.build s.serverPort key.srcPort conn.sndNxt conn.rcvNxt TCP_ACK 0xFFFF
    let s := s.send key conn ack []
    match ← tryParseHttp checks conn.rcvBuf with
    | .incomplete => return (s, h)
    | .malformed => return (s.sendResponse key malformedRequest, h)
    | .tooLarge => return (s.sendResponse key requestTooLarge, h)
    | .complete req =>
      let (response, h) := handler req h
      let s := s.put key ((conn.note (.sent ack [])).note (.served req))
      return (s.sendResponse key response, h)

def onFin (key : ConnKey) : TcpServer :=
  match s.conns.lookup key with
  | none => s
  | some conn =>
    let rcvNxt := conn.rcvNxt + 1
    let sndNxt := conn.sndNxt
    let conn := { conn with rcvNxt, sndNxt := sndNxt + 1, state := .lastAck }
    s.send key conn
      (TcpHeader.build s.serverPort key.srcPort sndNxt rcvNxt (TCP_FIN ||| TCP_ACK) 0xFFFF) []

def dispatch (key : ConnKey) (tcp : TcpHeader) (payload : List UInt8) (h : η) :
    Except Crash (TcpServer × η) := do
  if tcp.isRst then return (s.remove key, h)
  if tcp.isSyn ∧ ¬ tcp.isAck then return (← s.handleSyn checks key tcp, h)
  match s.conns.lookup key with
  | none =>
    let rst := TcpHeader.build s.serverPort tcp.srcPort tcp.ack (tcp.seq + .ofNat payload.length)
      (TCP_RST ||| TCP_ACK) 0
    return (s.push rst key.srcIp [], h)
  | some conn =>
    let conn := conn.note (.received tcp payload)
    let s := s.put key conn
    if tcp.seq ≠ conn.rcvNxt ∧ payload ≠ [] then return (s, h)
    match conn.state with
    | .synReceived =>
      if tcp.isAck ∧ tcp.ack = conn.sndNxt then
        let s := s.put key { conn with state := .established }
        if payload ≠ [] then s.onData checks handler key payload h else return (s, h)
      else return (s, h)
    | .established =>
      let (s, h) ← if payload ≠ [] then s.onData checks handler key payload h else .ok (s, h)
      return (if tcp.isFin then s.onFin key else s, h)
    | .lastAck =>
      if tcp.isAck ∧ tcp.ack = conn.sndNxt then return (s.remove key, h) else return (s, h)

def segment (payload : List UInt8) :
    Except Panic (Option (Ipv4Header × TcpHeader × List UInt8)) := do
  match ← Ipv4Header.parse payload with
  | .error _ => return none
  | .ok ip =>
    if ip.protocol ≠ IpProtocol.tcp.toWire then return none
    if ip.dst ≠ s.serverIp then return none
    let tcpStart := IPV4_HDR_LEN
    let tcpEnd := ip.totalLen.toNat
    if tcpEnd > payload.length ∨ tcpStart ≥ tcpEnd then return none
    if payload.length < tcpStart + 13 then return none
    let dataOffset := (← index payload (tcpStart + 12)) >>> 4
    let tcpHdrEnd := tcpStart + 4 * dataOffset.toNat
    if tcpHdrEnd > tcpEnd then return none
    let tcpPayload ← slice payload tcpHdrEnd tcpEnd
    let tcpBytes ← slice payload tcpStart tcpHdrEnd
    match ← TcpHeader.parse tcpBytes tcpPayload ip.src ip.dst with
    | .error _ => return none
    | .ok tcp => return if tcp.dstPort ≠ s.serverPort then none else some (ip, tcp, tcpPayload)

def handleIpFrame (ethSrcMac : MacAddr) (payload : List UInt8) (h : η) :
    Except Crash (Bool × TcpServer × η) := do
  match ← s.segment payload with
  | none => return (false, s, h)
  | some (ip, tcp, tcpPayload) =>
    let s := { s with guestMac := some ethSrcMac }
    let key := { srcIp := ip.src, srcPort := tcp.srcPort }
    let (s, h) ← s.dispatch checks handler key tcp tcpPayload h
    return (true, s, h)

def drainOutbound : List OutboundFrame × TcpServer := (s.outQueue, { s with outQueue := [] })

end TcpServer

end Squib.Metadata
