import Squib.Mmds.Store
import Squib.Mmds.Tcp

/-!
# The frame interceptor
-/

namespace Squib.Metadata

open Checked

def MMDS_SYNTHETIC_MAC : MacAddr := ⟨0x06, 0x01, 0x23, 0x45, 0x67, 0x01⟩
def MMDS_DEFAULT_IPV4 : Ipv4Addr := ⟨169, 254, 169, 254⟩
def IP_PROTO_TCP : UInt8 := 6

/-! ## Serving a request -/

def MAX_HTTP_PATH_BYTES : ℕ := 1024
def MAX_TOKEN_HEADER_BYTES : ℕ := 256

def pathCharsetOk (path : List UInt8) : Bool := path.all fun b => 0x20 ≤ b && b < 0x7F && b != 0x5C

section Service

variable {Value : Type} (ext : External Value) (env : Env) (mmds : Mmds Value)

def readData (req : HttpRequest) : UInt16 × List UInt8 :=
  match mmds.getAtPointer ext req.path with
  | none => (404, Text.bytes "not found")
  | some v =>
    match ext.toVec v with
    | some body => (200, body)
    | none => (500, Text.bytes "\x7b\"fault_message\":\"internal serializer failure\"\x7d")

def serviceHttpRequest (req : HttpRequest) (tokens : TokenStore) :
    (UInt16 × List UInt8) × TokenStore :=
  if req.path.length > MAX_HTTP_PATH_BYTES then ((414, Text.bytes "request path too long"), tokens)
  else if ¬ pathCharsetOk req.path then
    ((400, Text.bytes "path contains disallowed control or NUL bytes"), tokens)
  else if req.body.length > mmds.sizeCap then
    ((413, Text.bytes "request body exceeds MMDS size cap"), tokens)
  else if req.method = Text.bytes "PUT" ∧ req.path = Text.bytes "/latest/api/token" then
    match req.ttlHeader with
    | none => ((400, Text.bytes "missing X-aws-ec2-metadata-token-ttl-seconds"), tokens)
    | some ttl =>
      match tokens.issue ext env ttl with
      | (.ok token, tokens) => ((200, token), tokens)
      | (.error _, tokens) => ((400, Text.bytes "invalid TTL"), tokens)
  else if req.method = Text.bytes "GET" then
    if mmds.version = .v2 then
      match req.tokenHeader with
      | none => ((401, Text.bytes "missing or invalid token"), tokens)
      | some token =>
        if token.length ≤ MAX_TOKEN_HEADER_BYTES then
          let (ok, tokens) := tokens.validate env.now token
          if ok then (readData ext mmds req, tokens)
          else ((401, Text.bytes "missing or invalid token"), tokens)
        else ((401, Text.bytes "missing or invalid token"), tokens)
    else (readData ext mmds req, tokens)
  else ((405, Text.bytes "method not allowed"), tokens)

def httpHandler : Handler TokenStore := fun req tokens =>
  let ((status, body), tokens) := serviceHttpRequest ext env mmds req tokens
  ({ status, body }, tokens)

end Service

/-! ## Frames -/

structure MmdsInterceptor (Value : Type) where
  mmds : Mmds Value
  tokens : TokenStore
  mmdsIp : Ipv4Addr
  mmdsMac : MacAddr
  tcp : TcpServer
  pendingRx : List (List UInt8)

def wrapInEthernet (srcMac : MacAddr) (frame : OutboundFrame) : List UInt8 :=
  let eth : EthernetHeader := { dst := frame.dstMac, src := srcMac, ethertype := ETHERTYPE_IPV4 }
  eth.toBytes ++ frame.ethPayload

namespace MmdsInterceptor

variable {Value : Type}

def HTTP_PORT : UInt16 := 80

def new (mmds : Mmds Value) (tokens : TokenStore) : MmdsInterceptor Value where
  mmds := mmds
  tokens := tokens
  mmdsIp := MMDS_DEFAULT_IPV4
  mmdsMac := MMDS_SYNTHETIC_MAC
  tcp := .new MMDS_DEFAULT_IPV4 HTTP_PORT
  pendingRx := []

variable (s : MmdsInterceptor Value)

def setIpv4 (ip : Ipv4Addr) : MmdsInterceptor Value :=
  { s with mmdsIp := ip, tcp := { s.tcp with serverIp := ip } }

def flushTcpOutbound : MmdsInterceptor Value :=
  let (frames, tcp) := s.tcp.drainOutbound
  { s with tcp, pendingRx := s.pendingRx ++ frames.map (wrapInEthernet s.mmdsMac) }

def drainRx : List (List UInt8) × MmdsInterceptor Value :=
  let s := s.flushTcpOutbound
  (s.pendingRx, { s with pendingRx := [] })

def handleArp (eth : EthernetHeader) (body : List UInt8) :
    Except Panic (Bool × MmdsInterceptor Value) := do
  match ← ArpPacket.parse body with
  | .error _ => return (false, s)
  | .ok arp =>
    if arp.op ≠ ARP_OP_REQUEST ∨ arp.targetIp ≠ s.mmdsIp then return (false, s)
    let reply := buildArpReplyFrame s.mmdsMac s.mmdsIp eth.src arp.senderIp
    return (true, { s with pendingRx := s.pendingRx ++ [reply] })

variable (checks : Bool) (ext : External Value) (env : Env)

def handleIpv4 (eth : EthernetHeader) (body : List UInt8) :
    Except Crash (Bool × MmdsInterceptor Value) := do
  if body.length < 20 then return (false, s)
  let dstIp ← readIpv4 body 16
  let proto ← index body 9
  if dstIp ≠ s.mmdsIp then return (false, s)
  if proto = IP_PROTO_TCP then
    let (consumed, tcp, tokens) ←
      s.tcp.handleIpFrame checks (httpHandler ext env s.mmds) eth.src body s.tokens
    return (consumed, { s with tcp, tokens }.flushTcpOutbound)
  return (false, s)

def intercept (frame : List UInt8) : Except Crash (Bool × MmdsInterceptor Value) := do
  match ← EthernetHeader.parse frame with
  | .error _ => return (false, s)
  | .ok eth =>
    if eth.ethertype = ETHERTYPE_ARP then
      s.handleArp eth (← slice frame ETHER_HDR_LEN frame.length)
    else if eth.ethertype = ETHERTYPE_IPV4 then
      s.handleIpv4 checks ext env eth (← slice frame ETHER_HDR_LEN frame.length)
    else return (false, s)

end MmdsInterceptor

end Squib.Metadata
