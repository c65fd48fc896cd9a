import Squib.Lib.Run
import Squib.Virtio.Devices.Vsock

/-!
# The vsock multiplexer, one connection
-/

namespace Squib.Muxer

open VsockDevice (VsockOp VsockHeader VsockPacket)

def VMADDR_CID_HOST : UInt64 := 2

def TYPE_STREAM : UInt16 := 1

def DEFAULT_BUF_ALLOC : UInt32 := 1024 * 1024

def RW_CHUNK_BYTES : ℕ := 4096

/-! ## The entry of a connection -/

structure Connection where
  responseSignal : Bool
  guestBufAlloc : UInt32
  guestFwdCnt : UInt32
  hostForwarded : UInt32
  guestRxForwarded : UInt32
  closed : Bool
  deriving DecidableEq, Repr

namespace Connection

def new : Connection where
  responseSignal := true
  guestBufAlloc := 0
  guestFwdCnt := 0
  hostForwarded := 0
  guestRxForwarded := 0
  closed := false

variable (c : Connection)

def refresh (hdr : VsockHeader) : Connection :=
  { c with guestBufAlloc := hdr.bufAlloc, guestFwdCnt := hdr.fwdCnt }

def credit : UInt32 :=
  let outstanding := c.hostForwarded - c.guestFwdCnt
  if c.guestBufAlloc < outstanding then 0 else c.guestBufAlloc - outstanding

end Connection

structure Addr where
  guestCid : UInt64
  hostPort : UInt32
  guestPort : UInt32
  deriving DecidableEq, Repr

def Addr.packet (addr : Addr) (op : VsockOp) (flags fwdCnt : UInt32) (payload : List UInt8) :
    VsockPacket where
  hdr :=
    { srcCid := VMADDR_CID_HOST, dstCid := addr.guestCid
      srcPort := addr.hostPort, dstPort := addr.guestPort
      len := .ofNat payload.length, type := TYPE_STREAM, op, flags
      bufAlloc := DEFAULT_BUF_ALLOC, fwdCnt }
  payload := payload

def Addr.rst (addr : Addr) : VsockPacket where
  hdr :=
    { srcCid := VMADDR_CID_HOST, dstCid := addr.guestCid
      srcPort := addr.hostPort, dstPort := addr.guestPort
      len := 0, type := TYPE_STREAM, op := .rst, flags := 0, bufAlloc := 0, fwdCnt := 0 }
  payload := []

/-! ## The parties -/

inductive Pending where
  | push (pkt : VsockPacket)
  | signal
  | notify
  deriving DecidableEq, Repr

inductive Reader where
  | connecting
  | refused
  | top
  | arming
  | armed (woken : Bool)
  | waiting (woken : Bool)
  | sizing
  | reading (chunk : ℕ)
  | counting (data : List UInt8)
  | pushing (data : List UInt8) (fwdCnt : UInt32)
  | ending
  | shuttingDown (fwdCnt : UInt32)
  | removing
  | done
  deriving DecidableEq, Repr

inductive Writer where
  | unborn
  | idle
  | writing (rest : List UInt8)
  | finished
  deriving DecidableEq, Repr

structure State where
  entry : Option Connection
  device : List Pending
  signalled : Bool
  reader : Reader
  writer : Writer
  channel : List (List UInt8)
  rxQueue : List VsockPacket
  pushed : List (VsockPacket × ℕ)
  sent : ℕ
  reported : ℕ
  accepted : ℕ
  written : ℕ
  guestSent : ℕ
  seenAlloc : ℕ
  seenFwd : ℕ
  deriving DecidableEq, Repr

namespace State

variable (s : State)

def setEntry (entry : Option Connection) : State := { s with entry }

def goto (reader : Reader) : State := { s with reader }

def push (pkt : VsockPacket) : State :=
  { s with rxQueue := s.rxQueue ++ [pkt], pushed := s.pushed ++ [(pkt, s.accepted)] }

def notify : State :=
  match s.reader with
  | .armed _ => s.goto (.armed true)
  | .waiting _ => s.goto (.waiting true)
  | _ => s

def send (payload : List UInt8) : Bool × State :=
  if s.writer = .finished then (false, s)
  else (true, { s with channel := s.channel ++ [payload] })

def dropReceiver : State := { s with writer := .finished, channel := [] }

end State

def init (addr : Addr) : State :=
  State.push
    { entry := some .new, device := [], signalled := false, reader := .connecting
      writer := .unborn, channel := [], rxQueue := [], pushed := []
      sent := 0, reported := 0, accepted := 0, written := 0, guestSent := 0
      seenAlloc := 0, seenFwd := 0 }
    (addr.packet .request 0 0 [])

section Device

variable (addr : Addr) (pkt : VsockPacket) (s : State)

def acceptRw (c : Connection) : State :=
  let (delivered, s) := s.send pkt.payload
  let c := if delivered then c else { c with closed := true }
  let c := { c with
    guestRxForwarded :=
      saturatingAdd c.guestRxForwarded (.ofNat (min pkt.payload.length (2 ^ 32 - 1))) }
  { s with
    entry := some (c.refresh pkt.hdr)
    device := [.push (addr.packet .creditUpdate 0 c.guestRxForwarded []), .notify]
    accepted := s.accepted + pkt.payload.length }

def handleTx : List VsockPacket × State :=
  match pkt.hdr.op with
  | .request => ([addr.rst], s)
  | .response =>
    match s.entry with
    | none => ([], s)
    | some c =>
      ([], { s with
        entry := some { c.refresh pkt.hdr with responseSignal := false }
        device := (if c.responseSignal then [.signal] else []) ++ [.notify] })
  | .rw =>
    match s.entry with
    | none => ([], s)
    | some c => if c.closed then ([], s) else ([], acceptRw addr pkt s c)
  | .shutdown | .rst => ([], s.setEntry none)
  | .creditUpdate =>
    match s.entry with
    | none => ([], s)
    | some c => ([], { s with entry := some (c.refresh pkt.hdr), device := [.notify] })
  | .creditRequest =>
    match s.entry with
    | none => ([], s)
    | some c =>
      ([], { s with
        entry := some (c.refresh pkt.hdr)
        device := [.push (addr.packet .creditUpdate 0 c.guestRxForwarded []), .notify] })
  | .invalid => ([], s)

def deviceStep : Option State :=
  match s.device with
  | [] => none
  | .push pkt :: rest => some { s.push pkt with device := rest }
  | .signal :: rest => some { s with signalled := true, device := rest }
  | .notify :: rest => some { s.notify with device := rest }

end Device

section Tasks

variable (addr : Addr) (s : State)

def State.live : Option Connection := s.entry.filter fun c => !c.closed

def readerStep (input : List UInt8) : Option State :=
  match s.reader with
  | .connecting => none
  | .refused => some ((s.setEntry none).dropReceiver.goto .done)
  | .top =>
    match s.live with
    | none => some (s.goto .done)
    | some _ => some (s.goto .arming)
  | .arming => some (s.goto (.armed false))
  | .armed woken =>
    match s.live with
    | none => some (s.goto .done)
    | some c => if 0 < c.credit then some (s.goto .sizing) else some (s.goto (.waiting woken))
  | .waiting woken => if woken then some (s.goto .top) else none
  | .sizing =>
    match s.live with
    | none => some (s.goto .done)
    | some c => some (s.goto (.reading (max (min RW_CHUNK_BYTES c.credit.toNat) 1)))
  | .reading chunk =>
    if input = [] then some (s.goto .ending)
    else if input.length ≤ chunk then some (s.goto (.counting input)) else none
  | .counting data =>
    match s.live with
    | none => some (s.goto .done)
    | some c =>
      some { s with
        entry := some { c with hostForwarded := saturatingAdd c.hostForwarded (.ofNat data.length) }
        reader := .pushing data c.guestRxForwarded }
  | .pushing data fwdCnt =>
    some { s.push (addr.packet .rw 0 fwdCnt data) with
      reader := .top, sent := s.sent + data.length }
  | .ending =>
    some (s.goto (.shuttingDown (match s.entry with
      | none => 0
      | some c => c.guestRxForwarded)))
  | .shuttingDown fwdCnt =>
    some { s.push (addr.packet .shutdown 3 fwdCnt []) with reader := .removing }
  | .removing => some ((s.setEntry none).goto .done)
  | .done => none

def writerStep (n : ℕ) : Option State :=
  match s.writer with
  | .unborn => none
  | .idle =>
    match s.channel with
    | payload :: channel => some { s with writer := .writing payload, channel }
    -- the sender is dropped with the entry
    | [] => if s.entry = none then some s.dropReceiver else none
  | .writing rest =>
    if rest = [] then some { s with writer := .idle }
    else if n = 0 then some s.dropReceiver
    else if n ≤ rest.length then
      some { s with writer := .writing (rest.drop n), written := s.written + n }
    else none
  | .finished => none

end Tasks

/-! ## The system -/

inductive Event where
  | guest (pkt : VsockPacket) (consumed : ℕ)
  | device
  | timeout
  | ack (ok : Bool)
  | reader (input : List UInt8)
  | writer (n : ℕ)
  | deliver
  deriving DecidableEq, Repr

def State.record (s : State) (pkt : VsockPacket) (consumed : ℕ) : State :=
  { s with
    reported := consumed
    guestSent := if pkt.hdr.op = .rw then s.guestSent + pkt.payload.length else s.guestSent }

def step (addr : Addr) (s : State) : Event → Option State
  | .guest pkt consumed =>
    if s.device = [] then
      let (replies, s) := handleTx addr pkt (s.record pkt consumed)
      some (replies.foldl State.push s)
    else none
  | .device => deviceStep s
  | .timeout =>
    if s.reader = .connecting ∧ s.signalled = false then some (s.goto .refused) else none
  | .ack ok =>
    if s.reader = .connecting ∧ s.signalled = true then
      if ok then some { s with reader := .top, writer := .idle }
      else some (s.dropReceiver.goto .done)
    else none
  | .reader input => readerStep addr s input
  | .writer n => writerStep s n
  | .deliver =>
    match s.rxQueue with
    | [] => none
    | pkt :: rxQueue =>
      some { s with
        rxQueue, seenAlloc := pkt.hdr.bufAlloc.toNat, seenFwd := pkt.hdr.fwdCnt.toNat }

end Squib.Muxer
