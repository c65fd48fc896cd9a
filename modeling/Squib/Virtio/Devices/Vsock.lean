import Squib.Virtio.Buffers

/-!
# virtio-vsock
-/

namespace Squib.VsockDevice

open Checked Bytes

variable {η : Type}

def minGuestCid : UInt64 := 3

def rxQueue : ℕ := 0
def txQueue : ℕ := 1
def queueMaxSize : UInt16 := 256
def hdrSize : ℕ := 44

/-! ## Packets -/

inductive VsockOp where
  | invalid
  | request
  | response
  | rst
  | shutdown
  | rw
  | creditUpdate
  | creditRequest
  deriving DecidableEq, Repr

def VsockOp.fromWire (value : UInt16) : VsockOp :=
  match value.toNat with
  | 1 => .request
  | 2 => .response
  | 3 => .rst
  | 4 => .shutdown
  | 5 => .rw
  | 6 => .creditUpdate
  | 7 => .creditRequest
  | _ => .invalid

def VsockOp.toWire : VsockOp → UInt16
  | .invalid => 0
  | .request => 1
  | .response => 2
  | .rst => 3
  | .shutdown => 4
  | .rw => 5
  | .creditUpdate => 6
  | .creditRequest => 7

structure VsockHeader where
  srcCid : UInt64
  dstCid : UInt64
  srcPort : UInt32
  dstPort : UInt32
  len : UInt32
  type : UInt16
  op : VsockOp
  flags : UInt32
  bufAlloc : UInt32
  fwdCnt : UInt32
  deriving DecidableEq, Repr

inductive VsockParseError where
  | headerTooShort
  deriving DecidableEq, Repr

namespace VsockHeader

def le (bytes : List UInt8) (i n : ℕ) : Except Panic ℕ := do
  return leNat (← slice bytes i (i + n))

def fromBytes (bytes : List UInt8) : Except Panic (Except VsockParseError VsockHeader) :=
  if bytes.length < hdrSize then .ok (.error .headerTooShort)
  else do
    let srcCid ← le bytes 0 8
    let dstCid ← le bytes 8 8
    let srcPort ← le bytes 16 4
    let dstPort ← le bytes 20 4
    let len ← le bytes 24 4
    let type ← le bytes 28 2
    let op ← le bytes 30 2
    let flags ← le bytes 32 4
    let bufAlloc ← le bytes 36 4
    let fwdCnt ← le bytes 40 4
    return .ok {
      srcCid := .ofNat srcCid
      dstCid := .ofNat dstCid
      srcPort := .ofNat srcPort
      dstPort := .ofNat dstPort
      len := .ofNat len
      type := .ofNat type
      op := .fromWire (.ofNat op)
      flags := .ofNat flags
      bufAlloc := .ofNat bufAlloc
      fwdCnt := .ofNat fwdCnt }

def toBytes (h : VsockHeader) : Except Panic (List UInt8) := do
  let out := List.replicate hdrSize 0
  let out ← copyFromSlice out 0 8 (leBytes 8 h.srcCid.toNat)
  let out ← copyFromSlice out 8 16 (leBytes 8 h.dstCid.toNat)
  let out ← copyFromSlice out 16 20 (leBytes 4 h.srcPort.toNat)
  let out ← copyFromSlice out 20 24 (leBytes 4 h.dstPort.toNat)
  let out ← copyFromSlice out 24 28 (leBytes 4 h.len.toNat)
  let out ← copyFromSlice out 28 30 (leBytes 2 h.type.toNat)
  let out ← copyFromSlice out 30 32 (leBytes 2 h.op.toWire.toNat)
  let out ← copyFromSlice out 32 36 (leBytes 4 h.flags.toNat)
  let out ← copyFromSlice out 36 40 (leBytes 4 h.bufAlloc.toNat)
  copyFromSlice out 40 44 (leBytes 4 h.fwdCnt.toNat)

end VsockHeader

structure VsockPacket where
  hdr : VsockHeader
  payload : List UInt8
  deriving DecidableEq, Repr

/-! ## The device -/

structure VsockMuxer (η : Type) where
  handleTx : VsockPacket → η → List VsockPacket × η
  drainRx : η → List VsockPacket × η

structure VsockConfig where
  guestCid : UInt64
  deriving DecidableEq, Repr

abbrev RxBuffer := List VsockPacket

def drainTx (muxer : VsockMuxer η) (fuel : ℕ) : Prog RxBuffer η :=
  drain fuel txQueue <| onChain fun descs rxBuffer w =>
    let buf := gather w.mem descs
    if buf.length < hdrSize then .ok (.completeAnyway 0, rxBuffer, w)
    else do
      match ← VsockHeader.fromBytes (← slice buf 0 hdrSize) with
      | .error _ => .ok (.skip, rxBuffer, w)
      | .ok hdr =>
        let payloadLen := min hdr.len.toNat (buf.length - hdrSize)
        let payload ← slice buf hdrSize (hdrSize + payloadLen)
        let (replies, host) := muxer.handleTx { hdr, payload } w.host
        .ok (.complete 0, rxBuffer ++ replies, { w with host })

def fetchRx (muxer : VsockMuxer η) (rxBuffer : RxBuffer) (w : World η) :
    List VsockPacket × RxBuffer × World η :=
  let (packets, host) := muxer.drainRx w.host
  (rxBuffer ++ packets, [], { w with host })

def drainRx (muxer : VsockMuxer η) : Prog RxBuffer η :=
  deliver rxQueue (fetchRx muxer)
    (fun pkt => onChain fun descs rxBuffer w => do
      let wire := (← pkt.hdr.toBytes) ++ pkt.payload
      let (written, w) ← scatter wire descs 0 0 w
      .ok (.complete written, rxBuffer, w))
    -- Re-buffer the packet that found no chain.
    fun pkt rxBuffer => rxBuffer ++ [pkt]

def processQueue (muxer : VsockMuxer η) (fuel : ℕ) (queueIndex : UInt16) : Prog RxBuffer η :=
  if queueIndex.toNat = txQueue then (drainTx muxer fuel).andThen (drainRx muxer)
  else if queueIndex.toNat = rxQueue then drainRx muxer
  else .skip

def readConfig (config : VsockConfig) (offset : UInt64) (len : ℕ) : Except Panic (List UInt8) :=
  return configBytes (leBytes 8 config.guestCid.toNat) offset len

def model (config : VsockConfig) (muxer : VsockMuxer η) : DeviceModel RxBuffer η where
  deviceType := .vsock
  avail := 0
  queueMaxSizes := [queueMaxSize, queueMaxSize, queueMaxSize]
  own := []
  activeState := .full
  readConfig _ _ offset len := readConfig config offset len
  processQueue := processQueue muxer

def new (config : VsockConfig) (muxer : VsockMuxer η) : Except String (DeviceModel RxBuffer η) :=
  if config.guestCid < minGuestCid then .error "guest_cid must be >= 3"
  else .ok (model config muxer)

/-! ## The codec -/

variable {bytes : List UInt8}

def field (bytes : List UInt8) (i n : ℕ) : ℕ := leNat ((bytes.drop i).take n)

theorem field_lt (bytes : List UInt8) (i n : ℕ) : field bytes i n < 256 ^ n :=
  (leNat_lt _).trans_le (Nat.pow_le_pow_right (by decide) (List.length_take_le n _))

theorem field_take {i n k : ℕ} (h : i + n ≤ k) : field (bytes.take k) i n = field bytes i n := by
  rw [field, List.drop_take, List.take_take, min_eq_left (by omega), field]

theorem le_eq {i n : ℕ} (h : i + n ≤ bytes.length) :
    VsockHeader.le bytes i n = .ok (field bytes i n) := by
  rw [VsockHeader.le, slice, if_pos ⟨by omega, h⟩, Nat.add_sub_cancel_left]
  rfl

theorem returns_copyField (pre : List UInt8) {src : List UInt8} {a b n k : ℕ}
    (ha : pre.length = a) (hb : a + n = b) (hsrc : src.length = n) :
    Returns (copyFromSlice (pre ++ List.replicate (n + k) 0) a b src) fun out =>
      out = (pre ++ src) ++ List.replicate k 0 := by
  subst ha hb
  refine ⟨_, ?_, rfl⟩
  rw [copyFromSlice, if_pos ⟨by omega, by simp⟩, if_pos (by omega), List.take_left,
    List.drop_append, List.drop_of_length_le (by omega), Nat.add_sub_cancel_left,
    List.drop_replicate, Nat.add_sub_cancel_left, List.nil_append]

def fieldBytes (fields : List (ℕ × ℕ)) : List UInt8 := fields.flatMap fun f => leBytes f.1 f.2

namespace VsockHeader

def parsed (bytes : List UInt8) : VsockHeader where
  srcCid := .ofNat (field bytes 0 8)
  dstCid := .ofNat (field bytes 8 8)
  srcPort := .ofNat (field bytes 16 4)
  dstPort := .ofNat (field bytes 20 4)
  len := .ofNat (field bytes 24 4)
  type := .ofNat (field bytes 28 2)
  op := .fromWire (.ofNat (field bytes 30 2))
  flags := .ofNat (field bytes 32 4)
  bufAlloc := .ofNat (field bytes 36 4)
  fwdCnt := .ofNat (field bytes 40 4)

theorem fromBytes_eq (hb : hdrSize ≤ bytes.length) : fromBytes bytes = .ok (.ok (parsed bytes)) := by
  rw [fromBytes, if_neg (Nat.not_lt.2 hb)]
  unfold hdrSize at hb
  rw [le_eq (by omega), le_eq (by omega), le_eq (by omega), le_eq (by omega), le_eq (by omega),
    le_eq (by omega), le_eq (by omega), le_eq (by omega), le_eq (by omega), le_eq (by omega)]
  rfl

variable (h : VsockHeader)

def fields : List (ℕ × ℕ) :=
  [(8, h.srcCid.toNat), (8, h.dstCid.toNat), (4, h.srcPort.toNat), (4, h.dstPort.toNat),
    (4, h.len.toNat), (2, h.type.toNat), (2, h.op.toWire.toNat), (4, h.flags.toNat),
    (4, h.bufAlloc.toNat), (4, h.fwdCnt.toNat)]

def wire : List UInt8 := fieldBytes h.fields

@[simp] theorem length_wire : h.wire.length = hdrSize := by
  simp [wire, fieldBytes, fields, hdrSize]

theorem toBytes_eq : h.toBytes = .ok h.wire := by
  have hret : Returns h.toBytes fun out => out = h.wire ++ List.replicate 0 0 := by
    unfold toBytes
    refine (returns_copyField [] (n := 8) (k := 36) (by simp) rfl (by simp)).bind ?_
    rintro _ rfl
    refine (returns_copyField _ (n := 8) (k := 28) (by simp) rfl (by simp)).bind ?_
    rintro _ rfl
    refine (returns_copyField _ (n := 4) (k := 24) (by simp) rfl (by simp)).bind ?_
    rintro _ rfl
    refine (returns_copyField _ (n := 4) (k := 20) (by simp) rfl (by simp)).bind ?_
    rintro _ rfl
    refine (returns_copyField _ (n := 4) (k := 16) (by simp) rfl (by simp)).bind ?_
    rintro _ rfl
    refine (returns_copyField _ (n := 2) (k := 14) (by simp) rfl (by simp)).bind ?_
    rintro _ rfl
    refine (returns_copyField _ (n := 2) (k := 12) (by simp) rfl (by simp)).bind ?_
    rintro _ rfl
    refine (returns_copyField _ (n := 4) (k := 8) (by simp) rfl (by simp)).bind ?_
    rintro _ rfl
    refine (returns_copyField _ (n := 4) (k := 4) (by simp) rfl (by simp)).bind ?_
    rintro _ rfl
    exact returns_copyField _ (n := 4) (k := 0) (by simp) rfl (by simp)
  obtain ⟨out, hout, rfl⟩ := hret
  rw [hout, List.replicate_zero, List.append_nil]

end VsockHeader

/-! ## Transmitted packets -/

section Transmitted

variable {buf : List UInt8}

def VsockPacket.accepted (buf : List UInt8) : VsockPacket where
  hdr := .parsed buf
  payload := (buf.drop hdrSize).take (min (field buf 24 4) (buf.length - hdrSize))

theorem slice_front (h : hdrSize ≤ buf.length) : slice buf 0 hdrSize = .ok (buf.take hdrSize) :=
  if_pos ⟨Nat.zero_le _, h⟩

theorem fromBytes_front (h : hdrSize ≤ buf.length) :
    VsockHeader.fromBytes (buf.take hdrSize) = .ok (.ok (.parsed buf)) := by
  rw [VsockHeader.fromBytes_eq (by rw [List.length_take, min_eq_left h])]
  simp only [VsockHeader.parsed, hdrSize, Nat.reduceAdd, Nat.reduceLeDiff, field_take]

theorem slice_acceptedPayload (h : hdrSize ≤ buf.length) :
    slice buf hdrSize (hdrSize + min (VsockHeader.parsed buf).len.toNat (buf.length - hdrSize)) =
      .ok (VsockPacket.accepted buf).payload := by
  have hlen : (VsockHeader.parsed buf).len.toNat = field buf 24 4 :=
    UInt32.toNat_ofNat_of_lt' (field_lt buf 24 4)
  rw [hlen, slice, if_pos ⟨by omega, by omega⟩, Nat.add_sub_cancel_left]
  rfl

end Transmitted

/-! ## Keeping to the contract -/

def contract : Contract :=
  .ofChains (fun _ _ _ => True) fun i descs a => i = rxQueue ∧ WriteOnlySpan descs a

variable (muxer : VsockMuxer η)

theorem drainTx_meets (fuel : ℕ) : Meets contract 3 fuel [1] (drainTx muxer fuel) := by
  refine drain_meets (onChain_meets fun descs rxBuffer w => ?_) (by decide)
  dsimp only
  split
  · exact returns_ok ⟨.refl _ w, by simp [Action.completes]⟩
  next hlen =>
  have hfront := not_lt.1 hlen
  simp only [slice_front hfront, fromBytes_front hfront, slice_acceptedPayload hfront, ok_bind]
  exact returns_ok ⟨w.touches_host _ _, by simp [Action.completes]⟩

theorem drainRx_meets (fuel : ℕ) : Meets contract 3 fuel [0] (drainRx muxer) := by
  refine deliver_meets (fun rxBuffer w => w.touches_host _ _)
    (fun pkt => onChain_meets fun descs rxBuffer w => ?_) (by decide)
  rw [VsockHeader.toBytes_eq, ok_bind]
  refine (scatter_returns _ descs 0 0 w (Nat.zero_le _)).bind fun r hr => ?_
  exact returns_ok ⟨hr.mono fun a ha => ⟨rfl, ha⟩, by simp [Action.completes]⟩

theorem processQueue_meets (fuel : ℕ) (queueIndex : UInt16) :
    Meets contract 3 fuel [1, 0] (processQueue muxer fuel queueIndex) := by
  unfold processQueue
  split_ifs
  · exact andThen_meets (drainTx_meets muxer fuel) (drainRx_meets muxer fuel) (by decide)
  · exact (drainRx_meets muxer fuel).mono (by decide)
  · exact skip_meets

theorem processQueue_fuelMono (queueIndex : UInt16) :
    FuelMono fun fuel => processQueue muxer fuel queueIndex := by
  unfold processQueue
  split_ifs
  · exact (fuelMono_drain _ _).andThen (fuelMono_const _)
  · exact fuelMono_const _
  · exact fuelMono_const _

end Squib.VsockDevice
