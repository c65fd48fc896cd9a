import Squib.Virtio.Devices.Vsock

/-!
# Vsock packets on the wire

A packet is a header of ten little-endian fields, 44 bytes in all, and its payload.
-/

namespace Squib.VsockDevice

open Checked Bytes

/-! ## Fields -/

theorem field_fieldBytes {fields : List (ℕ × ℕ)} (j : ℕ) (hj : j < fields.length)
    (hlt : fields[j].2 < 256 ^ fields[j].1) :
    field (fieldBytes fields) (fieldBytes (fields.take j)).length fields[j].1 = fields[j].2 := by
  have hsplit : fieldBytes fields = fieldBytes (fields.take j) ++
      (leBytes fields[j].1 fields[j].2 ++ fieldBytes (fields.drop (j + 1))) := by
    conv_lhs => rw [← List.take_append_drop j fields, ← List.getElem_cons_drop hj]
    rw [fieldBytes, List.flatMap_append]
    rfl
  rw [field, hsplit, List.drop_left, List.take_left' (length_leBytes _ _), leNat_leBytes,
    Nat.mod_eq_of_lt hlt]

def cuts (b : List UInt8) : ℕ → List ℕ → List (List UInt8)
  | _, [] => []
  | i, w :: ws => (b.drop i).take w :: cuts b (i + w) ws

theorem flatten_cuts (b : List UInt8) : ∀ (i : ℕ) (ws : List ℕ),
    (cuts b i ws).flatten = (b.drop i).take ws.sum
  | i, [] => by simp [cuts]
  | i, w :: ws => by
    rw [cuts, List.flatten_cons, flatten_cuts b _ ws, List.sum_cons, List.take_add, List.drop_drop]

variable {b : List UInt8}

theorem leBytes_field {i n : ℕ} (h : i + n ≤ b.length) :
    leBytes n (field b i n) = (b.drop i).take n := by
  have hlen : ((b.drop i).take n).length = n := by
    rw [List.length_take, List.length_drop]
    omega
  have hbytes := leBytes_leNat ((b.drop i).take n)
  rwa [hlen] at hbytes

theorem VsockOp.fromWire_toWire (op : VsockOp) : fromWire op.toWire = op := by
  cases op <;> rfl

theorem VsockOp.toWire_fromWire (v : UInt16) :
    (fromWire v).toWire = if v.toNat ≤ 7 then v else 0 := by
  apply UInt16.toNat.inj
  rw [fromWire]
  split <;> split_ifs <;> simp_all [toWire]
  omega

namespace VsockHeader

theorem fromBytes_wire (h : VsockHeader) : fromBytes h.wire = .ok (.ok h) := by
  rw [fromBytes_eq h.length_wire.ge, parsed]
  have h0 : field h.wire 0 8 = h.srcCid.toNat :=
    field_fieldBytes 0 (by simp [fields]) h.srcCid.toNat_lt
  have h1 : field h.wire 8 8 = h.dstCid.toNat :=
    field_fieldBytes 1 (by simp [fields]) h.dstCid.toNat_lt
  have h2 : field h.wire 16 4 = h.srcPort.toNat :=
    field_fieldBytes 2 (by simp [fields]) h.srcPort.toNat_lt
  have h3 : field h.wire 20 4 = h.dstPort.toNat :=
    field_fieldBytes 3 (by simp [fields]) h.dstPort.toNat_lt
  have h4 : field h.wire 24 4 = h.len.toNat :=
    field_fieldBytes 4 (by simp [fields]) h.len.toNat_lt
  have h5 : field h.wire 28 2 = h.type.toNat :=
    field_fieldBytes 5 (by simp [fields]) h.type.toNat_lt
  have h6 : field h.wire 30 2 = h.op.toWire.toNat :=
    field_fieldBytes 6 (by simp [fields]) h.op.toWire.toNat_lt
  have h7 : field h.wire 32 4 = h.flags.toNat :=
    field_fieldBytes 7 (by simp [fields]) h.flags.toNat_lt
  have h8 : field h.wire 36 4 = h.bufAlloc.toNat :=
    field_fieldBytes 8 (by simp [fields]) h.bufAlloc.toNat_lt
  have h9 : field h.wire 40 4 = h.fwdCnt.toNat :=
    field_fieldBytes 9 (by simp [fields]) h.fwdCnt.toNat_lt
  rw [h0, h1, h2, h3, h4, h5, h6, h7, h8, h9]
  simp [VsockOp.fromWire_toWire]

theorem wire_parsed (hb : hdrSize ≤ b.length) : (parsed b).wire =
    b.take 30 ++ leBytes 2 (if field b 30 2 ≤ 7 then field b 30 2 else 0) ++ (b.drop 32).take 12 := by
  unfold hdrSize at hb
  have h64 : ∀ i, (UInt64.ofNat (field b i 8)).toNat = field b i 8 := fun i =>
    UInt64.toNat_ofNat_of_lt' (field_lt b i 8)
  have h32 : ∀ i, (UInt32.ofNat (field b i 4)).toNat = field b i 4 := fun i =>
    UInt32.toNat_ofNat_of_lt' (field_lt b i 4)
  have h16 : ∀ i, (UInt16.ofNat (field b i 2)).toNat = field b i 2 := fun i =>
    UInt16.toNat_ofNat_of_lt' (field_lt b i 2)
  have hop : (VsockOp.fromWire (.ofNat (field b 30 2))).toWire.toNat =
      if field b 30 2 ≤ 7 then field b 30 2 else 0 := by
    rw [VsockOp.toWire_fromWire, apply_ite UInt16.toNat, h16]
    rfl
  have hfront : (cuts b 0 [8, 8, 4, 4, 4, 2]).flatten = b.take 30 := flatten_cuts b 0 _
  have hback : (cuts b 32 [4, 4, 4]).flatten = (b.drop 32).take 12 := flatten_cuts b 32 _
  rw [wire, fieldBytes]
  simp only [fields, parsed, h64, h32, h16, hop, List.flatMap_cons, List.flatMap_nil]
  rw [leBytes_field (by omega), leBytes_field (by omega), leBytes_field (by omega),
    leBytes_field (by omega), leBytes_field (by omega), leBytes_field (by omega),
    leBytes_field (by omega), leBytes_field (by omega), leBytes_field (by omega)]
  rw [← hfront, ← hback]
  simp [cuts]

theorem wire_parsed_iff (hb : hdrSize ≤ b.length) :
    (parsed b).wire = b.take hdrSize ↔ field b 30 2 ≤ 7 := by
  have hop : leBytes 2 (field b 30 2) = (b.drop 30).take 2 :=
    leBytes_field (by unfold hdrSize at hb; omega)
  have hfront : b.take hdrSize = b.take 30 ++ (b.drop 30).take 2 ++ (b.drop 32).take 12 := by
    rw [show hdrSize = 30 + 2 + 12 from rfl, List.take_add, List.take_add]
  rw [wire_parsed hb, hfront, ← hop, List.append_cancel_right_eq, List.append_cancel_left_eq]
  refine ⟨fun h => ?_, fun h => by rw [if_pos h]⟩
  by_contra hlarge
  have hsame := congrArg leNat h
  rw [if_neg hlarge, leNat_leBytes, leNat_leBytes, Nat.mod_eq_of_lt (field_lt b 30 2)] at hsame
  omega

end VsockHeader

namespace VsockPacket

def wire (pkt : VsockPacket) : List UInt8 := pkt.hdr.wire ++ pkt.payload

def decode (bytes : List UInt8) : Option VsockPacket :=
  match VsockHeader.fromBytes (bytes.take hdrSize) with
  | .ok (.ok hdr) => some { hdr, payload := bytes.drop hdrSize }
  | _ => none

theorem decode_wire (pkt : VsockPacket) : decode pkt.wire = some pkt := by
  have hlen : pkt.hdr.wire.length = hdrSize := pkt.hdr.length_wire
  rw [decode, wire, List.take_left' hlen, List.drop_left' hlen, VsockHeader.fromBytes_wire]

end VsockPacket

end Squib.VsockDevice
