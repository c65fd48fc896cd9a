import Squib.Virtio.Services
import Squib.Vsock.Delivery

/-!
# The header codec in both directions
-/

namespace Squib.VsockDevice

open Bytes

variable {η : Type} {buf : List UInt8}

theorem VsockPacket.wire_accepted_iff (h : hdrSize ≤ buf.length) :
    (accepted buf).wire = buf.take (hdrSize + (accepted buf).payload.length) ↔
      field buf 30 2 ≤ 7 := by
  have hpayload : (buf.drop hdrSize).take (accepted buf).payload.length = (accepted buf).payload := by
    rw [accepted, List.length_take, List.length_drop, min_eq_left (min_le_right _ _)]
  rw [List.take_add, hpayload, wire, List.append_cancel_right_eq]
  exact VsockHeader.wire_parsed_iff h

/-- **The header codec**: `toBytes` undoes `fromBytes` exactly on the operations up to 7 and clears
the larger ones; `fromBytes` undoes `toBytes` on every header. So the packet that the transmit side
hands to the multiplexer is the packet that its bytes on the receive side are parsed as. -/
theorem header_codec :
    (∀ b : List UInt8, hdrSize ≤ b.length →
      ∃ h out, VsockHeader.fromBytes b = .ok (.ok h) ∧ h.toBytes = .ok out ∧
        (out = b.take hdrSize ↔ field b 30 2 ≤ 7) ∧
        (7 < field b 30 2 → out = b.take 30 ++ [0, 0] ++ (b.drop 32).take 12)) ∧
    (∀ h : VsockHeader, ∃ out, h.toBytes = .ok out ∧ VsockHeader.fromBytes out = .ok (.ok h)) ∧
    ∀ (muxer : VsockMuxer η) (descs : List Descriptor) (rxBuffer : RxBuffer) (w : World η),
      hdrSize ≤ (gather w.mem descs).length →
      ∃ pkt emitted, (Service.vsockTx muxer).handler (.ok descs) rxBuffer w =
          .ok (.complete 0, rxBuffer ++ (muxer.handleTx pkt w.host).1,
            { w with host := (muxer.handleTx pkt w.host).2 }) ∧
        Scatters (Service.vsockRx pkt : Service η).handler emitted ∧
        VsockPacket.decode emitted = some pkt ∧
        (emitted = (gather w.mem descs).take (hdrSize + pkt.payload.length) ↔
          field (gather w.mem descs) 30 2 ≤ 7) := by
  refine ⟨fun b hb => ?_, fun h => ⟨h.wire, h.toBytes_eq, h.fromBytes_wire⟩, ?_⟩
  · refine ⟨.parsed b, _, VsockHeader.fromBytes_eq hb, VsockHeader.toBytes_eq _,
      VsockHeader.wire_parsed_iff hb, fun hop => ?_⟩
    rw [VsockHeader.wire_parsed hb, if_neg (Nat.not_le.2 hop)]
    rfl
  · intro muxer descs rxBuffer w hlen
    refine ⟨.accepted (gather w.mem descs), _, Service.vsockTx_handler muxer rxBuffer hlen,
      scatters_deliverPacket _, VsockPacket.decode_wire _, ?_⟩
    exact VsockPacket.wire_accepted_iff hlen

end Squib.VsockDevice
