import Squib.Block.Audit
import Squib.Virtio.Devices
import Squib.Vsock.Wire

/-!
# The request handlers of the frontends
-/

namespace Squib

open Audit Checked Bytes

variable {η : Type}

namespace RngDevice

def fillBuffersAudited (source : EntropySource η) :
    List Descriptor → (bytesWritten : UInt32) → World η →
      Audited Charge Panic (UInt32 × World η)
  | [], bytesWritten, w => return (bytesWritten, w)
  | desc :: descs, bytesWritten, w =>
    if desc.flags &&& virtqDescFWrite == 0 then fillBuffersAudited source descs bytesWritten w
    else do
      MonadWriter.tell [.buffer desc.len.toNat]
      let (buf, host) := source.fill desc.len.toNat w.host
      match ← storeAudited { w with host } desc.addr buf.toList with
      | .error _ => return (bytesWritten, { w with host })
      | .ok w => fillBuffersAudited source descs (saturatingAdd bytesWritten desc.len) w

def fillCost (m : GuestMemory) : List Descriptor → List Charge
  | [] => []
  | desc :: descs =>
    if !desc.isWriteOnly then fillCost m descs
    else
      .buffer desc.len.toNat ::
        if m.contains desc.addr desc.len.toNat then
          .wrote desc.addr desc.len.toNat :: fillCost m descs
        else []

theorem audits_fillBuffers (source : EntropySource η) (m : GuestMemory) (descs : List Descriptor)
    (bytesWritten : UInt32) (w : World η) (hm : w.mem.regions = m.regions) :
    Audits (fillBuffersAudited source descs bytesWritten w)
        (.ok (fillBuffers source descs bytesWritten w)) (fillCost m descs) ∧
      (fillBuffers source descs bytesWritten w).1.toNat =
        min (bytesWritten.toNat + stored (fillCost m descs)) (2 ^ 32 - 1) := by
  induction descs generalizing bytesWritten w with
  | nil =>
    have hlt := bytesWritten.toNat_lt
    exact ⟨.pure _, by simp only [fillBuffers, fillCost, stored_nil]; omega⟩
  | cons desc descs ih =>
    have hflag : (desc.flags &&& virtqDescFWrite == 0) = !desc.isWriteOnly := by
      simp [Descriptor.isWriteOnly, bne]
    rw [fillBuffers, fillBuffersAudited, fillCost, hflag]
    by_cases hd : (!desc.isWriteOnly) = true
    · rw [if_pos hd, if_pos hd, if_pos hd]
      exact ih bytesWritten w hm
    rw [if_neg hd, if_neg hd, if_neg hd]
    rcases source.fill desc.len.toNat w.host with ⟨buf, host⟩
    dsimp only
    have hcontains := GuestMemory.contains_congr hm desc.addr desc.len.toNat
    obtain ⟨e, hw, hunmapped, hstore⟩ | ⟨w', hw, hmapped, hregions, -, hstore⟩ :=
      store_cases { w with host } desc.addr buf.length_toList
    · have hlt := bytesWritten.toNat_lt
      rw [hw, if_neg (hcontains ▸ hunmapped)]
      refine ⟨.charge _ (.silent_bind hstore (.pure _)), ?_⟩
      simp only [stored_cons, stored_nil, Charge.stored]
      omega
    · rw [hw, if_pos (hcontains ▸ hmapped)]
      obtain ⟨haudits, hcount⟩ :=
        ih (saturatingAdd bytesWritten desc.len) w' (hregions.trans hm)
      refine ⟨.charge _ (.charge_bind hstore haudits), ?_⟩
      rw [hcount, toNat_saturatingAdd_eq_min]
      simp only [stored_cons, Charge.stored]
      omega

end RngDevice

namespace ConsoleDevice

def writeBuffersAudited (sink : ConsoleSink η) :
    List Descriptor → (written : UInt32) → World η → Audited Charge Panic (UInt32 × World η)
  | [], written, w => return (written, w)
  | desc :: descs, written, w =>
    if desc.isWriteOnly then writeBuffersAudited sink descs written w
    else if desc.len = 0 then writeBuffersAudited sink descs written w
    else do
      MonadWriter.tell [.buffer desc.len.toNat]
      match w.mem.read desc.addr desc.len.toNat with
      | .error _ => writeBuffersAudited sink descs written w
      | .ok buf =>
        writeBuffersAudited sink descs (saturatingAdd written desc.len)
          { w with host := sink.write buf w.host }

def writeBuffersCost (descs : List Descriptor) : List Charge :=
  ((readBuffers descs).filter fun d => d.len ≠ 0).map fun d => .buffer d.len.toNat

def sent (m : GuestMemory) (descs : List Descriptor) : ℕ :=
  (((readBuffers descs).filter fun d => m.contains d.addr d.len.toNat).map fun d => d.len.toNat).sum

theorem audits_writeBuffers (sink : ConsoleSink η) (descs : List Descriptor) (written : UInt32)
    (w : World η) :
    Audits (writeBuffersAudited sink descs written w) (.ok (writeBuffers sink descs written w))
        (writeBuffersCost descs) ∧
      (writeBuffers sink descs written w).1.toNat =
        min (written.toNat + sent w.mem descs) (2 ^ 32 - 1) := by
  induction descs generalizing written w with
  | nil =>
    have hlt := written.toNat_lt
    exact ⟨.pure _, by simp [writeBuffers, sent, readBuffers]; omega⟩
  | cons desc descs ih =>
    rw [writeBuffers, writeBuffersAudited, writeBuffersCost, sent, readBuffers]
    by_cases hd : desc.isWriteOnly = true
    · rw [if_pos hd, if_pos hd, List.filter_cons_of_neg (by simp [hd])]
      exact ih written w
    rw [if_neg hd, if_neg hd, List.filter_cons_of_pos (by simp [hd])]
    by_cases hlen : desc.len = 0
    · rw [if_pos hlen, if_pos hlen, List.filter_cons_of_neg (by simp [hlen])]
      refine ⟨(ih written w).1, (ih written w).2.trans ?_⟩
      rw [List.filter_cons]
      split_ifs
      · simp [sent, readBuffers, hlen]
      · rfl
    rw [List.filter_cons_of_pos (by simp [hlen]), GuestMemory.read]
    split_ifs with hmapped
    · rw [List.filter_cons_of_pos (p := fun d : Descriptor =>
        w.mem.contains d.addr d.len.toNat) hmapped]
      obtain ⟨haudits, hcount⟩ :=
        ih (saturatingAdd written desc.len) { w with host := sink.write _ w.host }
      refine ⟨.charge _ haudits, hcount.trans ?_⟩
      rw [toNat_saturatingAdd_eq_min]
      simp only [sent, readBuffers, List.map_cons, List.sum_cons]
      omega
    · rw [List.filter_cons_of_neg (p := fun d : Descriptor =>
        w.mem.contains d.addr d.len.toNat) hmapped]
      exact ⟨.charge _ (ih written w).1, (ih written w).2⟩

end ConsoleDevice

def respCost (n : ℕ) (m : GuestMemory) (descs : List Descriptor) : List Charge :=
  match reqResp descs with
  | none => []
  | some (_, resp) => if m.contains resp.addr n then [.wrote resp.addr n] else []

namespace MemDevice

def handleRequestAudited (backend : MemHotplugBackend η) (config : MemConfig)
    (descs : List Descriptor) (plugged : Plugged) (w : World η) :
    Audited Charge Panic (UInt32 × Plugged × World η) :=
  match reqResp descs with
  | none => return (0, plugged, w)
  | some (req, resp) => do
    let reqType := (w.mem.readU16Le req.addr).toOption.getD 0xFFFF
    let reqAddr := (w.mem.readU64Le (reqAddrAddr req)).toOption.getD 0
    let nbBlocks := (w.mem.readU16Le (nbBlocksAddr req)).toOption.getD 0
    let (respType, plugged, host) ←
      liftM (dispatchRequest backend config.regionBase reqType reqAddr nbBlocks plugged w.host)
    match ← storeAudited { w with host } resp.addr (leBytes 2 respType.toNat) with
    | .ok w => return (2, plugged, w)
    | .error _ => return (0, plugged, { w with host })

theorem audits_handleRequest (backend : MemHotplugBackend η) (config : MemConfig)
    (descs : List Descriptor) (plugged : Plugged) (w : World η) :
    ∃ r, handleRequest backend config descs plugged w = .ok r ∧
      Audits (handleRequestAudited backend config descs plugged w) (.ok r)
        (respCost 2 w.mem descs) ∧
      r.1.toNat = stored (respCost 2 w.mem descs) := by
  rw [handleRequest, handleRequestAudited, respCost]
  rcases reqResp descs with - | ⟨req, resp⟩
  · exact ⟨_, rfl, .pure _, rfl⟩
  dsimp only
  obtain ⟨⟨respType, plugged', host⟩, hdispatch, -⟩ := dispatchRequest_returns backend
    config.regionBase ((w.mem.readU16Le req.addr).toOption.getD 0xFFFF)
    ((w.mem.readU64Le (reqAddrAddr req)).toOption.getD 0)
    ((w.mem.readU16Le (nbBlocksAddr req)).toOption.getD 0) plugged w.host
  rw [hdispatch, ok_bind]
  obtain ⟨e, hw, hunmapped, hstore⟩ | ⟨w', hw, hmapped, -, -, hstore⟩ :=
    store_cases { w with host } resp.addr (length_leBytes 2 respType.toNat)
  · rw [if_neg hunmapped]
    rw [hw]
    exact ⟨_, rfl, .silent_bind (.lift (.ok _)) (.silent_bind hstore (.pure _)), rfl⟩
  · rw [if_pos hmapped]
    rw [hw]
    exact ⟨_, rfl, .silent_bind (.lift (.ok _)) (.bind_silent hstore (.pure _)), rfl⟩

end MemDevice

namespace PmemDevice

def handleRequestAudited (descs : List Descriptor) (w : World η) :
    Audited Charge Panic (UInt32 × World η) :=
  match reqResp descs with
  | none => return (0, w)
  | some (req, resp) => do
    let reqType := (w.mem.readU32Le req.addr).toOption.getD 0xFFFFFFFF
    let result := if reqType = reqTypeFlush then respTypeOk else respTypeEio
    match ← storeAudited w resp.addr (leBytes 4 result.toNat) with
    | .ok w => return (4, w)
    | .error _ => return (0, w)

theorem audits_handleRequest (descs : List Descriptor) (w : World η) :
    Audits (handleRequestAudited descs w) (.ok (handleRequest descs w)) (respCost 4 w.mem descs) ∧
      (handleRequest descs w).1.toNat = stored (respCost 4 w.mem descs) := by
  rw [handleRequest, handleRequestAudited, respCost]
  rcases reqResp descs with - | ⟨req, resp⟩
  · exact ⟨.pure _, rfl⟩
  dsimp only
  generalize (if (w.mem.readU32Le req.addr).toOption.getD 0xFFFFFFFF = reqTypeFlush then respTypeOk
    else respTypeEio).toNat = result
  obtain ⟨e, hw, hunmapped, hstore⟩ | ⟨w', hw, hmapped, -, -, hstore⟩ :=
    store_cases w resp.addr (length_leBytes 4 result)
  · rw [if_neg hunmapped, hw]
    exact ⟨.silent_bind hstore (.pure _), rfl⟩
  · rw [if_pos hmapped, hw]
    exact ⟨.bind_silent hstore (.pure _), rfl⟩

end PmemDevice

namespace BalloonDevice

def drainPfnAudited (queueIndex : ℕ) (m : GuestMemory) (desc : Descriptor) (pfns : Pfns) (i : ℕ) :
    Audited Charge Panic Pfns :=
  match m.readU32Le (pfnAddr desc i) with
  | .error _ => return pfns
  | .ok pfn =>
    if queueIndex = inflateQueue then do
      -- The list of parked pages grows by one number.
      MonadWriter.tell [.packet 4]
      return pfns ++ [pfn]
    else
      match pfns.findIdx? (· == pfn) with
      | some pos => liftM (swapRemove pfns pos)
      | none => return pfns

def drainPfnsAudited (queueIndex : ℕ) (m : GuestMemory) (pfns : Pfns) (desc : Descriptor) :
    Audited Charge Panic Pfns :=
  let entries := desc.len.toNat / 4
  (List.range entries).foldlM (drainPfnAudited queueIndex m desc) pfns

def pfnCost (queueIndex : ℕ) (m : GuestMemory) (desc : Descriptor) (i : ℕ) : List Charge :=
  if queueIndex = inflateQueue ∧ m.contains (pfnAddr desc i) 4 then [.packet 4] else []

def pfnsCost (queueIndex : ℕ) (m : GuestMemory) (descs : List Descriptor) : List Charge :=
  descs.flatMap fun desc => (List.range (desc.len.toNat / 4)).flatMap (pfnCost queueIndex m desc)

variable (queueIndex : ℕ) (m : GuestMemory)

theorem audits_drainPfn (desc : Descriptor) (pfns : Pfns) (i : ℕ) :
    Audits (drainPfnAudited queueIndex m desc pfns i) (drainPfn queueIndex m desc pfns i)
      (pfnCost queueIndex m desc i) := by
  rw [drainPfnAudited, drainPfn, pfnCost, GuestMemory.readU32Le, GuestMemory.read]
  by_cases hmapped : m.contains (pfnAddr desc i) 4 = true
  · rw [if_pos hmapped, Except.map]
    dsimp only
    by_cases hq : queueIndex = inflateQueue
    · rw [if_pos hq, if_pos hq, if_pos ⟨hq, hmapped⟩]
      exact .charge _ (.pure _)
    · rw [if_neg hq, if_neg hq, if_neg fun h => hq h.1]
      cases pfns.findIdx? _ with
      | none => exact .pure _
      | some pos => exact .lift _
  · rw [if_neg hmapped, if_neg fun h => hmapped h.2]
    exact .pure _

theorem stored_pfnsCost (descs : List Descriptor) : stored (pfnsCost queueIndex m descs) = 0 := by
  refine stored_eq_zero fun c hc => ?_
  obtain ⟨desc, -, hc⟩ := List.mem_flatMap.1 hc
  obtain ⟨i, -, hc⟩ := List.mem_flatMap.1 hc
  rw [pfnCost] at hc
  split_ifs at hc
  · obtain rfl := List.mem_singleton.1 hc
    rfl
  · cases hc

theorem audits_drainPfns (descs : List Descriptor) (pfns : Pfns) :
    Audits (descs.foldlM (drainPfnsAudited queueIndex m) pfns)
      (descs.foldlM (drainPfns queueIndex m) pfns) (pfnsCost queueIndex m descs) :=
  .foldlM (fun pfns desc =>
    .foldlM (audits_drainPfn queueIndex m desc) (List.range (desc.len.toNat / 4)) pfns) descs pfns

end BalloonDevice

namespace NetDevice

def transmitAudited (backend : NetBackend η) (interceptor : FrameInterceptor η)
    (descs : List Descriptor) (own : Unit) (w : World η) :
    Audited Charge Panic (Action × Unit × World η) := do
  let frameBytes ← gatherAudited w.mem descs
  if virtioNetHdrLen < frameBytes.length then do
    let payload ← liftM (slice frameBytes virtioNetHdrLen frameBytes.length)
    MonadWriter.tell [.packet payload.length]
    return (.complete 0, own, { w with host := transmit backend interceptor payload w.host })
  else return (.skip, own, w)

def receiveAudited (frame : Frame) (descs : List Descriptor) (own : Unit) (w : World η) :
    Audited Charge Panic (Action × Unit × World η) := do
  let wire := List.replicate virtioNetHdrLen 0 ++ frame
  MonadWriter.tell [.packet wire.length]
  let (written, w) ← scatterAudited wire descs 0 0 w
  return (.complete written, own, w)

def transmitCost (m : GuestMemory) (descs : List Descriptor) : List Charge :=
  gatherCost m descs ++
    if virtioNetHdrLen < (gather m descs).length then
      [.packet ((gather m descs).length - virtioNetHdrLen)]
    else []

end NetDevice

namespace VsockDevice

def transmitAudited (muxer : VsockMuxer η) (descs : List Descriptor) (rxBuffer : RxBuffer)
    (w : World η) : Audited Charge Panic (Action × RxBuffer × World η) := do
  let buf ← gatherAudited w.mem descs
  if buf.length < hdrSize then return (.completeAnyway 0, rxBuffer, w)
  else do
    let front ← liftM (slice buf 0 hdrSize)
    match ← liftM (VsockHeader.fromBytes front) with
    | .error _ => return (.skip, rxBuffer, w)
    | .ok hdr =>
      let payloadLen := min hdr.len.toNat (buf.length - hdrSize)
      let payload ← liftM (slice buf hdrSize (hdrSize + payloadLen))
      MonadWriter.tell [.packet payload.length]
      let (replies, host) := muxer.handleTx { hdr, payload } w.host
      return (.complete 0, rxBuffer ++ replies, { w with host })

def receiveAudited (pkt : VsockPacket) (descs : List Descriptor) (rxBuffer : RxBuffer)
    (w : World η) : Audited Charge Panic (Action × RxBuffer × World η) := do
  let hdr ← liftM pkt.hdr.toBytes
  let wire := hdr ++ pkt.payload
  MonadWriter.tell [.packet wire.length]
  let (written, w) ← scatterAudited wire descs 0 0 w
  return (.complete written, rxBuffer, w)

def lenField (buf : List UInt8) : ℕ := leNat ((buf.drop 24).take 4)

theorem lenField_lt (buf : List UInt8) : lenField buf < 2 ^ 32 :=
  (leNat_lt _).trans_le (Nat.pow_le_pow_right (by decide) (List.length_take_le 4 _))

def transmitCost (m : GuestMemory) (descs : List Descriptor) : List Charge :=
  gatherCost m descs ++
    if (gather m descs).length < hdrSize then []
    else [.packet (min (lenField (gather m descs)) ((gather m descs).length - hdrSize))]

end VsockDevice

/-! ## Services -/

def Action.pushes : Action → Option UInt32
  | .complete n => some n
  | .completeAnyway n => some n
  | _ => none

inductive Service (η : Type) where
  | block (backend : BlockDevice.BlockBackend η) (driveId : String)
  | netTx (backend : NetDevice.NetBackend η) (interceptor : NetDevice.FrameInterceptor η)
  | netRx (frame : NetDevice.Frame)
  | vsockTx (muxer : VsockDevice.VsockMuxer η)
  | vsockRx (pkt : VsockDevice.VsockPacket)
  | mem (backend : MemDevice.MemHotplugBackend η) (config : MemDevice.MemConfig)
  | balloon (queueIndex : ℕ)
  | balloonStats
  | rng (source : RngDevice.EntropySource η)
  | console (sink : ConsoleDevice.ConsoleSink η)
  | pmem

namespace Service

abbrev Own : Service η → Type
  | .vsockTx _ | .vsockRx _ => VsockDevice.RxBuffer
  | .mem _ _ => MemDevice.Plugged
  | .balloon _ | .balloonStats => BalloonDevice.Pfns
  | _ => Unit

def queue : Service η → ℕ
  | .netTx _ _ => NetDevice.txQueue
  | .vsockTx _ => VsockDevice.txQueue
  | .balloon queueIndex => queueIndex
  | .balloonStats => BalloonDevice.statsQueue
  | .console _ => ConsoleDevice.txQueue
  | _ => 0

def handler : (s : Service η) → Handler s.Own η
  | .block backend driveId => onChain fun descs own w => do
    let ((_, written), w) ← BlockDevice.handleRequestInner backend driveId descs w
    .ok (.complete written, own, w)
  | .netTx backend interceptor => onChain fun descs own w =>
    let frameBytes := gather w.mem descs
    if NetDevice.virtioNetHdrLen < frameBytes.length then do
      let payload ← slice frameBytes NetDevice.virtioNetHdrLen frameBytes.length
      .ok (.complete 0, own, { w with host := NetDevice.transmit backend interceptor payload w.host })
    else .ok (.skip, own, w)
  | .netRx frame => onChain fun descs own w => do
    let wire := List.replicate NetDevice.virtioNetHdrLen 0 ++ frame
    let (written, w) ← scatter wire descs 0 0 w
    .ok (.complete written, own, w)
  | .vsockTx muxer => onChain fun descs rxBuffer w =>
    let buf := gather w.mem descs
    if buf.length < VsockDevice.hdrSize then .ok (.completeAnyway 0, rxBuffer, w)
    else do
      match ← VsockDevice.VsockHeader.fromBytes (← slice buf 0 VsockDevice.hdrSize) with
      | .error _ => .ok (.skip, rxBuffer, w)
      | .ok hdr =>
        let payloadLen := min hdr.len.toNat (buf.length - VsockDevice.hdrSize)
        let payload ← slice buf VsockDevice.hdrSize (VsockDevice.hdrSize + payloadLen)
        let (replies, host) := muxer.handleTx { hdr, payload } w.host
        .ok (.complete 0, rxBuffer ++ replies, { w with host })
  | .vsockRx pkt => onChain fun descs rxBuffer w => do
    let wire := (← pkt.hdr.toBytes) ++ pkt.payload
    let (written, w) ← scatter wire descs 0 0 w
    .ok (.complete written, rxBuffer, w)
  | .mem backend config => onChain fun descs plugged w => do
    let (written, plugged, w) ← MemDevice.handleRequest backend config descs plugged w
    .ok (.complete written, plugged, w)
  | .balloon queueIndex => BalloonDevice.pfnHandler queueIndex
  | .balloonStats => BalloonDevice.statsHandler
  | .rng source => onChain fun descs own w =>
    let (bytesWritten, w) := RngDevice.fillBuffers source descs 0 w
    .ok (.complete bytesWritten, own, w)
  | .console sink => onChain fun descs own w =>
    let (written, w) := ConsoleDevice.writeBuffers sink descs 0 w
    .ok (.complete written, own, w)
  | .pmem => onChain fun descs own w =>
    let (written, w) := PmemDevice.handleRequest descs w
    .ok (.complete written, own, w)

def auditedOn : (s : Service η) → List Descriptor → s.Own → World η →
    Audited Charge Panic (Action × s.Own × World η)
  | .block backend driveId, descs, own, w => do
    let ((_, written), w) ← BlockDevice.handleRequestInnerAudited backend driveId descs w
    return (.complete written, own, w)
  | .netTx backend interceptor, descs, own, w =>
    NetDevice.transmitAudited backend interceptor descs own w
  | .netRx frame, descs, own, w => NetDevice.receiveAudited frame descs own w
  | .vsockTx muxer, descs, rxBuffer, w => VsockDevice.transmitAudited muxer descs rxBuffer w
  | .vsockRx pkt, descs, rxBuffer, w => VsockDevice.receiveAudited pkt descs rxBuffer w
  | .mem backend config, descs, plugged, w => do
    let (written, plugged, w) ← MemDevice.handleRequestAudited backend config descs plugged w
    return (.complete written, plugged, w)
  | .balloon queueIndex, descs, pfns, w => do
    let pfns ← descs.foldlM (BalloonDevice.drainPfnsAudited queueIndex w.mem) pfns
    return (.complete 0, pfns, w)
  | .balloonStats, _, pfns, w => return (.complete 0, pfns, w)
  | .rng source, descs, own, w => do
    let (bytesWritten, w) ← RngDevice.fillBuffersAudited source descs 0 w
    return (.complete bytesWritten, own, w)
  | .console sink, descs, own, w => do
    let (written, w) ← ConsoleDevice.writeBuffersAudited sink descs 0 w
    return (.complete written, own, w)
  | .pmem, descs, own, w => do
    let (written, w) ← PmemDevice.handleRequestAudited descs w
    return (.complete written, own, w)

def audited (s : Service η) (r : Except QueueError (List Descriptor)) (own : s.Own) (w : World η) :
    Audited Charge Panic (Action × s.Own × World η) :=
  match r with
  | .ok descs => s.auditedOn descs own w
  | .error _ =>
    match s with
    | .balloonStats => return (.complete 0, own, w)
    | _ => return (.abandon, own, w)

def costOn (s : Service η) (descs : List Descriptor) (w : World η) : List Charge :=
  match s with
  | .block backend _ => BlockDevice.requestCost backend w.mem descs w.host
  | .netTx _ _ => NetDevice.transmitCost w.mem descs
  | .netRx frame =>
    .packet (NetDevice.virtioNetHdrLen + frame.length) ::
      scatterCost w.mem (NetDevice.virtioNetHdrLen + frame.length) descs
  | .vsockTx _ => VsockDevice.transmitCost w.mem descs
  | .vsockRx pkt =>
    .packet (VsockDevice.hdrSize + pkt.payload.length) ::
      scatterCost w.mem (VsockDevice.hdrSize + pkt.payload.length) descs
  | .mem _ _ => respCost 2 w.mem descs
  | .balloon queueIndex => BalloonDevice.pfnsCost queueIndex w.mem descs
  | .balloonStats => []
  | .rng _ => RngDevice.fillCost w.mem descs
  | .console _ => ConsoleDevice.writeBuffersCost descs
  | .pmem => respCost 4 w.mem descs

def counted (s : Service η) (descs : List Descriptor) (w : World η) : ℕ :=
  match s with
  | .block backend _ => BlockDevice.counted backend w descs
  | .console _ => ConsoleDevice.sent w.mem descs
  | _ => stored (s.costOn descs w)

def Serves (s : Service η) (descs : List Descriptor) (own : s.Own) (w : World η) : Prop :=
  ∃ r, s.handler (.ok descs) own w = .ok r ∧ r.2.2.log = w.log ∧
    Audits (s.auditedOn descs own w) (.ok r) (s.costOn descs w) ∧
    ∀ n, r.1.pushes = some n → n.toNat = min (s.counted descs w) (2 ^ 32 - 1)

theorem serves_block (backend : BlockDevice.BlockBackend η) (driveId : String)
    (descs : List Descriptor) (w : World η) : (block backend driveId).Serves descs () w := by
  obtain ⟨⟨⟨status, n⟩, w'⟩, hinner, haudits, hcount⟩ :=
    BlockDevice.audits_handleRequestInner backend driveId descs w
  have htouches := (BlockDevice.handleRequestInner_returns backend driveId descs w).of_eq hinner
  refine ⟨(.complete n, (), w'), ?_, htouches.log, haudits.bind_silent (.pure _), ?_⟩
  · simp only [handler, onChain, hinner, ok_bind]
  · rintro _ ⟨⟩
    exact hcount

theorem serves_netTx (backend : NetDevice.NetBackend η) (interceptor : NetDevice.FrameInterceptor η)
    (descs : List Descriptor) (w : World η) : (netTx backend interceptor).Serves descs () w := by
  have hgather := audits_gather w.mem descs
  by_cases hlen : NetDevice.virtioNetHdrLen < (gather w.mem descs).length
  · obtain ⟨payload, hslice, -, hlength⟩ := returns_slice hlen.le le_rfl
    refine ⟨(.complete 0, (), { w with
      host := NetDevice.transmit backend interceptor payload w.host }), ?_, rfl, ?_, ?_⟩
    · simp only [handler, onChain, if_pos hlen, hslice, ok_bind]
    · rw [costOn, NetDevice.transmitCost, if_pos hlen, ← hlength]
      refine hgather.bind_ok ?_
      rw [if_pos hlen, hslice]
      exact .silent_bind (.lift _) (.charge _ (.pure _))
    · rintro _ ⟨⟩
      simp [counted, costOn, NetDevice.transmitCost, stored_gatherCost, hlen]
  · refine ⟨(.skip, (), w), ?_, rfl, ?_, by simp [Action.pushes]⟩
    · simp only [handler, onChain, if_neg hlen]
    · rw [costOn, NetDevice.transmitCost, if_neg hlen]
      refine hgather.bind_ok ?_
      rw [if_neg hlen]
      exact .pure _

theorem serves_netRx (frame : NetDevice.Frame) (descs : List Descriptor) (w : World η) :
    (netRx frame : Service η).Serves descs () w := by
  obtain ⟨n, w', hscatter, hcount, haudits⟩ := audits_scatter
    (List.replicate NetDevice.virtioNetHdrLen 0 ++ frame) descs (Nat.zero_le _) 0 w
  have hlength : (List.replicate NetDevice.virtioNetHdrLen (0 : UInt8) ++ frame).length =
      NetDevice.virtioNetHdrLen + frame.length := by simp
  have htouches := (scatter_returns _ descs 0 0 w (Nat.zero_le _)).of_eq hscatter
  rw [hlength] at hcount haudits
  refine ⟨(.complete n, (), w'), ?_, htouches.log, ?_, ?_⟩
  · simp only [handler, onChain, hscatter, ok_bind]
  · rw [costOn, ← hlength]
    rw [← hlength] at haudits
    exact .charge _ (haudits.bind_silent (.pure _))
  · rintro _ ⟨⟩
    rw [hcount]
    simp [counted, costOn]

theorem vsockTx_handler (muxer : VsockDevice.VsockMuxer η) {descs : List Descriptor}
    (rxBuffer : VsockDevice.RxBuffer) {w : World η}
    (h : VsockDevice.hdrSize ≤ (gather w.mem descs).length) :
    (vsockTx muxer).handler (.ok descs) rxBuffer w =
      .ok (.complete 0, rxBuffer ++ (muxer.handleTx (.accepted (gather w.mem descs)) w.host).1,
        { w with host := (muxer.handleTx (.accepted (gather w.mem descs)) w.host).2 }) := by
  simp only [handler, onChain, if_neg (not_lt.2 h), VsockDevice.slice_front h,
    VsockDevice.fromBytes_front h, VsockDevice.slice_acceptedPayload h, ok_bind]
  rfl

theorem serves_vsockTx (muxer : VsockDevice.VsockMuxer η) (descs : List Descriptor)
    (rxBuffer : VsockDevice.RxBuffer) (w : World η) :
    (vsockTx muxer).Serves descs rxBuffer w := by
  have hgather := audits_gather w.mem descs
  by_cases hlen : (gather w.mem descs).length < VsockDevice.hdrSize
  · refine ⟨(.completeAnyway 0, rxBuffer, w), ?_, rfl, ?_, ?_⟩
    · simp only [handler, onChain, if_pos hlen]
    · rw [costOn, VsockDevice.transmitCost, if_pos hlen]
      refine hgather.bind_ok ?_
      rw [if_pos hlen]
      exact .pure _
    · rintro _ ⟨⟩
      simp [counted, costOn, VsockDevice.transmitCost, hlen, stored_gatherCost]
  have hfront := not_lt.1 hlen
  have hlength : (VsockDevice.VsockPacket.accepted (gather w.mem descs)).payload.length =
      min (VsockDevice.lenField (gather w.mem descs))
        ((gather w.mem descs).length - VsockDevice.hdrSize) := by
    rw [VsockDevice.VsockPacket.accepted, List.length_take, List.length_drop]
    exact min_eq_left (min_le_right _ _)
  refine ⟨_, vsockTx_handler muxer rxBuffer hfront, rfl, ?_, ?_⟩
  · rw [costOn, VsockDevice.transmitCost, if_neg hlen, ← hlength]
    refine hgather.bind_ok ?_
    rw [if_neg hlen, VsockDevice.slice_front hfront]
    refine .silent_bind (.lift _) ?_
    rw [VsockDevice.fromBytes_front hfront]
    refine .silent_bind (.lift _) ?_
    dsimp only
    rw [VsockDevice.slice_acceptedPayload hfront]
    exact .silent_bind (.lift _) (.charge _ (.pure _))
  · rintro _ ⟨⟩
    simp [counted, costOn, VsockDevice.transmitCost, stored_gatherCost, hlen]

theorem serves_vsockRx (pkt : VsockDevice.VsockPacket) (descs : List Descriptor)
    (rxBuffer : VsockDevice.RxBuffer) (w : World η) :
    (vsockRx pkt : Service η).Serves descs rxBuffer w := by
  obtain ⟨n, w', hscatter, hcount, haudits⟩ :=
    audits_scatter (pkt.hdr.wire ++ pkt.payload) descs (Nat.zero_le _) 0 w
  have hlength : (pkt.hdr.wire ++ pkt.payload).length =
      VsockDevice.hdrSize + pkt.payload.length := by simp
  have htouches := (scatter_returns _ descs 0 0 w (Nat.zero_le _)).of_eq hscatter
  refine ⟨(.complete n, rxBuffer, w'), ?_, htouches.log, ?_, ?_⟩
  · simp only [handler, onChain, VsockDevice.VsockHeader.toBytes_eq, hscatter, ok_bind]
  · rw [costOn, ← hlength]
    rw [auditedOn, VsockDevice.receiveAudited, VsockDevice.VsockHeader.toBytes_eq]
    exact .silent_bind (.lift _) (.charge _ (haudits.bind_silent (.pure _)))
  · rintro _ ⟨⟩
    rw [hcount]
    simp [counted, costOn]

theorem serves_mem (backend : MemDevice.MemHotplugBackend η) (config : MemDevice.MemConfig)
    (descs : List Descriptor) (plugged : MemDevice.Plugged) (w : World η) :
    (mem backend config).Serves descs plugged w := by
  obtain ⟨⟨n, plugged', w'⟩, hrequest, haudits, hcount⟩ :=
    MemDevice.audits_handleRequest backend config descs plugged w
  have htouches := (MemDevice.handleRequest_returns backend config descs plugged w).of_eq hrequest
  refine ⟨(.complete n, plugged', w'), ?_, htouches.log, haudits.bind_silent (.pure _), ?_⟩
  · simp only [handler, onChain, hrequest, ok_bind]
  · rintro _ ⟨⟩
    change n.toNat = min (stored (respCost 2 w.mem descs)) (2 ^ 32 - 1)
    have hlt := n.toNat_lt
    dsimp only at hcount
    omega

theorem serves_balloon (queueIndex : ℕ) (descs : List Descriptor) (pfns : BalloonDevice.Pfns)
    (w : World η) : (balloon queueIndex : Service η).Serves descs pfns w := by
  obtain ⟨pfns', hdrained, -⟩ := BalloonDevice.foldlM_returns
    (fun pfns desc => BalloonDevice.foldlM_returns
      (BalloonDevice.drainPfn_returns queueIndex w.mem desc) (List.range (desc.len.toNat / 4)) pfns)
    descs pfns
  have haudits := BalloonDevice.audits_drainPfns queueIndex w.mem descs pfns
  have hdrained : descs.foldlM (BalloonDevice.drainPfns queueIndex w.mem) pfns = .ok pfns' := hdrained
  rw [hdrained] at haudits
  refine ⟨(.complete 0, pfns', w), ?_, rfl, haudits.bind_silent (.pure _), ?_⟩
  · simp only [handler, BalloonDevice.pfnHandler, onChain, hdrained, ok_bind]
  · rintro _ ⟨⟩
    simp [counted, costOn, BalloonDevice.stored_pfnsCost]

theorem serves_rng (source : RngDevice.EntropySource η) (descs : List Descriptor) (w : World η) :
    (rng source).Serves descs () w := by
  obtain ⟨haudits, hcount⟩ := RngDevice.audits_fillBuffers source w.mem descs 0 w rfl
  refine ⟨_, rfl, (RngDevice.fillBuffers_touches source descs 0 w).log, haudits.bind_silent (.pure _), ?_⟩
  rintro _ ⟨⟩
  rw [hcount]
  simp [counted, costOn]

theorem serves_console (sink : ConsoleDevice.ConsoleSink η) (descs : List Descriptor) (w : World η) :
    (console sink).Serves descs () w := by
  obtain ⟨haudits, hcount⟩ := ConsoleDevice.audits_writeBuffers sink descs 0 w
  have htouches := ConsoleDevice.writeBuffers_touches sink (fun _ => False) descs 0 w
  refine ⟨_, rfl, htouches.log, haudits.bind_silent (.pure _), ?_⟩
  rintro _ ⟨⟩
  rw [hcount]
  simp [counted]

theorem serves_pmem (descs : List Descriptor) (w : World η) :
    (pmem : Service η).Serves descs () w := by
  obtain ⟨haudits, hcount⟩ := PmemDevice.audits_handleRequest descs w
  refine ⟨_, rfl, (PmemDevice.handleRequest_touches descs w).log, haudits.bind_silent (.pure _), ?_⟩
  rintro _ ⟨⟩
  change (PmemDevice.handleRequest descs w).1.toNat =
    min (stored (respCost 4 w.mem descs)) (2 ^ 32 - 1)
  have hlt := (PmemDevice.handleRequest descs w).1.toNat_lt
  omega

theorem serves (s : Service η) (descs : List Descriptor) (own : s.Own) (w : World η) :
    s.Serves descs own w := by
  cases s with
  | block backend driveId => exact serves_block backend driveId descs w
  | netTx backend interceptor => exact serves_netTx backend interceptor descs w
  | netRx frame => exact serves_netRx frame descs w
  | vsockTx muxer => exact serves_vsockTx muxer descs own w
  | vsockRx pkt => exact serves_vsockRx pkt descs own w
  | mem backend config => exact serves_mem backend config descs own w
  | balloon queueIndex => exact serves_balloon queueIndex descs own w
  | balloonStats => exact ⟨_, rfl, rfl, .pure _, by rintro _ ⟨⟩; rfl⟩
  | rng source => exact serves_rng source descs w
  | console sink => exact serves_console sink descs w
  | pmem => exact serves_pmem descs w

def next (s : Service η) (d : Drain s.Own η) :
    Option (Except QueueError (List Descriptor) × World η) :=
  match (d.queue.popAvail d.world.mem).1 with
  | .ok (some chain) =>
    some (chain.collect d.world.mem, d.world.emit (.popped s.queue d.queue d.world.mem chain))
  | _ => none

def spent (s : Service η) (d : Drain s.Own η) : List Charge :=
  match s.next d with
  | some (r, w) => record (s.audited r d.own w)
  | none => []

variable {s : Service η} {d : Drain s.Own η} {w : World η}

theorem spent_eq_costOn {descs : List Descriptor} (h : s.next d = some (.ok descs, w)) :
    s.spent d = s.costOn descs w := by
  obtain ⟨r, -, -, haudits, -⟩ := s.serves descs d.own w
  rw [spent, h]
  exact haudits.record_eq

theorem spent_eq_nil {e : QueueError} (h : s.next d = some (.error e, w)) : s.spent d = [] := by
  rw [spent, h]
  cases s <;> exact Audits.record_eq (.pure _)

theorem handler_error (s : Service η) (e : QueueError) (own : s.Own) (w : World η) :
    ∃ action, s.handler (.error e) own w = .ok (action, own, w) ∧
      ∀ n, action.pushes = some n → n = 0 := by
  cases s with
  | balloonStats => exact ⟨.complete 0, rfl, by rintro _ ⟨⟩; rfl⟩
  | _ => exact ⟨.abandon, rfl, by rintro _ ⟨⟩⟩

theorem settle_log {σ : Type} (d : Drain σ η) (qi : ℕ) (head : UInt16) (action : Action) :
    ∃ new, (d.settle qi head action).state.world.log = d.world.log ++ new ∧
      ∀ qi' head' n, Event.pushed qi' head' n ∈ new → action.pushes = some n := by
  have hpush : ∀ written, ∃ e, (d.push qi head written).2.world.log = d.world.log ++ [e] ∧
      ∀ qi' head' n, Event.pushed qi' head' n ∈ [e] → some written = some n := by
    intro written
    obtain ⟨e, q, m, he, hd, -⟩ := push_cases d qi head written
    refine ⟨e, by rw [hd]; rfl, fun qi' head' n hn => ?_⟩
    obtain rfl | rfl := he
    · cases List.mem_singleton.1 hn
      rfl
    · cases List.mem_singleton.1 hn
  cases action with
  | abandon | skip => exact ⟨[], (List.append_nil _).symm, by simp⟩
  | complete written =>
    obtain ⟨e, hlog, he⟩ := hpush written
    refine ⟨[e], ?_, he⟩
    rw [Drain.settle]
    rcases hd : d.push qi head written with ⟨_ | _, d'⟩ <;>
    · rw [hd] at hlog
      exact hlog
  | completeAnyway written =>
    obtain ⟨e, hlog, he⟩ := hpush written
    exact ⟨[e], hlog, he⟩

theorem serve_pushes (s : Service η) (onEmpty : s.Own → s.Own) (d : Drain s.Own η) :
    ∃ c new, serve s.queue s.handler onEmpty d = .ok c ∧
      c.state.world.log = d.world.log ++ new ∧
      ∀ head n, Event.pushed s.queue head n ∈ new → ∃ r w, s.next d = some (r, w) ∧
        (∀ descs, r = .ok descs → n.toNat = min (s.counted descs w) (2 ^ 32 - 1)) ∧
        ∀ e, r = .error e → n = 0 := by
  rw [serve, next]
  rcases d.queue.popAvail d.world.mem with ⟨_ | _ | chain, q⟩
  · exact ⟨_, [], rfl, (List.append_nil _).symm, by simp⟩
  · exact ⟨_, [], rfl, (List.append_nil _).symm, by simp⟩
  dsimp only
  have hsettles : ∀ (action : Action) (own : s.Own) (w : World η),
      w.log = (d.world.emit (.popped s.queue d.queue d.world.mem chain)).log →
      ∃ new, (Drain.settle { d with queue := q, own, world := w } s.queue chain.headIndex
          action).state.world.log = d.world.log ++ new ∧
        ∀ head n, Event.pushed s.queue head n ∈ new → action.pushes = some n := by
    intro action own w hlog
    obtain ⟨new, hnew, hpushed⟩ :=
      settle_log { d with queue := q, own, world := w } s.queue chain.headIndex action
    refine ⟨.popped s.queue d.queue d.world.mem chain :: new, ?_, fun head n hn => ?_⟩
    · rw [hnew]
      rw [hlog, World.emit, List.append_assoc]
      rfl
    · obtain hn | hn := List.mem_cons.1 hn
      · cases hn
      · exact hpushed _ head n hn
  cases hwalk : chain.collect d.world.mem with
  | error e =>
    obtain ⟨action, hhandler, hzero⟩ := s.handler_error e d.own
      (d.world.emit (.popped s.queue d.queue d.world.mem chain))
    obtain ⟨new, hlog, hpushed⟩ := hsettles action d.own _ rfl
    rw [show (d.world.emit _).mem = d.world.mem from rfl, hwalk, hhandler]
    refine ⟨_, new, rfl, hlog, fun head n hn => ⟨_, _, rfl, by simp, fun _ _ => ?_⟩⟩
    exact hzero n (hpushed head n hn)
  | ok descs =>
    obtain ⟨⟨action, own, w⟩, hhandler, htrace, -, hcount⟩ := s.serves descs d.own
      (d.world.emit (.popped s.queue d.queue d.world.mem chain))
    obtain ⟨new, hlog, hpushed⟩ := hsettles action own w htrace
    rw [show (d.world.emit _).mem = d.world.mem from rfl, hwalk, hhandler]
    refine ⟨_, new, rfl, hlog, fun head n hn => ⟨_, _, rfl, ?_, by simp⟩⟩
    rintro _ ⟨⟩
    exact hcount n (hpushed head n hn)

end Service

/-! ## Notifications -/

namespace DeviceKind

def program : (k : DeviceKind η) → (fuel : ℕ) → (queueIndex : UInt16) → Prog k.Own η
  | .block config backend, fuel, queueIndex =>
    if queueIndex.toNat = 0 then drain fuel 0 (Service.block backend config.driveId).handler
    else .skip
  | .net _ backend interceptor, fuel, queueIndex =>
    let rx := deliver 0 (NetDevice.fetchRx backend interceptor)
      (fun frame => (Service.netRx frame).handler) fun _ own => own
    if queueIndex.toNat = 1 then
      (drain fuel 1 (Service.netTx backend interceptor).handler).andThen rx
    else if queueIndex.toNat = 0 then rx
    else .skip
  | .vsock _ muxer _, fuel, queueIndex =>
    let rx := deliver 0 (VsockDevice.fetchRx muxer) (fun pkt => (Service.vsockRx pkt).handler)
      fun pkt rxBuffer => rxBuffer ++ [pkt]
    if queueIndex.toNat = 1 then (drain fuel 1 (Service.vsockTx muxer).handler).andThen rx
    else if queueIndex.toNat = 0 then rx
    else .skip
  | .mem config backend, fuel, queueIndex =>
    if queueIndex.toNat = 0 then drain fuel 0 (Service.mem backend config).handler else .skip
  | .balloon _, fuel, queueIndex =>
    if queueIndex.toNat = 0 ∨ queueIndex.toNat = 1 then
      drain fuel queueIndex.toNat (Service.balloon queueIndex.toNat).handler
    else if queueIndex.toNat = 2 then drain fuel 2 Service.balloonStats.handler
    else .skip
  | .rng source, fuel, queueIndex =>
    if queueIndex ≠ 0 then .skip else drain fuel 0 (Service.rng source).handler
  | .console sink, fuel, queueIndex =>
    if queueIndex.toNat = 1 then drain fuel 1 (Service.console sink).handler else .skip
  | .pmem _, fuel, queueIndex =>
    if queueIndex.toNat = 0 then drain fuel 0 Service.pmem.handler else .skip
  | .bootTimer _, _, _ => .skip

theorem processQueue_eq (k : DeviceKind η) (fuel : ℕ) (queueIndex : UInt16) :
    k.model.processQueue fuel queueIndex = k.program fuel queueIndex := by
  cases k <;> rfl

end DeviceKind

end Squib
