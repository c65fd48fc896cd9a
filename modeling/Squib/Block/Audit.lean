import Squib.Block.Backend
import Squib.Virtio.Audit

/-!
# What a block request costs
-/

namespace Squib.BlockDevice

open Audit Checked

variable {η : Type}

/-! ## Copies -/

def doReadFromAudited (backend : BlockBackend η) :
    List Descriptor → UInt64 → UInt32 → World η →
      Audited Charge Panic (Except IoError UInt32 × World η)
  | [], _, total, w => return (.ok total, w)
  | desc :: payload, byteOff, total, w =>
    if !desc.isWriteOnly then doReadFromAudited backend payload byteOff total w
    else do
      MonadWriter.tell [.buffer desc.len.toNat]
      match backend.readAt byteOff desc.len.toNat w.host with
      | (.error e, host) => return (.error e, { w with host })
      | (.ok buf, host) =>
        match ← storeAudited { w with host } desc.addr buf.toList with
        | .error e => return (.error (.memory e), { w with host })
        | .ok w =>
          match checkedAdd byteOff desc.len.toUInt64 with
          | none => return (.error (.other "descriptor offset overflow"), w)
          | some byteOff =>
            doReadFromAudited backend payload byteOff (saturatingAdd total desc.len) w

def doReadAudited (backend : BlockBackend η) (payload : List Descriptor) (sector : UInt64)
    (w : World η) : Audited Charge Panic (Except IoError UInt32 × World η) :=
  match checkedMul sector sectorSize with
  | none => return (.error (.other "sector*SECTOR_SIZE overflow"), w)
  | some byteOff => doReadFromAudited backend payload byteOff 0 w

def doWriteFromAudited (backend : BlockBackend η) :
    List Descriptor → UInt64 → World η → Audited Charge Panic (Except IoError Unit × World η)
  | [], _, w => return (.ok (), w)
  | desc :: payload, byteOff, w =>
    if desc.isWriteOnly then doWriteFromAudited backend payload byteOff w
    else do
      MonadWriter.tell [.buffer desc.len.toNat]
      match w.mem.read desc.addr desc.len.toNat with
      | .error e => return (.error (.memory e), w)
      | .ok buf =>
        match backend.writeAt byteOff buf w.host with
        | (.error e, host) => return (.error e, { w with host })
        | (.ok (), host) =>
          match checkedAdd byteOff desc.len.toUInt64 with
          | none => return (.error (.other "descriptor offset overflow"), { w with host })
          | some byteOff => doWriteFromAudited backend payload byteOff { w with host }

def doWriteAudited (backend : BlockBackend η) (payload : List Descriptor) (sector : UInt64)
    (w : World η) : Audited Charge Panic (Except IoError Unit × World η) :=
  match checkedMul sector sectorSize with
  | none => return (.error (.other "sector*SECTOR_SIZE overflow"), w)
  | some byteOff => doWriteFromAudited backend payload byteOff w

def doGetIdAudited (driveId : String) (payload : List Descriptor) (w : World η) :
    Audited Charge Panic (Except IoError UInt32 × World η) :=
  if payload.isEmpty then return (.ok 0, w)
  else do
    let bytes := driveId.toUTF8.toList
    let n := min bytes.length 20
    let front ← liftM (slice bytes 0 n)
    let id ← liftM (copyFromSlice (List.replicate 20 0) 0 n front)
    let desc ← liftM (index payload 0)
    if !desc.isWriteOnly then return (.ok 0, w)
    else
      let len := min desc.len.toNat 20
      let answer ← liftM (slice id 0 len)
      match ← storeAudited w desc.addr answer with
      | .error e => return (.error (.memory e), w)
      | .ok w => return (.ok (UInt32.ofNat len), w)

def performAudited (backend : BlockBackend η) (driveId : String) (reqType : UInt32)
    (payload : List Descriptor) (sector : UInt64) (w : World η) :
    Audited Charge Panic ((UInt8 × UInt32) × World η) :=
  if reqType = reqTypeIn then do
    match ← doReadAudited backend payload sector w with
    | (.ok written, w) => return ((statusOk, written), w)
    | (.error _, w) => return ((statusIoerr, 0), w)
  else if reqType = reqTypeOut then do
    match ← doWriteAudited backend payload sector w with
    | (.ok (), w) => return ((statusOk, 0), w)
    | (.error _, w) => return ((statusIoerr, 0), w)
  else if reqType = reqTypeFlush then
    match backend.flush w.host with
    | (.ok (), host) => return ((statusOk, 0), { w with host })
    | (.error _, host) => return ((statusIoerr, 0), { w with host })
  else if reqType = reqTypeGetId then do
    match ← doGetIdAudited driveId payload w with
    | (.ok written, w) => return ((statusOk, written), w)
    | (.error _, w) => return ((statusIoerr, 0), w)
  else return ((statusUnsupp, 0), w)

def handleRequestInnerAudited (backend : BlockBackend η) (driveId : String)
    (descs : List Descriptor) (w : World η) : Audited Charge Panic ((UInt8 × UInt32) × World η) :=
  if descs.length < 2 then return ((statusIoerr, 0), w)
  else do
    let header ← liftM (index descs 0)
    if header.isWriteOnly || header.len < 16 then return ((statusIoerr, 0), w)
    else
      match w.mem.readU32Le header.addr, w.mem.readU64Le (sectorAddr header) with
      | .ok reqType, .ok sector => do
        let payload ← liftM (slice descs 1 (descs.length - 1))
        let statusDesc := descs.getLast?.getD header
        if !statusDesc.isWriteOnly || statusDesc.len < 1 then return ((statusIoerr, 0), w)
        else
          let ((status, bytesWritten), w) ← performAudited backend driveId reqType payload sector w
          match ← storeAudited w statusDesc.addr [status] with
          | .error _ => return ((statusIoerr, bytesWritten), w)
          | .ok w => return ((status, saturatingAdd bytesWritten 1), w)
      | _, _ => return ((statusIoerr, 0), w)

/-! ## What they charge -/

def readCost (backend : BlockBackend η) (m : GuestMemory) :
    List Descriptor → UInt64 → η → List Charge
  | [], _, _ => []
  | desc :: payload, byteOff, host =>
    if !desc.isWriteOnly then readCost backend m payload byteOff host
    else
      .buffer desc.len.toNat ::
        match backend.readAt byteOff desc.len.toNat host with
        | (.error _, _) => []
        | (.ok _, host) =>
          if m.contains desc.addr desc.len.toNat then
            .wrote desc.addr desc.len.toNat ::
              match checkedAdd byteOff desc.len.toUInt64 with
              | none => []
              | some byteOff => readCost backend m payload byteOff host
          else []

def writeCost (backend : BlockBackend η) (m : GuestMemory) :
    List Descriptor → UInt64 → η → List Charge
  | [], _, _ => []
  | desc :: payload, byteOff, host =>
    if desc.isWriteOnly then writeCost backend m payload byteOff host
    else
      .buffer desc.len.toNat ::
        match m.read desc.addr desc.len.toNat with
        | .error _ => []
        | .ok buf =>
          match backend.writeAt byteOff buf host with
          | (.error _, _) => []
          | (.ok (), host) =>
            match checkedAdd byteOff desc.len.toUInt64 with
            | none => []
            | some byteOff => writeCost backend m payload byteOff host

def idCost (m : GuestMemory) : List Descriptor → List Charge
  | [] => []
  | desc :: _ =>
    if desc.isWriteOnly && m.contains desc.addr (min desc.len.toNat 20) then
      [.wrote desc.addr (min desc.len.toNat 20)]
    else []

def performCost (backend : BlockBackend η) (m : GuestMemory) (c : Command) (host : η) :
    List Charge :=
  if c.reqType = reqTypeIn then
    ((checkedMul c.sector sectorSize).map fun off => readCost backend m c.payload off host).getD []
  else if c.reqType = reqTypeOut then
    ((checkedMul c.sector sectorSize).map fun off => writeCost backend m c.payload off host).getD []
  else if c.reqType = reqTypeGetId then idCost m c.payload
  else []

def statusCost (m : GuestMemory) (status : Descriptor) : List Charge :=
  if m.contains status.addr 1 then [.wrote status.addr 1] else []

def requestCost (backend : BlockBackend η) (m : GuestMemory) (descs : List Descriptor) (host : η) :
    List Charge :=
  match decode m descs with
  | none => []
  | some c => performCost backend m c host ++ statusCost m c.status

theorem audits_doReadFrom (backend : BlockBackend η) (m : GuestMemory) (payload : List Descriptor)
    (byteOff : UInt64) (total : UInt32) (w : World η) (hm : w.mem.regions = m.regions) :
    Audits (doReadFromAudited backend payload byteOff total w)
        (.ok (doReadFrom backend payload byteOff total w))
        (readCost backend m payload byteOff w.host) ∧
      (doReadFrom backend payload byteOff total w).2.mem.regions = m.regions ∧
      ∀ n, (doReadFrom backend payload byteOff total w).1 = .ok n →
        n.toNat = min (total.toNat + stored (readCost backend m payload byteOff w.host))
          (2 ^ 32 - 1) := by
  induction payload generalizing byteOff total w with
  | nil =>
    refine ⟨.pure _, hm, ?_⟩
    rintro _ ⟨⟩
    have hlt := total.toNat_lt
    simp only [readCost, stored_nil]
    omega
  | cons desc payload ih =>
    rw [doReadFrom, doReadFromAudited, readCost]
    by_cases hd : (!desc.isWriteOnly) = true
    · rw [if_pos hd, if_pos hd, if_pos hd]
      exact ih byteOff total w hm
    rw [if_neg hd, if_neg hd, if_neg hd]
    rcases backend.readAt byteOff desc.len.toNat w.host with ⟨e | buf, host⟩
    · exact ⟨.charge _ (.pure _), hm, by simp⟩
    dsimp only
    have hcontains := GuestMemory.contains_congr hm desc.addr desc.len.toNat
    obtain ⟨e, hw, hunmapped, hstore⟩ | ⟨w', hw, hmapped, hregions, hhost, hstore⟩ :=
      store_cases { w with host } desc.addr buf.length_toList
    · rw [hw, if_neg (hcontains ▸ hunmapped)]
      exact ⟨.charge _ (.silent_bind hstore (.pure _)), hm, by simp⟩
    rw [hw, if_pos (hcontains ▸ hmapped)]
    cases hoff : checkedAdd byteOff desc.len.toUInt64 with
    | none => exact ⟨.charge _ (.charge_bind hstore (.pure _)), hregions.trans hm, by simp⟩
    | some off =>
      obtain ⟨haudits, hmem, hcount⟩ :=
        ih off (saturatingAdd total desc.len) w' (hregions.trans hm)
      rw [show w'.host = host from hhost] at haudits hcount
      refine ⟨.charge _ (.charge_bind hstore haudits), hmem, fun n hn => ?_⟩
      rw [hcount n hn, toNat_saturatingAdd_eq_min]
      simp only [stored_cons, Charge.stored]
      omega

theorem audits_doWriteFrom (backend : BlockBackend η) (payload : List Descriptor)
    (byteOff : UInt64) (w : World η) :
    Audits (doWriteFromAudited backend payload byteOff w)
        (.ok (doWriteFrom backend payload byteOff w))
        (writeCost backend w.mem payload byteOff w.host) ∧
      (doWriteFrom backend payload byteOff w).2.mem = w.mem := by
  induction payload generalizing byteOff w with
  | nil => exact ⟨.pure _, rfl⟩
  | cons desc payload ih =>
    rw [doWriteFrom, doWriteFromAudited, writeCost]
    by_cases hd : desc.isWriteOnly = true
    · rw [if_pos hd, if_pos hd, if_pos hd]
      exact ih byteOff w
    rw [if_neg hd, if_neg hd, if_neg hd]
    cases w.mem.read desc.addr desc.len.toNat with
    | error e => exact ⟨.charge _ (.pure _), rfl⟩
    | ok buf =>
      dsimp only
      rcases backend.writeAt byteOff buf w.host with ⟨e | ⟨⟨⟩⟩, host⟩
      · exact ⟨.charge _ (.pure _), rfl⟩
      cases checkedAdd byteOff desc.len.toUInt64 with
      | none => exact ⟨.charge _ (.pure _), rfl⟩
      | some off =>
        obtain ⟨haudits, hmem⟩ := ih off { w with host }
        exact ⟨.charge _ haudits, hmem⟩

variable {backend : BlockBackend η} {payload : List Descriptor} {driveId : String} {w : World η}

theorem mem_writeCost {m : GuestMemory} {byteOff : UInt64} {host : η} :
    ∀ c ∈ writeCost backend m payload byteOff host, ∃ len, c = .buffer len := by
  induction payload generalizing byteOff host with
  | nil => simp [writeCost]
  | cons desc payload ih =>
    rw [writeCost]
    by_cases hd : desc.isWriteOnly = true
    · rw [if_pos hd]
      exact ih
    rw [if_neg hd]
    refine List.forall_mem_cons.2 ⟨⟨_, rfl⟩, ?_⟩
    cases m.read desc.addr desc.len.toNat with
    | error e => simp
    | ok buf =>
      dsimp only
      rcases backend.writeAt byteOff buf host with ⟨e | ⟨⟨⟩⟩, host'⟩
      · simp
      cases checkedAdd byteOff desc.len.toUInt64 with
      | none => simp
      | some off => exact ih

theorem stored_writeCost (backend : BlockBackend η) (m : GuestMemory) (payload : List Descriptor)
    (byteOff : UInt64) (host : η) : stored (writeCost backend m payload byteOff host) = 0 :=
  stored_eq_zero fun c hc => by
    obtain ⟨len, rfl⟩ := mem_writeCost c hc
    rfl

variable {cs : List Charge}

theorem audits_doGetId_cons {desc : Descriptor} {r : Except Panic (Except IoError UInt32 × World η)}
    (h : Audits (if !desc.isWriteOnly then return (.ok 0, w)
      else do
        match ← storeAudited w desc.addr ((paddedId driveId).take (min desc.len.toNat 20)) with
        | .error e => return (.error (.memory e), w)
        | .ok w => return (.ok (UInt32.ofNat (min desc.len.toNat 20)), w)) r cs) :
    Audits (doGetIdAudited driveId (desc :: payload) w) r cs := by
  rw [doGetIdAudited]
  dsimp only
  rw [slice_driveId]
  refine .silent_bind (.lift _) ?_
  rw [copy_driveId]
  refine .silent_bind (.lift _) (.silent_bind (.lift (.ok desc)) ?_)
  split_ifs at h ⊢ with hd
  · exact h
  · rw [slice_paddedId]
    exact .silent_bind (.lift _) h

theorem audits_doGetId (driveId : String) (payload : List Descriptor) (w : World η) :
    ∃ r, doGetId driveId payload w = .ok r ∧
      Audits (doGetIdAudited driveId payload w) (.ok r) (idCost w.mem payload) ∧
      r.2.mem.regions = w.mem.regions ∧
      (r.1.toOption.getD 0).toNat = stored (idCost w.mem payload) := by
  rw [doGetId_eq]
  cases payload with
  | nil => exact ⟨_, rfl, .pure _, rfl, rfl⟩
  | cons desc payload =>
    rw [idCost]
    dsimp only
    by_cases hd : desc.isWriteOnly = true
    · have hnot : ¬ (!desc.isWriteOnly) = true := by simp [hd]
      have hlength : ((paddedId driveId).take (min desc.len.toNat 20)).length =
          min desc.len.toNat 20 := by
        rw [List.length_take, length_paddedId]
        omega
      rw [hd, Bool.true_and]
      obtain ⟨e, hw, hunmapped, hstore⟩ | ⟨w', hw, hmapped, hregions, -, hstore⟩ :=
        store_cases w desc.addr hlength
      · rw [hw, if_neg hunmapped]
        refine ⟨_, rfl, audits_doGetId_cons ?_, rfl, rfl⟩
        rw [if_neg hnot]
        exact .silent_bind hstore (.pure _)
      · rw [hw, if_pos hmapped]
        refine ⟨_, rfl, audits_doGetId_cons ?_, hregions, ?_⟩
        · rw [if_neg hnot]
          exact .charge_bind hstore (.pure _)
        · have hlt : min desc.len.toNat 20 < 2 ^ 32 := by omega
          exact (UInt32.toNat_ofNat_of_lt' hlt).trans (Nat.add_zero _).symm
    · rw [if_pos (by simp [hd]), if_neg (by simp [hd])]
      refine ⟨_, rfl, audits_doGetId_cons ?_, rfl, rfl⟩
      rw [if_pos (by simp [hd])]
      exact .pure _

def ReadFails (backend : BlockBackend η) (c : Command) (w : World η) : Prop :=
  c.reqType = reqTypeIn ∧ (doRead backend c.payload c.sector w).1.isOk = false

instance (backend : BlockBackend η) (c : Command) (w : World η) :
    Decidable (ReadFails backend c w) := instDecidableAnd

theorem audits_doRead (backend : BlockBackend η) (payload : List Descriptor) (sector : UInt64)
    (w : World η) (hcs : ((checkedMul sector sectorSize).map fun off =>
      readCost backend w.mem payload off w.host).getD [] = cs) :
    Audits (doReadAudited backend payload sector w) (.ok (doRead backend payload sector w)) cs ∧
      (doRead backend payload sector w).2.mem.regions = w.mem.regions ∧
      ∀ n, (doRead backend payload sector w).1 = .ok n →
        n.toNat = min (stored cs) (2 ^ 32 - 1) := by
  subst hcs
  rw [doReadAudited, doRead]
  cases checkedMul sector sectorSize with
  | none => exact ⟨.pure _, rfl, by simp⟩
  | some off =>
    obtain ⟨haudits, hregions, hcount⟩ := audits_doReadFrom backend w.mem payload off 0 w rfl
    exact ⟨haudits, hregions, fun n hn => by simpa using hcount n hn⟩

theorem audits_doWrite (backend : BlockBackend η) (payload : List Descriptor) (sector : UInt64)
    (w : World η) (hcs : ((checkedMul sector sectorSize).map fun off =>
      writeCost backend w.mem payload off w.host).getD [] = cs) :
    Audits (doWriteAudited backend payload sector w) (.ok (doWrite backend payload sector w)) cs ∧
      (doWrite backend payload sector w).2.mem = w.mem ∧ stored cs = 0 := by
  subst hcs
  rw [doWriteAudited, doWrite]
  cases checkedMul sector sectorSize with
  | none => exact ⟨.pure _, rfl, rfl⟩
  | some off =>
    obtain ⟨haudits, hmem⟩ := audits_doWriteFrom backend payload off w
    exact ⟨haudits, hmem, stored_writeCost ..⟩

theorem audits_perform (backend : BlockBackend η) (driveId : String) (c : Command) (w : World η) :
    ∃ r, perform backend driveId c.reqType c.payload c.sector w = .ok r ∧
      Audits (performAudited backend driveId c.reqType c.payload c.sector w) (.ok r)
        (performCost backend w.mem c w.host) ∧
      r.2.mem.regions = w.mem.regions ∧
      r.1.2.toNat = if ReadFails backend c w then 0
        else min (stored (performCost backend w.mem c w.host)) (2 ^ 32 - 1) := by
  rw [perform, performAudited, performCost]
  by_cases hin : c.reqType = reqTypeIn
  · rw [if_pos hin, if_pos hin, if_pos hin]
    obtain ⟨haudits, hregions, hcount⟩ := audits_doRead backend c.payload c.sector w rfl
    have hfails : ReadFails backend c w ↔ (doRead backend c.payload c.sector w).1.isOk = false :=
      and_iff_right hin
    rcases hread : doRead backend c.payload c.sector w with ⟨e | n, w'⟩ <;>
      rw [hread] at haudits hregions hcount hfails <;>
      refine ⟨_, rfl, .bind_silent haudits (.pure _), hregions, ?_⟩
    · exact (if_pos (hfails.2 rfl)).symm
    · rw [if_neg fun h => Bool.true_eq_false_eq_False (hfails.1 h)]
      exact hcount n rfl
  rw [if_neg hin, if_neg hin, if_neg hin, if_neg fun h : ReadFails backend c w => hin h.1]
  by_cases hout : c.reqType = reqTypeOut
  · rw [if_pos hout, if_pos hout, if_pos hout]
    obtain ⟨haudits, hmem, hnone⟩ := audits_doWrite backend c.payload c.sector w rfl
    rw [hnone]
    rcases hwrite : doWrite backend c.payload c.sector w with ⟨e | ⟨⟨⟩⟩, w'⟩ <;>
      rw [hwrite] at haudits hmem <;>
      exact ⟨_, rfl, .bind_silent haudits (.pure _), congrArg _ hmem, rfl⟩
  rw [if_neg hout, if_neg hout, if_neg hout]
  by_cases hflush : c.reqType = reqTypeFlush
  · have hid : ¬ c.reqType = reqTypeGetId := by
      rw [hflush]
      decide
    rw [if_pos hflush, if_pos hflush, if_neg hid]
    rcases backend.flush w.host with ⟨e | ⟨⟨⟩⟩, host⟩ <;> exact ⟨_, rfl, .pure _, rfl, rfl⟩
  rw [if_neg hflush, if_neg hflush]
  by_cases hid : c.reqType = reqTypeGetId
  · rw [if_pos hid, if_pos hid, if_pos hid]
    obtain ⟨⟨r, w'⟩, hget, haudits, hregions, hcount⟩ := audits_doGetId driveId c.payload w
    have hlt := (r.toOption.getD 0).toNat_lt
    dsimp only at hcount
    rw [hget, ← hcount, Nat.min_eq_left (by omega)]
    cases r with
    | error e | ok n => exact ⟨_, rfl, .bind_silent haudits (.pure _), hregions, rfl⟩
  · rw [if_neg hid, if_neg hid, if_neg hid]
    exact ⟨_, rfl, .pure _, rfl, rfl⟩

theorem audits_answer (status : Descriptor) (r : (UInt8 × UInt32) × World η) :
    Audits (do
      match ← storeAudited r.2 status.addr [r.1.1] with
      | .error _ => return ((statusIoerr, r.1.2), r.2)
      | .ok w => return ((r.1.1, saturatingAdd r.1.2 1), w))
      (.ok (answer status r)) (statusCost r.2.mem status) := by
  rw [answer, statusCost]
  obtain ⟨e, hw, hunmapped, hstore⟩ | ⟨w', hw, hmapped, -, -, hstore⟩ :=
    store_cases r.2 status.addr (List.length_singleton : [r.1.1].length = 1)
  · rw [hw, if_neg hunmapped]
    exact .silent_bind hstore (.pure _)
  · rw [hw, if_pos hmapped]
    exact .bind_silent hstore (.pure _)

def counted (backend : BlockBackend η) (w : World η) (descs : List Descriptor) : ℕ :=
  match decode w.mem descs with
  | none => 0
  | some c =>
    (if ReadFails backend c w then 0 else stored (performCost backend w.mem c w.host)) +
      stored (statusCost w.mem c.status)

theorem toNat_answer (status : Descriptor) (r : (UInt8 × UInt32) × World η) :
    (answer status r).1.2.toNat =
      min (r.1.2.toNat + stored (statusCost r.2.mem status)) (2 ^ 32 - 1) := by
  have hlt := r.1.2.toNat_lt
  rw [answer, statusCost]
  obtain ⟨e, hw, hunmapped, -⟩ | ⟨w', hw, hmapped, -⟩ :=
    store_cases r.2 status.addr (List.length_singleton : [r.1.1].length = 1)
  · rw [hw, if_neg hunmapped, Nat.min_eq_left (by simp; omega)]
    rfl
  · rw [hw, if_pos hmapped]
    exact toNat_saturatingAdd_eq_min _ _

theorem audits_decoded {descs : List Descriptor} {r : Except Panic ((UInt8 × UInt32) × World η)}
    (hnone : decode w.mem descs = none →
      Audits (return ((statusIoerr, 0), w) : Audited Charge Panic _) r cs)
    (hsome : ∀ c, decode w.mem descs = some c → Audits (do
      let ((status, bytesWritten), w) ← performAudited backend driveId c.reqType c.payload c.sector w
      match ← storeAudited w c.status.addr [status] with
      | .error _ => return ((statusIoerr, bytesWritten), w)
      | .ok w => return ((status, saturatingAdd bytesWritten 1), w)) r cs) :
    Audits (handleRequestInnerAudited backend driveId descs w) r cs := by
  rcases descs with - | ⟨header, - | ⟨second, rest⟩⟩
  · exact hnone rfl
  · exact hnone rfl
  rw [decode] at hnone hsome
  rw [handleRequestInnerAudited, slice_payload]
  refine .silent_bind (.lift (.ok header)) ?_
  by_cases hheader : (header.isWriteOnly || decide (header.len < 16)) = true
  · rw [if_pos hheader] at hnone ⊢
    exact hnone rfl
  rw [if_neg hheader] at hnone hsome ⊢
  cases h32 : w.mem.readU32Le header.addr with
  | error e => exact hnone (by rw [h32])
  | ok reqType =>
    cases h64 : w.mem.readU64Le (sectorAddr header) with
    | error e => exact hnone (by rw [h32, h64])
    | ok sector =>
      rw [h32, h64] at hnone hsome
      refine .silent_bind (.lift _) ?_
      dsimp only at hnone hsome ⊢
      split_ifs with hstatus
      · exact hnone (if_pos hstatus)
      · exact hsome _ (if_neg hstatus)

theorem audits_handleRequestInner (backend : BlockBackend η) (driveId : String)
    (descs : List Descriptor) (w : World η) :
    ∃ r, handleRequestInner backend driveId descs w = .ok r ∧
      Audits (handleRequestInnerAudited backend driveId descs w) (.ok r)
        (requestCost backend w.mem descs w.host) ∧
      r.1.2.toNat = min (counted backend w descs) (2 ^ 32 - 1) := by
  rw [handleRequestInner_eq, requestCost, counted]
  cases hdecode : decode w.mem descs with
  | none =>
    refine ⟨_, rfl, audits_decoded (fun _ => .pure _) fun c hc => ?_, rfl⟩
    rw [hdecode] at hc
    cases hc
  | some c =>
    obtain ⟨⟨⟨status, n⟩, w'⟩, hperform, haudits, hregions, hcount⟩ :=
      audits_perform backend driveId c w
    have hcost : statusCost w'.mem c.status = statusCost w.mem c.status := by
      rw [statusCost, GuestMemory.contains_congr hregions, statusCost]
    have hanswer := audits_answer c.status ((status, n), w')
    rw [hcost] at hanswer
    dsimp only
    rw [hperform]
    refine ⟨_, rfl, audits_decoded (fun hnone => ?_) fun c' hc' => ?_, ?_⟩
    · rw [hdecode] at hnone
      cases hnone
    · rw [hdecode] at hc'
      cases hc'
      exact haudits.bind_ok hanswer
    · rw [toNat_answer, hcount, ← hcost]
      dsimp only
      split_ifs <;> omega

end Squib.BlockDevice
