import Squib.Core.Arith
import Squib.Virtio.Device

/-!
# virtio-block
-/

namespace Squib.BlockDevice

open Checked Bytes

variable {η : Type}

def sectorSize : UInt64 := 512

def reqTypeIn : UInt32 := 0
def reqTypeOut : UInt32 := 1
def reqTypeFlush : UInt32 := 4
def reqTypeGetId : UInt32 := 8

def statusOk : UInt8 := 0
def statusIoerr : UInt8 := 1
def statusUnsupp : UInt8 := 2

def fRo : UInt64 := (1 : UInt64) <<< (5 : UInt64)
def fBlkSize : UInt64 := (1 : UInt64) <<< (6 : UInt64)
def fFlush : UInt64 := (1 : UInt64) <<< (9 : UInt64)

def reqQueue : ℕ := 0
def queueMaxSize : UInt16 := 256

inductive CacheType where
  | unsafeMode
  | writeback
  deriving DecidableEq, Repr

structure BlockConfig where
  driveId : String
  isReadOnly : Bool
  cacheType : CacheType
  deriving DecidableEq, Repr

inductive IoError where
  | host (msg : String)
  | memory (e : Error)
  | other (msg : String)
  deriving DecidableEq, Repr

structure BlockBackend (η : Type) where
  sizeBytes : η → UInt64
  readAt : (byteOffset : UInt64) → (len : ℕ) → η → Except IoError (Vector UInt8 len) × η
  writeAt : (byteOffset : UInt64) → List UInt8 → η → Except IoError Unit × η
  flush : η → Except IoError Unit × η
  readOnly : Bool

/-! ## Requests -/

def doReadFrom (backend : BlockBackend η) :
    List Descriptor → UInt64 → UInt32 → World η → Except IoError UInt32 × World η
  | [], _, total, w => (.ok total, w)
  | desc :: payload, byteOff, total, w =>
    if !desc.isWriteOnly then doReadFrom backend payload byteOff total w
    else
      match backend.readAt byteOff desc.len.toNat w.host with
      | (.error e, host) => (.error e, { w with host })
      | (.ok buf, host) =>
        match World.write { w with host } desc.addr buf.toList with
        | .error e => (.error (.memory e), { w with host })
        | .ok w =>
          match checkedAdd byteOff desc.len.toUInt64 with
          | none => (.error (.other "descriptor offset overflow"), w)
          | some byteOff => doReadFrom backend payload byteOff (saturatingAdd total desc.len) w

def doRead (backend : BlockBackend η) (payload : List Descriptor) (sector : UInt64) (w : World η) :
    Except IoError UInt32 × World η :=
  match checkedMul sector sectorSize with
  | none => (.error (.other "sector*SECTOR_SIZE overflow"), w)
  | some byteOff => doReadFrom backend payload byteOff 0 w

def doWriteFrom (backend : BlockBackend η) :
    List Descriptor → UInt64 → World η → Except IoError Unit × World η
  | [], _, w => (.ok (), w)
  | desc :: payload, byteOff, w =>
    if desc.isWriteOnly then doWriteFrom backend payload byteOff w
    else
      match w.mem.read desc.addr desc.len.toNat with
      | .error e => (.error (.memory e), w)
      | .ok buf =>
        match backend.writeAt byteOff buf w.host with
        | (.error e, host) => (.error e, { w with host })
        | (.ok (), host) =>
          match checkedAdd byteOff desc.len.toUInt64 with
          | none => (.error (.other "descriptor offset overflow"), { w with host })
          | some byteOff => doWriteFrom backend payload byteOff { w with host }

def doWrite (backend : BlockBackend η) (payload : List Descriptor) (sector : UInt64) (w : World η) :
    Except IoError Unit × World η :=
  match checkedMul sector sectorSize with
  | none => (.error (.other "sector*SECTOR_SIZE overflow"), w)
  | some byteOff => doWriteFrom backend payload byteOff w

def doGetId (driveId : String) (payload : List Descriptor) (w : World η) :
    Except Panic (Except IoError UInt32 × World η) :=
  if payload.isEmpty then .ok (.ok 0, w)
  else do
    let bytes := driveId.toUTF8.toList
    let n := min bytes.length 20
    let id ← copyFromSlice (List.replicate 20 0) 0 n (← slice bytes 0 n)
    let desc ← index payload 0
    if !desc.isWriteOnly then .ok (.ok 0, w)
    else
      let len := min desc.len.toNat 20
      match w.write desc.addr (← slice id 0 len) with
      | .error e => .ok (.error (.memory e), w)
      | .ok w => .ok (.ok (UInt32.ofNat len), w)

def perform (backend : BlockBackend η) (driveId : String) (reqType : UInt32)
    (payload : List Descriptor) (sector : UInt64) (w : World η) :
    Except Panic ((UInt8 × UInt32) × World η) :=
  if reqType = reqTypeIn then
    match doRead backend payload sector w with
    | (.ok written, w) => .ok ((statusOk, written), w)
    | (.error _, w) => .ok ((statusIoerr, 0), w)
  else if reqType = reqTypeOut then
    match doWrite backend payload sector w with
    | (.ok (), w) => .ok ((statusOk, 0), w)
    | (.error _, w) => .ok ((statusIoerr, 0), w)
  else if reqType = reqTypeFlush then
    match backend.flush w.host with
    | (.ok (), host) => .ok ((statusOk, 0), { w with host })
    | (.error _, host) => .ok ((statusIoerr, 0), { w with host })
  else if reqType = reqTypeGetId then do
    match ← doGetId driveId payload w with
    | (.ok written, w) => .ok ((statusOk, written), w)
    | (.error _, w) => .ok ((statusIoerr, 0), w)
  else .ok ((statusUnsupp, 0), w)

def sectorAddr (header : Descriptor) : GuestAddress := header.addr + 8

def handleRequestInner (backend : BlockBackend η) (driveId : String) (descs : List Descriptor)
    (w : World η) : Except Panic ((UInt8 × UInt32) × World η) :=
  if descs.length < 2 then .ok ((statusIoerr, 0), w)
  else do
    let header ← index descs 0
    if header.isWriteOnly || header.len < 16 then .ok ((statusIoerr, 0), w)
    else
      match w.mem.readU32Le header.addr, w.mem.readU64Le (sectorAddr header) with
      | .ok reqType, .ok sector => do
        let payload ← slice descs 1 (descs.length - 1)
        let statusDesc := descs.getLast?.getD header
        if !statusDesc.isWriteOnly || statusDesc.len < 1 then .ok ((statusIoerr, 0), w)
        else
          let ((status, bytesWritten), w) ← perform backend driveId reqType payload sector w
          match w.write statusDesc.addr [status] with
          | .error _ => .ok ((statusIoerr, bytesWritten), w)
          | .ok w => .ok ((status, saturatingAdd bytesWritten 1), w)
      | _, _ => .ok ((statusIoerr, 0), w)

/-! ## The device -/

def drainRequests (backend : BlockBackend η) (config : BlockConfig) (fuel : ℕ) : Prog Unit η :=
  drain fuel reqQueue <| onChain fun descs own w => do
    let ((_, written), w) ← handleRequestInner backend config.driveId descs w
    .ok (.complete written, own, w)

def processQueue (backend : BlockBackend η) (config : BlockConfig) (fuel : ℕ)
    (queueIndex : UInt16) : Prog Unit η :=
  if queueIndex.toNat = reqQueue then drainRequests backend config fuel else .skip

def capacitySectors (backend : BlockBackend η) (host : η) : UInt64 :=
  backend.sizeBytes host / sectorSize

def readConfig (backend : BlockBackend η) (w : World η) (offset : UInt64) (len : ℕ) :
    Except Panic (List UInt8) := do
  let full := List.replicate 64 0
  let full ← copyFromSlice full 0 8 (leBytes 8 (capacitySectors backend w.host).toNat)
  let segMax := queueMaxSize - 2
  let full ← copyFromSlice full 12 16 (leBytes 4 segMax.toNat)
  let full ← copyFromSlice full 20 24 (leBytes 4 sectorSize.toNat)
  return configBytes full offset len

def availFeatures (config : BlockConfig) (backend : BlockBackend η) : UInt64 :=
  let avail := fBlkSize
  let avail := if config.isReadOnly || backend.readOnly then avail ||| fRo else avail
  if config.cacheType = .writeback then avail ||| fFlush else avail

def new (config : BlockConfig) (backend : BlockBackend η) : DeviceModel Unit η where
  deviceType := .block
  avail := availFeatures config backend
  queueMaxSizes := [queueMaxSize]
  own := ()
  activeState := .full
  readConfig _ w offset len := readConfig backend w offset len
  processQueue := processQueue backend config

section Contract

variable (backend : BlockBackend η)

theorem doReadFrom_touches : ∀ (payload : List Descriptor) (byteOff : UInt64) (total : UInt32)
    (w : World η), w.Touches (WriteOnlySpan payload) (doReadFrom backend payload byteOff total w).2
  | [], _, _, w => .refl _ w
  | desc :: payload, byteOff, total, w => by
    have hrest : ∀ byteOff total w, World.Touches (WriteOnlySpan (desc :: payload)) w
        (doReadFrom backend payload byteOff total w).2 := fun byteOff total w =>
      (doReadFrom_touches payload byteOff total w).mono fun _ ha =>
        ha.mono (List.subset_cons_self desc payload)
    unfold doReadFrom
    split_ifs with hd
    · exact hrest byteOff total w
    · split
      · exact w.touches_host _ _
      · next buf host _ =>
        have hhost := w.touches_host (WriteOnlySpan (desc :: payload)) host
        split
        · exact hhost
        · next w' hw =>
          have htouch := hhost.trans (touches_writeOnly (desc :: payload) hw (by simp)
            (by simpa using hd) (by simp))
          split
          · exact htouch
          · exact htouch.trans (hrest _ _ w')

theorem doWriteFrom_touches (A : ℕ → Prop) : ∀ (payload : List Descriptor) (byteOff : UInt64)
    (w : World η), w.Touches A (doWriteFrom backend payload byteOff w).2
  | [], _, w => .refl _ w
  | desc :: payload, byteOff, w => by
    unfold doWriteFrom
    split_ifs
    · exact doWriteFrom_touches A payload byteOff w
    · split
      · exact .refl _ w
      · split
        · exact w.touches_host _ _
        · split
          · exact w.touches_host _ _
          · exact (w.touches_host _ _).trans (doWriteFrom_touches A payload _ _)

def paddedId (driveId : String) : List UInt8 :=
  driveId.toUTF8.toList.take 20 ++ List.replicate (20 - driveId.toUTF8.toList.length) 0

variable (driveId : String)

theorem length_paddedId : (paddedId driveId).length = 20 := by
  simp only [paddedId, List.length_append, List.length_take, List.length_replicate]
  omega

theorem slice_driveId :
    slice driveId.toUTF8.toList 0 (min driveId.toUTF8.toList.length 20) =
      .ok (driveId.toUTF8.toList.take 20) := by
  rw [slice, if_pos ⟨Nat.zero_le _, min_le_left _ _⟩, List.drop_zero,
    List.take_eq_take_iff.2]
  omega

theorem copy_driveId :
    copyFromSlice (List.replicate 20 0) 0 (min driveId.toUTF8.toList.length 20)
      (driveId.toUTF8.toList.take 20) = .ok (paddedId driveId) := by
  rw [copyFromSlice, if_pos (by simp), if_pos (by simp [Nat.min_comm]), List.take_zero,
    List.nil_append, List.drop_replicate, paddedId, show
      20 - min driveId.toUTF8.toList.length 20 = 20 - driveId.toUTF8.toList.length by omega]

theorem slice_paddedId (len : ℕ) :
    slice (paddedId driveId) 0 (min len 20) = .ok ((paddedId driveId).take (min len 20)) := by
  rw [slice, if_pos ⟨Nat.zero_le _, by rw [length_paddedId]; exact min_le_right _ _⟩]
  rfl

theorem doGetId_eq (payload : List Descriptor) (w : World η) :
    doGetId driveId payload w = .ok (match payload with
      | [] => (.ok 0, w)
      | desc :: _ =>
        if !desc.isWriteOnly then (.ok 0, w)
        else
          match w.write desc.addr ((paddedId driveId).take (min desc.len.toNat 20)) with
          | .error e => (.error (.memory e), w)
          | .ok w => (.ok (UInt32.ofNat (min desc.len.toNat 20)), w)) := by
  cases payload with
  | nil => rfl
  | cons desc payload =>
    rw [doGetId, if_neg (by simp)]
    simp only [slice_driveId, copy_driveId, slice_paddedId, bind, Except.bind, index,
      List.getElem?_cons_zero]
    split_ifs
    · rfl
    · cases w.write desc.addr ((paddedId driveId).take (min desc.len.toNat 20)) <;> rfl

theorem doGetId_returns (payload : List Descriptor) (w : World η) :
    Returns (doGetId driveId payload w) fun r => w.Touches (WriteOnlySpan payload) r.2 := by
  rw [doGetId_eq]
  refine returns_ok ?_
  cases payload with
  | nil => exact .refl _ w
  | cons desc payload =>
    dsimp only
    split_ifs with hw
    · exact .refl _ w
    split
    · exact .refl _ w
    · next w' hw' =>
      refine touches_writeOnly _ hw' List.mem_cons_self (by simpa using hw) ?_
      rw [List.length_take]
      omega

theorem perform_returns (reqType : UInt32) (payload : List Descriptor) (sector : UInt64)
    (w : World η) :
    Returns (perform backend driveId reqType payload sector w) fun r =>
      w.Touches (WriteOnlySpan payload) r.2 := by
  unfold perform
  split_ifs
  · have h : w.Touches (WriteOnlySpan payload) (doRead backend payload sector w).2 := by
      unfold doRead
      split
      · exact .refl _ w
      · exact doReadFrom_touches backend payload _ _ w
    rcases hr : doRead backend payload sector w with ⟨_ | _, w'⟩ <;> rw [hr] at h <;>
      exact returns_ok h
  · have h : w.Touches (WriteOnlySpan payload) (doWrite backend payload sector w).2 := by
      unfold doWrite
      split
      · exact .refl _ w
      · exact doWriteFrom_touches backend _ payload _ w
    rcases hr : doWrite backend payload sector w with ⟨_ | _, w'⟩ <;> rw [hr] at h <;>
      exact returns_ok h
  · rcases backend.flush w.host with ⟨_ | _, host⟩ <;> exact returns_ok (w.touches_host _ _)
  · refine (doGetId_returns driveId payload w).bind fun r hr => ?_
    rcases r with ⟨_ | _, w'⟩ <;> exact returns_ok hr
  · exact returns_ok (.refl _ w)

theorem handleRequestInner_returns (descs : List Descriptor) (w : World η) :
    Returns (handleRequestInner backend driveId descs w) fun r =>
      w.Touches (WriteOnlySpan descs) r.2 := by
  unfold handleRequestInner
  split_ifs with hlen
  · exact returns_ok (.refl _ w)
  refine (returns_index (by omega)).bind fun header hh => ?_
  split_ifs
  · exact returns_ok (.refl _ w)
  split
  · refine (returns_slice (by omega) (by omega)).bind fun payload hp => ?_
    have hsub : payload ⊆ descs := by
      rw [hp.1]
      exact fun d hd => List.mem_of_mem_drop (List.mem_of_mem_take hd)
    have hlast : descs.getLast?.getD header ∈ descs := by
      rw [List.getLast?_eq_some_getLast (List.ne_nil_of_length_pos (by omega))]
      exact List.getLast_mem _
    dsimp only
    split_ifs with hs
    · exact returns_ok (.refl _ w)
    refine (perform_returns backend driveId _ payload _ w).bind fun r hr => ?_
    have hr' := hr.mono fun _ ha => ha.mono hsub
    split
    · exact returns_ok hr'
    · next w' hw =>
      refine returns_ok (hr'.trans (touches_writeOnly _ hw hlast ?_ ?_))
      · simp_all
      · simp only [Bool.or_eq_true, not_or, UInt32.lt_iff_toNat_lt] at hs
        simpa [Nat.one_le_iff_ne_zero] using hs.2
  · exact returns_ok (.refl _ w)

theorem readConfig_returns (w : World η) (offset : UInt64) (len : ℕ) :
    Returns (readConfig backend w offset len) fun _ => True := by
  refine (returns_copyFromSlice (by omega) (by simp) (by simp)).bind fun full h => ?_
  refine (returns_copyFromSlice (by omega) (by simp [h]) (by simp)).bind fun full' h' => ?_
  refine (returns_copyFromSlice (by omega) (by simp [h, h']) (by simp)).bind fun full'' _ => ?_
  exact returns_pure trivial

theorem processQueue_meets (config : BlockConfig) (fuel : ℕ) (queueIndex : UInt16) :
    Meets .buffers 1 fuel [0] (processQueue backend config fuel queueIndex) := by
  unfold processQueue
  split_ifs
  · refine drain_meets (onChain_meets fun descs own w => ?_) Nat.one_pos
    refine (handleRequestInner_returns backend config.driveId descs w).bind fun r hr => ?_
    exact returns_ok ⟨hr, by simp [Action.completes]⟩
  · exact skip_meets

theorem processQueue_fuelMono (config : BlockConfig) (queueIndex : UInt16) :
    FuelMono fun fuel => processQueue backend config fuel queueIndex := by
  unfold processQueue
  split_ifs
  · exact fuelMono_drain _ _
  · exact fuelMono_const _

end Contract

end Squib.BlockDevice
