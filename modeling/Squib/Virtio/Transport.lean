import Squib.Virtio.Device

/-!
# virtio-MMIO transport
-/

namespace Squib

open Checked Bytes

variable {δ η : Type}

namespace DeviceStatus

def init : UInt32 := 0
def acknowledge : UInt32 := 1
def driver : UInt32 := 2
def driverOk : UInt32 := 4
def featuresOk : UInt32 := 8
def deviceNeedsReset : UInt32 := 64
def failed : UInt32 := 128

end DeviceStatus

open DeviceStatus

def version1 : UInt64 := (1 : UInt64) <<< (32 : UInt64)

def mmioMagicValue : UInt32 := 0x74726976
def mmioVersion : UInt32 := 2
def vendorId : UInt32 := 0

def validTransitions : List (UInt32 × UInt32) :=
  [(init, acknowledge),
    (acknowledge, acknowledge ||| driver),
    (acknowledge ||| driver, acknowledge ||| driver ||| featuresOk),
    (acknowledge ||| driver ||| featuresOk, acknowledge ||| driver ||| featuresOk ||| driverOk)]

def isValidTransition (source target : UInt32) : Bool :=
  validTransitions.any fun t => t.1 == source && t.2 == target

inductive Call where
  | processQueue (queueIndex : UInt16) (status : UInt32)
  | activate (ok : Bool)
  deriving DecidableEq, Repr

structure VirtioMmioTransport (δ : Type) where
  device : δ
  deviceFeaturesSel : UInt32
  driverFeaturesSel : UInt32
  driverFeatures : UInt64
  queueSelect : UInt32
  status : UInt32
  configGeneration : UInt32
  calls : List Call

namespace VirtioMmioTransport

def new (device : δ) : VirtioMmioTransport δ where
  device := device
  deviceFeaturesSel := 0
  driverFeaturesSel := 0
  driverFeatures := 0
  queueSelect := 0
  status := init
  configGeneration := 0
  calls := []

variable (dev : VirtioDevice δ η) (t : VirtioMmioTransport δ)

def acceptConfigWrite : Bool := t.status &&& driverOk == 0

/-! ## Reads -/

def offeredFeatures : UInt64 := dev.availFeatures t.device ||| version1

def deviceFeaturesPage : UInt32 :=
  match t.deviceFeaturesSel.toNat with
  | 0 => (offeredFeatures dev t).toUInt32
  | 1 => (offeredFeatures dev t >>> (32 : UInt64)).toUInt32
  | _ => 0

def queueField (f : Queue → UInt32) : UInt32 :=
  ((dev.queues t.device)[t.queueSelect.toNat]?.map f).getD 0

def readU32Register (w : World η) (offset : UInt64) : UInt32 :=
  match offset.toNat with
  | 0x00 => mmioMagicValue
  | 0x04 => mmioVersion
  | 0x08 => dev.deviceType.constId
  | 0x0C => vendorId
  | 0x10 => deviceFeaturesPage dev t
  | 0x34 => queueField dev t fun q => q.maxSize.toUInt32
  | 0x38 => queueField dev t fun q => q.size.toUInt32
  | 0x44 => queueField dev t fun q => if q.ready then 1 else 0
  | 0x60 => w.irq.status
  | 0x70 => t.status
  | 0xFC => t.configGeneration
  | _ => 0

/-! ## Writes -/

def handleDriverFeaturesWrite (value : UInt32) : VirtioMmioTransport δ :=
  let accept (shifted : UInt64) : VirtioMmioTransport δ :=
    let driverFeatures := t.driverFeatures ||| (shifted &&& offeredFeatures dev t)
    { t with driverFeatures, device := dev.setAckedFeatures driverFeatures t.device }
  match t.driverFeaturesSel.toNat with
  | 0 => accept value.toUInt64
  | 1 => accept (value.toUInt64 <<< (32 : UInt64))
  | _ => t

def updateQueueField (f : Queue → Queue) : VirtioMmioTransport δ :=
  if t.status &&& driverOk != 0 then t
  else
    match (dev.queues t.device)[t.queueSelect.toNat]? with
    | some q =>
      { t with
        device := dev.setQueues ((dev.queues t.device).set t.queueSelect.toNat (f q)) t.device }
    | none => t

def handleQueueNotify (w : World η) (queueIndex : UInt16) :
    Except Panic (Bool × VirtioMmioTransport δ × World η) :=
  if t.status &&& driverOk == 0 then .ok (true, t, w)
  else
    match dev.processQueue queueIndex t.device w with
    | .error e => .error e
    | .ok (returned, device, w) =>
      .ok (returned,
        { t with device, calls := t.calls ++ [.processQueue queueIndex t.status] }, w)

def activateDevice : VirtioMmioTransport δ :=
  if dev.isActivated t.device then t
  else
    match dev.activate t.device with
    | (.ok (), device) => { t with device, calls := t.calls ++ [.activate true] }
    | (.error _, device) =>
      { t with
        device
        status := t.status ||| deviceNeedsReset
        calls := t.calls ++ [.activate false] }

def reset : VirtioMmioTransport δ :=
  { t with
    deviceFeaturesSel := 0
    driverFeaturesSel := 0
    driverFeatures := 0
    queueSelect := 0
    status := init
    device :=
      dev.setAckedFeatures 0 (dev.setQueues ((dev.queues t.device).map Queue.reset) t.device) }

def setStatus (value : UInt32) : VirtioMmioTransport δ :=
  if value = init then reset dev t
  else if value &&& failed != 0 then { t with status := t.status ||| failed }
  else if !isValidTransition t.status value then t
  else
    let t := { t with status := value }
    if value &&& driverOk != 0 then activateDevice dev t else t

def withLow (addr : GuestAddress) (value : UInt32) : GuestAddress :=
  (addr &&& ~~~0xFFFFFFFF) ||| value.toUInt64

def withHigh (addr : GuestAddress) (value : UInt32) : GuestAddress :=
  (value.toUInt64 <<< (32 : UInt64)) ||| (addr &&& 0xFFFFFFFF)

def writeRegister (w : World η) (offset : UInt64) (value : UInt32) :
    Except Panic (Bool × VirtioMmioTransport δ × World η) :=
  match offset.toNat with
  | 0x14 => .ok (true, { t with deviceFeaturesSel := value }, w)
  | 0x20 => .ok (true, handleDriverFeaturesWrite dev t value, w)
  | 0x24 => .ok (true, { t with driverFeaturesSel := value }, w)
  | 0x30 => .ok (true, { t with queueSelect := value }, w)
  | 0x38 => .ok (true, updateQueueField dev t fun q => q.setSize value.toUInt16, w)
  | 0x44 => .ok (true, updateQueueField dev t fun q => { q with ready := value == 1 }, w)
  | 0x50 => handleQueueNotify dev t w value.toUInt16
  | 0x64 => .ok (true, t, w.ack value)
  | 0x70 => .ok (true, setStatus dev t value, w)
  | 0x80 => .ok (true, updateQueueField dev t fun q =>
      { q with descTableAddr := withLow q.descTableAddr value }, w)
  | 0x84 => .ok (true, updateQueueField dev t fun q =>
      { q with descTableAddr := withHigh q.descTableAddr value }, w)
  | 0x90 => .ok (true, updateQueueField dev t fun q =>
      { q with availRingAddr := withLow q.availRingAddr value }, w)
  | 0x94 => .ok (true, updateQueueField dev t fun q =>
      { q with availRingAddr := withHigh q.availRingAddr value }, w)
  | 0xA0 => .ok (true, updateQueueField dev t fun q =>
      { q with usedRingAddr := withLow q.usedRingAddr value }, w)
  | 0xA4 => .ok (true, updateQueueField dev t fun q =>
      { q with usedRingAddr := withHigh q.usedRingAddr value }, w)
  | _ => .ok (true, t, w)

/-! ## Bus accesses -/

def read (w : World η) (offset : UInt64) (len : ℕ) : Except Panic (List UInt8) :=
  if offset ≤ 0xFF ∧ len = 4 then .ok (leBytes 4 (readU32Register dev t w offset).toNat)
  else if 0x100 ≤ offset ∧ offset ≤ 0xFFF then dev.readConfig t.device w (offset - 0x100) len
  else .ok (List.replicate len 0)

def write (w : World η) (offset : UInt64) (data : List UInt8) :
    Except Panic (Bool × VirtioMmioTransport δ × World η) :=
  if offset ≤ 0xFF ∧ data.length = 4 then
    writeRegister dev t w offset (UInt32.ofNat (leNat data))
  else if 0x100 ≤ offset ∧ offset ≤ 0xFFF then
    if t.acceptConfigWrite then
      .ok (true, { t with device := dev.writeConfig (offset - 0x100) data t.device }, w)
    else .ok (true, t, w)
  else .ok (true, t, w)

/-! ## What a write does -/

inductive QueueField where
  | num
  | ready
  | descLow
  | descHigh
  | driverLow
  | driverHigh
  | deviceLow
  | deviceHigh
  deriving DecidableEq, Repr

def QueueField.update (q : Queue) (value : UInt32) : QueueField → Queue
  | .num => q.setSize value.toUInt16
  | .ready => { q with ready := value == 1 }
  | .descLow => { q with descTableAddr := withLow q.descTableAddr value }
  | .descHigh => { q with descTableAddr := withHigh q.descTableAddr value }
  | .driverLow => { q with availRingAddr := withLow q.availRingAddr value }
  | .driverHigh => { q with availRingAddr := withHigh q.availRingAddr value }
  | .deviceLow => { q with usedRingAddr := withLow q.usedRingAddr value }
  | .deviceHigh => { q with usedRingAddr := withHigh q.usedRingAddr value }

theorem QueueField.maxSize_update (q : Queue) (value : UInt32) (field : QueueField) :
    (field.update q value).maxSize = q.maxSize := by
  cases field <;> rfl

inductive Command where
  | deviceFeaturesSel (value : UInt32)
  | driverFeatures (value : UInt32)
  | driverFeaturesSel (value : UInt32)
  | queueSel (value : UInt32)
  | queueField (field : QueueField) (value : UInt32)
  | queueNotify (queueIndex : UInt16)
  | interruptAck (mask : UInt32)
  | status (value : UInt32)
  | config (offset : UInt64) (data : List UInt8)
  | ignored

def decodeRegister (offset : ℕ) (value : UInt32) : Command :=
  match offset with
  | 0x14 => .deviceFeaturesSel value
  | 0x20 => .driverFeatures value
  | 0x24 => .driverFeaturesSel value
  | 0x30 => .queueSel value
  | 0x38 => .queueField .num value
  | 0x44 => .queueField .ready value
  | 0x50 => .queueNotify value.toUInt16
  | 0x64 => .interruptAck value
  | 0x70 => .status value
  | 0x80 => .queueField .descLow value
  | 0x84 => .queueField .descHigh value
  | 0x90 => .queueField .driverLow value
  | 0x94 => .queueField .driverHigh value
  | 0xA0 => .queueField .deviceLow value
  | 0xA4 => .queueField .deviceHigh value
  | _ => .ignored

def decode (offset : UInt64) (data : List UInt8) : Command :=
  if offset ≤ 0xFF ∧ data.length = 4 then
    decodeRegister offset.toNat (UInt32.ofNat (leNat data))
  else if 0x100 ≤ offset ∧ offset ≤ 0xFFF then .config (offset - 0x100) data
  else .ignored

def Command.apply (w : World η) : Command → Except Panic (Bool × VirtioMmioTransport δ × World η)
  | .deviceFeaturesSel value => .ok (true, { t with deviceFeaturesSel := value }, w)
  | .driverFeatures value => .ok (true, handleDriverFeaturesWrite dev t value, w)
  | .driverFeaturesSel value => .ok (true, { t with driverFeaturesSel := value }, w)
  | .queueSel value => .ok (true, { t with queueSelect := value }, w)
  | .queueField field value =>
    .ok (true, updateQueueField dev t fun q => field.update q value, w)
  | .queueNotify queueIndex => handleQueueNotify dev t w queueIndex
  | .interruptAck mask => .ok (true, t, w.ack mask)
  | .status value => .ok (true, setStatus dev t value, w)
  | .config offset data =>
    if t.acceptConfigWrite then
      .ok (true, { t with device := dev.writeConfig offset data t.device }, w)
    else .ok (true, t, w)
  | .ignored => .ok (true, t, w)

theorem write_eq_apply (w : World η) (offset : UInt64) (data : List UInt8) :
    write dev t w offset data = (decode offset data).apply dev t w := by
  unfold write decode
  split_ifs with h1 h2 hc
  · unfold writeRegister decodeRegister
    split <;> rfl
  · exact (if_pos hc).symm
  · exact (if_neg hc).symm
  · rfl

theorem decode_leBytes {offset : UInt64} (h : offset ≤ 0xFF) (value : UInt32) :
    decode offset (leBytes 4 value.toNat) = decodeRegister offset.toNat value := by
  have hv : UInt32.ofNat (leNat (leBytes 4 value.toNat)) = value := by
    have hlt := value.toNat_lt
    rw [leNat_leBytes, Nat.mod_eq_of_lt (by omega), UInt32.ofNat_toNat]
  simp [decode, h, hv]

inductive Moves : VirtioMmioTransport δ → Prop
  | selectors (deviceFeaturesSel driverFeaturesSel queueSelect : UInt32) :
    Moves { t with deviceFeaturesSel, driverFeaturesSel, queueSelect }
  | features (driverFeatures : UInt64) :
    Moves { t with driverFeatures, device := dev.setAckedFeatures driverFeatures t.device }
  | queueField {q : Queue} (field : QueueField) (value : UInt32)
      (hdown : t.status &&& driverOk = 0)
      (hq : (dev.queues t.device)[t.queueSelect.toNat]? = some q) :
    Moves { t with
      device := dev.setQueues
        ((dev.queues t.device).set t.queueSelect.toNat (field.update q value)) t.device }
  | config (offset : UInt64) (data : List UInt8) (hdown : t.status &&& driverOk = 0) :
    Moves { t with device := dev.writeConfig offset data t.device }
  | notified {w w' : World η} {b : Bool} {device : δ} (queueIndex : UInt16)
      (hup : t.status &&& driverOk ≠ 0)
      (hp : dev.processQueue queueIndex t.device w = .ok (b, device, w')) :
    Moves { t with device, calls := t.calls ++ [.processQueue queueIndex t.status] }
  | failed : Moves { t with status := t.status ||| failed }
  | stepped {value : UInt32} (hv : isValidTransition t.status value = true)
      (hdown : value &&& driverOk = 0 ∨ dev.isActivated t.device = true) :
    Moves { t with status := value }
  | activated {value : UInt32} {device : δ} (hv : isValidTransition t.status value = true)
      (hdown : dev.isActivated t.device = false) (h : dev.activate t.device = (.ok (), device)) :
    Moves { t with status := value, device, calls := t.calls ++ [.activate true] }
  | refused {value : UInt32} {device : δ} {e : ActivateError}
      (hv : isValidTransition t.status value = true) (hdown : dev.isActivated t.device = false)
      (h : dev.activate t.device = (.error e, device)) :
    Moves { t with
      status := value ||| deviceNeedsReset, device, calls := t.calls ++ [.activate false] }

theorem Moves.refl : Moves dev t t := .selectors _ _ _

theorem setStatus_moves {value : UInt32} (h : value ≠ init) :
    Moves dev t (setStatus dev t value) := by
  rw [setStatus, if_neg h]
  split
  · exact .failed
  split
  · exact .refl dev t
  next hv =>
  have hv' : isValidTransition t.status value = true := by simpa using hv
  dsimp only
  split
  · unfold activateDevice
    split
    · next hact => exact .stepped hv' (.inr hact)
    next hact =>
    split
    · next h => exact .activated hv' (by simpa using hact) h
    · next h => exact .refused hv' (by simpa using hact) h
  · next hdown => exact .stepped hv' (.inl (by simpa using hdown))

theorem Command.apply_moves {t t' : VirtioMmioTransport δ} {w w' : World η} {b : Bool} {c : Command}
    (hc : c ≠ .status init) (h : c.apply dev t w = .ok (b, t', w')) : Moves dev t t' := by
  cases c with
  | deviceFeaturesSel | driverFeaturesSel | queueSel =>
    cases h
    exact .selectors _ _ _
  | driverFeatures value =>
    cases h
    unfold handleDriverFeaturesWrite
    split
    · exact .features _
    · exact .features _
    · exact .refl dev t
  | queueField field value =>
    cases h
    unfold updateQueueField
    split
    · exact .refl dev t
    next hdown =>
    split
    · next hq => exact .queueField field value (by simpa using hdown) hq
    · exact .refl dev t
  | queueNotify queueIndex =>
    simp only [Command.apply, handleQueueNotify] at h
    split at h
    · cases h
      exact .refl dev t
    next hup =>
    split at h
    · cases h
    · next hp =>
      cases h
      exact .notified queueIndex (by simpa using hup) hp
  | status value =>
    obtain ⟨-, rfl, -⟩ := h
    exact setStatus_moves dev t fun h0 => hc (h0 ▸ rfl)
  | config offset data =>
    simp only [Command.apply] at h
    split at h
    · next hdown =>
      cases h
      exact .config offset data (by simpa [acceptConfigWrite] using hdown)
    · cases h
      exact .refl dev t
  | interruptAck | ignored =>
    cases h
    exact .refl dev t

end VirtioMmioTransport

end Squib
