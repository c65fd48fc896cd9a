import Squib.Core.Memory

/-!
# Split-ring virtqueues
-/

namespace Squib

inductive QueueError where
  | queueNotReady
  | descriptorOutOfRange (head size : UInt16)
  | chainTooLong (size : UInt16)
  | memory (e : Error)
  deriving DecidableEq, Repr

def virtqDescFNext : UInt16 := 1
def virtqDescFWrite : UInt16 := 2

structure Descriptor where
  addr : GuestAddress
  len : UInt32
  flags : UInt16
  next : UInt16
  deriving DecidableEq, Repr

namespace Descriptor

def isWriteOnly (d : Descriptor) : Bool := d.flags &&& virtqDescFWrite != 0

def hasNext (d : Descriptor) : Bool := d.flags &&& virtqDescFNext != 0

end Descriptor

structure DescriptorChain where
  descTableAddr : GuestAddress
  queueSize : UInt16
  headIndex : UInt16
  current : UInt16
  length : UInt16
  done : Bool
  deriving DecidableEq, Repr

namespace DescriptorChain

def descAddr (c : DescriptorChain) : GuestAddress := c.descTableAddr + c.current.toUInt64 * 16

def descLenAddr (c : DescriptorChain) : GuestAddress := c.descAddr + 8
def descFlagsAddr (c : DescriptorChain) : GuestAddress := c.descAddr + 12
def descNextAddr (c : DescriptorChain) : GuestAddress := c.descAddr + 14

def readDescriptor (c : DescriptorChain) (m : GuestMemory) : Except Error Descriptor := do
  let addr ← m.readU64Le c.descAddr
  let len ← m.readU32Le c.descLenAddr
  let flags ← m.readU16Le c.descFlagsAddr
  let next ← m.readU16Le c.descNextAddr
  return { addr, len, flags, next }

def nextDescriptor (c : DescriptorChain) (m : GuestMemory) :
    Except QueueError (Option (Descriptor × DescriptorChain)) :=
  if c.done then .ok none
  else if c.queueSize ≤ c.current then .error (.descriptorOutOfRange c.current c.queueSize)
  else if c.queueSize ≤ c.length then .error (.chainTooLong c.queueSize)
  else
    match c.readDescriptor m with
    | .error e => .error (.memory e)
    | .ok desc =>
      let c := { c with length := c.length + 1 }
      .ok (some (desc, if desc.hasNext then { c with current := desc.next }
        else { c with done := true }))

def collectFrom (m : GuestMemory) : ℕ → DescriptorChain → Except QueueError (List Descriptor)
  | 0, c => .error (.chainTooLong c.queueSize)
  | n + 1, c =>
    match c.nextDescriptor m with
    | .error e => .error e
    | .ok none => .ok []
    | .ok (some (desc, c)) => (collectFrom m n c).map (desc :: ·)

def collect (c : DescriptorChain) (m : GuestMemory) : Except QueueError (List Descriptor) :=
  collectFrom m (c.queueSize.toNat + 1) c

theorem nextDescriptor_eq_some {c c' : DescriptorChain} {m : GuestMemory} {desc : Descriptor}
    (h : c.nextDescriptor m = .ok (some (desc, c'))) :
    c.length < c.queueSize ∧ c'.queueSize = c.queueSize ∧ c'.length = c.length + 1 := by
  unfold nextDescriptor at h
  split_ifs at h with _ _ h3
  · cases h
  split at h
  · cases h
  · obtain ⟨rfl, rfl⟩ := h
    refine ⟨UInt16.not_le.1 h3, ?_⟩
    split_ifs <;> exact ⟨rfl, rfl⟩

end DescriptorChain

structure Queue where
  maxSize : UInt16
  size : UInt16
  ready : Bool
  descTableAddr : GuestAddress
  availRingAddr : GuestAddress
  usedRingAddr : GuestAddress
  nextAvailIdx : UInt16
  nextUsedIdx : UInt16
  deriving DecidableEq, Repr

namespace Queue

def new (maxSize : UInt16) : Queue where
  maxSize := maxSize
  size := maxSize
  ready := false
  descTableAddr := 0
  availRingAddr := 0
  usedRingAddr := 0
  nextAvailIdx := 0
  nextUsedIdx := 0

def isPowerOfTwo (x : UInt16) : Bool := x != 0 && x &&& (x - 1) == 0

def checkedNextPowerOfTwo (x : UInt16) : Option UInt16 :=
  if x.toNat.nextPowerOfTwo < 2 ^ 16 then some (UInt16.ofNat x.toNat.nextPowerOfTwo) else none

def setSize (q : Queue) (requested : UInt16) : Queue :=
  let clamped := min requested q.maxSize
  { q with
    size :=
      if clamped == 0 then 1
      else if isPowerOfTwo clamped then clamped
      else
        match checkedNextPowerOfTwo clamped with
        | none => (1 : UInt16) <<< (15 : UInt16)
        | some p => max (p >>> 1) 1 }

def isValid (q : Queue) : Bool :=
  q.ready && 0 < q.size && q.size ≤ q.maxSize && q.descTableAddr != 0 && q.availRingAddr != 0 &&
    q.usedRingAddr != 0

def reset (q : Queue) : Queue :=
  { q with
    size := q.maxSize
    ready := false
    descTableAddr := 0
    availRingAddr := 0
    usedRingAddr := 0
    nextAvailIdx := 0
    nextUsedIdx := 0 }

/-! ## Addresses -/

def availIdxAddr (q : Queue) : GuestAddress := q.availRingAddr + 2

def availRingEntryAddr (q : Queue) (i : UInt16) : GuestAddress :=
  q.availRingAddr + 4 + (i % q.size).toUInt64 * 2

def usedElemAddr (q : Queue) : GuestAddress :=
  q.usedRingAddr + 4 + (q.nextUsedIdx % q.size).toUInt64 * 8

def usedElemLenAddr (q : Queue) : GuestAddress := q.usedElemAddr + 4

def usedIdxAddr (q : Queue) : GuestAddress := q.usedRingAddr + 2

/-! ## Ring operations -/

def availIdx (q : Queue) (m : GuestMemory) : Except QueueError UInt16 :=
  (m.readU16Le q.availIdxAddr).mapError .memory

def availRingEntry (q : Queue) (m : GuestMemory) (i : UInt16) : Except QueueError UInt16 :=
  (m.readU16Le (q.availRingEntryAddr i)).mapError .memory

def chainAt (q : Queue) (head : UInt16) : DescriptorChain where
  descTableAddr := q.descTableAddr
  queueSize := q.size
  headIndex := head
  current := head
  length := 0
  done := false

def popAvail (q : Queue) (m : GuestMemory) : Except QueueError (Option DescriptorChain) × Queue :=
  if !q.isValid then (.error .queueNotReady, q)
  else
    match q.availIdx m with
    | .error e => (.error e, q)
    | .ok driverIdx =>
      if driverIdx == q.nextAvailIdx then (.ok none, q)
      else
        match q.availRingEntry m q.nextAvailIdx with
        | .error e => (.error e, q)
        | .ok headIdx =>
          if q.size ≤ headIdx then (.error (.descriptorOutOfRange headIdx q.size), q)
          else (.ok (some (q.chainAt headIdx)), { q with nextAvailIdx := q.nextAvailIdx + 1 })

def pushUsed (q : Queue) (m : GuestMemory) (headIndex : UInt16) (bytesWritten : UInt32) :
    Except QueueError Unit × Queue × GuestMemory :=
  if !q.isValid then (.error .queueNotReady, q, m)
  else
    match m.writeU32Le q.usedElemAddr headIndex.toUInt32 with
    | .error e => (.error (.memory e), q, m)
    | .ok m =>
      match m.writeU32Le q.usedElemLenAddr bytesWritten with
      | .error e => (.error (.memory e), q, m)
      | .ok m =>
        let q := { q with nextUsedIdx := q.nextUsedIdx + 1 }
        -- Publish the new device cursor.
        match m.writeU16Le q.usedIdxAddr q.nextUsedIdx with
        | .error e => (.error (.memory e), q, m)
        | .ok m => (.ok (), q, m)

/-! ## Settings and cursors -/

def settings (q : Queue) : Queue := { q with nextAvailIdx := 0, nextUsedIdx := 0 }

def UsedWrites (q : Queue) (a : ℕ) : Prop :=
  GuestMemory.Span q.usedElemAddr 4 a ∨ GuestMemory.Span q.usedElemLenAddr 4 a ∨
    GuestMemory.Span q.usedIdxAddr 2 a

instance (q : Queue) (a : ℕ) : Decidable (q.UsedWrites a) := by unfold UsedWrites; infer_instance

def pending (q : Queue) (m : GuestMemory) : ℕ :=
  match q.availIdx m with
  | .ok driverIdx => (driverIdx - q.nextAvailIdx).toNat
  | .error _ => 0

variable {q q' : Queue} {m m' : GuestMemory}

theorem size_pos (h : q.isValid = true) : 0 < q.size := by
  simp only [isValid, Bool.and_eq_true, decide_eq_true_eq] at h
  exact h.1.1.1.1.2

theorem toNat_slot_lt (hq : 0 < q.size) (i : UInt16) : (i % q.size).toNat < q.size.toNat := by
  exact Nat.mod_lt _ (UInt16.lt_iff_toNat_lt.1 hq)

variable {k : UInt64} {c : DescriptorChain} {head : UInt16} {written : UInt32}

theorem toNat_slot (i : UInt16) (hk : k.toNat ≤ 16) :
    (i.toUInt64 * k).toNat = i.toNat * k.toNat := by
  have hi := i.toNat_lt
  refine Nat.mod_eq_of_lt ?_
  calc i.toNat * k.toNat ≤ 2 ^ 16 * 16 := Nat.mul_le_mul hi.le hk
    _ < 2 ^ 64 := by decide

theorem toNat_ringOffset (i : UInt16) (hk : k.toNat ≤ 16) :
    (4 + i.toUInt64 * k).toNat = 4 + i.toNat * k.toNat := by
  have h4 : (4 : UInt64).toNat = 4 := rfl
  have hmul : i.toNat * k.toNat ≤ 2 ^ 16 * 16 := Nat.mul_le_mul i.toNat_lt.le hk
  rw [UInt64.toNat_add, toNat_slot i hk]
  exact Nat.mod_eq_of_lt (by omega)

theorem popAvail_error {e : QueueError} (h : q.popAvail m = (.error e, q')) : q' = q := by
  unfold popAvail at h
  split_ifs at h
  · cases h; rfl
  split at h
  · cases h; rfl
  split_ifs at h
  · cases h
  split at h
  · cases h; rfl
  split_ifs at h <;> cases h
  rfl

theorem popAvail_none (h : q.popAvail m = (.ok none, q')) : q' = q := by
  unfold popAvail at h
  split_ifs at h
  · cases h
  split at h
  · cases h
  split_ifs at h
  · cases h; rfl
  split at h
  · cases h
  split_ifs at h <;> cases h

theorem popAvail_some (h : q.popAvail m = (.ok (some c), q')) :
    q.isValid = true ∧ (∃ idx, q.availIdx m = .ok idx ∧ idx ≠ q.nextAvailIdx) ∧
      (∃ head, head < q.size ∧ c = q.chainAt head) ∧
      q' = { q with nextAvailIdx := q.nextAvailIdx + 1 } := by
  unfold popAvail at h
  split_ifs at h with hv
  · cases h
  split at h
  · cases h
  next idx hidx =>
  split_ifs at h with hne
  · cases h
  split at h
  · cases h
  next head _ =>
  split_ifs at h with hlt <;> cases h
  exact ⟨by simpa using hv, ⟨idx, hidx, by simpa using hne⟩, ⟨head, UInt16.not_le.1 hlt, rfl⟩, rfl⟩

theorem pending_le (q : Queue) (m : GuestMemory) : q.pending m ≤ 65535 := by
  unfold pending
  split
  · next idx _ => exact Nat.le_of_lt_succ (idx - q.nextAvailIdx).toNat_lt
  · exact Nat.zero_le _

theorem pending_popAvail (h : q.popAvail m = (.ok (some c), q')) :
    q'.pending m + 1 = q.pending m := by
  obtain ⟨-, ⟨idx, hidx, hne⟩, -, rfl⟩ := popAvail_some h
  have hidx' : availIdx { q with nextAvailIdx := q.nextAvailIdx + 1 } m = .ok idx := hidx
  have hne' : idx.toNat ≠ q.nextAvailIdx.toNat := fun h => hne (UInt16.toNat_inj.1 h)
  have h1 := idx.toNat_lt
  have h2 := q.nextAvailIdx.toNat_lt
  simp only [pending, hidx', hidx, UInt16.toNat_sub, UInt16.toNat_add, UInt16.toNat_one]
  omega

theorem availIdxAddr_congr (h : q'.settings = q.settings) : q'.availIdxAddr = q.availIdxAddr :=
  congrArg (fun q => q.availRingAddr + 2) h

theorem pending_congr {A : ℕ → Prop} (h : q'.settings = q.settings)
    (hn : q'.nextAvailIdx = q.nextAvailIdx) (hm : GuestMemory.SameOutside A m m')
    (hA : ∀ a, A a → ¬ GuestMemory.Span q.availIdxAddr 2 a) : q'.pending m' = q.pending m := by
  simp only [pending, availIdx, availIdxAddr_congr h, hm.readU16Le hA, hn]

theorem pushUsed_frame {r : Except QueueError Unit} (h : q.pushUsed m head written = (r, q', m')) :
    GuestMemory.SameOutside q.UsedWrites m m' ∧ q'.settings = q.settings ∧
      q'.nextAvailIdx = q.nextAvailIdx := by
  unfold pushUsed at h
  split_ifs at h
  · cases h; exact ⟨.refl _ _, rfl, rfl⟩
  split at h
  · cases h; exact ⟨.refl _ _, rfl, rfl⟩
  next m₁ h₁ =>
  have f₁ := (GuestMemory.sameOutside_writeU32Le h₁).mono (B := q.UsedWrites) fun a ha => .inl ha
  split at h
  · cases h; exact ⟨f₁, rfl, rfl⟩
  next m₂ h₂ =>
  have f₂ := (GuestMemory.sameOutside_writeU32Le h₂).mono (B := q.UsedWrites)
    fun a ha => .inr (.inl ha)
  dsimp only at h
  split at h
  · cases h; exact ⟨f₁.trans f₂, rfl, rfl⟩
  next m₃ h₃ =>
  have f₃ := (GuestMemory.sameOutside_writeU16Le h₃).mono (B := q.UsedWrites)
    fun a ha => .inr (.inr ha)
  cases h
  exact ⟨(f₁.trans f₂).trans f₃, rfl, rfl⟩

theorem pushUsed_ok {m₁ m₂ m₃ : GuestMemory} (hv : q.isValid = true)
    (h₁ : m.writeU32Le q.usedElemAddr head.toUInt32 = .ok m₁)
    (h₂ : m₁.writeU32Le q.usedElemLenAddr written = .ok m₂)
    (h₃ : m₂.writeU16Le q.usedIdxAddr (q.nextUsedIdx + 1) = .ok m₃) :
    q.pushUsed m head written = (.ok (), { q with nextUsedIdx := q.nextUsedIdx + 1 }, m₃) := by
  have h₃' : m₂.writeU16Le (usedIdxAddr { q with nextUsedIdx := q.nextUsedIdx + 1 })
    (q.nextUsedIdx + 1) = .ok m₃ := h₃
  simp [pushUsed, hv, h₁, h₂, h₃']

end Queue

end Squib
