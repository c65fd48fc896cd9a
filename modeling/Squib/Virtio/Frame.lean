import Squib.Virtio.System

/-!
# The bytes a device may change
-/

namespace Squib

open GuestMemory

variable {η : Type}

def Queue.InUsedRing (q : Queue) (a : ℕ) : Prop :=
  ∃ n < 6 + 8 * q.size.toNat, a = (q.usedRingAddr.toNat + n) % 2 ^ 64

instance (q : Queue) (a : ℕ) : Decidable (q.InUsedRing a) := by
  unfold Queue.InUsedRing; infer_instance

def InWriteOnly (descs : List Descriptor) (a : ℕ) : Prop :=
  ∃ desc ∈ descs, desc.isWriteOnly = true ∧ desc.addr.toNat ≤ a ∧
    a < desc.addr.toNat + desc.len.toNat

instance (descs : List Descriptor) (a : ℕ) : Decidable (InWriteOnly descs a) := by
  unfold InWriteOnly; infer_instance

def InBuffers : Except QueueError (List Descriptor) → ℕ → Prop
  | .ok descs, a => InWriteOnly descs a
  | .error _, _ => False

instance : ∀ (r : Except QueueError (List Descriptor)) (a : ℕ), Decidable (InBuffers r a)
  | .ok descs, a => inferInstanceAs (Decidable (InWriteOnly descs a))
  | .error _, _ => .isFalse id

def Event.Lends : Event → ℕ → Prop
  | .popped _ q m c, a => InBuffers (c.collect m) a ∨ q.InUsedRing a
  | _, _ => False

instance : ∀ (e : Event) (a : ℕ), Decidable (e.Lends a)
  | .popped _ q m c, a => inferInstanceAs (Decidable (InBuffers (c.collect m) a ∨ q.InUsedRing a))
  | .pushed _ _ _, _ => .isFalse id
  | .pushFailed _ _, _ => .isFalse id
  | .pulsed _, _ => .isFalse id

def DeviceKind.responseLen : DeviceKind η → ℕ
  | .mem _ _ => 2
  | .pmem _ => 4
  | _ => 0

def RoomIn (n : ℕ) : Except QueueError (List Descriptor) → Prop
  | .ok descs => ∀ p ∈ reqResp descs, n ≤ p.2.len.toNat
  | .error _ => True

instance (n : ℕ) : ∀ r : Except QueueError (List Descriptor), Decidable (RoomIn n r)
  | .ok descs => inferInstanceAs (Decidable (∀ p ∈ reqResp descs, n ≤ p.2.len.toNat))
  | .error _ => .isTrue trivial

def Event.HasRoom (n : ℕ) : Event → Prop
  | .popped _ _ m c => RoomIn n (c.collect m)
  | _ => True

instance (n : ℕ) : ∀ e : Event, Decidable (e.HasRoom n)
  | .popped _ _ m c => inferInstanceAs (Decidable (RoomIn n (c.collect m)))
  | .pushed _ _ _ => .isTrue trivial
  | .pushFailed _ _ => .isTrue trivial
  | .pulsed _ => .isTrue trivial

/-! ## Used rings -/

variable {a : ℕ}

theorem span_offset {base off : UInt64} {n : ℕ} (h : Span (base + off) n a) :
    ∃ j < n, a = (base.toNat + off.toNat + j) % 2 ^ 64 := by
  obtain ⟨h1, h2, h3⟩ := h
  rw [UInt64.toNat_add] at h1 h2
  exact ⟨a - (base.toNat + off.toNat) % 2 ^ 64, by omega, by omega⟩

theorem Queue.inUsedRing_of_usedWrites {q : Queue} (hq : 0 < q.size) (h : q.UsedWrites a) :
    q.InUsedRing a := by
  have hslot := toNat_slot_lt hq q.nextUsedIdx
  have hsize := q.size.toNat_lt
  have hoff : (4 + (q.nextUsedIdx % q.size).toUInt64 * 8).toNat =
      4 + (q.nextUsedIdx % q.size).toNat * 8 := toNat_ringOffset _ (by decide)
  have h4 : (4 : UInt64).toNat = 4 := rfl
  have h2 : (2 : UInt64).toNat = 2 := rfl
  unfold UsedWrites usedElemLenAddr usedElemAddr usedIdxAddr at h
  rcases h with h | h | h
  · rw [UInt64.add_assoc] at h
    obtain ⟨j, hj, rfl⟩ := span_offset h
    rw [hoff]
    exact ⟨4 + (q.nextUsedIdx % q.size).toNat * 8 + j, by omega, by rw [Nat.add_assoc]⟩
  · rw [UInt64.add_assoc q.usedRingAddr, UInt64.add_assoc q.usedRingAddr] at h
    obtain ⟨j, hj, rfl⟩ := span_offset h
    rw [UInt64.toNat_add, hoff, h4,
      Nat.mod_eq_of_lt (a := 4 + (q.nextUsedIdx % q.size).toNat * 8 + 4) (by omega)]
    exact ⟨4 + (q.nextUsedIdx % q.size).toNat * 8 + 4 + j, by omega, by rw [Nat.add_assoc]⟩
  · obtain ⟨j, hj, rfl⟩ := span_offset h
    exact ⟨2 + j, by omega, by rw [h2, Nat.add_assoc]⟩

/-! ## The frame -/

theorem WriteOnlySpan.inWriteOnly {descs : List Descriptor} (h : WriteOnlySpan descs a) :
    InWriteOnly descs a := by
  obtain ⟨desc, hd, hw, h1, h2, -⟩ := h
  exact ⟨desc, hd, hw, h1, h2⟩

variable {k : DeviceKind η}

theorem DeviceKind.inBuffers_of_writes {i : ℕ} {r : Except QueueError (List Descriptor)}
    (h : k.contract.Writes i r a) (hroom : RoomIn k.responseLen r) : InBuffers r a := by
  cases k with
  | block | rng | bootTimer =>
    obtain ⟨descs, rfl, hw⟩ := h
    exact hw.inWriteOnly
  | net | vsock =>
    obtain ⟨descs, rfl, -, hw⟩ := h
    exact hw.inWriteOnly
  | mem | pmem =>
    obtain ⟨descs, rfl, hw⟩ := h
    exact (hw.writeOnlySpan fun req resp hr => hroom (req, resp) hr).inWriteOnly
  | balloon => exact h.elim
  | console =>
    obtain ⟨-, -, hw⟩ := h
    exact hw.elim

theorem DeviceKind.lends_of_writes {l : List Event} (hl : Served k.contract l) {e : Event}
    (he : e ∈ l) (hroom : e.HasRoom k.responseLen) (h : e.Writes k.contract a) : e.Lends a := by
  cases e with
  | popped i q m c =>
    rcases h with h | h
    · exact .inl (inBuffers_of_writes h hroom)
    · have hpop := hl.popAvail he
      have hv := (Queue.popAvail_some (Prod.ext hpop rfl)).1
      exact .inr (Queue.inUsedRing_of_usedWrites (Queue.size_pos hv) h)
  | pushed | pushFailed | pulsed => exact h

/-- **A device changes only bytes lent to it**, where each response descriptor popped has room for
the response. -/
theorem frame_of_room (k : DeviceKind η) (fuel : ℕ) (queueIndex : UInt16) (fd fd' : Frontend k.Own)
    (w w' : World η) (returned : Bool) (new : List Event)
    (h : (k.vtable fuel).processQueue queueIndex fd w = .ok (returned, fd', w'))
    (hlog : w'.log = w.log ++ new) (hroom : ∀ e ∈ new, e.HasRoom k.responseLen) :
    (∀ a, w'.mem.byte a ≠ w.mem.byte a → ∃ e ∈ new, e.Lends a) ∧
      ∀ i q m c, .popped i q m c ∈ new →
        ∃ q₀, fd.queues[i]? = some q₀ ∧ q.settings = q₀.settings := by
  obtain ⟨new', he, -⟩ := k.keeps fuel queueIndex fd w _ h
  obtain rfl : new = new' := List.append_cancel_left (hlog.symm.trans he.log)
  refine ⟨fun a ha => ?_, he.source⟩
  by_contra hno
  refine ha (he.frame.byte a ?_)
  rintro ⟨e, hmem, hw⟩
  exact hno ⟨e, hmem, DeviceKind.lends_of_writes he.served hmem (hroom e hmem) hw⟩

section Scenario

def emptyMem : DeviceKind Unit :=
  .mem { regionBase := 0, regionSize := 0, requestedSize := 0 }
    { plug := fun _ _ host => (.error "", host), unplug := fun _ _ host => (.error "", host) }

def readyQueue {σ : Type} (own : σ) : Frontend σ where
  acked := 0
  queues := [{ Queue.new 64 with
    size := 4, ready := true, descTableAddr := 0x1000, availRingAddr := 0x1040,
    usedRingAddr := 0x1050 }]
  state := .full
  own := own

def requestWorld (len : UInt32) : World Unit :=
  .start (ringMemory [{ addr := 0, len := 24, flags := 1, next := 1 },
    { addr := 0x10C0, len, flags := 2, next := 0 }] 1) ()

theorem frame_two_byte_response :
    Checked.Returns ((emptyMem.vtable 3).processQueue 0 (readyQueue []) (requestWorld 2)) fun r =>
      (∀ e ∈ r.2.2.log, e.HasRoom emptyMem.responseLen) ∧
      ∀ a, r.2.2.mem.byte a ≠ (requestWorld 2).mem.byte a → ∃ e ∈ r.2.2.log, e.Lends a := by
  have hroom : Checked.Returns
      ((emptyMem.vtable 3).processQueue 0 (readyQueue []) (requestWorld 2)) fun r =>
        ∀ e ∈ r.2.2.log, e.HasRoom emptyMem.responseLen := by decide +kernel
  obtain ⟨⟨returned, fd', w'⟩, hx, hr⟩ := hroom
  exact ⟨_, hx, hr, (frame_of_room emptyMem 3 0 _ fd' _ w' returned w'.log hx rfl hr).1⟩

theorem short_response_overrun :
    Checked.Returns ((emptyMem.vtable 3).processQueue 0 (readyQueue []) (requestWorld 0)) fun r =>
      r.1 = true ∧ r.2.2.mem.byte 0x10C0 ≠ (requestWorld 0).mem.byte 0x10C0 ∧
        ∀ e ∈ r.2.2.log, ¬ e.Lends 0x10C0 := by
  decide +kernel

end Scenario

end Squib
