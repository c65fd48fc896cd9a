import Squib.Virtio.Frame
import Squib.Virtio.Panic

/-!
# Guest addresses
-/

namespace Squib

variable {η : Type}

theorem toNat_eq_iff_lt {a : GuestAddress} {n : ℕ} (h : a.toNat = n % 2 ^ 64) :
    a.toNat = n ↔ n < 2 ^ 64 := by
  have := a.toNat_lt
  omega

namespace Queue

def AtDescriptor (q : Queue) (c : DescriptorChain) : Prop :=
  c.descTableAddr = q.descTableAddr ∧ c.current < q.size

structure AddressesExact (q : Queue) : Prop where
  availIdx : q.availIdxAddr.toNat = q.availRingAddr.toNat + 2
  availRingEntry : ∀ i, (q.availRingEntryAddr i).toNat =
    q.availRingAddr.toNat + 4 + (i % q.size).toNat * 2
  usedElem : ∀ i, (usedElemAddr { q with nextUsedIdx := i }).toNat =
    q.usedRingAddr.toNat + 4 + (i % q.size).toNat * 8
  usedElemLen : ∀ i, (usedElemLenAddr { q with nextUsedIdx := i }).toNat =
    q.usedRingAddr.toNat + 4 + (i % q.size).toNat * 8 + 4
  usedIdx : q.usedIdxAddr.toNat = q.usedRingAddr.toNat + 2
  desc : ∀ c, q.AtDescriptor c →
    c.descAddr.toNat = q.descTableAddr.toNat + c.current.toNat * 16
  descLen : ∀ c, q.AtDescriptor c →
    c.descLenAddr.toNat = q.descTableAddr.toNat + c.current.toNat * 16 + 8
  descFlags : ∀ c, q.AtDescriptor c →
    c.descFlagsAddr.toNat = q.descTableAddr.toNat + c.current.toNat * 16 + 12
  descNext : ∀ c, q.AtDescriptor c →
    c.descNextAddr.toNat = q.descTableAddr.toNat + c.current.toNat * 16 + 14

structure AddressesFit (q : Queue) : Prop where
  avail : q.availRingAddr.toNat + 4 + (q.size.toNat - 1) * 2 < 2 ^ 64
  used : q.usedRingAddr.toNat + 4 + (q.size.toNat - 1) * 8 + 4 < 2 ^ 64
  desc : q.descTableAddr.toNat + (q.size.toNat - 1) * 16 + 14 < 2 ^ 64

variable (q : Queue)

theorem toNat_availIdxAddr : q.availIdxAddr.toNat = (q.availRingAddr.toNat + 2) % 2 ^ 64 :=
  UInt64.toNat_add _ _

theorem toNat_availRingEntryAddr (i : UInt16) : (q.availRingEntryAddr i).toNat =
    (q.availRingAddr.toNat + 4 + (i % q.size).toNat * 2) % 2 ^ 64 := by
  have h2 : (2 : UInt64).toNat = 2 := rfl
  have h4 : (4 : UInt64).toNat = 4 := rfl
  simp only [availRingEntryAddr, UInt64.toNat_add, UInt64.toNat_mul, UInt16.toNat_toUInt64, h2, h4]
  omega

theorem toNat_usedElemAddr : q.usedElemAddr.toNat =
    (q.usedRingAddr.toNat + 4 + (q.nextUsedIdx % q.size).toNat * 8) % 2 ^ 64 := by
  have h4 : (4 : UInt64).toNat = 4 := rfl
  have h8 : (8 : UInt64).toNat = 8 := rfl
  simp only [usedElemAddr, UInt64.toNat_add, UInt64.toNat_mul, UInt16.toNat_toUInt64, h4, h8]
  omega

theorem toNat_usedElemLenAddr : q.usedElemLenAddr.toNat =
    (q.usedRingAddr.toNat + 4 + (q.nextUsedIdx % q.size).toNat * 8 + 4) % 2 ^ 64 := by
  have h4 : (4 : UInt64).toNat = 4 := rfl
  rw [usedElemLenAddr, UInt64.toNat_add, toNat_usedElemAddr, h4]
  omega

theorem toNat_usedIdxAddr : q.usedIdxAddr.toNat = (q.usedRingAddr.toNat + 2) % 2 ^ 64 :=
  UInt64.toNat_add _ _

theorem toNat_descAddr (c : DescriptorChain) : c.descAddr.toNat =
    (c.descTableAddr.toNat + c.current.toNat * 16) % 2 ^ 64 := by
  have h16 : (16 : UInt64).toNat = 16 := rfl
  simp only [DescriptorChain.descAddr, UInt64.toNat_add, UInt64.toNat_mul, UInt16.toNat_toUInt64,
    h16]
  omega

theorem toNat_descAddr_add (c : DescriptorChain) (offset : UInt64) :
    (c.descAddr + offset).toNat =
      (c.descTableAddr.toNat + c.current.toNat * 16 + offset.toNat) % 2 ^ 64 := by
  rw [UInt64.toNat_add, toNat_descAddr]
  omega

variable {q}

theorem mod_size_le (h : q.isValid = true) (i : UInt16) :
    (i % q.size).toNat ≤ q.size.toNat - 1 := by
  have := toNat_slot_lt (size_pos h) i
  omega

theorem toNat_size_sub_one (h : q.isValid = true) :
    (q.size - 1).toNat = q.size.toNat - 1 ∧ ((q.size - 1) % q.size).toNat = q.size.toNat - 1 := by
  have hpos : 0 < q.size.toNat := UInt16.lt_iff_toNat_lt.1 (size_pos h)
  have hlast : (q.size - 1).toNat = q.size.toNat - 1 :=
    UInt16.toNat_sub_of_le _ _ (UInt16.le_iff_toNat_le.2 hpos)
  refine ⟨hlast, ?_⟩
  rw [UInt16.toNat_mod, hlast, Nat.mod_eq_of_lt (by omega)]

theorem AddressesExact.fit (h : q.isValid = true) (he : q.AddressesExact) : q.AddressesFit := by
  have hpos : 0 < q.size.toNat := UInt16.lt_iff_toNat_lt.1 (size_pos h)
  obtain ⟨hlast, hmod⟩ := toNat_size_sub_one h
  refine ⟨?_, ?_, ?_⟩
  · rw [← hmod]
    exact (toNat_eq_iff_lt (q.toNat_availRingEntryAddr _)).1 (he.availRingEntry _)
  · rw [← hmod]
    exact (toNat_eq_iff_lt (toNat_usedElemLenAddr { q with nextUsedIdx := q.size - 1 })).1
      (he.usedElemLen _)
  · rw [← hlast]
    refine (toNat_eq_iff_lt (toNat_descAddr_add (q.chainAt (q.size - 1)) 14)).1
      (he.descNext _ ⟨rfl, ?_⟩)
    have hcur : (q.chainAt (q.size - 1)).current = q.size - 1 := rfl
    rw [UInt16.lt_iff_toNat_lt, hcur, hlast]
    omega

theorem AddressesFit.toNat_field (hf : q.AddressesFit) {c : DescriptorChain}
    (hc : q.AtDescriptor c) (offset : UInt64) (ho : offset.toNat ≤ 14) :
    (c.descAddr + offset).toNat =
      q.descTableAddr.toNat + c.current.toNat * 16 + offset.toNat := by
  have hcur := UInt16.lt_iff_toNat_lt.1 hc.2
  have hdesc := hf.desc
  rw [← hc.1] at hdesc ⊢
  exact (toNat_eq_iff_lt (toNat_descAddr_add c offset)).2 (by omega)

theorem AddressesFit.exact (h : q.isValid = true) (hf : q.AddressesFit) : q.AddressesExact := by
  have hslot := mod_size_le h
  have ha := hf.avail
  have hu := hf.used
  have hd := hf.desc
  exact {
    availIdx := (toNat_eq_iff_lt q.toNat_availIdxAddr).2 (by omega)
    availRingEntry := fun i =>
      (toNat_eq_iff_lt (q.toNat_availRingEntryAddr i)).2 (by have := hslot i; omega)
    usedElem := fun i => (toNat_eq_iff_lt (toNat_usedElemAddr { q with nextUsedIdx := i })).2
      (by have := hslot i; dsimp only; omega)
    usedElemLen := fun i =>
      (toNat_eq_iff_lt (toNat_usedElemLenAddr { q with nextUsedIdx := i })).2
        (by have := hslot i; dsimp only; omega)
    usedIdx := (toNat_eq_iff_lt q.toNat_usedIdxAddr).2 (by omega)
    desc := fun c hc => by
      have hcur := UInt16.lt_iff_toNat_lt.1 hc.2
      rw [← hc.1] at hd ⊢
      exact (toNat_eq_iff_lt (toNat_descAddr c)).2 (by omega)
    descLen := fun c hc => hf.toNat_field hc 8 (by decide)
    descFlags := fun c hc => hf.toNat_field hc 12 (by decide)
    descNext := fun c hc => hf.toNat_field hc 14 (by decide) }

theorem addressesExact_iff (h : q.isValid = true) : q.AddressesExact ↔ q.AddressesFit :=
  ⟨AddressesExact.fit h, AddressesFit.exact h⟩

end Queue

/-! ## Request handlers -/

namespace DeviceKind

def RequestExact : DeviceKind η → Descriptor → Prop
  | .block _ _, desc => (BlockDevice.sectorAddr desc).toNat = desc.addr.toNat + 8
  | .mem _ _, desc => (MemDevice.reqAddrAddr desc).toNat = desc.addr.toNat + 8 ∧
      (MemDevice.nbBlocksAddr desc).toNat = desc.addr.toNat + 16
  | .balloon _, desc => ∀ i < desc.len.toNat / 4,
      (BalloonDevice.pfnAddr desc i).toNat = desc.addr.toNat + i * 4
  | _, _ => True

def RequestFits : DeviceKind η → Descriptor → Prop
  | .block _ _, desc => desc.addr.toNat + 8 < 2 ^ 64
  | .mem _ _, desc => desc.addr.toNat + 16 < 2 ^ 64
  | .balloon _, desc => desc.addr.toNat + (desc.len.toNat / 4 - 1) * 4 < 2 ^ 64
  | _, _ => True

theorem requestExact_iff (k : DeviceKind η) (desc : Descriptor) :
    k.RequestExact desc ↔ k.RequestFits desc := by
  cases k with
  | block config backend => exact toNat_eq_iff_lt (UInt64.toNat_add desc.addr 8)
  | mem config backend =>
    have h8 := toNat_eq_iff_lt (UInt64.toNat_add desc.addr 8)
    have h16 := toNat_eq_iff_lt (UInt64.toNat_add desc.addr 16)
    exact ⟨fun h => h16.1 h.2, fun h => ⟨h8.2 (lt_trans (by simp) h), h16.2 h⟩⟩
  | balloon config =>
    have hmod : ∀ i < desc.len.toNat / 4, (BalloonDevice.pfnAddr desc i).toNat =
        (desc.addr.toNat + i * 4) % 2 ^ 64 := fun i hi => by
      have h4 : (4 : UInt64).toNat = 4 := rfl
      simp only [BalloonDevice.pfnAddr, UInt64.toNat_add, UInt64.toNat_mul, UInt64.toNat_ofNat', h4]
      omega
    have haddr := desc.addr.toNat_lt
    constructor
    · intro h
      change desc.addr.toNat + (desc.len.toNat / 4 - 1) * 4 < 2 ^ 64
      by_cases hz : desc.len.toNat / 4 = 0
      · omega
      · exact (toNat_eq_iff_lt (hmod _ (by omega))).1 (h _ (by omega))
    · intro (h : desc.addr.toNat + (desc.len.toNat / 4 - 1) * 4 < 2 ^ 64) i hi
      exact (toNat_eq_iff_lt (hmod i hi)).2 (by omega)
  | net | vsock | rng | console | pmem | bootTimer => exact Iff.rfl

end DeviceKind

/-- **The addresses are exact** if and only if the last fields that are read or written start below
`2 ^ 64`. -/
theorem addresses_exact_iff (k : DeviceKind η) (q : Queue) (desc : Descriptor)
    (hq : q.isValid = true) :
    (q.AddressesExact ∧ k.RequestExact desc) ↔ (q.AddressesFit ∧ k.RequestFits desc) :=
  and_congr (Queue.addressesExact_iff hq) (k.requestExact_iff desc)

section Scenario

/-- A queue in the middle of the address space, and a request at its start. -/
theorem addresses_exact_middle :
    (readyQueue ()).queues.all Queue.isValid = true ∧ ∀ q ∈ (readyQueue ()).queues,
      ((q.AddressesExact ∧ emptyMem.RequestExact { addr := 0, len := 24, flags := 0, next := 0 }) ↔
        (q.AddressesFit ∧ emptyMem.RequestFits { addr := 0, len := 24, flags := 0, next := 0 })) :=
  ⟨by decide, fun q hq => addresses_exact_iff emptyMem q _ (List.all_eq_true.1 (by decide) q hq)⟩

def ringAtTheEnd : List (Op Unit) :=
  [.writeReg 0x70 1, .writeReg 0x70 3, .writeReg 0x70 11, .writeReg 0x80 0x1000,
    .writeReg 0x90 0xFFFFFFFF, .writeReg 0x94 0xFFFFFFFF, .writeReg 0xA0 0x1050, .writeReg 0x44 1,
    .writeReg 0x70 15]

/-- **The address of `avail.idx` wraps to a low address.** -/
theorem avail_idx_wraps :
    Checked.Returns (run (zeroRng.vtable 1) ringAtTheEnd (.fresh zeroRng.new askWorld)) fun r =>
      ∃ q ∈ r.2.2.transport.device.queues, q.isValid = true ∧ q.availIdxAddr.toNat = 1 ∧
        q.availRingAddr.toNat + 2 = 2 ^ 64 + 1 := by
  decide +kernel

end Scenario

end Squib
