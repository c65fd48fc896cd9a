import Squib.Lib.Bytes

/-!
# Guest memory
-/

namespace Squib

open Bytes

abbrev GuestAddress := UInt64

inductive Error where
  | memoryOutOfRange (addr : GuestAddress) (len : ℕ)
  deriving DecidableEq, Repr

structure GuestRange where
  base : GuestAddress
  size : UInt64
  noOverflow : base.toNat + size.toNat < 2 ^ 64
  deriving DecidableEq

structure GuestMemory where
  regions : List GuestRange
  byte : ℕ → UInt8

namespace GuestMemory

def fromBytes (base : GuestAddress) (bytes : List UInt8) (h : base.toNat + bytes.length < 2 ^ 64) :
    GuestMemory where
  regions := [{
    base := base
    size := UInt64.ofNat bytes.length
    noOverflow := by rw [UInt64.toNat_ofNat']; omega }]
  byte a := if base.toNat ≤ a then bytes.getD (a - base.toNat) 0 else 0

def contains (m : GuestMemory) (addr : GuestAddress) (len : ℕ) : Bool :=
  m.regions.any fun r =>
    r.base.toNat ≤ addr.toNat && addr.toNat + len ≤ r.base.toNat + r.size.toNat

def read (m : GuestMemory) (addr : GuestAddress) (len : ℕ) : Except Error (List UInt8) :=
  if m.contains addr len then .ok (load m.byte addr.toNat len)
  else .error (.memoryOutOfRange addr len)

def write (m : GuestMemory) (addr : GuestAddress) (buf : List UInt8) : Except Error GuestMemory :=
  if m.contains addr buf.length then .ok { m with byte := store m.byte addr.toNat buf }
  else .error (.memoryOutOfRange addr buf.length)

def readU16Le (m : GuestMemory) (addr : GuestAddress) : Except Error UInt16 :=
  (m.read addr 2).map fun b => UInt16.ofNat (leNat b)

def readU32Le (m : GuestMemory) (addr : GuestAddress) : Except Error UInt32 :=
  (m.read addr 4).map fun b => UInt32.ofNat (leNat b)

def readU64Le (m : GuestMemory) (addr : GuestAddress) : Except Error UInt64 :=
  (m.read addr 8).map fun b => UInt64.ofNat (leNat b)

def writeU16Le (m : GuestMemory) (addr : GuestAddress) (value : UInt16) :
    Except Error GuestMemory := m.write addr (leBytes 2 value.toNat)

def writeU32Le (m : GuestMemory) (addr : GuestAddress) (value : UInt32) :
    Except Error GuestMemory := m.write addr (leBytes 4 value.toNat)

def Span (addr : GuestAddress) (len a : ℕ) : Prop :=
  addr.toNat ≤ a ∧ a < addr.toNat + len ∧ a < 2 ^ 64

instance (addr : GuestAddress) (len a : ℕ) : Decidable (Span addr len a) := by
  unfold Span; infer_instance

structure SameOutside (A : ℕ → Prop) (m m' : GuestMemory) : Prop where
  regions : m'.regions = m.regions
  byte : ∀ a, ¬ A a → m'.byte a = m.byte a

variable {m m' m'' : GuestMemory} {addr : GuestAddress} {len : ℕ} {buf : List UInt8}

/-! ## Memories that differ in a set of addresses -/

namespace SameOutside

variable {A B : ℕ → Prop}

theorem refl (A : ℕ → Prop) (m : GuestMemory) : SameOutside A m m := ⟨rfl, fun _ _ => rfl⟩

theorem trans (h : SameOutside A m m') (h' : SameOutside A m' m'') : SameOutside A m m'' :=
  ⟨h'.regions.trans h.regions, fun a ha => (h'.byte a ha).trans (h.byte a ha)⟩

theorem mono (h : SameOutside A m m') (hAB : ∀ a, A a → B a) : SameOutside B m m' :=
  ⟨h.regions, fun a ha => h.byte a fun hA => ha (hAB a hA)⟩

end SameOutside

/-! ## Reads -/

theorem contains_congr (h : m'.regions = m.regions) (addr : GuestAddress) (len : ℕ) :
    m'.contains addr len = m.contains addr len := by
  simp [contains, h]

theorem lt_of_contains (h : m.contains addr len = true) : addr.toNat + len < 2 ^ 64 := by
  obtain ⟨r, -, hr⟩ := List.any_eq_true.1 h
  have hno := r.noOverflow
  simp only [Bool.and_eq_true, decide_eq_true_eq] at hr
  omega

theorem read_congr (hr : m'.regions = m.regions)
    (hb : ∀ a, Span addr len a → m'.byte a = m.byte a) :
    m'.read addr len = m.read addr len := by
  unfold read
  rw [contains_congr hr]
  split_ifs with h
  · have hlt := lt_of_contains h
    exact congrArg _ (load_congr fun a ha => hb a ⟨ha.1, ha.2, by have := ha.2; omega⟩)
  · rfl

variable {A : ℕ → Prop} {v : UInt16}

theorem SameOutside.readU16Le (h : SameOutside A m m') (hA : ∀ a, A a → ¬ Span addr 2 a) :
    m'.readU16Le addr = m.readU16Le addr := by
  unfold GuestMemory.readU16Le
  rw [read_congr h.regions fun a ha => h.byte a fun hAa => hA a hAa ha]

theorem SameOutside.readU32Le (h : SameOutside A m m') (hA : ∀ a, A a → ¬ Span addr 4 a) :
    m'.readU32Le addr = m.readU32Le addr := by
  unfold GuestMemory.readU32Le
  rw [read_congr h.regions fun a ha => h.byte a fun hAa => hA a hAa ha]

/-! ## Writes -/

theorem sameOutside_write (h : m.write addr buf = .ok m') :
    SameOutside (Span addr buf.length) m m' := by
  unfold write at h
  split at h
  · next hc =>
    cases h
    have hlt := lt_of_contains hc
    exact ⟨rfl, fun a ha => store_of_notMem fun hr => ha ⟨hr.1, hr.2, by have := hr.2; omega⟩⟩
  · cases h

theorem sameOutside_writeU16Le (h : m.writeU16Le addr v = .ok m') :
    SameOutside (Span addr 2) m m' := by
  simpa using sameOutside_write h

theorem sameOutside_writeU32Le {v : UInt32} (h : m.writeU32Le addr v = .ok m') :
    SameOutside (Span addr 4) m m' := by
  simpa using sameOutside_write h

theorem read_of_write (h : m.write addr buf = .ok m') : m'.read addr buf.length = .ok buf := by
  unfold write at h
  split_ifs at h with hc
  cases h
  have hc' : contains { m with byte := store m.byte addr.toNat buf } addr buf.length = true := hc
  rw [read, if_pos hc', load_store]

theorem readU16Le_of_writeU16Le (h : m.writeU16Le addr v = .ok m') : m'.readU16Le addr = .ok v := by
  have hread := read_of_write h
  have hlt := v.toNat_lt
  rw [length_leBytes] at hread
  have hv : UInt16.ofNat (leNat (leBytes 2 v.toNat)) = v := by
    rw [leNat_leBytes, Nat.mod_eq_of_lt (by omega), UInt16.ofNat_toNat]
  rw [readU16Le, hread]
  exact congrArg _ hv

theorem readU32Le_of_writeU32Le {v : UInt32} (h : m.writeU32Le addr v = .ok m') :
    m'.readU32Le addr = .ok v := by
  have hread := read_of_write h
  have hlt := v.toNat_lt
  rw [length_leBytes] at hread
  have hv : UInt32.ofNat (leNat (leBytes 4 v.toNat)) = v := by
    rw [leNat_leBytes, Nat.mod_eq_of_lt (by omega), UInt32.ofNat_toNat]
  rw [readU32Le, hread]
  exact congrArg _ hv

end GuestMemory

end Squib
