import Mathlib.Data.List.Sort
import Squib.Core.Arith

/-!
# The MMIO bus
-/

namespace Squib

/-! ## Ranges -/

structure BusRange where
  base : UInt64
  len : UInt64
  pos : 0 < len
  fits : base.toNat + len.toNat < 2 ^ 64
  deriving DecidableEq

inductive BusError where
  | overlap (existing : BusRange)
  | zeroLengthRange
  | rangeOverflow
  | noDevice (addr : UInt64)
  deriving DecidableEq

namespace BusRange

def new (base len : UInt64) : Except BusError BusRange :=
  if h₀ : len = 0 then .error .zeroLengthRange
  else if h : base.toNat + len.toNat < 2 ^ 64 then
    .ok ⟨base, len, UInt64.pos_iff_ne_zero.2 h₀, h⟩
  else .error .rangeOverflow

def endAddr (r : BusRange) : UInt64 := r.base + r.len

def contains (r : BusRange) (addr : UInt64) : Bool := r.base ≤ addr && addr < r.endAddr

def overlaps (r r' : BusRange) : Bool := r.base < r'.endAddr && r'.base < r.endAddr

theorem overlaps_comm (r r' : BusRange) : r.overlaps r' = r'.overlaps r := by
  rw [overlaps, overlaps, Bool.and_comm]

end BusRange

/-! ## The map of devices -/

structure BusDevice (β : Type) where
  read : UInt64 → List UInt8 → β → List UInt8 × β
  write : UInt64 → List UInt8 → β → β
  length_read : ∀ offset data s, (read offset data s).1.length = data.length

structure Bus (β : Type) where
  devices : List (BusRange × BusDevice β)
  sorted : devices.Pairwise fun d e => d.1.base ≤ e.1.base
  disjoint : devices.Pairwise fun d e => ¬ d.1.overlaps e.1

variable {β : Type}

namespace Bus

def empty : Bus β := ⟨[], .nil, .nil⟩

def Before (d e : BusRange × BusDevice β) : Prop := d.1.base ≤ e.1.base

instance : DecidableRel (@Before β) := fun _ _ => inferInstanceAs (Decidable (_ ≤ _))

instance : Std.Total (@Before β) := ⟨fun d e => UInt64.le_total d.1.base e.1.base⟩

instance : IsTrans _ (@Before β) := ⟨fun _ _ _ => UInt64.le_trans⟩

theorem disjoint_orderedInsert {l : List (BusRange × BusDevice β)} {e : BusRange × BusDevice β}
    (hl : l.Pairwise fun d d' => ¬ d.1.overlaps d'.1) (he : ∀ d ∈ l, ¬ d.1.overlaps e.1) :
    (l.orderedInsert Before e).Pairwise fun d d' => ¬ d.1.overlaps d'.1 := by
  refine ((List.perm_orderedInsert Before e l).pairwise_iff fun h => ?_).2
    (List.pairwise_cons.2 ⟨fun d hd => ?_, hl⟩)
  · rwa [BusRange.overlaps_comm]
  · rw [BusRange.overlaps_comm]
    exact he d hd

def insert (bus : Bus β) (device : BusDevice β) (base len : UInt64) :
    Except BusError (Bus β) :=
  match BusRange.new base len with
  | .error e => .error e
  | .ok newRange =>
    match h : bus.devices.find? fun e => e.1.overlaps newRange with
    | some existing => .error (.overlap existing.1)
    | none => .ok {
        devices := bus.devices.orderedInsert Before (newRange, device)
        sorted := List.Pairwise.orderedInsert (newRange, device) bus.devices bus.sorted
        disjoint := disjoint_orderedInsert bus.disjoint (List.find?_eq_none.1 h) }

/-! ## Dispatch -/

def resolve (bus : Bus β) (addr : UInt64) : Except BusError (UInt64 × BusDevice β) :=
  match (bus.devices.filter fun e => e.1.base ≤ addr).getLast? with
  | none => .error (.noDevice addr)
  | some (range, dev) =>
    if range.contains addr then .ok (addr - range.base, dev) else .error (.noDevice addr)

def read (bus : Bus β) (addr : UInt64) (data : List UInt8) (s : β) :
    Except BusError (List UInt8 × β) :=
  match bus.resolve addr with
  | .error e => .error e
  | .ok (offset, dev) => .ok (dev.read offset data s)

def write (bus : Bus β) (addr : UInt64) (data : List UInt8) (s : β) : Except BusError β :=
  match bus.resolve addr with
  | .error e => .error e
  | .ok (offset, dev) => .ok (dev.write offset data s)

end Bus

end Squib
