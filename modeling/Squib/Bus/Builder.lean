import Mathlib.Data.List.Pairwise
import Squib.Bus

/-!
# Building the bus
-/

namespace Squib

/-! ## Ranges as sets of addresses -/

namespace BusRange

variable {r r' : BusRange} {addr : UInt64}

theorem toNat_endAddr (r : BusRange) : r.endAddr.toNat = r.base.toNat + r.len.toNat := by
  rw [endAddr, UInt64.toNat_add, Nat.mod_eq_of_lt r.fits]

theorem base_lt_endAddr (r : BusRange) : r.base < r.endAddr := by
  have hlen : 0 < r.len.toNat := r.pos
  rw [UInt64.lt_iff_toNat_lt, toNat_endAddr]
  omega

theorem contains_iff : r.contains addr ↔ r.base ≤ addr ∧ addr < r.endAddr := by
  rw [contains, Bool.and_eq_true, decide_eq_true_iff, decide_eq_true_iff]

theorem contains_iff_toNat :
    r.contains addr ↔ r.base.toNat ≤ addr.toNat ∧ addr.toNat < r.base.toNat + r.len.toNat := by
  rw [contains_iff, UInt64.le_iff_toNat_le, UInt64.lt_iff_toNat_lt, toNat_endAddr]

theorem overlaps_iff : r.overlaps r' ↔ r.base < r'.endAddr ∧ r'.base < r.endAddr := by
  rw [overlaps, Bool.and_eq_true, decide_eq_true_iff, decide_eq_true_iff]

theorem overlaps_of_contains (h : r.contains addr) (h' : r'.contains addr) : r.overlaps r' := by
  rw [contains_iff] at h h'
  exact overlaps_iff.2
    ⟨UInt64.lt_of_le_of_lt h.1 h'.2, UInt64.lt_of_le_of_lt h'.1 h.2⟩

theorem overlaps_of_base_eq (h : r.base = r'.base) : r.overlaps r' :=
  overlaps_iff.2 ⟨h ▸ r'.base_lt_endAddr, h ▸ r.base_lt_endAddr⟩

end BusRange

variable {β : Type}

/-! ## The builder -/

def mapInsert (range : BusRange) (device : BusDevice β) :
    List (BusRange × BusDevice β) → List (BusRange × BusDevice β)
  | [] => [(range, device)]
  | (existing, other) :: rest =>
    if range.base < existing.base then (range, device) :: (existing, other) :: rest
    else if range.base = existing.base then (existing, device) :: rest
    else (existing, other) :: mapInsert range device rest

theorem mapInsert_eq_orderedInsert {range : BusRange} {device : BusDevice β} :
    ∀ {l : List (BusRange × BusDevice β)}, (∀ e ∈ l, e.1.base ≠ range.base) →
      mapInsert range device l = l.orderedInsert Bus.Before (range, device)
  | [], _ => rfl
  | (existing, other) :: rest, h => by
    have hne : range.base ≠ existing.base := (h _ List.mem_cons_self).symm
    have hlt : range.base < existing.base ↔ Bus.Before (range, device) (existing, other) :=
      UInt64.lt_iff_le_and_ne.trans (and_iff_left hne)
    rw [mapInsert, List.orderedInsert, if_neg hne,
      mapInsert_eq_orderedInsert fun e he => h e (List.mem_cons_of_mem _ he)]
    exact if_congr hlt rfl rfl

structure BusBuilder (β : Type) where
  devices : List (BusRange × BusDevice β)
  sorted : devices.Pairwise fun d e => d.1.base ≤ e.1.base
  disjoint : devices.Pairwise fun d e => ¬ d.1.overlaps e.1

namespace BusBuilder

variable (β) in
theorem sorted_nil : ([] : List (BusRange × BusDevice β)).Pairwise fun d e => d.1.base ≤ e.1.base :=
  .nil

variable (β) in
theorem disjoint_nil : ([] : List (BusRange × BusDevice β)).Pairwise fun d e => ¬ d.1.overlaps e.1 :=
  .nil

def new : BusBuilder β := ⟨[], sorted_nil β, disjoint_nil β⟩

theorem base_ne_of_find?_eq_none {l : List (BusRange × BusDevice β)} {range : BusRange}
    (h : (l.find? fun e => e.1.overlaps range) = none) : ∀ e ∈ l, e.1.base ≠ range.base :=
  fun e he hbase => List.find?_eq_none.1 h e he (BusRange.overlaps_of_base_eq hbase)

def insert (b : BusBuilder β) (device : BusDevice β) (base len : UInt64) :
    Except BusError Unit × BusBuilder β :=
  match BusRange.new base len with
  | .error e => (.error e, b)
  | .ok newRange =>
    match h : b.devices.find? fun e => e.1.overlaps newRange with
    | some existing => (.error (.overlap existing.1), b)
    | none => (.ok (), {
        devices := mapInsert newRange device b.devices
        sorted := by
          rw [mapInsert_eq_orderedInsert (base_ne_of_find?_eq_none h)]
          exact List.Pairwise.orderedInsert (newRange, device) b.devices b.sorted
        disjoint := by
          rw [mapInsert_eq_orderedInsert (base_ne_of_find?_eq_none h)]
          exact Bus.disjoint_orderedInsert b.disjoint (List.find?_eq_none.1 h) })

def build (b : BusBuilder β) : Bus β := ⟨b.devices, b.sorted, b.disjoint⟩

theorem insert_cases (b : BusBuilder β) (device : BusDevice β) (base len : UInt64) :
    (∃ e, b.insert device base len = (.error e, b)) ∨
      ∃ range b', BusRange.new base len = .ok range ∧ b.insert device base len = (.ok (), b') ∧
        (∀ e ∈ b.devices, ¬ e.1.overlaps range) ∧
        b'.devices = b.devices.orderedInsert Bus.Before (range, device) := by
  rw [insert]
  split
  · exact .inl ⟨_, rfl⟩
  · next range hrange =>
    split
    · exact .inl ⟨_, rfl⟩
    · next h =>
      exact .inr ⟨range, _, hrange, rfl, List.find?_eq_none.1 h,
        mapInsert_eq_orderedInsert (base_ne_of_find?_eq_none h)⟩

theorem insert_eq (b : BusBuilder β) (device : BusDevice β) (base len : UInt64) :
    b.build.insert device base len =
      (b.insert device base len).1.map fun _ => (b.insert device base len).2.build := by
  rw [Bus.insert, insert]
  cases BusRange.new base len with
  | error e => rfl
  | ok range =>
    dsimp only
    split
    · next existing h =>
      split
      · next existing' h' => cases h.symm.trans h'; rfl
      · next h' => cases h.symm.trans h'
    · next h =>
      split
      · next existing' h' => cases h.symm.trans h'
      · next h' =>
        simp only [Except.map, build, mapInsert_eq_orderedInsert (base_ne_of_find?_eq_none h')]

end BusBuilder

namespace Bus

variable {bus : Bus β} {addr : UInt64} {d e : BusRange × BusDevice β}

theorem eq_of_overlaps (hd : d ∈ bus.devices) (he : e ∈ bus.devices) (h : d.1.overlaps e.1) :
    d = e := by
  have : Std.Symm fun d e : BusRange × BusDevice β => ¬ d.1.overlaps e.1 :=
    ⟨fun d e h => by rwa [BusRange.overlaps_comm]⟩
  by_contra hne
  exact bus.disjoint.forall hd he hne h

theorem eq_getLast_of_contains
    (hlast : (bus.devices.filter fun e => e.1.base ≤ addr).getLast? = some d) (he : e ∈ bus.devices)
    (hcovers : e.1.contains addr) : d = e := by
  obtain ⟨hbase, hend⟩ := BusRange.contains_iff.1 hcovers
  obtain ⟨hd, hbelow⟩ : d ∈ bus.devices ∧ d.1.base ≤ addr := by
    simpa using List.mem_of_getLast? hlast
  have hle : e.1.base ≤ d.1.base := by
    have hsorted := bus.sorted.filter fun e => e.1.base ≤ addr
    have hmem : e ∈ bus.devices.filter fun e => e.1.base ≤ addr := by simpa using ⟨he, hbase⟩
    obtain ⟨before, heq⟩ := List.getLast?_eq_some_iff.1 hlast
    rw [heq] at hsorted hmem
    obtain hmem | hmem := List.mem_append.1 hmem
    · exact (List.pairwise_append.1 hsorted).2.2 e hmem d List.mem_cons_self
    · rw [List.mem_singleton.1 hmem]
      exact UInt64.le_refl _
  refine eq_of_overlaps hd he (BusRange.overlaps_iff.2 ⟨?_, ?_⟩)
  · exact UInt64.lt_of_le_of_lt hbelow hend
  · exact UInt64.lt_of_le_of_lt hle d.1.base_lt_endAddr

theorem resolve_eq_scan (bus : Bus β) (addr : UInt64) :
    bus.resolve addr = match bus.devices.find? fun e => e.1.contains addr with
      | some (range, dev) => .ok (addr - range.base, dev)
      | none => .error (.noDevice addr) := by
  rw [resolve]
  cases hscan : bus.devices.find? fun e => e.1.contains addr with
  | none =>
    cases hlast : (bus.devices.filter fun e => e.1.base ≤ addr).getLast? with
    | none => rfl
    | some d =>
      have hd : d ∈ bus.devices := List.mem_of_mem_filter (List.mem_of_getLast? hlast)
      exact if_neg (List.find?_eq_none.1 hscan d hd)
  | some e =>
    have hcovers : e.1.contains addr := by simpa using List.find?_some hscan
    have he : e ∈ bus.devices := List.mem_of_find?_eq_some hscan
    cases hlast : (bus.devices.filter fun e => e.1.base ≤ addr).getLast? with
    | none =>
      have hbase : e.1.base ≤ addr := (BusRange.contains_iff.1 hcovers).1
      have hmem : e ∈ bus.devices.filter fun e => e.1.base ≤ addr := by simpa using ⟨he, hbase⟩
      rw [List.getLast?_eq_none_iff.1 hlast] at hmem
      cases hmem
    | some d =>
      rw [eq_getLast_of_contains hlast he hcovers]
      exact if_pos hcovers

def readInto (bus : Bus β) (addr : UInt64) (data : List UInt8) (s : β) :
    Except BusError Unit × List UInt8 × β :=
  match bus.resolve addr with
  | .error e => (.error e, data, s)
  | .ok (offset, dev) => (.ok (), dev.read offset data s)

def writeFrom (bus : Bus β) (addr : UInt64) (data : List UInt8) (s : β) :
    Except BusError Unit × β :=
  match bus.resolve addr with
  | .error e => (.error e, s)
  | .ok (offset, dev) => (.ok (), dev.write offset data s)

theorem read_eq (data : List UInt8) (s : β) :
    bus.read addr data s = (bus.readInto addr data s).1.map fun _ => (bus.readInto addr data s).2 := by
  rw [read, readInto]
  cases bus.resolve addr <;> rfl

theorem write_eq (data : List UInt8) (s : β) :
    bus.write addr data s =
      (bus.writeFrom addr data s).1.map fun _ => (bus.writeFrom addr data s).2 := by
  rw [write, writeFrom]
  cases bus.resolve addr <;> rfl

end Bus

/-! ## Any sequence of calls -/

structure InsertCall (β : Type) where
  device : BusDevice β
  base : UInt64
  len : UInt64

namespace InsertCall

def Covers (c : InsertCall β) (addr : UInt64) : Prop :=
  c.base.toNat ≤ addr.toNat ∧ addr.toNat < c.base.toNat + c.len.toNat

instance (c : InsertCall β) (addr : UInt64) : Decidable (c.Covers addr) := instDecidableAnd

def ofEntry (e : BusRange × BusDevice β) : InsertCall β := ⟨e.2, e.1.base, e.1.len⟩

theorem covers_ofEntry {e : BusRange × BusDevice β} {addr : UInt64} :
    (ofEntry e).Covers addr ↔ e.1.contains addr :=
  BusRange.contains_iff_toNat.symm

theorem ofEntry_of_new {c : InsertCall β} {range : BusRange}
    (h : BusRange.new c.base c.len = .ok range) : ofEntry (range, c.device) = c := by
  rw [BusRange.new] at h
  split_ifs at h
  cases h
  rfl

end InsertCall

structure BusHistory (β : Type) where
  builder : BusBuilder β := .new
  accepted : List (InsertCall β) := []

namespace BusHistory

def call (h : BusHistory β) (c : InsertCall β) : BusHistory β :=
  let (result, builder) := h.builder.insert c.device c.base c.len
  { builder, accepted := if result.isOk then h.accepted ++ [c] else h.accepted }

def calls (cs : List (InsertCall β)) : BusHistory β := cs.foldl call {}

theorem perm_accepted (cs : List (InsertCall β)) :
    ((calls cs).builder.devices.map InsertCall.ofEntry).Perm (calls cs).accepted := by
  refine List.foldlRecOn
    (motive := fun h : BusHistory β =>
      (h.builder.devices.map InsertCall.ofEntry).Perm h.accepted)
    cs call .nil fun h hperm c _ => ?_
  obtain ⟨e, hcall⟩ | ⟨range, b', hnew, hcall, -, hdevices⟩ :=
    h.builder.insert_cases c.device c.base c.len
  · simpa [call, hcall, Except.isOk, Except.toBool] using hperm
  · have hentry : ((range, c.device) :: h.builder.devices).map InsertCall.ofEntry =
        c :: h.builder.devices.map .ofEntry := by
      rw [List.map_cons, InsertCall.ofEntry_of_new hnew]
    have hinsert := (List.perm_orderedInsert Bus.Before (range, c.device) h.builder.devices).map
      InsertCall.ofEntry
    rw [hentry] at hinsert
    simp only [call, hcall, hdevices, Except.isOk, Except.toBool, if_true]
    exact hinsert.trans ((hperm.cons c).trans (List.perm_append_singleton c h.accepted).symm)

variable {cs : List (InsertCall β)} {c : InsertCall β}

theorem exists_entry (hc : c ∈ (calls cs).accepted) :
    ∃ e ∈ (calls cs).builder.devices, InsertCall.ofEntry e = c :=
  List.mem_map.1 ((perm_accepted cs).mem_iff.2 hc)

theorem accepted_disjoint (cs : List (InsertCall β)) :
    (calls cs).accepted.Pairwise fun c d => ∀ addr, ¬ (c.Covers addr ∧ d.Covers addr) := by
  refine ((perm_accepted cs).pairwise_iff fun h addr hboth => h addr hboth.symm).1 ?_
  refine List.pairwise_map.2 ((calls cs).builder.disjoint.imp fun hapart addr hboth => hapart ?_)
  rw [InsertCall.covers_ofEntry, InsertCall.covers_ofEntry] at hboth
  exact BusRange.overlaps_of_contains hboth.1 hboth.2

variable {addr : UInt64}

theorem resolve_of_covers (hc : c ∈ (calls cs).accepted) (hcovers : c.Covers addr) :
    (calls cs).builder.build.resolve addr = .ok (addr - c.base, c.device) := by
  obtain ⟨e, he, rfl⟩ := exists_entry hc
  have hcontains : e.1.contains addr := InsertCall.covers_ofEntry.1 hcovers
  rw [Bus.resolve_eq_scan]
  cases hscan : (calls cs).builder.build.devices.find? fun e => e.1.contains addr with
  | none => exact absurd hcontains (List.find?_eq_none.1 hscan e he)
  | some d =>
    have hd : d.1.contains addr := by simpa using List.find?_some hscan
    rw [Bus.eq_of_overlaps (List.mem_of_find?_eq_some hscan) he
      (BusRange.overlaps_of_contains hd hcontains)]
    rfl

theorem resolve_of_not_covers (h : ∀ c ∈ (calls cs).accepted, ¬ c.Covers addr) :
    (calls cs).builder.build.resolve addr = .error (.noDevice addr) := by
  rw [Bus.resolve_eq_scan, List.find?_eq_none.2]
  intro e he hcontains
  exact h _ ((perm_accepted cs).mem_iff.1 (List.mem_map_of_mem he))
    (InsertCall.covers_ofEntry.2 hcontains)

/-- **The bus routes as a scan of the accepted calls does**; where the scan finds none, the access
fails and changes nothing. -/
theorem bus_routes (cs : List (InsertCall β)) :
    (∀ c ∈ (calls cs).accepted, 0 < c.len.toNat ∧ c.base.toNat + c.len.toNat < 2 ^ 64) ∧
      ((calls cs).accepted.Pairwise fun c d => ∀ addr, ¬ (c.Covers addr ∧ d.Covers addr)) ∧
      (∀ (device : BusDevice β) (base len : UInt64),
        ((calls cs).builder.insert device base len).1 ≠ .ok () →
          ((calls cs).builder.insert device base len).2 = (calls cs).builder) ∧
      ∀ (addr : UInt64) (data : List UInt8) (s : β),
        match (calls cs).accepted.find? fun c => c.Covers addr with
        | some c =>
          (calls cs).builder.build.readInto addr data s =
              (.ok (), c.device.read (addr - c.base) data s) ∧
            (calls cs).builder.build.writeFrom addr data s =
              (.ok (), c.device.write (addr - c.base) data s)
        | none =>
          (calls cs).builder.build.readInto addr data s = (.error (.noDevice addr), data, s) ∧
            (calls cs).builder.build.writeFrom addr data s = (.error (.noDevice addr), s) := by
  refine ⟨fun c hc => ?_, accepted_disjoint cs, fun device base len hrejected => ?_, ?_⟩
  · obtain ⟨e, -, rfl⟩ := exists_entry hc
    exact ⟨e.1.pos, e.1.fits⟩
  · obtain ⟨e, h⟩ | ⟨range, b', -, h, -⟩ := (calls cs).builder.insert_cases device base len
    · rw [h]
    · exact absurd (congrArg Prod.fst h) hrejected
  · intro addr data s
    rw [Bus.readInto, Bus.writeFrom]
    split
    · next c hscan =>
      have hcovers : c.Covers addr := by simpa using List.find?_some hscan
      rw [resolve_of_covers (List.mem_of_find?_eq_some hscan) hcovers]
      exact ⟨rfl, rfl⟩
    · next hscan =>
      rw [resolve_of_not_covers fun c hc => by simpa using List.find?_eq_none.1 hscan c hc]
      exact ⟨rfl, rfl⟩

end BusHistory

end Squib
