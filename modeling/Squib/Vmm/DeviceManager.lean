import Squib.Bus.Builder
import Squib.Fdt
import Squib.Loader

/-!
# The device manager
-/

namespace Squib.DeviceManager

open Checked Fdt Layout Loader

/-! ## Slots -/

def MMIO_SLOT_COUNT : UInt32 := 32
def VIRTIO_MMIO_REGION_SIZE : UInt64 := 0x1000

inductive SlotError where
  | exhausted
  | intId (e : IntIdError)
  deriving DecidableEq, Repr

structure Slot where
  index : UInt32
  base : UInt64
  intid : IntId

def Slot.fromIndex (index : UInt32) : Except SlotError Slot := do
  rejectIf (MMIO_SLOT_COUNT ≤ index) .exhausted
  let intid ← (IntId.fromSpiCell (16 + index)).mapError .intId
  return { index, base := VIRTIO_MMIO_BASE + index.toUInt64 * VIRTIO_MMIO_REGION_SIZE, intid }

/-! ## Devices -/

inductive Kind where
  | pl011
  | rng
  | block
  | net
  | console
  | vsock
  deriving DecidableEq, Repr

inductive DeviceError where
  | bus (e : BusError)
  | slotExhausted (e : SlotError)
  | backend (e : IoError)
  | invalidInput (msg : String)
  | intId (e : IntIdError)
  | entropy (msg : String)
  deriving DecidableEq

structure BlockConfigSpec where
  id : List UInt8
  path : Path
  readOnly : Bool

structure VsockSpec where
  vsockId : List UInt8
  guestCid : UInt64
  udsPath : List UInt8

structure DeviceBuildArgs where
  block : Option BlockConfigSpec
  net : Option (List UInt8)
  enableConsole : Bool
  vsock : Option VsockSpec

structure Backends where
  entropy : Except String Unit
  openFile : Path → Bool → Except IoError Unit

def MIN_GUEST_CID : UInt64 := 3

def newVsock (spec : VsockSpec) : Except DeviceError Unit :=
  rejectIf (spec.guestCid < MIN_GUEST_CID) (.invalidInput "guest_cid must be >= 3")

/-! ## The layout -/

variable {β : Type}

structure DeviceLayout (β : Type) where
  bus : Bus β
  virtioSlots : List VirtioSlot
  hasVsock : Bool

structure Builder (β : Type) where
  bus : Bus β
  next : UInt32 := 0
  slots : List VirtioSlot := []

section Build

variable (device : Kind → BusDevice β)

def Builder.add (kind : Kind) (construct : Except DeviceError Unit) (b : Builder β) :
    Except DeviceError (Builder β) := do
  let slot ← (Slot.fromIndex b.next).mapError .slotExhausted
  construct
  let bus ← (b.bus.insert (device kind) slot.base VIRTIO_MMIO_REGION_SIZE).mapError .bus
  return { bus, next := b.next + 1, slots := b.slots ++ [⟨slot.index⟩] }

def Builder.addBlock (backends : Backends) (spec : BlockConfigSpec) (b : Builder β) :
    Except DeviceError (Builder β) := do
  (backends.openFile spec.path spec.readOnly).mapError .backend
  b.add device .block (.ok ())

def Builder.addIf {α : Type} (spec : Option α)
    (add : α → Builder β → Except DeviceError (Builder β)) (b : Builder β) :
    Except DeviceError (Builder β) :=
  match spec with
  | some a => add a b
  | none => .ok b

def buildDeviceLayout (backends : Backends) (args : DeviceBuildArgs) :
    Except DeviceError (DeviceLayout β) := do
  let _ ← (IntId.fromSpiCell 1).mapError .intId
  let bus ← (Bus.empty.insert (device .pl011) PL011_BASE 0x1000).mapError .bus
  let b ← Builder.add device .rng (backends.entropy.mapError .entropy) { bus }
  let b ← b.addIf args.block (Builder.addBlock device backends)
  let b ← b.addIf args.net fun _ => Builder.add device .net (.ok ())
  let b ← b.addIf (if args.enableConsole then some () else none) fun _ =>
    Builder.add device .console (.ok ())
  let b ← b.addIf args.vsock fun spec => Builder.add device .vsock (newVsock spec)
  return { bus := b.bus, virtioSlots := b.slots, hasVsock := args.vsock.isSome }

end Build

/-! ## The slots of a layout -/

def DeviceBuildArgs.kinds (args : DeviceBuildArgs) : List Kind :=
  [.rng] ++ (args.block.map fun _ => .block).toList ++ (args.net.map fun _ => .net).toList ++
    ((if args.enableConsole then some () else none).map fun _ => .console).toList ++ (args.vsock.map fun _ => .vsock).toList

def Builder.Consecutive (b : Builder β) : Prop :=
  b.next ≤ MMIO_SLOT_COUNT ∧
    b.slots = (List.range b.next.toNat).map fun i => ⟨UInt32.ofNat i⟩

section Slots

variable (device : Kind → BusDevice β)

def Window (bus : Bus β) (d : VirtioSlot) (kind : Kind) : Prop :=
  ∃ e ∈ bus.devices, e.2 = device kind ∧ e.1.len = VIRTIO_MMIO_STRIDE ∧
    e.1.base = VIRTIO_MMIO_BASE + d.slot.toUInt64 * VIRTIO_MMIO_STRIDE

structure Builder.Mapped (kinds : List Kind) (b : Builder β) : Prop where
  consecutive : b.Consecutive
  windows : List.Forall₂ (Window device b.bus) b.slots kinds

variable {device} {b b' : Builder β} {kinds : List Kind}

theorem Window.resolve {bus : Bus β} {d : VirtioSlot} {kind : Kind} (h : Window device bus d kind)
    {off : UInt64} (hoff : off < VIRTIO_MMIO_STRIDE) :
    bus.resolve (VIRTIO_MMIO_BASE + d.slot.toUInt64 * VIRTIO_MMIO_STRIDE + off) =
      .ok (off, device kind) := by
  obtain ⟨e, he, hdevice, hlen, hbase⟩ := h
  rw [← hbase, ← hdevice]
  rw [← hlen, UInt64.lt_iff_toNat_lt] at hoff
  have hfits := e.1.fits
  have hcontains : e.1.contains (e.1.base + off) := by
    rw [BusRange.contains_iff_toNat, UInt64.toNat_add, Nat.mod_eq_of_lt (by omega)]
    omega
  rw [Bus.resolve_eq_scan]
  cases hscan : bus.devices.find? fun e' => e'.1.contains (e.1.base + off) with
  | none => exact absurd hcontains (List.find?_eq_none.1 hscan e he)
  | some e' =>
    have he' : e'.1.contains (e.1.base + off) := by simpa using List.find?_some hscan
    rw [Bus.eq_of_overlaps (List.mem_of_find?_eq_some hscan) he
      (BusRange.overlaps_of_contains he' hcontains), UInt64.add_comm]
    simp

theorem Builder.Mapped.add {kind : Kind} {construct : Except DeviceError Unit}
    (hb : b.Mapped device kinds) (h : b.add device kind construct = .ok b') :
    b'.Mapped device (kinds ++ [kind]) := by
  simp only [Builder.add, Slot.fromIndex, bind_eq_ok, mapError_eq_ok, rejectIf_eq_ok, pure_eq_ok]
    at h
  obtain ⟨slot, ⟨-, hlt, intid, -, rfl⟩, -, -, bus, hinsert, rfl⟩ := h
  rw [UInt32.not_le, UInt32.lt_iff_toNat_lt] at hlt
  have hnext : (b.next + 1).toNat = b.next.toNat + 1 := by
    have hcount : MMIO_SLOT_COUNT.toNat = 32 := rfl
    rw [UInt32.toNat_add, UInt32.toNat_one, Nat.mod_eq_of_lt (by omega)]
  refine ⟨⟨?_, ?_⟩, ?_⟩
  · rw [UInt32.le_iff_toNat_le, hnext]
    exact hlt
  · dsimp only
    rw [hnext, List.range_succ, List.map_append, hb.consecutive.2, List.map_singleton,
      UInt32.ofNat_toNat]
  · simp only [Bus.insert, BusRange.new] at hinsert
    split_ifs at hinsert
    dsimp only at hinsert
    split at hinsert
    · cases hinsert
    cases hinsert
    refine List.rel_append (hb.windows.imp fun d kind hd => ?_)
      (.cons ⟨_, (List.mem_orderedInsert _).2 (.inl rfl), rfl, rfl, rfl⟩ .nil)
    obtain ⟨e, he, hwindow⟩ := hd
    exact ⟨e, (List.mem_orderedInsert _).2 (.inr he), hwindow⟩

theorem Builder.Mapped.addIf {α : Type} {spec : Option α} {kind : Kind}
    {add : α → Builder β → Except DeviceError (Builder β)} (hb : b.Mapped device kinds)
    (hadd : ∀ a, add a b = .ok b' → b'.Mapped device (kinds ++ [kind]))
    (h : b.addIf spec add = .ok b') :
    b'.Mapped device (kinds ++ (spec.map fun _ => kind).toList) := by
  cases spec with
  | none =>
    cases h
    simpa using hb
  | some a => exact hadd a h

variable {backends : Backends} {args : DeviceBuildArgs} {layout : DeviceLayout β}

theorem mapped_of_build (h : buildDeviceLayout device backends args = .ok layout) :
    ∃ b : Builder β, b.Mapped device args.kinds ∧ layout.bus = b.bus ∧
      layout.virtioSlots = b.slots := by
  simp only [buildDeviceLayout, bind_eq_ok, pure_eq_ok] at h
  obtain ⟨-, -, bus, -, b₁, h₁, b₂, h₂, b₃, h₃, b₄, h₄, b₅, h₅, rfl⟩ := h
  have hempty : Builder.Mapped device [] { bus := bus } :=
    ⟨⟨(by decide : (0 : UInt32) ≤ MMIO_SLOT_COUNT), rfl⟩, .nil⟩
  have hrng := hempty.add h₁
  have hblock := hrng.addIf (fun spec hspec => by
    simp only [Builder.addBlock, bind_eq_ok] at hspec
    obtain ⟨-, -, hspec⟩ := hspec
    exact hrng.add hspec) h₂
  have hnet := hblock.addIf (fun _ => hblock.add) h₃
  have hconsole := hnet.addIf (fun _ => hnet.add) h₄
  have hvsock := hconsole.addIf (fun _ => hconsole.add) h₅
  exact ⟨b₅, hvsock, rfl, rfl⟩

/-- **The windows of the device tree are those of the configured devices**, in order, and the slots
pass the check of the FDT builder. -/
theorem layout_mapped (requested : ℕ) (h : buildDeviceLayout device backends args = .ok layout) :
    checkSlots requested [] layout.virtioSlots = .ok () ∧
      List.Forall₂ (fun d kind => ∀ off < VIRTIO_MMIO_STRIDE,
        layout.bus.resolve (VIRTIO_MMIO_BASE + d.slot.toUInt64 * VIRTIO_MMIO_STRIDE + off) =
          .ok (off, device kind)) layout.virtioSlots args.kinds := by
  obtain ⟨b, ⟨⟨hnext, hconsecutive⟩, hwindows⟩, hbus, hslots⟩ := mapped_of_build h
  rw [hbus, hslots]
  refine ⟨?_, hwindows.imp fun d kind hwindow off => hwindow.resolve⟩
  rw [UInt32.le_iff_toNat_le] at hnext
  have hcount : MMIO_SLOT_COUNT.toNat = 32 := rfl
  have htoNat : ∀ i < b.next.toNat, (UInt32.ofNat i).toNat = i := fun i hi =>
    Nat.mod_eq_of_lt (by omega)
  rw [checkSlots_eq_ok, hconsecutive]
  refine ⟨?_, ?_⟩
  · intro d hd
    obtain ⟨i, hi, rfl⟩ := List.mem_map.1 hd
    rw [List.mem_range] at hi
    refine ⟨?_, List.not_mem_nil⟩
    rw [UInt32.lt_iff_toNat_lt, htoNat i hi]
    exact hi.trans_le hnext
  · rw [List.map_map]
    refine List.Nodup.map_on ?_ List.nodup_range
    intro i hi j hj hij
    rw [List.mem_range] at hi hj
    rw [← htoNat i hi, ← htoNat j hj]
    exact congrArg UInt32.toNat hij

end Slots

theorem layout_mapped_console : ∃ layout : DeviceLayout Unit, layout.virtioSlots.length = 2 := by
  have hbuild : Returns (buildDeviceLayout
      (fun _ => ⟨fun _ data s => (data, s), fun _ _ s => s, fun _ _ _ => rfl⟩ : Kind → BusDevice Unit)
      ⟨.ok (), fun _ _ => .ok ()⟩ ⟨none, none, true, none⟩) fun _ => True := by decide +kernel
  obtain ⟨layout, h, -⟩ := hbuild
  exact ⟨layout, (layout_mapped 2 h).2.length_eq⟩

end Squib.DeviceManager
