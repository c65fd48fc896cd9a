import Squib.Virtio.Contract

/-!
# Devices
-/

namespace Squib

open Checked

variable {δ σ η : Type}

inductive VirtioDeviceType where
  | net
  | block
  | console
  | rng
  | balloon
  | vsock
  | pmem
  | mem
  | bootTimer
  deriving DecidableEq, Repr

def VirtioDeviceType.constId : VirtioDeviceType → UInt32
  | .net => 1
  | .block => 2
  | .console => 3
  | .rng => 4
  | .balloon => 5
  | .vsock => 19
  | .pmem => 27
  | .mem => 24
  | .bootTimer => 0xFFFFFF00

inductive ActivateError where
  | backendUnavailable (msg : String)
  | incompatibleFeatures (msg : String)
  | other (msg : String)
  deriving DecidableEq, Repr

structure VirtioDevice (δ η : Type) where
  deviceType : VirtioDeviceType
  availFeatures : δ → UInt64
  ackedFeatures : δ → UInt64
  setAckedFeatures : UInt64 → δ → δ
  queues : δ → List Queue
  setQueues : List Queue → δ → δ
  readConfig : δ → World η → (offset : UInt64) → (len : ℕ) → Except Panic (List UInt8)
  writeConfig : UInt64 → List UInt8 → δ → δ
  activate : δ → Except ActivateError Unit × δ
  isActivated : δ → Bool
  processQueue : UInt16 → δ → World η → Except Panic (Bool × δ × World η)

structure DeviceModel (σ η : Type) where
  deviceType : VirtioDeviceType
  avail : UInt64
  queueMaxSizes : List UInt16
  own : σ
  activeState : ActiveState
  readConfig : σ → World η → (offset : UInt64) → (len : ℕ) → Except Panic (List UInt8)
  processQueue : (fuel : ℕ) → (queueIndex : UInt16) → Prog σ η

namespace DeviceModel

def new (dev : DeviceModel σ η) : Frontend σ where
  acked := 0
  queues := dev.queueMaxSizes.map Queue.new
  state := { mem := false, irq := false, activated := false }
  own := dev.own

def vtable (dev : DeviceModel σ η) (fuel : ℕ) : VirtioDevice (Frontend σ) η where
  deviceType := dev.deviceType
  availFeatures _ := dev.avail
  ackedFeatures fd := fd.acked
  setAckedFeatures value fd := { fd with acked := value }
  queues fd := fd.queues
  setQueues queues fd := { fd with queues }
  readConfig fd w offset len := dev.readConfig fd.own w offset len
  writeConfig _ _ fd := fd
  activate fd := (.ok (), { fd with state := dev.activeState })
  isActivated fd := fd.state.activated
  processQueue queueIndex fd w := dev.processQueue fuel queueIndex fd w

end DeviceModel

def ActiveState.full : ActiveState := { mem := true, irq := true, activated := true }

def configBytes (full : List UInt8) (offset : UInt64) (len : ℕ) : List UInt8 :=
  (List.range len).map fun i => full.getD (offset.toNat + i) 0

/-! ## Contracts for chains -/

def WriteOnlySpan (descs : List Descriptor) (a : ℕ) : Prop :=
  ∃ desc ∈ descs, desc.isWriteOnly = true ∧ GuestMemory.Span desc.addr desc.len.toNat a

instance (descs : List Descriptor) (a : ℕ) : Decidable (WriteOnlySpan descs a) := by
  unfold WriteOnlySpan; infer_instance

theorem WriteOnlySpan.mono {descs descs' : List Descriptor} (h : descs ⊆ descs') {a : ℕ}
    (ha : WriteOnlySpan descs a) : WriteOnlySpan descs' a := by
  obtain ⟨desc, hd, hw⟩ := ha
  exact ⟨desc, h hd, hw⟩

theorem touches_writeOnly {w w' : World η} {desc : Descriptor} {buf : List UInt8}
    (descs : List Descriptor) (h : w.write desc.addr buf = .ok w') (hd : desc ∈ descs)
    (hw : desc.isWriteOnly = true) (hl : buf.length ≤ desc.len.toNat) :
    w.Touches (WriteOnlySpan descs) w' :=
  (World.touches_write h).mono fun _ ha => ⟨desc, hd, hw, ha.1, by have := ha.2.1; omega, ha.2.2⟩

def Contract.ofChains (accepts : ℕ → GuestMemory → List Descriptor → Prop)
    (writes : ℕ → List Descriptor → ℕ → Prop) : Contract where
  Accepts i m r := ∃ descs, r = .ok descs ∧ accepts i m descs
  Writes i r a := ∃ descs, r = .ok descs ∧ writes i descs a

def Contract.buffers : Contract := .ofChains (fun _ _ _ => True) fun _ descs => WriteOnlySpan descs

theorem onChain_meets {qi : ℕ} {accepts : ℕ → GuestMemory → List Descriptor → Prop}
    {writes : ℕ → List Descriptor → ℕ → Prop}
    {h : List Descriptor → σ → World η → Except Panic (Action × σ × World η)}
    (hh : ∀ descs own w, Returns (h descs own w) fun x =>
      w.Touches (writes qi descs) x.2.2 ∧ (x.1.completes = true ↔ accepts qi w.mem descs)) :
    HandlerMeets (.ofChains accepts writes) qi (onChain h) := fun r own w => by
  cases r with
  | error e => exact returns_ok ⟨.refl _ _, by simp [Contract.ofChains, Action.completes]⟩
  | ok descs =>
    refine (hh descs own w).mono fun x ⟨ht, hx⟩ => ⟨ht.mono fun a ha => ⟨descs, rfl, ha⟩, ?_⟩
    simpa [Contract.ofChains] using hx

end Squib
