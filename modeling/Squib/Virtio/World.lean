import Squib.Virtio.Queue

/-!
# The world of a device
-/

namespace Squib

structure IrqLine where
  intid : UInt32
  status : UInt32
  deriving DecidableEq, Repr

def intVring : UInt32 := 0x01

inductive Event where
  | popped (queueIndex : ℕ) (queue : Queue) (mem : GuestMemory) (chain : DescriptorChain)
  | pushed (queueIndex : ℕ) (headIndex : UInt16) (bytesWritten : UInt32)
  | pushFailed (queueIndex : ℕ) (headIndex : UInt16)
  | pulsed (intid : UInt32)

namespace Event

def poppedHead (i : ℕ) : Event → Option UInt16
  | popped j _ _ c => if j = i then some c.headIndex else none
  | _ => none

def pushedHead (i : ℕ) : Event → Option UInt16
  | pushed j head _ => if j = i then some head else none
  | _ => none

end Event

def poppedHeads (i : ℕ) (log : List Event) : List UInt16 := log.filterMap (Event.poppedHead i)

def pushedHeads (i : ℕ) (log : List Event) : List UInt16 := log.filterMap (Event.pushedHead i)

structure World (η : Type) where
  mem : GuestMemory
  irq : IrqLine
  host : η
  log : List Event

namespace World

variable {η : Type}

def emit (w : World η) (e : Event) : World η := { w with log := w.log ++ [e] }

def write (w : World η) (addr : GuestAddress) (buf : List UInt8) : Except Error (World η) :=
  (w.mem.write addr buf).map fun m => { w with mem := m }

def triggerQueue (w : World η) : World η :=
  emit { w with irq := { w.irq with status := w.irq.status ||| intVring } } (.pulsed w.irq.intid)

def ack (w : World η) (mask : UInt32) : World η :=
  { w with irq := { w.irq with status := w.irq.status &&& ~~~mask } }

structure Touches (A : ℕ → Prop) (w w' : World η) : Prop where
  mem : GuestMemory.SameOutside A w.mem w'.mem
  irq : w'.irq = w.irq
  log : w'.log = w.log

variable {A B : ℕ → Prop} {w w' w'' : World η}

theorem Touches.refl (A : ℕ → Prop) (w : World η) : Touches A w w := ⟨.refl A _, rfl, rfl⟩

theorem Touches.trans (h : Touches A w w') (h' : Touches A w' w'') : Touches A w w'' :=
  ⟨h.mem.trans h'.mem, h'.irq.trans h.irq, h'.log.trans h.log⟩

theorem Touches.mono (h : Touches A w w') (hAB : ∀ a, A a → B a) : Touches B w w' :=
  ⟨h.mem.mono hAB, h.irq, h.log⟩

variable {addr : GuestAddress} {buf : List UInt8}

theorem touches_write (h : w.write addr buf = .ok w') :
    Touches (GuestMemory.Span addr buf.length) w w' := by
  unfold write at h
  cases hm : w.mem.write addr buf with
  | error e => rw [hm] at h; cases h
  | ok m =>
    rw [hm] at h
    cases h
    exact ⟨GuestMemory.sameOutside_write hm, rfl, rfl⟩

theorem host_of_write (h : w.write addr buf = .ok w') : w'.host = w.host := by
  rw [write] at h
  cases hm : w.mem.write addr buf with
  | error e => rw [hm] at h; cases h
  | ok m => rw [hm] at h; cases h; rfl

theorem isOk_write (w : World η) (addr : GuestAddress) (buf : List UInt8) :
    (w.write addr buf).isOk = w.mem.contains addr buf.length := by
  rw [write, GuestMemory.write]
  split_ifs with h
  · exact h.symm
  · exact (Bool.not_eq_true _ ▸ h).symm

theorem touches_host (w : World η) (A : ℕ → Prop) (host : η) : Touches A w { w with host } :=
  ⟨.refl A _, rfl, rfl⟩

end World

end Squib
