import Squib.Lib.Loop
import Squib.Virtio.World

/-!
# Draining a virtqueue
-/

namespace Squib

open Checked Loop

variable {σ η ι : Type}

structure ActiveState where
  mem : Bool
  irq : Bool
  activated : Bool
  deriving DecidableEq, Repr

structure Frontend (σ : Type) where
  acked : UInt64
  queues : List Queue
  state : ActiveState
  own : σ

abbrev Prog (σ η : Type) := Frontend σ → World η → Except Panic (Bool × Frontend σ × World η)

def Prog.skip : Prog σ η := fun fd w => .ok (true, fd, w)

def Prog.andThen (p p' : Prog σ η) : Prog σ η := fun fd w =>
  match p fd w with
  | .error e => .error e
  | .ok (true, fd, w) => p' fd w
  | .ok (false, fd, w) => .ok (false, fd, w)

inductive Action where
  | abandon
  | skip
  | complete (bytesWritten : UInt32)
  | completeAnyway (bytesWritten : UInt32)
  deriving DecidableEq, Repr

def Action.completes : Action → Bool
  | .abandon => false
  | .skip => false
  | .complete _ => true
  | .completeAnyway _ => true

abbrev Handler (σ η : Type) :=
  Except QueueError (List Descriptor) → σ → World η → Except Panic (Action × σ × World η)

def onChain (h : List Descriptor → σ → World η → Except Panic (Action × σ × World η)) :
    Handler σ η := fun r own w =>
  match r with
  | .error _ => .ok (.abandon, own, w)
  | .ok descs => h descs own w

structure Drain (σ η : Type) where
  queue : Queue
  own : σ
  world : World η
  completed : Bool

def Drain.push (d : Drain σ η) (qi : ℕ) (head : UInt16) (written : UInt32) :
    Bool × Drain σ η :=
  match d.queue.pushUsed d.world.mem head written with
  | (.ok (), q, m) =>
    (true, { d with queue := q, world := { d.world with mem := m }.emit (.pushed qi head written) })
  | (.error _, q, m) =>
    (false, { d with queue := q, world := { d.world with mem := m }.emit (.pushFailed qi head) })

def Drain.settle (d : Drain σ η) (qi : ℕ) (head : UInt16) : Action → Ctl (Drain σ η)
  | .abandon => .brk d
  | .skip => .next d
  | .complete written =>
    match d.push qi head written with
    | (true, d) => .next { d with completed := true }
    | (false, d) => .brk d
  | .completeAnyway written => .next { (d.push qi head written).2 with completed := true }

def serve (qi : ℕ) (h : Handler σ η) (onEmpty : σ → σ) (d : Drain σ η) :
    Except Panic (Ctl (Drain σ η)) :=
  match d.queue.popAvail d.world.mem with
  | (.error _, q) => .ok (.brk { d with queue := q })
  | (.ok none, q) => .ok (.brk { d with queue := q, own := onEmpty d.own })
  | (.ok (some chain), q) =>
    let w := d.world.emit (.popped qi d.queue d.world.mem chain)
    match h (chain.collect w.mem) d.own w with
    | .error e => .error e
    | .ok (action, own, w) =>
      .ok (Drain.settle { d with queue := q, own, world := w } qi chain.headIndex action)

def Drain.finish (d : Drain σ η) (qi : ℕ) (fd : Frontend σ) : Frontend σ × World η :=
  ({ fd with queues := fd.queues.set qi d.queue, own := d.own },
    if d.completed then d.world.triggerQueue else d.world)

def Drain.suspend (d : Drain σ η) (qi : ℕ) (fd : Frontend σ) : Frontend σ × World η :=
  ({ fd with queues := fd.queues.set qi d.queue, own := d.own }, d.world)

def drain (fuel qi : ℕ) (h : Handler σ η) : Prog σ η := fun fd w =>
  if fd.state.mem && fd.state.irq then
    match index fd.queues qi with
    | .error e => .error e
    | .ok queue =>
      match loop (serve qi h id) fuel { queue, own := fd.own, world := w, completed := false } with
      | .error e => .error e
      | .ok (true, d) => .ok (true, d.finish qi fd)
      | .ok (false, d) => .ok (false, d.suspend qi fd)
  else .ok (true, fd, w)

def deliver (qi : ℕ) (fetch : σ → World η → List ι × σ × World η) (h : ι → Handler σ η)
    (requeue : ι → σ → σ) : Prog σ η := fun fd w =>
  if fd.state.mem && fd.state.irq then
    match fetch fd.own w with
    | ([], own, w) => .ok (true, { fd with own }, w)
    | (items, own, w) =>
      match index fd.queues qi with
      | .error e => .error e
      | .ok queue =>
        match forLoop (fun item => serve qi (h item) (requeue item)) items
          { queue, own, world := w, completed := false } with
        | .error e => .error e
        | .ok d => .ok (true, d.finish qi fd)
  else .ok (true, fd, w)

theorem drain_eq_error {fuel : ℕ} {h : Handler σ η} {fd : Frontend σ} (qi : ℕ) (w : World η)
    (hs : (fd.state.mem && fd.state.irq) = true) (hq : fd.queues.length ≤ qi) :
    drain fuel qi h fd w = .error .indexOutOfRange := by
  rw [drain, if_pos hs, index_eq_error hq]

/-! ## Fuel -/

def FuelMono (p : ℕ → Prog σ η) : Prop :=
  ∀ ⦃n m fd w r⦄, n ≤ m → p n fd w = .ok (true, r) → p m fd w = .ok (true, r)

theorem fuelMono_const (p : Prog σ η) : FuelMono fun _ => p := fun _ _ _ _ _ _ h => h

theorem FuelMono.andThen {p p' : ℕ → Prog σ η} (hp : FuelMono p) (hp' : FuelMono p') :
    FuelMono fun n => (p n).andThen (p' n) := by
  intro n m fd w r hnm h
  dsimp only [Prog.andThen] at h ⊢
  split at h
  · cases h
  · next h₁ =>
    rw [hp hnm h₁]
    exact hp' hnm h
  · cases h

theorem fuelMono_drain (qi : ℕ) (h : Handler σ η) : FuelMono fun n => drain n qi h := by
  intro n m fd w r hnm hr
  dsimp only [drain] at hr ⊢
  split_ifs at hr ⊢
  · split at hr
    · cases hr
    · split at hr
      · cases hr
      · next hl =>
        cases hr
        simp only [loop_mono hnm hl]
      · cases hr
  · exact hr

end Squib
