import Squib.Virtio.Devices.Net

/-!
# The vmnet backend
-/

namespace Squib.NetDevice

def txBatchDepth : ℕ := 32
def ifaceBatch : ℕ := 32

def chunks {α : Type} (n : ℕ) : ℕ → List α → List (List α)
  | _, [] => []
  | 0, xs => [xs]
  | fuel + 1, xs => xs.take n :: chunks n fuel (xs.drop n)

structure VmnetHostBackend where
  txQueue : List Frame := []
  writes : List (List Frame × Option ℕ) := []
  deriving DecidableEq

inductive HostCall where
  | send (frame : Frame) (iface : ℕ → Option ℕ)
  | recv (iface : ℕ → Option ℕ)

def HostCall.frame : HostCall → Option Frame
  | .send frame _ => some frame
  | .recv _ => none

namespace VmnetHostBackend

def writeAll (iface : ℕ → Option ℕ) : ℕ → List (List Frame) → List (List Frame × Option ℕ)
  | _, [] => []
  | i, chunk :: rest =>
    match iface i with
    | none => [(chunk, none)]
    | some n => (chunk, some n) :: writeAll iface (i + 1) rest

variable (b : VmnetHostBackend)

def flushTx (iface : ℕ → Option ℕ) : VmnetHostBackend where
  txQueue := []
  writes := b.writes ++ writeAll iface 0 (chunks ifaceBatch b.txQueue.length b.txQueue)

def send (frame : Frame) (iface : ℕ → Option ℕ) : VmnetHostBackend :=
  let b := { b with txQueue := b.txQueue ++ [frame] }
  if b.txQueue.length < txBatchDepth then b else b.flushTx iface

def call : HostCall → VmnetHostBackend
  | .send frame iface => b.send frame iface
  | .recv iface => b.flushTx iface

def accepted : List Frame := b.writes.flatMap fun w => w.1.take (w.2.getD 0)

def AllOk : Prop := ∀ w ∈ b.writes, w.2.isSome

instance : Decidable b.AllOk := inferInstanceAs (Decidable (∀ w ∈ b.writes, w.2.isSome))

variable {b} {iface : ℕ → Option ℕ}

theorem flatten_chunks {α : Type} (n fuel : ℕ) (xs : List α) : (chunks n fuel xs).flatten = xs := by
  induction fuel generalizing xs with
  | zero => cases xs <;> simp [chunks]
  | succ fuel ih =>
    cases xs with
    | nil => rfl
    | cons x xs => rw [chunks, List.flatten_cons, ih, List.take_append_drop]; nofun

theorem flatMap_writeAll {cs : List (List Frame)} {i : ℕ}
    (h : ∀ w ∈ writeAll iface i cs, w.2.isSome) : (writeAll iface i cs).flatMap Prod.fst = cs.flatten := by
  induction cs generalizing i with
  | nil => rfl
  | cons c cs ih =>
    unfold writeAll at h ⊢
    cases hi : iface i with
    | none => simp [hi] at h
    | some n =>
      rw [hi] at h
      rw [List.flatMap_cons, List.flatten_cons, ih fun w hw => h w (List.mem_cons_of_mem _ hw)]

def handled (b : VmnetHostBackend) : List Frame := b.writes.flatMap Prod.fst ++ b.txQueue

theorem handled_flushTx (h : (b.flushTx iface).AllOk) :
    (b.flushTx iface).handled = b.handled ∧ b.AllOk := by
  have hnew := flatMap_writeAll fun w hw => h w (List.mem_append_right _ hw)
  refine ⟨?_, fun w hw => h w (List.mem_append_left _ hw)⟩
  rw [handled, flushTx, List.flatMap_append, hnew, flatten_chunks, List.append_nil]
  rfl

theorem handled_call {c : HostCall} (h : (b.call c).AllOk) :
    (b.call c).handled = b.handled ++ c.frame.toList ∧ b.AllOk := by
  cases c with
  | recv iface =>
    rw [HostCall.frame, Option.toList_none, List.append_nil]
    exact handled_flushTx h
  | send frame iface =>
    have hqueue : handled { b with txQueue := b.txQueue ++ [frame] } = b.handled ++ [frame] :=
      (List.append_assoc ..).symm
    unfold call send at h ⊢
    dsimp only at h ⊢
    split_ifs at h ⊢ with hlt
    · exact ⟨hqueue, h⟩
    · obtain ⟨hhandled, hok⟩ := handled_flushTx h
      exact ⟨hhandled.trans hqueue, hok⟩

def after (calls : List HostCall) (b : VmnetHostBackend) : VmnetHostBackend := calls.foldl call b

theorem handled_after {calls : List HostCall} (h : (after calls b).AllOk) :
    (after calls b).handled = b.handled ++ calls.filterMap HostCall.frame ∧ b.AllOk := by
  induction calls generalizing b with
  | nil => exact ⟨(List.append_nil _).symm, h⟩
  | cons c calls ih =>
    obtain ⟨hrest, hok⟩ := ih h
    obtain ⟨hcall, hok⟩ := handled_call hok
    refine ⟨hrest.trans ?_, hok⟩
    rw [hcall, List.append_assoc]
    cases c <;> rfl

/-! ## Batches that are cut -/

theorem length_flatMap_take_le (ws : List (List Frame × Option ℕ)) :
    (ws.flatMap fun w => w.1.take (w.2.getD 0)).length ≤ (ws.flatMap Prod.fst).length := by
  induction ws with
  | nil => rfl
  | cons w ws ih =>
    simp only [List.flatMap_cons, List.length_append, List.length_take]
    omega

theorem flatMap_take_eq_iff (ws : List (List Frame × Option ℕ)) :
    (ws.flatMap fun w => w.1.take (w.2.getD 0)) = ws.flatMap Prod.fst ↔
      ∀ w ∈ ws, w.1.length ≤ w.2.getD 0 := by
  induction ws with
  | nil => simp
  | cons w ws ih =>
    rw [List.flatMap_cons, List.flatMap_cons, List.forall_mem_cons, ← ih]
    constructor
    · intro h
      have hlen := congrArg List.length h
      have hle := length_flatMap_take_le ws
      simp only [List.length_append, List.length_take] at hlen
      have hw : w.1.length ≤ w.2.getD 0 := by omega
      rw [List.take_of_length_le hw] at h
      exact ⟨hw, List.append_cancel_left h⟩
    · rintro ⟨hw, h⟩
      rw [List.take_of_length_le hw, h]

/-- **What vmnet has accepted** when `recv` returns. -/
theorem accepted_iff (calls : List HostCall) (iface : ℕ → Option ℕ)
    (hok : ((after calls {}).call (.recv iface)).AllOk) :
    ((after calls {}).call (.recv iface)).accepted = calls.filterMap HostCall.frame ↔
      ∀ w ∈ ((after calls {}).call (.recv iface)).writes, w.1.length ≤ w.2.getD 0 := by
  obtain ⟨hcall, hok'⟩ := handled_call hok
  have hsent : ((after calls {}).call (.recv iface)).writes.flatMap Prod.fst =
      calls.filterMap HostCall.frame := by
    rw [← List.append_nil (List.flatMap _ _)]
    exact hcall.trans ((List.append_nil _).trans (handled_after hok').1)
  rw [← hsent]
  exact flatMap_take_eq_iff _

def oneFrame : List HostCall := [.send [7] fun _ => none]

theorem accepted_oneFrame :
    ((after oneFrame {}).call (.recv fun _ => some 1)).AllOk ∧
      ((after oneFrame {}).call (.recv fun _ => some 1)).accepted = [[7]] :=
  ⟨by decide, (accepted_iff oneFrame (fun _ => some 1) (by decide)).2 (by decide)⟩

/-- Vmnet accepts the first of two frames, and the second one is gone. -/
theorem second_frame_lost :
    let b := after (oneFrame ++ [.send [8] fun _ => none, .recv fun _ => some 1]) {}
    b.AllOk ∧ b.txQueue = [] ∧ b.accepted = [[7]] := by
  decide

end VmnetHostBackend

end Squib.NetDevice
