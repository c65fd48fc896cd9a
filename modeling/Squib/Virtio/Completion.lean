import Squib.Virtio.System

/-!
# Completion of popped chains
-/

namespace Squib

variable {K : Contract} {η : Type} {l : List Event}

theorem Served.length_pushed_le (h : Served K l) (i : ℕ) :
    (pushedHeads i l).length ≤ (poppedHeads i l).length := by
  induction h with
  | nil => exact le_refl _
  | pushed _ _ _ ih =>
    simpa [Event.pushedHead, Event.poppedHead] using ih
  | pushFailed _ _ _ ih | dropped _ _ _ ih =>
    simpa [Event.pushedHead, Event.poppedHead] using le_add_left ih
  | pulsed _ ih => simpa [Event.pushedHead, Event.poppedHead] using ih

theorem Served.popped_eq_pushed_iff (h : Served K l) (hf : ∀ e ∈ l, ¬ e.IsPushFailure) :
    (∀ i, poppedHeads i l = pushedHeads i l) ↔ ∀ e ∈ l, e.Accepted K := by
  induction h with
  | nil => simp [poppedHeads, pushedHeads]
  | @pushed i q m c n l hpop hacc hl ih =>
    have hf' := ih fun e he => hf e (by simp [he])
    simp only [pushedHeads_cons, poppedHeads_cons, Event.pushedHead, Event.poppedHead,
      List.forall_mem_cons, Event.Accepted, hacc, true_and, Option.toList_none, List.nil_append,
      List.append_cancel_left_eq]
    exact hf'
  | @pushFailed i q m c l hpop hacc hl ih =>
    have hfail : ¬ (Event.pushFailed i c.headIndex).IsPushFailure := hf _ (by simp)
    exact absurd trivial hfail
  | @dropped i q m c l hpop hacc hl ih =>
    refine iff_of_false (fun heq => ?_) fun hall => hacc (hall (.popped i q m c) (by simp))
    have h1 := congrArg List.length (heq i)
    have h2 := hl.length_pushed_le i
    simp [Event.pushedHead, Event.poppedHead] at h1
    omega
  | @pulsed n l hl ih =>
    have hf' := ih fun e he => hf e (by simp [he])
    simpa [Event.pushedHead, Event.poppedHead, Event.Accepted] using hf'

/-- **When every popped chain is completed.** Where no push fails, each step pushes the heads it
pops, in order, if and only if every popped chain is one that the device accepts. -/
theorem completion_iff (k : DeviceKind η) (fuel : ℕ) (w : World η) (ops : List (Op η))
    (hpush : ∀ new ∈ traces (k.vtable fuel) ops (.fresh k.new w), ∀ e ∈ new, ¬ e.IsPushFailure) :
    (∀ new ∈ traces (k.vtable fuel) ops (.fresh k.new w),
        ∀ i, poppedHeads i new = pushedHeads i new) ↔
      ∀ new ∈ traces (k.vtable fuel) ops (.fresh k.new w), ∀ e ∈ new, e.Accepted k.contract :=
  forall₂_congr fun new hnew =>
    (served_of_mem_traces hnew).popped_eq_pushed_iff (hpush new hnew)

section Scenario

def quietNet : DeviceKind Unit :=
  .net { guestMac := none, mtu := none }
    { send := fun _ host => host, recv := fun host => ([], host) }
    { interceptTx := fun _ host => (false, host), drainRx := fun host => ([], host) }

def sendFrame : List (Op Unit) := driverInit 1 4 0x1000 0x1040 0x1050 ++ [.writeReg 0x50 1]

def frameWorld (len : UInt32) : World Unit :=
  .start (ringMemory [{ addr := 0x1080, len, flags := 0, next := 0 }] 1) ()

theorem completion_thirteen_bytes :
    (∀ new ∈ traces (quietNet.vtable 2) sendFrame (.fresh quietNet.new (frameWorld 13)),
      ∀ e ∈ new, ¬ e.IsPushFailure) ∧
    ((∀ new ∈ traces (quietNet.vtable 2) sendFrame (.fresh quietNet.new (frameWorld 13)),
        ∀ i, poppedHeads i new = pushedHeads i new) ↔
      ∀ new ∈ traces (quietNet.vtable 2) sendFrame (.fresh quietNet.new (frameWorld 13)),
        ∀ e ∈ new, e.Accepted quietNet.contract) :=
  ⟨by decide +kernel, completion_iff quietNet 2 (frameWorld 13) sendFrame (by decide +kernel)⟩

/-- **A frame that is no longer than its header is popped and never given back.** -/
theorem short_frame_not_completed :
    (∀ new ∈ traces (quietNet.vtable 2) sendFrame (.fresh quietNet.new (frameWorld 12)),
      ∀ e ∈ new, ¬ e.IsPushFailure) ∧
    ∃ new ∈ traces (quietNet.vtable 2) sendFrame (.fresh quietNet.new (frameWorld 12)),
      poppedHeads 1 new = [0] ∧ pushedHeads 1 new = [] := by
  decide +kernel

end Scenario

end Squib
