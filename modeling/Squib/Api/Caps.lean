import Mathlib.Data.Finset.Card
import Squib.Api.Requests

/-!
# The caps on devices
-/

namespace Squib.Api

open Checked Run VmmLoop

variable {β : Type}

/-! ## Calls that passed the check -/

namespace Call

def passed (k : DeviceClass) (c : Call) : Bool :=
  c.action.putsClass k && match c.stage with
    | .phaseChecked | .refused _ => false
    | _ => true

def unsent (k : DeviceClass) (c : Call) : Bool :=
  c.action.putsClass k && match c.stage with
    | .admitted => true
    | _ => false

end Call

def Handled.adds (k : DeviceClass) (e : Handled) : Bool :=
  e.action.putsClass k && e.response.isSuccess

namespace Sys

def admitted (s : Sys β) (k : DeviceClass) : ℕ := s.calls.countP (Call.passed k)

def unsent (s : Sys β) (k : DeviceClass) : ℕ := s.calls.countP (Call.unsent k)

def queued (s : Sys β) (k : DeviceClass) : ℕ := s.pending.countP (ApiAction.putsClass k)

def accepted (s : Sys β) (k : DeviceClass) : ℕ := s.handled.countP (Handled.adds k)

end Sys

def Spare (k : DeviceClass) (s : Sys β) : Event β → Prop
  | .limits i => ∀ c ∈ s.calls[i]?, c.action.putsClass k = true → s.admitted k < k.cap
  | _ => True

instance decidableSpare (k : DeviceClass) (s : Sys β) : (e : Event β) → Decidable (Spare k s e)
  | .limits i => inferInstanceAs (Decidable
      (∀ c ∈ s.calls[i]?, c.action.putsClass k = true → s.admitted k < k.cap))
  | .call _ | .enqueue _ | .timeout _ | .receive | .serve _ | .finish _ => .isTrue trivial

/-! ## Where the admitted actions are -/

section Count

theorem countP_set_add {α : Type} (p : α → Bool) {x y : α} :
    ∀ {l : List α} {i : ℕ}, l[i]? = some x →
      (l.set i y).countP p + (p x).toNat = l.countP p + (p y).toNat
  | [], _, h => by simp at h
  | z :: l, 0, h => by
    cases h
    cases hx : p x <;> cases hy : p y <;> simp [hx, hy]
  | z :: l, i + 1, h => by
    have := countP_set_add p (l := l) (y := y) h
    cases hz : p z <;> simp [hz] <;> omega

variable {s s' : Sys β} {e : Event β} {k : DeviceClass} {capacity : ℕ} {i : ℕ} {a : ApiAction}
  {st : Stage}

theorem unsent_setCall (h : s.calls[i]? = some ⟨a, st⟩) (st' : Stage) :
    (s.setCall i a st').unsent k + (Call.unsent k ⟨a, st⟩).toNat =
      s.unsent k + (Call.unsent k ⟨a, st'⟩).toNat :=
  countP_set_add _ h

theorem admitted_setCall (h : s.calls[i]? = some ⟨a, st⟩) (st' : Stage) :
    (s.setCall i a st').admitted k + (Call.passed k ⟨a, st⟩).toNat =
      s.admitted k + (Call.passed k ⟨a, st'⟩).toNat :=
  countP_set_add _ h

theorem countP_answer {p : Call → Bool} (hp : ∀ a resp, p ⟨a, .waiting⟩ = p ⟨a, .answered resp⟩)
    (calls : List Call) (i : ℕ) (resp : ApiResponse) :
    (Sys.answer calls i resp).countP p = calls.countP p := by
  unfold Sys.answer
  split
  · rename_i a h
    have := countP_set_add p (y := (⟨a, .answered resp⟩ : Call)) h
    rw [hp a resp] at this
    omega
  · rfl

structure Bounded (k : DeviceClass) (s : Sys β) : Prop where
  placed : s.accepted k + s.queued k + s.unsent k ≤ s.admitted k
  cap : s.admitted k ≤ k.cap

theorem bounded_initial (limits : LimitsState) (k : DeviceClass) :
    Bounded k (Sys.initial limits : Sys β) := ⟨Nat.le_refl 0, Nat.zero_le _⟩

theorem Bounded.call (hs : Bounded k s)
    (hst : Call.passed k ⟨a, st⟩ = false ∧ Call.unsent k ⟨a, st⟩ = false) :
    Bounded k { s with calls := s.calls ++ [⟨a, st⟩] } := by
  have hadmitted : ({ s with calls := s.calls ++ [⟨a, st⟩] } : Sys β).admitted k = s.admitted k := by
    simp [Sys.admitted, hst.1]
  have hunsent : ({ s with calls := s.calls ++ [⟨a, st⟩] } : Sys β).unsent k = s.unsent k := by
    simp [Sys.unsent, hst.2]
  exact ⟨by rw [hadmitted, hunsent]; exact hs.placed, by rw [hadmitted]; exact hs.cap⟩

theorem Bounded.limits (hs : Bounded k s) (hcall : s.calls[i]? = some ⟨a, .phaseChecked⟩)
    (hspare : a.putsClass k = true → s.admitted k < k.cap) (check : Except ApiError Unit) :
    Bounded k (s.setCall i a (afterCheck check .admitted)) := by
  have hadmitted := admitted_setCall (k := k) hcall (afterCheck check .admitted)
  have hunsent := unsent_setCall (k := k) hcall (afterCheck check .admitted)
  have hnew : Call.unsent k ⟨a, afterCheck check .admitted⟩ =
      Call.passed k ⟨a, afterCheck check .admitted⟩ := by
    cases check <;> rfl
  have hold : Call.passed k ⟨a, .phaseChecked⟩ = false ∧ Call.unsent k ⟨a, .phaseChecked⟩ = false :=
    ⟨Bool.and_false _, Bool.and_false _⟩
  rw [hold.1, Bool.toNat_false] at hadmitted
  rw [hnew] at hunsent
  have hplaced := hs.placed
  refine ⟨?_, ?_⟩
  · change s.accepted k + s.queued k + _ ≤ _
    omega
  · have hcap := hs.cap
    cases hputs : a.putsClass k with
    | false => simp [Call.passed, hputs] at hadmitted; omega
    | true =>
      have := hspare hputs
      have hone := Bool.toNat_le (Call.passed k ⟨a, afterCheck check .admitted⟩)
      omega

theorem Bounded.advance (hs : Bounded k s) {st' : Stage} {server : Server β}
    {queue : List (ℕ × ApiAction)} (hcall : s.calls[i]? = some ⟨a, st⟩)
    (hpassed : Call.passed k ⟨a, st⟩ = Call.passed k ⟨a, st'⟩)
    (hqueue : ({ s with queue } : Sys β).queued k + (Call.unsent k ⟨a, st'⟩).toNat ≤
      s.queued k + (Call.unsent k ⟨a, st⟩).toNat) :
    Bounded k { s.setCall i a st' with queue, server } := by
  have hadmitted := admitted_setCall (k := k) hcall st'
  have hunsent := unsent_setCall (k := k) hcall st'
  rw [hpassed, Nat.add_right_cancel_iff] at hadmitted
  have hplaced := hs.placed
  refine ⟨?_, hadmitted.trans_le hs.cap⟩
  change s.accepted k + ({ s with queue } : Sys β).queued k + (s.setCall i a st').unsent k ≤
    (s.setCall i a st').admitted k
  omega

theorem Bounded.served (hs : Bounded k s) {env : Surroundings β}
    (hcurrent : s.current = some (i, a)) : Bounded k (s.served env i a) := by
  have hadmitted : (s.served env i a).admitted k = s.admitted k :=
    countP_answer (fun _ _ => rfl) _ _ _
  have hunsent : (s.served env i a).unsent k = s.unsent k := countP_answer (fun _ _ => rfl) _ _ _
  have hqueued : (s.served env i a).queued k + (a.putsClass k).toNat ≤ s.queued k := by
    have hhead : s.queued k = (a.putsClass k).toNat + ((s.queue.map Prod.snd).countP
        (ApiAction.putsClass k)) := by
      simp only [Sys.queued, Sys.pending, hcurrent, Option.toList_some, List.singleton_append,
        List.map_cons, List.countP_cons, Nat.add_comm (List.countP _ _)]
      cases a.putsClass k <;> rfl
    have htail : (s.served env i a).queued k ≤ (s.queue.map Prod.snd).countP
        (ApiAction.putsClass k) := by
      by_cases hstop : a = .shutdown <;> simp [Sys.queued, Sys.pending, Sys.served, hstop]
    omega
  have haccepted : (s.served env i a).accepted k ≤ s.accepted k + (a.putsClass k).toNat := by
    rw [Sys.accepted, Sys.served, List.countP_append, List.countP_singleton]
    split_ifs with hadds
    · rw [Handled.adds, Bool.and_eq_true] at hadds
      rw [hadds.1]
      exact Nat.le_refl _
    · exact Nat.le_add_right _ _
  have hplaced := hs.placed
  exact ⟨by omega, hadmitted.trans_le hs.cap⟩

theorem bounded_step (hs : Bounded k s) (hspare : Spare k s e)
    (h : step capacity s e = some s') : Bounded k s' := by
  cases e with
  | call a =>
    cases h
    refine hs.call ?_
    cases validatePhase s.server.vmm.phase a <;> simp [afterCheck, Call.passed, Call.unsent]
  | limits i =>
    simp only [step] at h
    split at h
    · rename_i a hcall
      cases h
      exact hs.limits hcall (hspare _ hcall) _
    · cases h
  | enqueue i =>
    simp only [step] at h
    split at h
    · rename_i a hcall
      split_ifs at h
      · cases h
        exact hs.advance hcall rfl (by simp [Call.unsent])
      · cases h
        refine hs.advance hcall rfl ?_
        cases hputs : a.putsClass k <;>
          simp [Call.unsent, Sys.queued, Sys.pending, hputs, Nat.add_assoc]
    · cases h
  | timeout i =>
    simp only [step] at h
    split at h
    · rename_i a hcall
      cases h
      exact hs.advance hcall rfl (by simp [Call.unsent])
    · cases h
  | receive =>
    simp only [step] at h
    split at h
    · rename_i x rest hcurrent hqueue
      cases h
      have hqueued : ({ s with current := some x, queue := rest } : Sys β).queued k = s.queued k := by
        simp [Sys.queued, Sys.pending, hcurrent, hqueue]
      exact ⟨by rw [hqueued]; exact hs.placed, hs.cap⟩
    · cases h
  | serve env =>
    simp only [step] at h
    split at h
    · rename_i i a hcurrent
      cases h
      exact hs.served hcurrent
    · cases h
  | finish i =>
    simp only [step] at h
    split at h
    · rename_i a resp hcall
      cases h
      exact hs.advance hcall rfl (by simp [Call.unsent, Sys.setCall])
    · rename_i a hcall
      split_ifs at h
      cases h
      exact hs.advance hcall rfl (by simp [Call.unsent])
    · cases h

end Count

section Scenario

def numberedDrive (i : Fin 10) : DriveConfig :=
  { someDrive with driveId := ⟨[0x64, 0x30 + i.val.toUInt8], by revert i; decide⟩ }

def putsAtOnce (n : ℕ) : List (Event Unit) :=
  (List.range n).map (fun i => .call (.putDrive (numberedDrive (Fin.ofNat 10 i)))) ++
    (List.range n).map .limits ++ (List.range n).map .enqueue ++
    (List.range n).flatMap fun _ => [.receive, .serve quiet]

end Scenario

/-! ## The devices that are there -/

def liveStep (k : DeviceClass) (live : Finset Identifier) (a : ApiAction) : Finset Identifier :=
  match a.puts, a.deletes with
  | some (k', id), _ => if k' = k then insert id live else live
  | none, some (k', id) => if k' = k then live.erase id else live
  | none, none => live

def live (k : DeviceClass) (log : List ApiAction) : Finset Identifier := log.foldl (liveStep k) ∅

def Fresh (k : DeviceClass) (before : List ApiAction) (a : ApiAction) : Prop :=
  ∀ id ∈ live k before, a.puts ≠ some (k, id) ∧ a.deletes ≠ some (k, id)

instance decidableFresh (k : DeviceClass) (before : List ApiAction) (a : ApiAction) :
    Decidable (Fresh k before a) :=
  inferInstanceAs (Decidable (∀ id ∈ live k before, a.puts ≠ some (k, id) ∧ a.deletes ≠ some (k, id)))

structure CountsDevices (k : DeviceClass) (s : Session β) : Prop where
  count : (s.server.limits.running k).toNat = (live k s.accepted).card
  refused : ∀ a, a.putsClass k = true → validateCrossField s.server.limits a ≠ .ok () →
    k.cap ≤ (live k s.accepted).card

section Devices

variable {k : DeviceClass} {s s' : Session β} {r : Surroundings β × ApiAction}

theorem live_append (log : List ApiAction) (a : ApiAction) :
    live k (log ++ [a]) = liveStep k (live k log) a := by
  rw [live, List.foldl_append]
  rfl

structure Tallied (k : DeviceClass) (s : Session β) : Prop where
  le : (live k s.accepted).card ≤ (s.server.limits.running k).toNat
  eq_iff : (s.server.limits.running k).toNat = (live k s.accepted).card ↔ Each (Fresh k) s.accepted

theorem tallied_initial (hostRamMib : UInt64) :
    Tallied k (Session.initial hostRamMib : Session β) := by
  refine ⟨Nat.zero_le _, ?_, ?_⟩
  · exact fun _ i h => absurd h (Nat.not_lt_zero i)
  · intro _
    cases k <;> rfl

variable {a : ApiAction} {id : Identifier}

theorem Tallied.put (hs : Tallied k s) (hputs : a.puts = some (k, id))
    (haccepted : s'.accepted = s.accepted ++ [a])
    (hcount : (s'.server.limits.running k).toNat = (s.server.limits.running k).toNat + 1) :
    Tallied k s' := by
  have hlive : live k s'.accepted = insert id (live k s.accepted) := by
    simp [haccepted, live_append, liveStep, hputs]
  have hle := hs.le
  have heq := hs.eq_iff
  by_cases hmem : id ∈ live k s.accepted
  · have hnot : ¬ Fresh k s.accepted a := fun h => (h id hmem).1 hputs
    rw [Finset.insert_eq_of_mem hmem] at hlive
    refine ⟨by rw [hlive]; omega, ?_⟩
    rw [hlive, haccepted, each_append_singleton]
    exact ⟨fun h => by omega, fun h => absurd h.2 hnot⟩
  · have hfresh : Fresh k s.accepted a := by
      intro id' hid'
      refine ⟨fun h => ?_, ?_⟩
      · rw [hputs, Option.some.injEq, Prod.mk.injEq] at h
        exact hmem (h.2 ▸ hid')
      · cases a <;> simp [ApiAction.puts, ApiAction.deletes] at hputs ⊢
    have hcard : (live k s'.accepted).card = (live k s.accepted).card + 1 := by
      rw [hlive, Finset.card_insert_of_notMem hmem]
    refine ⟨by omega, ?_⟩
    rw [hcard, hcount, Nat.add_right_cancel_iff, heq, haccepted, each_append_singleton]
    exact ⟨fun h => ⟨h, hfresh⟩, And.left⟩

theorem Tallied.delete (hs : Tallied k s) (hputs : a.puts = none)
    (hdeletes : a.deletes = some (k, id)) (haccepted : s'.accepted = s.accepted ++ [a])
    (hcount : s'.server.limits.running k = s.server.limits.running k) : Tallied k s' := by
  have hlive : live k s'.accepted = (live k s.accepted).erase id := by
    simp [haccepted, live_append, liveStep, hputs, hdeletes]
  have hle := hs.le
  have heq := hs.eq_iff
  by_cases hmem : id ∈ live k s.accepted
  · have hnot : ¬ Fresh k s.accepted a := fun h => (h id hmem).2 hdeletes
    have hcard := Finset.card_erase_add_one hmem
    rw [← hlive] at hcard
    refine ⟨by rw [hcount]; omega, ?_⟩
    rw [hcount, haccepted, each_append_singleton, ← haccepted]
    exact ⟨fun h => by omega, fun h => absurd h.2 hnot⟩
  · rw [Finset.erase_eq_of_notMem hmem] at hlive
    have hfresh : Fresh k s.accepted a := by
      intro id' hid'
      refine ⟨by rw [hputs]; simp, fun h => ?_⟩
      rw [hdeletes, Option.some.injEq, Prod.mk.injEq] at h
      exact hmem (h.2 ▸ hid')
    refine ⟨by rw [hlive, hcount]; exact hle, ?_⟩
    rw [hlive, hcount, heq, haccepted, each_append_singleton]
    exact ⟨fun h => ⟨h, hfresh⟩, And.left⟩

theorem Tallied.other (hs : Tallied k s) (hputs : ∀ id, a.puts ≠ some (k, id))
    (hdeletes : ∀ id, a.deletes ≠ some (k, id)) (haccepted : s'.accepted = s.accepted ++ [a])
    (hcount : s'.server.limits.running k = s.server.limits.running k) : Tallied k s' := by
  have hlive : live k s'.accepted = live k s.accepted := by
    rw [haccepted, live_append, liveStep]
    split
    · rename_i k' id hp
      rw [if_neg]
      rintro rfl
      exact hputs id hp
    · rename_i k' id _ hd
      rw [if_neg]
      rintro rfl
      exact hdeletes id hd
    · rfl
  refine ⟨by rw [hlive, hcount]; exact hs.le, ?_⟩
  rw [hlive, hcount, hs.eq_iff, haccepted, each_append_singleton]
  exact ⟨fun h => ⟨h, fun id _ => ⟨hputs id, hdeletes id⟩⟩, And.left⟩

theorem putsClass_iff : a.putsClass k = true ↔ ∃ id, a.puts = some (k, id) := by
  unfold ApiAction.putsClass
  cases a.puts with
  | none => simp
  | some d => obtain ⟨k', id⟩ := d; simp

theorem toNat_running_apply {g : LimitsState} (hputs : a.putsClass k = true)
    (hcross : validateCrossField g a = .ok ()) :
    (((ActionCounterKick.forAction a).apply g).running k).toNat = (g.running k).toNat + 1 := by
  have hcap := (validateCrossField_eq_ok.1 hcross).2.2.2 k hputs
  have hle : k.cap ≤ 8 := by cases k <;> decide
  rw [running_apply, if_pos hputs, toNat_saturatingAdd]
  · rfl
  · change (g.running k).toNat + 1 < _
    omega

theorem tallied_next (hs : Tallied k s) (h : s.next r = some s') : Tallied k s' := by
  cases next_cases h with
  | refused haccepted hlimits _ =>
    refine ⟨?_, ?_⟩ <;> rw [haccepted, hlimits]
    · exact hs.le
    · exact hs.eq_iff
  | accepted _ hcross _ haccepted hlimits _ =>
    by_cases hputs : r.2.putsClass k = true
    · obtain ⟨id, hid⟩ := putsClass_iff.1 hputs
      refine hs.put hid haccepted ?_
      rw [hlimits, toNat_running_apply hputs hcross]
    · have hcount : s'.server.limits.running k = s.server.limits.running k := by
        rw [hlimits, running_apply, if_neg hputs]
      by_cases hdeletes : ∃ id, r.2.deletes = some (k, id)
      · obtain ⟨id, hid⟩ := hdeletes
        have hnone : r.2.puts = none := by
          cases hr : r.2 <;> simp [hr, ApiAction.puts, ApiAction.deletes] at hid ⊢
        exact hs.delete hnone hid haccepted hcount
      · exact hs.other (fun id hid => hputs (putsClass_iff.2 ⟨id, hid⟩))
          (fun id hid => hdeletes ⟨id, hid⟩) haccepted hcount

/-- **The counter is the number of devices** exactly if no accepted request replaced or deleted a
device that was there. -/
theorem countsDevices_iff {hostRamMib : UInt64} {rs : List (Surroundings β × ApiAction)}
    (h : Run.run Session.next rs (Session.initial hostRamMib) = some s) :
    CountsDevices k s ↔ Each (Fresh k) s.accepted := by
  have hs : Tallied k s :=
    invariant_of_step (fun _ _ _ => tallied_next) (tallied_initial hostRamMib) h
  refine ⟨fun hc => hs.eq_iff.1 hc.count, fun hfresh => ⟨hs.eq_iff.2 hfresh, ?_⟩⟩
  intro a hputs hrefused
  rw [← hs.eq_iff.2 hfresh]
  by_contra hlt
  exact hrefused (validateCrossField_of_putsClass hputs (Nat.lt_of_not_le hlt))

end Devices

section Scenario

def putDrives (ids : List (Fin 10)) : List (Surroundings Unit × ApiAction) :=
  ids.map fun i => (quiet, .putDrive (numberedDrive i))

theorem countsDevices_two_drives : ∃ s, Run.run Session.next (putDrives [0, 1])
    (Session.initial 4096) = some s ∧ (live .drive s.accepted).card = 2 ∧
      CountsDevices .drive s := by
  have hrun : ∃ s ∈ Run.run Session.next (putDrives [0, 1]) (Session.initial 4096),
      (live .drive s.accepted).card = 2 ∧ Each (Fresh .drive) s.accepted := by
    decide +kernel
  obtain ⟨s, hs, hcard, hfresh⟩ := hrun
  exact ⟨s, hs, hcard, (countsDevices_iff hs).2 hfresh⟩

theorem not_countsDevices_put_twice : ∃ s, Run.run Session.next (putDrives [0, 0])
    (Session.initial 4096) = some s ∧ (live .drive s.accepted).card = 1 ∧
      ¬ CountsDevices .drive s := by
  have hrun : ∃ s ∈ Run.run Session.next (putDrives [0, 0]) (Session.initial 4096),
      (live .drive s.accepted).card = 1 ∧
        (s.server.limits.running .drive).toNat ≠ (live .drive s.accepted).card := by
    decide +kernel
  obtain ⟨s, hs, hcard, hne⟩ := hrun
  exact ⟨s, hs, hcard, fun h => hne h.count⟩

end Scenario

end Squib.Api
