import Squib.Api.Caps

/-!
# The root drive

At most one drive should be the root device. Neither the controller nor the event loop looks at the
flag.
-/

namespace Squib.Api

open Run VmmLoop

variable {β : Type}

def drivesAfter (ds : List DriveConfig) : ApiAction → List DriveConfig
  | .putDrive cfg => ds.filter (·.driveId ≠ cfg.driveId) ++ [cfg]
  | .deleteDrive id => ds.filter (·.driveId ≠ id)
  | _ => ds

def drives (log : List ApiAction) : List DriveConfig := log.foldl drivesAfter []

def Sys.acceptedActions (s : Sys β) : List ApiAction :=
  (s.handled.filter (·.response.isSuccess)).map Handled.action

def OneRoot (ds : List DriveConfig) : Prop := (ds.filter (·.isRootDevice)).length ≤ 1

instance decidableOneRoot (ds : List DriveConfig) : Decidable (OneRoot ds) :=
  inferInstanceAs (Decidable (_ ≤ _))

def KeepsRoot (ds : List DriveConfig) : ApiAction → Prop
  | .putDrive cfg => cfg.isRootDevice = true →
      ∀ d ∈ ds, d.driveId ≠ cfg.driveId → d.isRootDevice = false
  | _ => True

def Rooted (s : Sys β) : Event β → Prop
  | .serve _ => ∀ x ∈ s.current, KeepsRoot (drives s.acceptedActions) x.2
  | _ => True

section Step

variable {ds : List DriveConfig} {log : List ApiAction} {a : ApiAction}

theorem drives_append (log : List ApiAction) (a : ApiAction) :
    drives (log ++ [a]) = drivesAfter (drives log) a := by
  rw [drives, List.foldl_append]
  rfl

theorem OneRoot.filter (h : OneRoot ds) (p : DriveConfig → Bool) : OneRoot (ds.filter p) := by
  refine Nat.le_trans ?_ h
  rw [List.filter_comm]
  exact List.length_filter_le ..

theorem oneRoot_append_iff (h : OneRoot (drives log)) :
    OneRoot (drives (log ++ [a])) ↔ KeepsRoot (drives log) a := by
  rw [drives_append]
  cases a with
  | deleteDrive id => exact iff_of_true (h.filter _) trivial
  | putDrive cfg =>
    have hrest := h.filter fun d => d.driveId ≠ cfg.driveId
    simp only [drivesAfter, KeepsRoot, OneRoot, List.filter_append, List.length_append] at hrest ⊢
    cases hroot : cfg.isRootDevice with
    | false => simpa [hroot] using hrest
    | true =>
      simp only [ne_eq, decide_not, List.filter_filter, hroot, List.filter_cons_of_pos,
        List.filter_nil, List.length_cons, List.length_nil, zero_add, add_le_iff_nonpos_left,
        nonpos_iff_eq_zero, List.length_eq_zero_iff, List.filter_eq_nil_iff, Bool.and_eq_true,
        Bool.not_eq_eq_eq_not, Bool.not_true, decide_eq_false_iff_not, not_and, Decidable.not_not,
        forall_const]
      refine forall₂_congr fun d _ => ?_
      rw [not_imp_comm, Bool.not_eq_false]
  | _ => exact iff_of_true h trivial

variable {capacity : ℕ} {s s' : Sys β} {e : Event β} {env : Surroundings β}

theorem step_serve : step capacity s (.serve env) = s.current.map fun x => s.served env x.1 x.2 := by
  simp only [step]
  cases s.current with
  | none => rfl
  | some x => rfl

theorem acceptedActions_served (i : ℕ) (a : ApiAction) :
    (s.served env i a).acceptedActions = if (handle env s.server.vmm a).1.isSuccess then
      s.acceptedActions ++ [a] else s.acceptedActions := by
  simp only [Sys.acceptedActions, Sys.served, List.filter_append, List.map_append]
  split_ifs with h
  · simp [h]
  · simp [h]

theorem acceptedActions_of_ne_serve (h : step capacity s e = some s') (he : ∀ env, e ≠ .serve env) :
    s'.acceptedActions = s.acceptedActions := by
  unfold Sys.acceptedActions
  rcases channelStep_of_step h with ⟨-, hh, -⟩ | ⟨-, -, hh, -⟩ | ⟨-, -, -, -⟩
  · rw [hh]
  · rw [hh]
  · exact absurd rfl (he _)

theorem keepsRoot_of_fault (h : (handle env s.server.vmm a).1.isSuccess = false) :
    KeepsRoot ds a := by
  cases a with
  | putDrive cfg => cases h
  | _ => trivial

theorem rooted_iff (hs : OneRoot (drives s.acceptedActions)) :
    (∀ s', step capacity s e = some s' → OneRoot (drives s'.acceptedActions)) ↔ Rooted s e := by
  cases e with
  | serve env =>
    rw [step_serve, Rooted]
    cases s.current with
    | none => simp
    | some x =>
      simp only [Option.map_some, Option.some.injEq, forall_eq', Option.mem_some_iff,
        acceptedActions_served]
      split_ifs with h
      · exact oneRoot_append_iff hs
      · exact iff_of_true hs (keepsRoot_of_fault (by simpa using h))
  | _ =>
    refine iff_of_true (fun s' h => ?_) trivial
    rw [acceptedActions_of_ne_serve h fun env he => by cases he]
    exact hs

end Step

/-- **There is at most one root drive throughout a run** exactly if the loop never serves a root drive
while another drive is the root. -/
theorem oneRoot_iff {capacity : ℕ} {limits : LimitsState} {es : List (Event β)} :
    Along (step capacity) (fun s e => ∀ s', step capacity s e = some s' →
        OneRoot (drives s'.acceptedActions)) es (Sys.initial limits) ↔
      Along (step capacity) Rooted es (Sys.initial limits) :=
  along_keeps_iff (I := fun s : Sys β => OneRoot (drives s.acceptedActions)) (C := fun _ _ => True)
    (fun _ _ hs _ => rooted_iff hs) (.of_forall (fun _ _ _ => trivial) _) (Nat.zero_le 1)

section Scenario

def twoRoots (i j : Fin 10) : List (Event Unit) :=
  wholeCall quiet 0 (.putDrive (numberedDrive i)) ++ wholeCall quiet 1 (.putDrive (numberedDrive j))

theorem two_roots_accepted :
    ∃ s ∈ Run.run (step 1024) (twoRoots 0 1) (Sys.initial (.fromHostRamMib 4096)),
      s.acceptedActions = [.putDrive (numberedDrive 0), .putDrive (numberedDrive 1)] ∧
      ¬ OneRoot (drives s.acceptedActions) := by
  decide +kernel

end Scenario

end Squib.Api
