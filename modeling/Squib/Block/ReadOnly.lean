import Squib.Block.Bounds

/-!
# Read-only drives
-/

namespace Squib.BlockDevice

open Checked HostFile

variable {η : Type}

def OffersRo (config : BlockConfig) (backend : BlockBackend η) : Prop :=
  (new config backend).avail &&& fRo ≠ 0

theorem offers_ro_iff (config : BlockConfig) (backend : BlockBackend η) :
    OffersRo config backend ↔ config.isReadOnly = true ∨ backend.readOnly = true := by
  rw [OffersRo, show (new config backend).avail = availFeatures config backend from rfl,
    availFeatures, ← Bool.or_eq_true]
  cases config.isReadOnly || backend.readOnly <;> cases config.cacheType <;> decide

/-! ## Requests that write -/

def Reaches (m : GuestMemory) : List Descriptor → Prop
  | [] => False
  | desc :: payload =>
    if desc.isWriteOnly then Reaches m payload
    else m.contains desc.addr desc.len.toNat = true ∧ (desc.len ≠ 0 ∨ Reaches m payload)

def GuestRequest.Writes (r : GuestRequest) : Prop :=
  ∃ c, decode r.guest.mem r.descs = some c ∧ c.reqType = reqTypeOut ∧
    c.sector.toNat * sectorSize.toNat < maxOffset ∧ Reaches r.guest.mem c.payload

section Accesses

variable {m : GuestMemory} {n : ℕ} {fate : ℕ → Fate} {a : Access} {payload : List Descriptor}
  {off clock : ℕ}

theorem write_of_mem_readAccesses (ha : a ∈ readAccesses m n fate payload off clock) :
    a.write = false := by
  induction payload generalizing off clock with
  | nil => cases ha
  | cons desc payload ih =>
    rw [readAccesses] at ha
    split_ifs at ha
    · exact ih ha
    · cases ha
    · exact ih ha
    · cases ha
    · obtain rfl | ha := List.mem_cons.1 ha
      · rfl
      · exact ih ha
    · obtain rfl | ha := List.mem_cons.1 ha
      · rfl
      · cases ha

theorem write_of_mem_writeAccesses (ha : a ∈ writeAccesses m fate payload off clock) :
    a.write = true := by
  induction payload generalizing off clock with
  | nil => cases ha
  | cons desc payload ih =>
    rw [writeAccesses] at ha
    split_ifs at ha
    · exact ih ha
    · cases ha
    · exact ih ha
    · obtain rfl | ha := List.mem_cons.1 ha
      · rfl
      · exact ih ha
    · obtain rfl | ha := List.mem_cons.1 ha
      · rfl
      · cases ha

theorem writeAccesses_ne_nil_iff :
    writeAccesses m fate payload off clock ≠ [] ↔ off < maxOffset ∧ Reaches m payload := by
  by_cases hoff : maxOffset ≤ off
  · rw [writeAccesses_of_maxOffset hoff]
    exact iff_of_false (fun h => h rfl) fun h => absurd h.1 (not_lt.2 hoff)
  rw [and_iff_right (not_le.1 hoff)]
  induction payload generalizing clock with
  | nil => simp [writeAccesses, Reaches]
  | cons desc payload ih =>
    rw [writeAccesses, Reaches]
    split_ifs with hd hout hlen
    · exact ih
    · exact iff_of_false (fun h => h rfl) fun h => hout.elim hoff fun hout => hout h.1
    · have hin := not_not.1 (not_or.1 hout).2
      rw [ih, and_iff_right hin]
      simp [hlen]
    · have hin := not_not.1 (not_or.1 hout).2
      exact iff_of_true (by simp) ⟨hin, .inl hlen⟩
    · have hin := not_not.1 (not_or.1 hout).2
      exact iff_of_true (by simp) ⟨hin, .inl hlen⟩

end Accesses

theorem exists_write_iff (backend : FileBackend η) (r : GuestRequest) (f : File) :
    (∃ a ∈ accesses backend r.guest.mem r.descs f, a.write = true) ↔
      backend.readOnly = false ∧ r.Writes := by
  rw [accesses, GuestRequest.Writes]
  cases decode r.guest.mem r.descs with
  | none => simp
  | some c =>
    have hone : (∃ c', some c = some c' ∧ c'.reqType = reqTypeOut ∧
        c'.sector.toNat * sectorSize.toNat < maxOffset ∧ Reaches r.guest.mem c'.payload) ↔
        c.reqType = reqTypeOut ∧ c.sector.toNat * sectorSize.toNat < maxOffset ∧
          Reaches r.guest.mem c.payload := by
      simp
    rw [hone]
    dsimp only
    split_ifs with hin hout
    · refine iff_of_false ?_ fun h => ?_
      · rintro ⟨a, ha, hw⟩
        exact absurd (write_of_mem_readAccesses ha) (by simp [hw])
      · exact absurd (hin.symm.trans h.2.1) (by decide)
    · rw [and_iff_right hout.2, and_iff_right hout.1, ← writeAccesses_ne_nil_iff]
      constructor
      · rintro ⟨a, ha, -⟩ hnil
        rw [hnil] at ha
        cases ha
      · intro hne
        obtain ⟨a, ha⟩ := List.exists_mem_of_ne_nil _ hne
        exact ⟨a, ha, write_of_mem_writeAccesses ha⟩
    · refine iff_of_false (by simp) fun h => hout ⟨h.2.1, h.1⟩

/-! ## Runs -/

def Untouched (f f' : File) : Prop :=
  f'.data = f.data ∧ ∃ new, f'.touched = f.touched ++ new ∧ ∀ a ∈ new, a.write = false

theorem run_moved (backend : FileBackend η) (driveId : String) {requests : List GuestRequest}
    {host host' : η} (hrun : Run.run (step backend.toBlockBackend driveId) requests host = some host') :
    ∃ new, Moved (backend.file host) (backend.file host') new ∧
      ((∃ a ∈ new, a.write = true) ↔ backend.readOnly = false ∧ ∃ r ∈ requests, r.Writes) := by
  induction requests generalizing host with
  | nil =>
    cases hrun
    exact ⟨[], .refl _, by simp⟩
  | cons r requests ih =>
    obtain ⟨host₁, hstep, hrest⟩ := Run.run_cons_eq_some.1 hrun
    obtain ⟨host₁', hstep', hmoved⟩ := step_moved backend driveId host r
    cases hstep.symm.trans hstep'
    obtain ⟨new, hnew, hiff⟩ := ih hrest
    refine ⟨_, hmoved.trans hnew, ?_⟩
    have happend : (∃ a ∈ accesses backend r.guest.mem r.descs (backend.file host) ++ new,
        a.write = true) ↔ (∃ a ∈ accesses backend r.guest.mem r.descs (backend.file host),
          a.write = true) ∨ ∃ a ∈ new, a.write = true := by
      simp only [List.mem_append, or_and_right, exists_or]
    rw [happend, exists_write_iff, hiff, ← and_or_left]
    simp

/-- **Read-only drives.** No write reaches the file exactly if the backend says read-only, or no
request gets as far as writing a byte. -/
theorem storage_untouched_iff (config : BlockConfig) (backend : FileBackend η) (host : η)
    (requests : List GuestRequest) :
    (OffersRo config backend.toBlockBackend ↔
        config.isReadOnly = true ∨ backend.readOnly = true) ∧
      ∃ host', Run.run (step backend.toBlockBackend config.driveId) requests host = some host' ∧
        (Untouched (backend.file host) (backend.file host') ↔
          backend.readOnly = true ∨ ∀ r ∈ requests, ¬ r.Writes) := by
  refine ⟨offers_ro_iff config _, ?_⟩
  obtain ⟨host', hrun⟩ := Option.isSome_iff_exists.1
    (run_isSome backend config.driveId host requests)
  obtain ⟨new, hmoved, hiff⟩ := run_moved backend config.driveId hrun
  refine ⟨host', hrun, ?_⟩
  have hreads : Untouched (backend.file host) (backend.file host') ↔ ∀ a ∈ new, a.write = false := by
    constructor
    · rintro ⟨-, new', hnew', hall⟩
      rw [hmoved.touched, List.append_cancel_left_eq] at hnew'
      rwa [hnew']
    · exact fun h => ⟨hmoved.same h, new, hmoved.touched, h⟩
  have hnot : (∀ a ∈ new, a.write = false) ↔ ¬ ∃ a ∈ new, a.write = true := by
    simp
  rw [hreads, hnot, hiff, not_and_or, Bool.not_eq_false]
  simp only [not_exists, not_and]

section Scenario

def configuredRo : BlockConfig := ⟨"rootfs", true, .unsafeMode⟩

theorem storage_touched :
    OffersRo configuredRo (ofEngine .sync false 512).toBlockBackend ∧
      ∃ host', Run.run (step (ofEngine .sync false 512).toBlockBackend configuredRo.driveId)
          [sixteenBytes 1 0 0] oneSector = some host' ∧
        host'.touched = [⟨true, 0, 16⟩] ∧ ¬ Untouched oneSector host' := by
  refine ⟨by unfold OffersRo; decide, ?_⟩
  obtain ⟨host', hrun, htouched⟩ :
      ∃ host' ∈ Run.run (step (ofEngine .sync false 512).toBlockBackend configuredRo.driveId)
        [sixteenBytes 1 0 0] oneSector, host'.touched = [⟨true, 0, 16⟩] := by decide +kernel
  refine ⟨host', hrun, htouched, ?_⟩
  rintro ⟨-, new, hnew, hall⟩
  rw [htouched] at hnew
  cases hnew
  exact absurd (hall _ List.mem_cons_self) (by decide)

end Scenario

end Squib.BlockDevice
