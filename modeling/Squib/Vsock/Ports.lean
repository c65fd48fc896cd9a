import Mathlib.Algebra.Group.Nat.Defs
import Mathlib.Data.List.Perm.Subperm
import Squib.Lib.Run

/-!
# Host ports
-/

namespace Squib.Muxer

structure ConnectionKey where
  hostPort : UInt32
  guestPort : UInt32
  deriving DecidableEq, Repr

structure Ports where
  nextHostPort : UInt32 := 1024
  waiting : List ConnectionKey := []
  connections : List ConnectionKey := []

namespace Ports

inductive Event where
  | allocate (guestPort : UInt32)
  | register (i : ℕ)
  | remove (key : ConnectionKey)

def allocateHostPort (s : Ports) : UInt32 × Ports :=
  (s.nextHostPort, { s with nextHostPort := s.nextHostPort + 1 })

def step (s : Ports) : Event → Option Ports
  | .allocate guestPort =>
    let (hostPort, s) := s.allocateHostPort
    some { s with waiting := s.waiting ++ [⟨hostPort, guestPort⟩] }
  | .register i => s.waiting[i]?.map fun key =>
      { s with waiting := s.waiting.eraseIdx i, connections := s.connections.insert key }
  | .remove key => some { s with connections := s.connections.erase key }

def Fresh (s : Ports) : Event → Prop
  | .allocate guestPort => 1024 ≤ s.allocateHostPort.1.toNat ∧
      ⟨s.allocateHostPort.1, guestPort⟩ ∉ s.waiting ++ s.connections
  | .register i => ∀ key, s.waiting[i]? = some key → key ∉ s.connections
  | .remove _ => True

def allocations : List Event → ℕ
  | [] => 0
  | .allocate _ :: es => allocations es + 1
  | .register _ :: es | .remove _ :: es => allocations es

structure Inv (n : ℕ) (s : Ports) : Prop where
  low : 1024 ≤ n
  next : s.nextHostPort = .ofNat n
  nodup : (s.waiting ++ s.connections).Nodup
  ports : ∀ key ∈ s.waiting ++ s.connections, key.hostPort.toNat < n

variable {n : ℕ} {s s' : Ports} {es : List Event}

theorem Inv.of_subperm (h : s.Inv n) (hnext : s'.nextHostPort = s.nextHostPort)
    (hkeys : (s'.waiting ++ s'.connections).Subperm (s.waiting ++ s.connections)) : s'.Inv n := by
  obtain ⟨keys, hperm, hsub⟩ := hkeys
  exact ⟨h.low, hnext.trans h.next, hperm.nodup_iff.1 (h.nodup.sublist hsub),
    fun key hkey => h.ports key (hsub.subset (hperm.mem_iff.2 hkey))⟩

theorem Inv.allocate (h : s.Inv n) (hn : n < 2 ^ 32) (guestPort : UInt32) :
    s.Fresh (.allocate guestPort) ∧ Inv (n + 1)
      { s with nextHostPort := s.nextHostPort + 1
               waiting := s.waiting ++ [⟨s.nextHostPort, guestPort⟩] } := by
  have hport : s.nextHostPort.toNat = n := by rw [h.next, UInt32.toNat_ofNat', Nat.mod_eq_of_lt hn]
  have hnew : (⟨s.nextHostPort, guestPort⟩ : ConnectionKey) ∉ s.waiting ++ s.connections :=
    fun hmem => absurd (h.ports _ hmem) (by rw [hport]; exact Nat.lt_irrefl n)
  have hperm : ∀ key, (s.waiting ++ [key] ++ s.connections).Perm
      (key :: (s.waiting ++ s.connections)) := fun key => by
    rw [List.append_assoc]
    exact List.perm_middle
  refine ⟨⟨hport.symm ▸ h.low, hnew⟩, Nat.le_succ_of_le h.low, ?_, ?_, fun key hkey => ?_⟩
  · rw [h.next, UInt32.ofNat_add]
    rfl
  · exact (hperm _).nodup_iff.2 (List.nodup_cons.2 ⟨hnew, h.nodup⟩)
  · obtain rfl | hkey := List.mem_cons.1 ((hperm _).mem_iff.1 hkey)
    · exact hport.symm ▸ Nat.lt_succ_self n
    · exact Nat.lt_succ_of_lt (h.ports key hkey)

theorem Inv.register (h : s.Inv n) {i : ℕ} {key : ConnectionKey} (hkey : s.waiting[i]? = some key) :
    key ∉ s.connections ∧ Inv n
      { s with waiting := s.waiting.eraseIdx i, connections := s.connections.insert key } := by
  have hnew : key ∉ s.connections := fun hmem =>
    (List.nodup_append.1 h.nodup).2.2 key (List.mem_of_getElem? hkey) key hmem rfl
  refine ⟨hnew, h.of_subperm rfl (List.Perm.subperm ?_)⟩
  obtain ⟨hi, rfl⟩ := List.getElem?_eq_some_iff.1 hkey
  dsimp only
  rw [List.insert_of_not_mem hnew]
  exact List.perm_middle.trans ((List.getElem_cons_eraseIdx_perm hi).append_right _)

theorem Inv.remove (h : s.Inv n) (key : ConnectionKey) :
    Inv n { s with connections := s.connections.erase key } :=
  h.of_subperm rfl ((List.erase_sublist.append_left _).subperm)

theorem along_fresh_iff (h : s.Inv n) (hn : n ≤ 2 ^ 32) (hrun : Run.run step es s = some s') :
    Run.Along step Fresh es s ↔ n + allocations es ≤ 2 ^ 32 := by
  induction es generalizing s n with
  | nil => simpa [Run.Along, allocations] using hn
  | cons e es ih =>
    obtain ⟨s₁, hstep, hrun⟩ := Run.run_cons_eq_some.1 hrun
    rw [Run.Along, hstep]
    simp only [Option.some.injEq, forall_eq']
    cases e with
    | allocate guestPort =>
      cases hstep
      rw [allocations]
      obtain hlt | rfl := Nat.lt_or_eq_of_le hn
      · obtain ⟨hfresh, hinv⟩ := h.allocate hlt guestPort
        rw [and_iff_right hfresh, ih hinv hlt hrun]
        omega
      · have hzero : s.nextHostPort.toNat = 0 := by rw [h.next]; rfl
        refine iff_of_false (fun hfresh => ?_) (by omega)
        have hlow := hfresh.1.1
        rw [allocateHostPort, hzero] at hlow
        omega
    | register i =>
      obtain ⟨key, hkey, rfl⟩ := Option.map_eq_some_iff.1 hstep
      obtain ⟨hnew, hinv⟩ := h.register hkey
      have hfresh : s.Fresh (.register i) := fun key' hkey' => by
        cases hkey.symm.trans hkey'
        exact hnew
      rw [and_iff_right hfresh, ih hinv hn hrun, allocations]
    | remove key =>
      cases hstep
      rw [Fresh, true_and, ih (h.remove key) hn hrun, allocations]

theorem inv_start : Inv 1024 {} := ⟨Nat.le_refl _, rfl, List.nodup_nil, nofun⟩

/-- **How long the ports are fresh.** -/
theorem fresh_iff (hrun : Run.run step es {} = some s) :
    Run.Along step Fresh es {} ↔ allocations es ≤ 2 ^ 32 - 1024 := by
  rw [along_fresh_iff inv_start (by decide) hrun]
  omega

theorem fresh_one_connection :
    ∃ s, Run.run step [.allocate 5001, .register 0] {} = some s ∧
      Run.Along step Fresh [.allocate 5001, .register 0] {} :=
  ⟨_, rfl, (fresh_iff rfl).2 (by decide)⟩

theorem run_allocate (guestPort : UInt32) (k : ℕ) (s : Ports) :
    ∃ s', Run.run step (List.replicate k (.allocate guestPort)) s = some s' ∧
      s'.nextHostPort = s.nextHostPort + .ofNat k ∧ s'.connections = s.connections := by
  induction k generalizing s with
  | zero => exact ⟨s, rfl, (UInt32.add_zero _).symm, rfl⟩
  | succ k ih =>
    obtain ⟨s', hrun, hnext, hconns⟩ := ih { s with
      nextHostPort := s.nextHostPort + 1
      waiting := s.waiting ++ [⟨s.nextHostPort, guestPort⟩] }
    refine ⟨s', hrun, hnext.trans ?_, hconns⟩
    rw [UInt32.ofNat_add, UInt32.add_assoc, UInt32.add_comm 1]
    rfl

/-- A connection has been open while the counter went round, and its pair is handed out again. -/
theorem pair_used_twice : ∃ es s, Run.run step es {} = some s ∧ ⟨1024, 5001⟩ ∈ s.connections ∧
    s.allocateHostPort.1 = 1024 := by
  obtain ⟨k, hk⟩ : ∃ k, (1025 : UInt32) + .ofNat k = 1024 := ⟨2 ^ 32 - 1, by decide⟩
  obtain ⟨s, hrun, hnext, hconns⟩ := run_allocate 5001 k
    { nextHostPort := 1025, connections := [⟨1024, 5001⟩] }
  refine ⟨.allocate 5001 :: .register 0 :: List.replicate k (.allocate 5001), s, hrun, ?_, ?_⟩
  · rw [hconns]
    exact List.mem_singleton_self _
  · exact hnext.trans hk

end Ports

end Squib.Muxer
