import Squib.Block.Backend
import Squib.Virtio.System

/-!
# The end of a drive
-/

namespace Squib.BlockDevice

open Checked HostFile

variable {η : Type}

def capacityBytes (backend : FileBackend η) (host : η) : ℕ :=
  (capacitySectors backend.toBlockBackend host).toNat * sectorSize.toNat

def Below (cap : ℕ) (a : Access) : Prop := a.len = 0 ∨ a.off + a.len ≤ cap

instance (cap : ℕ) (a : Access) : Decidable (Below cap a) := instDecidableOr

structure Bounded (backend : FileBackend η) (host : η) : Prop where
  below : ∀ a ∈ (backend.file host).touched, Below (capacityBytes backend host) a
  length : (backend.file host).data.length = backend.size.toNat

def InRange (backend : FileBackend η) (host : η) (r : GuestRequest) : Prop :=
  ∀ a ∈ accesses backend r.guest.mem r.descs (backend.file host), Below (capacityBytes backend host) a

theorem capacityBytes_eq (backend : FileBackend η) (host : η) :
    capacityBytes backend host = backend.size.toNat / sectorSize.toNat * sectorSize.toNat := by
  rw [capacityBytes, capacitySectors, backend.sizeBytes_eq, UInt64.toNat_div]

theorem capacityBytes_le (backend : FileBackend η) (host : η) :
    capacityBytes backend host ≤ backend.size.toNat := by
  rw [capacityBytes_eq]
  exact Nat.div_mul_le_self _ _

theorem extent_of_below {n cap : ℕ} (hcap : cap ≤ n) {as : List Access} (h : ∀ a ∈ as, Below cap a) :
    extent n as = n := by
  induction as with
  | nil => rfl
  | cons a as ih =>
    obtain ⟨ha, has⟩ := List.forall_mem_cons.1 h
    have hone : (if a.write ∧ a.len ≠ 0 then max n (a.off + a.len) else n) = n := by
      split_ifs with hw
      · exact max_eq_left ((ha.resolve_left hw.2).trans hcap)
      · rfl
    rw [extent, List.foldl_cons, hone]
    exact ih has

theorem bounded_step_iff {backend : FileBackend η} {driveId : String} {host : η} {r : GuestRequest}
    (h : Bounded backend host) :
    (∀ host', step backend.toBlockBackend driveId host r = some host' → Bounded backend host') ↔
      InRange backend host r := by
  obtain ⟨host', hstep, hmoved⟩ := step_moved backend driveId host r
  have hcap : capacityBytes backend host' = capacityBytes backend host := by
    rw [capacityBytes_eq, capacityBytes_eq]
  rw [hstep]
  constructor
  · intro hbounded a ha
    rw [← hcap]
    refine (hbounded host' rfl).below a ?_
    rw [hmoved.touched]
    exact List.mem_append_right _ ha
  · rintro hrange _ ⟨⟩
    refine ⟨?_, ?_⟩
    · rw [hmoved.touched, hcap]
      exact List.forall_mem_append.2 ⟨h.below, hrange⟩
    · rw [hmoved.length, h.length]
      exact extent_of_below (capacityBytes_le backend host) hrange

section Scenario

def sixteenBytes (reqType sector : ℕ) (flags : UInt16) : GuestRequest where
  guest := .start (.fromBytes 0x1000 (Bytes.leBytes 4 reqType ++ Bytes.leBytes 4 0 ++
    Bytes.leBytes 8 sector ++ List.replicate 32 0) (by simp)) ()
  descs := [⟨0x1000, 16, virtqDescFNext, 1⟩, ⟨0x1010, 16, virtqDescFNext ||| flags, 2⟩,
    ⟨0x1020, 1, virtqDescFWrite, 0⟩]

def oneSector : File := { data := List.replicate 512 0 }

end Scenario

end Squib.BlockDevice
