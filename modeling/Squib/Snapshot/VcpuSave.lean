import Mathlib.Control.Lawful
import Mathlib.Data.List.Nodup
import Squib.Arch.SysRegs
import Squib.Snapshot.State

/-!
# Saving and restoring a vCPU
-/

namespace Squib.Snapshot

def insertEntry (key value : UInt64) : List (UInt64 × UInt64) → List (UInt64 × UInt64)
  | [] => [(key, value)]
  | e :: entries =>
    if key < e.1 then (key, value) :: e :: entries
    else if key = e.1 then (key, value) :: entries
    else e :: insertEntry key value entries

structure VcpuSnapshotSource where
  mpidr : UInt64
  readGpRegs : Except SnapshotError GpRegs
  readFpSimd : Except SnapshotError FpSimdRegs
  readSysReg : SysReg → Except SnapshotError (Option UInt64)
  psciState : PsciVcpuState

def captureSysReg (source : VcpuSnapshotSource) (entries : List (UInt64 × UInt64)) (reg : SysReg) :
    Except SnapshotError (List (UInt64 × UInt64)) := do
  match ← source.readSysReg reg with
  | some value => return insertEntry reg.asEncoded value entries
  | none => return entries

def captureVcpuState (source : VcpuSnapshotSource) : Except SnapshotError VcpuState := do
  let regs ← source.readGpRegs
  let fpRegs ← source.readFpSimd
  let sysRegs ← SysReg.all.foldlM (captureSysReg source) []
  return { mpidr := source.mpidr, regs, fpRegs, sysRegs, psciState := source.psciState }

inductive VcpuWrite where
  | gpRegs (regs : GpRegs)
  | fpSimd (regs : FpSimdRegs)
  | sysReg (reg : SysReg) (value : UInt64)
  | psciState (state : PsciVcpuState)

abbrev VcpuRestoreTarget (τ : Type) := VcpuWrite → ExceptT SnapshotError (StateM τ) Unit

variable {τ : Type}

def restoreSysReg (target : VcpuRestoreTarget τ) (entry : UInt64 × UInt64) :
    ExceptT SnapshotError (StateM τ) Unit :=
  match SysReg.fromEncoded entry.1 with
  | none => throw .incompatible
  | some reg => target (.sysReg reg entry.2)

def restoreVcpuState (target : VcpuRestoreTarget τ) (state : VcpuState) (vcpuIndex : UInt32) :
    ExceptT SnapshotError (StateM τ) Unit := do
  target (.gpRegs state.regs)
  target (.fpSimd state.fpRegs)
  forM state.sysRegs (restoreSysReg target)
  let normalized := if vcpuIndex = 0 then PsciVcpuState.on else PsciVcpuState.off
  target (.psciState normalized)

theorem insertEntry_last {key : UInt64} (value : UInt64) :
    ∀ {entries : List (UInt64 × UInt64)}, (∀ e ∈ entries, e.1 < key) →
      insertEntry key value entries = entries ++ [(key, value)]
  | [], _ => rfl
  | e :: entries, h => by
    have hlt := h e List.mem_cons_self
    rw [insertEntry, if_neg (UInt64.not_lt.2 (UInt64.le_of_lt hlt)),
      if_neg (UInt64.ne_of_lt hlt).symm, insertEntry_last value fun e he => h e (.tail _ he)]
    rfl

/-! ## The round trip -/

def readableRegs (sys : SysReg → Option UInt64) (regs : List SysReg) : List (SysReg × UInt64) :=
  regs.filterMap fun reg => (sys reg).map (reg, ·)

section Capture

variable {source : VcpuSnapshotSource} {sys : SysReg → Option UInt64}

theorem foldlM_captureSysReg (hsys : ∀ reg, source.readSysReg reg = .ok (sys reg))
    (regs : List SysReg) (entries : List (UInt64 × UInt64))
    (hsorted : regs.Pairwise fun a b => a.asEncoded < b.asEncoded)
    (hbelow : ∀ e ∈ entries, ∀ reg ∈ regs, e.1 < reg.asEncoded) :
    regs.foldlM (captureSysReg source) entries =
      .ok (entries ++ (readableRegs sys regs).map fun x => (x.1.asEncoded, x.2)) := by
  induction regs generalizing entries with
  | nil => simp [readableRegs, pure, Except.pure]
  | cons reg regs ih =>
    obtain ⟨hreg, hsorted⟩ := List.pairwise_cons.1 hsorted
    rw [List.foldlM_cons, captureSysReg, hsys reg]
    cases hs : sys reg with
    | none =>
      simp only [readableRegs, List.filterMap_cons, hs, Option.map_none]
      exact ih entries hsorted fun e he r hr => hbelow e he r (.tail _ hr)
    | some value =>
      simp only [readableRegs, List.filterMap_cons, hs, Option.map_some, List.map_cons]
      rw [List.append_cons, ← insertEntry_last value fun e he => hbelow e he reg List.mem_cons_self]
      refine ih _ hsorted fun e he r hr => ?_
      rw [insertEntry_last value fun e he => hbelow e he reg List.mem_cons_self] at he
      rcases List.mem_append.1 he with he | he
      · exact hbelow e he r (.tail _ hr)
      · rw [List.mem_singleton.1 he]
        exact hreg r hr

theorem mem_readableRegs {reg : SysReg} {value : UInt64} :
    (reg, value) ∈ readableRegs sys SysReg.all ↔ sys reg = some value := by
  simp [readableRegs, SysReg.mem_all, eq_comm]

theorem nodup_readableRegs : ((readableRegs sys SysReg.all).map Prod.fst).Nodup := by
  have hall : SysReg.all.Nodup := SysReg.all_sorted.imp fun h e => UInt64.ne_of_lt h (congrArg _ e)
  rw [readableRegs, List.map_filterMap]
  refine List.Nodup.filterMap (fun a a' b hb hb' => ?_) hall
  rw [Option.map_map, Option.mem_def, Option.map_eq_some_iff] at hb hb'
  obtain ⟨_, -, rfl⟩ := hb
  obtain ⟨_, -, h⟩ := hb'
  exact h.symm

end Capture

def writeAll (target : VcpuRestoreTarget τ) (writes : List VcpuWrite) :
    ExceptT SnapshotError (StateM τ) Unit := forM writes target

theorem forM_restoreSysReg (target : VcpuRestoreTarget τ) (regs : List (SysReg × UInt64)) :
    forM (regs.map fun x => (x.1.asEncoded, x.2)) (restoreSysReg target) =
      writeAll target (regs.map fun x => .sysReg x.1 x.2) := by
  induction regs with
  | nil => rfl
  | cons x regs ih =>
    rw [List.map_cons, List.forM_cons, ih, restoreSysReg, SysReg.fromEncoded_asEncoded, List.map_cons,
      writeAll, writeAll, List.forM_cons]

theorem restoreSysReg_unknown (target : VcpuRestoreTarget τ) {entries : List (UInt64 × UInt64)}
    (h : ∃ e ∈ entries, SysReg.fromEncoded e.1 = none) :
    ∃ writes, forM entries (restoreSysReg target) =
      writeAll target writes >>= fun _ => throw .incompatible := by
  induction entries with
  | nil => simp at h
  | cons e entries ih =>
    rw [List.forM_cons, restoreSysReg]
    cases hreg : SysReg.fromEncoded e.1 with
    | none => exact ⟨[], rfl⟩
    | some reg =>
      obtain ⟨writes, hw⟩ := ih (by simpa [hreg] using h)
      exact ⟨.sysReg reg e.2 :: writes, by rw [hw, writeAll, writeAll, List.forM_cons, bind_assoc]⟩

/-- **A restore writes what was captured, and nothing else.** A state with an unknown key is
rejected. -/
theorem restore_captured (source : VcpuSnapshotSource) {gp : GpRegs} {fp : FpSimdRegs}
    {sys : SysReg → Option UInt64} (hgp : source.readGpRegs = .ok gp)
    (hfp : source.readFpSimd = .ok fp) (hsys : ∀ reg, source.readSysReg reg = .ok (sys reg)) :
    (∃ (state : VcpuState) (regs : List (SysReg × UInt64)), captureVcpuState source = .ok state ∧
      (regs.map Prod.fst).Nodup ∧ (∀ reg value, (reg, value) ∈ regs ↔ sys reg = some value) ∧
      ∀ (τ : Type) (target : VcpuRestoreTarget τ) (vcpuIndex : UInt32),
        restoreVcpuState target state vcpuIndex =
          writeAll target (.gpRegs gp :: .fpSimd fp :: regs.map (fun x => .sysReg x.1 x.2) ++
            [.psciState (if vcpuIndex = 0 then .on else .off)])) ∧
    ∀ (state : VcpuState), (∃ e ∈ state.sysRegs, SysReg.fromEncoded e.1 = none) →
      ∀ (τ : Type) (target : VcpuRestoreTarget τ) (vcpuIndex : UInt32),
        ∃ writes, restoreVcpuState target state vcpuIndex =
          writeAll target writes >>= fun _ => throw .incompatible := by
  constructor
  · have hentries := foldlM_captureSysReg hsys SysReg.all [] SysReg.all_sorted (by simp)
    refine ⟨⟨source.mpidr, gp, fp, (readableRegs sys SysReg.all).map fun x => (x.1.asEncoded, x.2),
      source.psciState⟩, readableRegs sys SysReg.all, ?_, nodup_readableRegs,
      fun _ _ => mem_readableRegs, fun τ target vcpuIndex => ?_⟩
    · rw [captureVcpuState, hgp, hfp]
      show (SysReg.all.foldlM (captureSysReg source) [] >>= fun sysRegs => _) = _
      rw [hentries]
      rfl
    · rw [restoreVcpuState, forM_restoreSysReg]
      simp only [writeAll, List.forM_append, List.forM_cons, List.forM_nil, List.cons_append,
        bind_pure_unit]
  · intro state h τ target vcpuIndex
    obtain ⟨writes, hw⟩ := restoreSysReg_unknown target h
    refine ⟨.gpRegs state.regs :: .fpSimd state.fpRegs :: writes, ?_⟩
    simp only [restoreVcpuState, hw, writeAll, List.forM_cons, bind_assoc]
    rfl

section Example

def oneRegister : VcpuSnapshotSource where
  mpidr := 0
  readGpRegs := .ok (VcpuState.new 0).regs
  readFpSimd := .ok (VcpuState.new 0).fpRegs
  readSysReg reg := .ok (if reg = .tcrEl1 then some 7 else none)
  psciState := .onPending

theorem restore_oneRegister : ∃ (state : VcpuState) (regs : List (SysReg × UInt64)),
    captureVcpuState oneRegister = .ok state ∧ (.tcrEl1, 7) ∈ regs ∧
      ∀ (τ : Type) (target : VcpuRestoreTarget τ) (vcpuIndex : UInt32),
        restoreVcpuState target state vcpuIndex =
          writeAll target (.gpRegs (VcpuState.new 0).regs :: .fpSimd (VcpuState.new 0).fpRegs ::
            regs.map (fun x => .sysReg x.1 x.2) ++
              [.psciState (if vcpuIndex = 0 then .on else .off)]) := by
  obtain ⟨⟨state, regs, hstate, -, hregs, hrestore⟩, -⟩ :=
    restore_captured oneRegister rfl rfl fun _ => rfl
  exact ⟨state, regs, hstate, (hregs .tcrEl1 7).2 rfl, hrestore⟩

end Example

end Squib.Snapshot
