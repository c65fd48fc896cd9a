import Squib.Block.Backend

/-!
# Two engines, one file
-/

namespace Squib.BlockDevice

open HostFile

inductive FileOp where
  | sizeBytes
  | readAt (off : UInt64) (len : ℕ)
  | writeAt (off : UInt64) (buf : List UInt8)
  | flush
  deriving DecidableEq, Repr

inductive Outcome where
  | size (n : UInt64)
  | bytes {len : ℕ} (r : Option (Vector UInt8 len))
  | done (r : Option Unit)

namespace FileOp

variable (backend : FileBackend File)

def exec (f : File) : FileOp → Outcome × File
  | sizeBytes => (.size (backend.sizeBytes f), f)
  | readAt off len => (.bytes (backend.readAt off len f).1.toOption, (backend.readAt off len f).2)
  | writeAt off buf => (.done (backend.writeAt off buf f).1.toOption, (backend.writeAt off buf f).2)
  | flush => (.done (backend.flush f).1.toOption, (backend.flush f).2)

def execAll : List FileOp → File → List Outcome × File
  | [], f => ([], f)
  | op :: ops, f =>
    let rest := execAll ops (op.exec backend f).2
    ((op.exec backend f).1 :: rest.1, rest.2)

def Plain (readOnly : Bool) : FileOp → Prop
  | readAt off len => len = 0 → off.toNat < maxOffset
  | writeAt off buf => readOnly = false → buf = [] → off.toNat < maxOffset
  | sizeBytes | flush => True

end FileOp

def AtPos (f g : File) : Prop := ∃ pos, g = { f with pos }

variable {f g : File} (readOnly : Bool) (size : UInt64)

theorem Engine.readAt_agree (h : AtPos f g) (off : UInt64) (len : ℕ) :
    AtPos (Engine.readAt .sync off len f).2 (Engine.readAt .async off len g).2 ∧
      ((Engine.readAt .sync off len f).1.toOption = (Engine.readAt .async off len g).1.toOption ↔
        (len = 0 → off.toNat < maxOffset)) := by
  obtain ⟨pos, rfl⟩ := h
  simp only [Engine.readAt, readExactAt_atPos, File.seekStart]
  split_ifs with hoff
  · -- the seek fails; the other engine notices the offset only if it has bytes to move
    refine ⟨⟨pos, ?_⟩, ?_⟩
    · rw [File.readExactAt_idle (.inr hoff)]
    · unfold File.readExactAt
      split_ifs with hlen <;> simp [hlen, Except.mapError, Except.toOption]
      exact hoff
  · simp only [File.readExact, readExactAt_atPos]
    exact ⟨⟨pos, rfl⟩, iff_of_true trivial fun _ => not_le.1 hoff⟩

theorem Engine.writeAt_agree (h : AtPos f g) (off : UInt64) (buf : List UInt8) :
    AtPos (Engine.writeAt .sync readOnly off buf f).2 (Engine.writeAt .async readOnly off buf g).2 ∧
      ((Engine.writeAt .sync readOnly off buf f).1.toOption =
        (Engine.writeAt .async readOnly off buf g).1.toOption ↔
        (readOnly = false → buf = [] → off.toNat < maxOffset)) := by
  obtain ⟨pos, rfl⟩ := h
  cases readOnly with
  | true => exact ⟨⟨pos, rfl⟩, iff_of_true rfl nofun⟩
  | false =>
    simp only [Engine.writeAt, writeAllAt_atPos, File.seekStart, if_neg Bool.false_ne_true]
    split_ifs with hoff
    · refine ⟨⟨pos, ?_⟩, ?_⟩
      · rw [File.writeAllAt_idle (.inr hoff)]
      · unfold File.writeAllAt
        split_ifs with hbuf <;> simp [hbuf, Except.mapError, Except.toOption]
        exact hoff
    · simp only [File.writeAll, writeAllAt_atPos]
      exact ⟨⟨pos, rfl⟩, iff_of_true trivial fun _ _ => not_le.1 hoff⟩

theorem FileOp.exec_agree (h : AtPos f g) (op : FileOp) :
    AtPos (op.exec (ofEngine .sync readOnly size) f).2 (op.exec (ofEngine .async readOnly size) g).2 ∧
      ((op.exec (ofEngine .sync readOnly size) f).1 = (op.exec (ofEngine .async readOnly size) g).1 ↔
        op.Plain readOnly) := by
  cases op with
  | sizeBytes => exact ⟨h, iff_of_true rfl trivial⟩
  | readAt off len =>
    obtain ⟨hpos, hiff⟩ := Engine.readAt_agree h off len
    refine ⟨hpos, Iff.trans ?_ hiff⟩
    show Outcome.bytes _ = Outcome.bytes _ ↔ _
    simp only [Outcome.bytes.injEq, heq_eq_eq, true_and]
    rfl
  | writeAt off buf =>
    obtain ⟨hpos, hiff⟩ := Engine.writeAt_agree readOnly h off buf
    refine ⟨hpos, Iff.trans ?_ hiff⟩
    show Outcome.done _ = Outcome.done _ ↔ _
    rw [Outcome.done.injEq]
    rfl
  | flush =>
    obtain ⟨pos, rfl⟩ := h
    simp only [exec, ofEngine, Engine.flush, File.syncData, Plain, iff_true]
    cases f.fate f.clock <;> exact ⟨⟨pos, rfl⟩, rfl⟩

theorem FileOp.execAll_agree (ops : List FileOp) (h : AtPos f g) :
    AtPos (execAll (ofEngine .sync readOnly size) ops f).2
        (execAll (ofEngine .async readOnly size) ops g).2 ∧
      ((execAll (ofEngine .sync readOnly size) ops f).1 =
        (execAll (ofEngine .async readOnly size) ops g).1 ↔
        ∀ op ∈ ops, op.Plain readOnly) := by
  induction ops generalizing f g with
  | nil => exact ⟨h, iff_of_true rfl nofun⟩
  | cons op ops ih =>
    obtain ⟨hpos, hiff⟩ := exec_agree readOnly size h op
    obtain ⟨hpos', hiff'⟩ := ih hpos
    refine ⟨hpos', ?_⟩
    rw [execAll, execAll, List.cons.injEq, hiff, hiff', List.forall_mem_cons]

/-- **The engines are interchangeable but for empty transfers beyond the last offset.** -/
theorem engines_agree_iff (ops : List FileOp) (f : File) :
    ((FileOp.execAll (ofEngine .sync readOnly size) ops f).1 =
        (FileOp.execAll (ofEngine .async readOnly size) ops f).1 ∧
      (FileOp.execAll (ofEngine .sync readOnly size) ops f).2.data =
        (FileOp.execAll (ofEngine .async readOnly size) ops f).2.data) ↔
      ∀ op ∈ ops, op.Plain readOnly := by
  obtain ⟨⟨pos, hpos⟩, hiff⟩ := FileOp.execAll_agree readOnly size ops (f := f) ⟨f.pos, rfl⟩
  rw [hpos, and_iff_left rfl]
  exact hiff

/-- An empty read at `2 ^ 63` fails on the one engine only. -/
theorem engines_differ :
    (FileOp.execAll (ofEngine .sync true 0) [.readAt 0x8000000000000000 0] { data := [] }).1 ≠
      (FileOp.execAll (ofEngine .async true 0) [.readAt 0x8000000000000000 0] { data := [] }).1 := by
  intro h
  have hplain := (FileOp.execAll_agree true 0 [.readAt 0x8000000000000000 0] ⟨0, rfl⟩).2.1 h
  exact absurd (hplain _ (List.mem_singleton_self _) rfl) (by decide)

end Squib.BlockDevice
