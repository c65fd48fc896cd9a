import Squib.Lib.Syscall
import Squib.Snapshot.State

/-!
# Temp file, fsync, rename
-/

namespace Squib.Snapshot

open Fs

abbrev Io (α : Type) : Type := Fs.Io Path SnapshotError α

abbrev World : Type := Fs.World Path

structure Host where
  parent : Path → Path
  dev : Path → ℕ

def TEMP_SUFFIX : String := ".tmp"

def deriveTempPath (dest : Path) : Path := dest ++ TEMP_SUFFIX

def checkSameFilesystem (host : Host) (dest temp : Path) : Io Unit := do
  probe (.stat (host.parent dest)) .io
  probe (.stat (host.parent temp)) .io
  if host.dev (host.parent dest) ≠ host.dev (host.parent temp) then
    throw (.err (.atomicCommitCrossFs dest (host.parent temp)))

structure AtomicWriter where
  file : File Path
  tempPath : Path
  destPath : Path

namespace AtomicWriter

def «open» (host : Host) (dest : Path) : Io AtomicWriter := do
  let temp := deriveTempPath dest
  checkSameFilesystem host dest temp
  let file ← create .io temp
  return { file, tempPath := temp, destPath := dest }

def drop (w : AtomicWriter) : Io Unit := unlink w.tempPath

def commit (w : AtomicWriter) : Io Unit :=
  onErr
    (do
      probe (.fsync w.file.name) .io
      rename .atomicCommitFailed w.tempPath w.destPath)
    w.drop

end AtomicWriter

/-! ## Paths -/

theorem deriveTempPath_inj {p q : Path} (h : deriveTempPath p = deriveTempPath q) : p = q := by
  have := congrArg String.toList h
  rw [deriveTempPath, deriveTempPath, String.toList_append, String.toList_append] at this
  exact String.toList_inj.1 (List.append_cancel_right this)

theorem deriveTempPath_ne (p : Path) : deriveTempPath p ≠ p := by
  intro h
  have := congrArg (fun s => s.toList.length) h
  simp [deriveTempPath, TEMP_SUFFIX] at this

/-! ## Staged files -/

structure AtomicWriter.Staged (a : AtomicWriter) (w : World) (bs : List UInt8) : Prop where
  temp : a.tempPath = deriveTempPath a.destPath
  name : a.file.name = a.tempPath
  entry : w.disk.entry a.tempPath = some a.file.inode
  data : w.disk.data a.file.inode = bs

variable {a : AtomicWriter} {w : World} {bs : List UInt8}

theorem AtomicWriter.Staged.read (h : a.Staged w bs) : w.disk.read a.tempPath = some bs := by
  rw [Disk.read, h.entry, Option.map_some, h.data]

theorem AtomicWriter.Staged.file_entry (h : a.Staged w bs) :
    w.disk.entry a.file.name = some a.file.inode := by
  rw [h.name, h.entry]

section Open

variable {host : Host} {dest : Path} {w w' : World}

theorem unchanged_checkSameFilesystem (temp : Path) :
    Unchanged w (endWorld (checkSameFilesystem host dest temp w)) := by
  unfold checkSameFilesystem
  refine endWorld_bind (R := Unchanged) Unchanged.trans (unchanged_probe _) fun _ w₁ _ => ?_
  refine endWorld_bind (R := Unchanged) Unchanged.trans (unchanged_probe _) fun _ w₂ _ => ?_
  split_ifs
  · exact .refl w₂
  · exact .refl w₂

theorem AtomicWriter.open_ok {a : AtomicWriter} (h : AtomicWriter.open host dest w = .ok a w') :
    a.Staged w' [] ∧ a.destPath = dest ∧ a.file.pos = 0 ∧ w'.written = w.written ∧
      Touches [deriveTempPath dest] w w' := by
  obtain ⟨u, w₁, h₁, h⟩ := bind_eq_ok.1 h
  obtain ⟨f, w₂, h₂, h⟩ := bind_eq_ok.1 h
  cases h
  have hsame := @unchanged_checkSameFilesystem host dest w (deriveTempPath dest)
  rw [h₁] at hsame
  have htouch := touches_create (e := SnapshotError.io) (w := w₁) (deriveTempPath dest)
  rw [h₂] at htouch
  obtain ⟨rfl, rfl⟩ := create_ok h₂
  obtain ⟨hentry, hread, -⟩ := w₁.disk.create_spec (deriveTempPath dest)
  rw [Disk.read, hentry, Option.map_some, Option.some_inj] at hread
  refine ⟨⟨rfl, rfl, hentry, hread⟩, rfl, rfl, hsame.written, ?_⟩
  exact ((hsame.writes (deriveTempPath dest)).touches (List.mem_singleton_self _)).trans htouch

theorem AtomicWriter.open_error {s : Stop SnapshotError}
    (h : AtomicWriter.open host dest w = .error s w') : Unchanged w w' := by
  have hsame := @unchanged_checkSameFilesystem host dest w (deriveTempPath dest)
  rcases bind_eq_error.1 h with h₁ | ⟨u, w₁, h₁, h⟩
  · rw [h₁] at hsame
    exact hsame
  · rw [h₁] at hsame
    rcases bind_eq_error.1 h with h₂ | ⟨f, w₂, -, h⟩
    · rw [create_error h₂]
      exact hsame.trans (unchanged_next w₁)
    · cases h

theorem AtomicWriter.touches_open :
    Touches [deriveTempPath dest] w (endWorld (AtomicWriter.open host dest w)) := by
  cases h : AtomicWriter.open host dest w with
  | error s w' =>
    exact ((open_error h).writes (deriveTempPath dest)).touches (List.mem_singleton_self _)
  | ok a w' => exact (open_ok h).2.2.2.2

end Open

section Commit

variable {a : AtomicWriter} {w w' : World}

theorem AtomicWriter.commit_ok (h : a.commit w = .ok () w') :
    ∃ d, w.disk.rename a.tempPath a.destPath = some d ∧ w'.disk = d ∧ w'.fate = w.fate ∧
      w'.written = w.written := by
  obtain ⟨u, w₁, h₁, h₂⟩ := bind_eq_ok.1 (onErr_eq_ok.1 h)
  obtain ⟨d, hd, rfl⟩ := rename_ok h₂
  rw [probe_ok h₁] at hd ⊢
  exact ⟨d, hd, rfl, rfl, rfl⟩

variable {s : Stop SnapshotError}

theorem AtomicWriter.commit_calls_error (h : (do
      probe (.fsync a.file.name) .io
      rename .atomicCommitFailed a.tempPath a.destPath : Io Unit) w = .error s w') :
    Unchanged w w' := by
  rcases bind_eq_error.1 h with h₁ | ⟨u, w₁, h₁, h₂⟩
  · have hsame := unchanged_probe (w := w) (e := SnapshotError.io) (.fsync a.file.name)
    rw [h₁] at hsame
    exact hsame
  · rw [rename_error h₂, probe_ok h₁]
    exact (unchanged_next w).trans (unchanged_next _)

theorem AtomicWriter.commit_error (h : a.commit w = .error s w') : Touches [a.tempPath] w w' := by
  rcases onErr_eq_error h with ⟨e, w₁, hm, hc⟩ | ⟨hm, -⟩
  · have hsame := (commit_calls_error hm).writes a.tempPath
    have hdrop := touches_unlink (ε := SnapshotError) (w := w₁) a.tempPath
    refine (hsame.touches (List.mem_singleton_self _)).trans ?_
    rcases hc with ⟨hc, -⟩ | hc
    · rw [AtomicWriter.drop] at hc
      rwa [hc] at hdrop
    · rw [AtomicWriter.drop] at hc
      rwa [hc] at hdrop
  · exact ((commit_calls_error hm).writes a.tempPath).touches (List.mem_singleton_self _)

theorem AtomicWriter.commit_err_entry {e : SnapshotError}
    (hunlink : ∀ t n, w.fate t (.unlink n) = .ok) (h : a.commit w = .error (.err e) w') :
    w'.disk.entry a.tempPath = none := by
  rcases onErr_eq_error h with ⟨e', w₁, hm, ⟨hc, -⟩ | hc⟩ | ⟨-, hne⟩
  · have hsame := commit_calls_error hm
    rw [AtomicWriter.drop] at hc
    rw [unlink_ok (fun t => by rw [hsame.fate]; exact hunlink t _) hc]
    exact (Disk.entry_unlink _ _ _).trans (if_pos rfl)
  · exact absurd hc unlink_ne_err
  · exact absurd rfl (hne e)

theorem AtomicWriter.commit_returns (hsync : ∀ t, w.fate t (.fsync a.file.name) = .ok)
    (hrename : ∀ t, w.fate t (.rename a.tempPath a.destPath) = .ok)
    (hentry : w.disk.entry a.tempPath ≠ none) : ∃ w', a.commit w = .ok () w' := by
  obtain ⟨d, hd⟩ := Option.ne_none_iff_exists'.1
    ((Disk.rename_eq_none (b := a.destPath)).not.2 hentry)
  refine ⟨(w.next w.disk).next d, onErr_eq_ok.2 (bind_eq_ok.2 ⟨(), w.next w.disk, ?_, ?_⟩)⟩
  · exact call_of_ok (hsync _) rfl
  · refine call_of_ok (hrename _) ?_
    simp only [World.next, hd]

end Commit

end Squib.Snapshot
