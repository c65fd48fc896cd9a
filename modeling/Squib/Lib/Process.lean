import Squib.Lib.FileTree
import Squib.Lib.Stateful

/-!
# A process and its credentials
-/

namespace Posix

open Stateful

structure Creds where
  ruid : UInt32
  euid : UInt32
  suid : UInt32
  rgid : UInt32
  egid : UInt32
  sgid : UInt32
  groups : List UInt32
  deriving DecidableEq, Repr

namespace Creds

def setuid (c : Creds) (uid : UInt32) : Option Creds :=
  if c.euid = 0 then some { c with ruid := uid, euid := uid, suid := uid }
  else if uid = c.ruid ∨ uid = c.suid then some { c with euid := uid }
  else none

def setgid (c : Creds) (gid : UInt32) : Option Creds :=
  if c.euid = 0 then some { c with rgid := gid, egid := gid, sgid := gid }
  else if gid = c.rgid ∨ gid = c.sgid then some { c with egid := gid }
  else none

end Creds

inductive Call where
  | setrlimit (resource value : ℕ)
  | fork
  | setsid
  | openFile (path : Path)
  | dup2 (fd target : ℕ)
  | close (fd : ℕ)
  | chroot (path : Path)
  | chdir (path : Path)
  | setgid (gid : UInt32)
  | setuid (uid : UInt32)
  | sandboxInit (profile : List UInt8)
  | execve (path : Path) (argv envp : List (List UInt8))
  deriving DecidableEq, Repr

inductive Fate where
  | ok (rc : ℕ)
  | fail (errno : ℕ)
  deriving DecidableEq, Repr

def EPERM : ℕ := 1

variable {Dir ε α β : Type}

structure Kernel (Dir : Type) where
  lookup : ℕ → (root cwd : Dir) → Path → Option Dir
  fate : ℕ → Call → Fate
  lookup_root : ∀ t root cwd, lookup t root cwd rootPath = some root

structure Process (Dir : Type) where
  creds : Creds
  root : Dir
  cwd : Dir
  deriving DecidableEq, Repr

structure Sys (Dir : Type) where
  proc : Process Dir
  log : List (Call × Bool)

variable (k : Kernel Dir)

def Process.effect (p : Process Dir) (t : ℕ) : Call → Except ℕ (Process Dir)
  | .chroot path =>
    if p.creds.euid = 0 then
      match k.lookup t p.root p.cwd path with
      | some d => .ok { p with root := d }
      | none => .error ENOENT
    else .error EPERM
  | .chdir path =>
    match k.lookup t p.root p.cwd path with
    | some d => .ok { p with cwd := d }
    | none => .error ENOENT
  | .setgid gid =>
    match p.creds.setgid gid with
    | some creds => .ok { p with creds }
    | none => .error EPERM
  | .setuid uid =>
    match p.creds.setuid uid with
    | some creds => .ok { p with creds }
    | none => .error EPERM
  | _ => .ok p

section Effect

variable {k} {p p' : Process Dir} {t : ℕ}

theorem effect_chroot {path : Path} (h : p.effect k t (.chroot path) = .ok p') :
    p.creds.euid = 0 ∧ ∃ d, k.lookup t p.root p.cwd path = some d ∧ p' = { p with root := d } := by
  simp only [Process.effect] at h
  by_cases huid : p.creds.euid = 0
  · rw [if_pos huid] at h
    cases hd : k.lookup t p.root p.cwd path with
    | none =>
      rw [hd] at h
      cases h
    | some d =>
      rw [hd] at h
      cases h
      exact ⟨huid, d, rfl, rfl⟩
  · rw [if_neg huid] at h
    cases h

theorem effect_chdir_root (h : p.effect k t (.chdir rootPath) = .ok p') :
    p' = { p with cwd := p.root } := by
  simp only [Process.effect, k.lookup_root] at h
  exact (Except.ok.inj h).symm

theorem effect_setgid {gid : UInt32} (hroot : p.creds.euid = 0)
    (h : p.effect k t (.setgid gid) = .ok p') :
    p' = { p with creds := { p.creds with rgid := gid, egid := gid, sgid := gid } } := by
  simp only [Process.effect, Creds.setgid, if_pos hroot] at h
  exact (Except.ok.inj h).symm

theorem effect_setuid {uid : UInt32} (hroot : p.creds.euid = 0)
    (h : p.effect k t (.setuid uid) = .ok p') :
    p' = { p with creds := { p.creds with ruid := uid, euid := uid, suid := uid } } := by
  simp only [Process.effect, Creds.setuid, if_pos hroot] at h
  exact (Except.ok.inj h).symm

end Effect

def Sys.after (s : Sys Dir) (c : Call) : Except ℕ ℕ × Sys Dir :=
  match k.fate s.log.length c with
  | .fail errno => (.error errno, { s with log := s.log ++ [(c, false)] })
  | .ok rc =>
    match s.proc.effect k s.log.length c with
    | .error errno => (.error errno, { s with log := s.log ++ [(c, false)] })
    | .ok proc => (.ok rc, { proc, log := s.log ++ [(c, true)] })

inductive Stop (ε : Type) where
  | err (e : ε)
  | exited
  | replaced
  deriving DecidableEq, Repr

abbrev Io (Dir ε α : Type) := EStateM (Stop ε) (Sys Dir) α

def call (c : Call) : Io Dir ε (Except ℕ ℕ) := fun s =>
  .ok (s.after k c).1 (s.after k c).2

def check (c : Call) (e : ℕ → ε) : Io Dir ε ℕ := do
  match ← call k c with
  | .ok rc => return rc
  | .error errno => throw (.err (e errno))

section Rules

variable {k} {s : Sys Dir} {E : Sys Dir → Prop}

structure Did (k : Kernel Dir) (c : Call) (s s' : Sys Dir) : Prop where
  log : s'.log = s.log ++ [(c, true)]
  effect : s.proc.effect k s.log.length c = .ok s'.proc

theorem ends_call (c : Call) :
    Ends (call k c : Io Dir ε _) s
      (fun r s' => (∃ rc, r = .ok rc ∧ Did k c s s') ∨
        ∃ errno, r = .error errno ∧ s'.log = s.log ++ [(c, false)] ∧ s'.proc = s.proc) E := by
  unfold Ends call Sys.after
  cases k.fate s.log.length c with
  | fail errno => exact .inr ⟨errno, rfl, rfl, rfl⟩
  | ok rc =>
    dsimp only
    cases heffect : s.proc.effect k s.log.length c with
    | error errno => exact .inr ⟨errno, rfl, rfl, rfl⟩
    | ok proc => exact .inl ⟨rc, rfl, rfl, heffect⟩

theorem ends_check {c : Call} {e : ℕ → ε}
    (hE : ∀ s' : Sys Dir, s'.log = s.log ++ [(c, false)] → E s') :
    Ends (check k c e) s (fun _ s' => Did k c s s') E := by
  refine (ends_call c).bind fun r s' h => ?_
  obtain ⟨rc, rfl, hdid⟩ | ⟨errno, rfl, hlog, -⟩ := h
  · exact .pure hdid
  · exact .throw (hE s' hlog)

end Rules

end Posix
