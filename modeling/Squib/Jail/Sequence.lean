import Squib.Jail.Env
import Squib.Lib.Process

/-!
# The privilege drop
-/

namespace Squib.Jail

open Posix Checked Stateful

variable {Dir : Type}

structure Libsandbox where
  profileBody : SandboxProfile → List UInt8
  errbuf : ℕ → Option (List UInt8)

abbrev JailIo (Dir α : Type) := Io Dir JailerError α

def liftE {α : Type} : Except JailerError α → JailIo Dir α
  | .ok a => pure a
  | .error e => throw (.err e)

section Sequence

variable (k : Kernel Dir) (lib : Libsandbox) (env : JailerEnv)

def ResourceLimit.apply (lim : ResourceLimit) : JailIo Dir Unit := do
  let _ ← check k (.setrlimit lim.resource.number lim.value)
    fun errno => .Setrlimit lim.resource.key (.os errno)

def applyResourceLimits : List ResourceLimit → JailIo Dir Unit
  | [] => pure ()
  | lim :: lims => do
    lim.apply k
    applyResourceLimits lims

def forkOrExitParent : JailIo Dir Unit := do
  let pid ← check k .fork fun errno => .Setsid (.os errno)
  if 0 < pid then throw .exited

def devNull : Path := Text.bytes "/dev/null"

def redirect (fd : ℕ) : List ℕ → JailIo Dir (Except JailerError Unit)
  | [] => pure (.ok ())
  | target :: targets => do
    match ← call k (.dup2 fd target) with
    | .ok _ => redirect fd targets
    | .error errno => pure (.error (.RedirectStdio (.os errno)))

def closeExtra (fd : ℕ) : JailIo Dir Unit :=
  if 2 < fd then do
    let _ ← call k (.close fd)
  else pure ()

def redirectStdioToDevNull : JailIo Dir Unit := do
  let fd ← check k (.openFile devNull) fun errno => .OpenDevNull (.os errno)
  let result ← redirect k fd [0, 1, 2]
  closeExtra k fd
  liftE result

def daemonize : JailIo Dir Unit := do
  forkOrExitParent k
  let _ ← check k .setsid fun errno => .Setsid (.os errno)
  forkOrExitParent k
  redirectStdioToDevNull k

def daemonizeIf : Bool → JailIo Dir Unit
  | true => daemonize k
  | false => pure ()

def chroot (path : Path) : JailIo Dir Unit := do
  let pathC ← liftE (okOr (if Text.isUtf8 path then cstring path else none) (.PathContainsNul path))
  let _ ← check k (.chroot pathC) fun errno => .Chroot path (.os errno)
  let _ ← check k (.chdir rootPath) fun errno => .ChdirRoot (.os errno)

def setgid (gid : UInt32) : JailIo Dir Unit := do
  let _ ← check k (.setgid gid) fun errno => .Setgid gid (.os errno)

def setuid (uid : UInt32) : JailIo Dir Unit := do
  let _ ← check k (.setuid uid) fun errno => .Setuid uid (.os errno)

def applySandbox (profile : SandboxProfile) : JailIo Dir Unit := do
  let body ← liftE (okOr (cstring (lib.profileBody profile))
    (.SandboxInit (Text.bytes "profile body contains a NUL byte")))
  let _ ← check k (.sandboxInit body) fun rc =>
    .SandboxInit ((lib.errbuf rc).getD (Text.bytes "unknown sandbox_init error"))

def applySandboxIf : Option SandboxProfile → JailIo Dir Unit
  | some profile => applySandbox k lib profile
  | none => pure ()

def curatedEnvp : List (List UInt8) :=
  [Text.bytes "PATH=/usr/local/bin:/usr/bin:/bin:/usr/sbin:/sbin", Text.bytes "LANG=C",
    Text.bytes "LC_ALL=C"].filterMap cstring

def exec (argv : List (List UInt8)) : JailIo Dir Unit := do
  match argv with
  | [] => throw (.err (.Exec env.execFileInChroot (.other (Text.bytes "argv empty"))))
  | argv0 :: _ =>
    match ← call k (.execve argv0 argv curatedEnvp) with
    | .ok _ => throw .replaced
    | .error errno => throw (.err (.Exec env.execFileInChroot (.os errno)))

def dropPrivileges : JailIo Dir (List (List UInt8)) := do
  applyResourceLimits k env.resourceLimits
  daemonizeIf k env.daemonize
  chroot k env.chrootDir
  setgid k env.gid
  setuid k env.uid
  applySandboxIf k lib env.sandboxProfile
  liftE env.buildArgv

def run : JailIo Dir Unit := do
  let argv ← dropPrivileges k lib env
  exec k env argv

end Sequence

/-! ## The steps that were made -/

def isExec : Call → Bool
  | .execve .. => true
  | _ => false

def isClose : Call → Bool
  | .close _ => true
  | _ => false

def NoExec (s : Sys Dir) : Prop := ∀ e ∈ s.log, isExec e.1 = false

def steps (log : List (Call × Bool)) : List (Call × Bool) := log.filter fun e => !isClose e.1

structure Ran (cs : List Call) (s s' : Sys Dir) : Prop where
  steps_eq : steps s'.log = steps s.log ++ cs.map fun c => (c, true)
  grows : s.log <+: s'.log
  noExec : NoExec s'

variable {s : Sys Dir}

theorem Ran.refl (h : NoExec s) : Ran [] s s := ⟨by simp, List.prefix_rfl, h⟩

theorem Ran.trans {cs ds : List Call} {s₁ s₂ : Sys Dir} (h₁ : Ran cs s s₁) (h₂ : Ran ds s₁ s₂) :
    Ran (cs ++ ds) s s₂ :=
  ⟨by rw [h₂.steps_eq, h₁.steps_eq, List.map_append, List.append_assoc], h₁.grows.trans h₂.grows,
    h₂.noExec⟩

theorem NoExec.append {s' : Sys Dir} {c : Call} {b : Bool} (h : NoExec s) (hc : isExec c = false)
    (hlog : s'.log = s.log ++ [(c, b)]) : NoExec s' := by
  intro e he
  rw [hlog, List.mem_append, List.mem_singleton] at he
  obtain he | rfl := he
  · exact h e he
  · exact hc

section Steps

variable {k : Kernel Dir} {s : Sys Dir} {c : Call}

theorem Did.ran {s' : Sys Dir} (hs : NoExec s) (hexec : isExec c = false)
    (hclose : isClose c = false) (h : Did k c s s') : Ran [c] s s' := by
  refine ⟨?_, ⟨_, h.log.symm⟩, hs.append hexec h.log⟩
  rw [h.log, steps, List.filter_append]
  simp [steps, hclose]

variable {e : ℕ → JailerError}

theorem ends_step (hs : NoExec s) (hexec : isExec c = false) (hclose : isClose c = false) :
    Ends (check k c e) s
      (fun _ s' => Ran [c] s s' ∧ s.proc.effect k s.log.length c = .ok s'.proc) NoExec :=
  (ends_check fun _ hlog => hs.append hexec hlog).mono
    fun _ _ hdid => ⟨Did.ran hs hexec hclose hdid, hdid.effect⟩

theorem ends_inert (hs : NoExec s) (hexec : isExec c = false) (hclose : isClose c = false)
    (hinert : s.proc.effect k s.log.length c = .ok s.proc) :
    Ends (check k c e) s (fun _ s' => Ran [c] s s' ∧ s'.proc = s.proc) NoExec := by
  refine (ends_step hs hexec hclose).mono fun _ s' ⟨hran, heffect⟩ => ⟨hran, ?_⟩
  rw [hinert] at heffect
  exact (Except.ok.inj heffect).symm

theorem ends_liftE {α : Type} {x : Except JailerError α} (hs : NoExec s) :
    Ends (liftE x) s (fun a s' => x = .ok a ∧ s' = s) NoExec := by
  cases x with
  | ok a => exact .pure ⟨rfl, rfl⟩
  | error e => exact .throw hs

/-! ## Limits and descriptors -/

def limitCalls (lims : List ResourceLimit) : List Call :=
  lims.map fun lim => .setrlimit lim.resource.number lim.value

theorem ends_applyResourceLimits (lims : List ResourceLimit) (hs : NoExec s) :
    Ends (applyResourceLimits k lims) s
      (fun _ s' => Ran (limitCalls lims) s s' ∧ s'.proc = s.proc) NoExec := by
  induction lims generalizing s with
  | nil => exact .pure ⟨.refl hs, rfl⟩
  | cons lim lims ih =>
    refine (ends_inert hs rfl rfl rfl).discard.bind ?_
    rintro - s₁ ⟨hran₁, hproc₁⟩
    refine (ih hran₁.noExec).mono fun _ s₂ ⟨hran₂, hproc₂⟩ => ⟨hran₁.trans hran₂, ?_⟩
    rw [hproc₂, hproc₁]

theorem ends_forkOrExitParent (hs : NoExec s) :
    Ends (forkOrExitParent k) s (fun _ s' => Ran [.fork] s s' ∧ s'.proc = s.proc) NoExec := by
  refine (ends_inert hs rfl rfl rfl).bind fun pid s₁ h => ?_
  by_cases hpid : 0 < pid
  · rw [if_pos hpid]
    exact .throw h.1.noExec
  · rw [if_neg hpid]
    exact .pure h

theorem ends_redirect (fd : ℕ) (targets : List ℕ) (hs : NoExec s) :
    Ends (redirect k fd targets) s
      (fun r s' => NoExec s' ∧ s'.proc = s.proc ∧
        (r = .ok () → Ran (targets.map fun target => .dup2 fd target) s s')) NoExec := by
  induction targets generalizing s with
  | nil => exact .pure ⟨hs, rfl, fun _ => .refl hs⟩
  | cons target targets ih =>
    refine (ends_call _).bind fun r s₁ h => ?_
    obtain ⟨rc, rfl, hdid⟩ | ⟨errno, rfl, hlog, hproc⟩ := h
    · have hran := Did.ran hs rfl rfl hdid
      have hproc : s₁.proc = s.proc := (Except.ok.inj hdid.effect).symm
      refine (ih hran.noExec).mono fun r s₂ ⟨hexec, hproc₂, hrest⟩ => ⟨hexec, ?_, fun hr => ?_⟩
      · rw [hproc₂, hproc]
      · exact hran.trans (hrest hr)
    · exact .pure ⟨hs.append rfl hlog, hproc, fun h => by cases h⟩

def daemonCalls (fd : ℕ) : List Call :=
  [.fork, .setsid, .fork, .openFile devNull, .dup2 fd 0, .dup2 fd 1, .dup2 fd 2]

theorem ends_closeExtra (fd : ℕ) (hs : NoExec s) :
    Ends (closeExtra k fd) s
      (fun _ s' => NoExec s' ∧ s'.proc = s.proc ∧ steps s'.log = steps s.log ∧ s.log <+: s'.log)
      NoExec := by
  have hsteps (b : Bool) : steps (s.log ++ [(.close fd, b)]) = steps s.log := by
    simp [steps, isClose]
  unfold closeExtra
  by_cases hfd : 2 < fd
  · rw [if_pos hfd]
    refine Ends.discard ((ends_call _).mono fun a s' h => ?_)
    obtain ⟨rc, -, hdid⟩ | ⟨errno, -, hlog, hproc⟩ := h
    · exact ⟨hs.append rfl hdid.log, (Except.ok.inj hdid.effect).symm, by rw [hdid.log, hsteps],
        _, hdid.log.symm⟩
    · exact ⟨hs.append rfl hlog, hproc, by rw [hlog, hsteps], _, hlog.symm⟩
  · rw [if_neg hfd]
    exact .pure ⟨hs, rfl, rfl, List.prefix_rfl⟩

theorem ends_redirectStdioToDevNull (hs : NoExec s) :
    Ends (redirectStdioToDevNull k) s
      (fun _ s' => (∃ fd, Ran [.openFile devNull, .dup2 fd 0, .dup2 fd 1, .dup2 fd 2] s s') ∧
        s'.proc = s.proc) NoExec := by
  refine (ends_inert hs rfl rfl rfl).bind ?_
  rintro fd s₁ ⟨hopen, hproc₁⟩
  refine (ends_redirect fd [0, 1, 2] hopen.noExec).bind ?_
  rintro r s₂ ⟨hexec₂, hproc₂, hdups⟩
  refine (ends_closeExtra fd hexec₂).bind ?_
  rintro - s₃ ⟨hexec₃, hproc₃, hsteps, hgrows⟩
  refine (ends_liftE hexec₃).mono ?_
  rintro ⟨⟩ s₄ ⟨hr, rfl⟩
  have hran := hopen.trans (hdups hr)
  exact ⟨⟨fd, hsteps.trans hran.steps_eq, hran.grows.trans hgrows, hexec₃⟩,
    by rw [hproc₃, hproc₂, hproc₁]⟩

theorem ends_daemonize (hs : NoExec s) :
    Ends (daemonize k) s
      (fun _ s' => (∃ fd, Ran (daemonCalls fd) s s') ∧ s'.proc = s.proc) NoExec := by
  refine (ends_forkOrExitParent hs).bind ?_
  rintro - s₁ ⟨hfork₁, hproc₁⟩
  refine (ends_inert hfork₁.noExec rfl rfl rfl).bind ?_
  rintro - s₂ ⟨hsid, hproc₂⟩
  refine (ends_forkOrExitParent hsid.noExec).bind ?_
  rintro - s₃ ⟨hfork₂, hproc₃⟩
  refine (ends_redirectStdioToDevNull hfork₂.noExec).mono ?_
  rintro - s₄ ⟨⟨fd, hredirect⟩, hproc₄⟩
  refine ⟨⟨fd, ((hfork₁.trans hsid).trans hfork₂).trans hredirect⟩, ?_⟩
  rw [hproc₄, hproc₃, hproc₂, hproc₁]

theorem ends_daemonizeIf (b : Bool) (hs : NoExec s) :
    Ends (daemonizeIf k b) s
      (fun _ s' => (∃ fd, Ran (if b then daemonCalls fd else []) s s') ∧ s'.proc = s.proc) NoExec := by
  cases b with
  | true => exact ends_daemonize hs
  | false => exact .pure ⟨⟨0, .refl hs⟩, rfl⟩

/-! ## Directories and identifiers -/

structure Rooted (k : Kernel Dir) (path : Path) (launcher : Process Dir) (s : Sys Dir) : Prop where
  root : ∃ t, s.log[t]? = some (.chroot path, true) ∧
    k.lookup t launcher.root launcher.cwd path = some s.proc.root
  cwd : s.proc.cwd = s.proc.root

theorem ends_chroot (path : Path) (hs : NoExec s) :
    Ends (chroot k path) s
      (fun _ s' => Ran [.chroot path, .chdir rootPath] s s' ∧ s.proc.creds.euid = 0 ∧
        Rooted k path s.proc s' ∧ s'.proc.creds = s.proc.creds) NoExec := by
  refine (ends_liftE hs).bind ?_
  rintro pathC s₀ ⟨hpath, rfl⟩
  obtain rfl : path = pathC := by
    rw [okOr_eq_ok] at hpath
    by_cases hutf : Text.isUtf8 path = true
    · rw [if_pos hutf] at hpath
      exact (cstring_eq_some.1 hpath).2
    · rw [if_neg hutf] at hpath
      cases hpath
  refine (ends_check fun _ hlog => hs.append rfl hlog).bind ?_
  intro _ s₁ hdid
  have hroot := Did.ran hs rfl rfl hdid
  obtain ⟨huid, d, hd, hproc₁⟩ := effect_chroot hdid.effect
  refine Ends.discard ((ends_step hroot.noExec rfl rfl).mono ?_)
  rintro - s₂ ⟨hchdir, heffect₂⟩
  have hproc₂ := effect_chdir_root heffect₂
  refine ⟨hroot.trans hchdir, huid, ⟨⟨s₀.log.length, ?_, ?_⟩, ?_⟩, ?_⟩
  · obtain ⟨later, hlog⟩ := hchdir.grows
    rw [← hlog, hdid.log]
    simp
  · rw [hproc₂, hproc₁]
    exact hd
  · rw [hproc₂]
  · rw [hproc₂, hproc₁]

theorem Rooted.later {path : Path} {launcher : Process Dir} {s' : Sys Dir} (h : Rooted k path launcher s)
    (hgrows : s.log <+: s'.log) (hroot : s'.proc.root = s.proc.root) (hcwd : s'.proc.cwd = s.proc.cwd) :
    Rooted k path launcher s' := by
  obtain ⟨t, hcall, hd⟩ := h.root
  obtain ⟨later, hlog⟩ := hgrows
  obtain ⟨ht, -⟩ := List.getElem?_eq_some_iff.1 hcall
  refine ⟨⟨t, ?_, by rw [hroot]; exact hd⟩, by rw [hroot, hcwd, h.cwd]⟩
  rw [← hlog, List.getElem?_append_left ht, hcall]

theorem ends_setgid (gid : UInt32) (hs : NoExec s) (hroot : s.proc.creds.euid = 0) :
    Ends (setgid k gid) s
      (fun _ s' => Ran [.setgid gid] s s' ∧
        s'.proc = { s.proc with creds := { s.proc.creds with rgid := gid, egid := gid, sgid := gid } })
      NoExec :=
  Ends.discard ((ends_step hs rfl rfl).mono
    fun _ _ ⟨hran, heffect⟩ => ⟨hran, effect_setgid hroot heffect⟩)

theorem ends_setuid (uid : UInt32) (hs : NoExec s) (hroot : s.proc.creds.euid = 0) :
    Ends (setuid k uid) s
      (fun _ s' => Ran [.setuid uid] s s' ∧
        s'.proc = { s.proc with creds := { s.proc.creds with ruid := uid, euid := uid, suid := uid } })
      NoExec :=
  Ends.discard ((ends_step hs rfl rfl).mono
    fun _ _ ⟨hran, heffect⟩ => ⟨hran, effect_setuid hroot heffect⟩)

def sandboxCalls (lib : Libsandbox) : Option SandboxProfile → List Call
  | some profile => [.sandboxInit (lib.profileBody profile)]
  | none => []

theorem ends_applySandboxIf (lib : Libsandbox) (profile : Option SandboxProfile) (hs : NoExec s) :
    Ends (applySandboxIf k lib profile) s
      (fun _ s' => Ran (sandboxCalls lib profile) s s' ∧ s'.proc = s.proc) NoExec := by
  cases profile with
  | none => exact .pure ⟨.refl hs, rfl⟩
  | some profile =>
    refine (ends_liftE hs).bind ?_
    rintro body s₀ ⟨hbody, rfl⟩
    obtain rfl := (cstring_eq_some.1 (okOr_eq_ok.1 hbody)).2
    exact Ends.discard (ends_inert hs rfl rfl rfl)

end Steps

/-! ## The whole sequence -/

def plan (lib : Libsandbox) (env : JailerEnv) (fd : ℕ) : List Call :=
  limitCalls env.resourceLimits ++ (if env.daemonize then daemonCalls fd else []) ++
    [.chroot env.chrootDir, .chdir rootPath] ++ [.setgid env.gid] ++ [.setuid env.uid] ++
    sandboxCalls lib env.sandboxProfile

def jailCreds (env : JailerEnv) (launcher : Creds) : Creds :=
  { ruid := env.uid, euid := env.uid, suid := env.uid, rgid := env.gid, egid := env.gid,
    sgid := env.gid, groups := launcher.groups }

section Whole

variable {k : Kernel Dir} {lib : Libsandbox} {env : JailerEnv} {s : Sys Dir}

theorem ends_dropPrivileges (hs : NoExec s) :
    Ends (dropPrivileges k lib env) s
      (fun argv s' => (∃ fd, Ran (plan lib env fd) s s') ∧ env.buildArgv = .ok argv ∧
        Rooted k env.chrootDir s.proc s' ∧ s'.proc.creds = jailCreds env s.proc.creds) NoExec := by
  refine (ends_applyResourceLimits _ hs).bind ?_
  rintro - s₁ ⟨hlimits, hproc₁⟩
  refine (ends_daemonizeIf _ hlimits.noExec).bind ?_
  rintro - s₂ ⟨⟨fd, hdaemon⟩, hproc₂⟩
  refine (ends_chroot _ hdaemon.noExec).bind ?_
  rintro - s₃ ⟨hchroot, huid, hrooted, hcreds₃⟩
  have hroot₃ : s₃.proc.creds.euid = 0 := by rw [hcreds₃, huid]
  refine (ends_setgid _ hchroot.noExec hroot₃).bind ?_
  rintro - s₄ ⟨hsetgid, hproc₄⟩
  have hroot₄ : s₄.proc.creds.euid = 0 := by rw [hproc₄, hroot₃]
  refine (ends_setuid _ hsetgid.noExec hroot₄).bind ?_
  rintro - s₅ ⟨hsetuid, hproc₅⟩
  refine (ends_applySandboxIf lib _ hsetuid.noExec).bind ?_
  rintro - s₆ ⟨hsandbox, hproc₆⟩
  refine (ends_liftE hsandbox.noExec).mono ?_
  rintro argv s₇ ⟨hargv, rfl⟩
  have hlauncher : s₂.proc = s.proc := by rw [hproc₂, hproc₁]
  have hgrows := (hsetgid.grows.trans hsetuid.grows).trans hsandbox.grows
  refine ⟨⟨fd, ?_⟩, hargv, ?_, ?_⟩
  · exact ((((hlimits.trans hdaemon).trans hchroot).trans hsetgid).trans hsetuid).trans hsandbox
  · rw [hlauncher] at hrooted
    exact hrooted.later hgrows (by rw [hproc₆, hproc₅, hproc₄]) (by rw [hproc₆, hproc₅, hproc₄])
  · rw [hproc₆, hproc₅, hproc₄, hcreds₃, hlauncher]
    rfl

def Completed (lib : Libsandbox) (env : JailerEnv) (s : Sys Dir) : Prop :=
  ∃ fd before argv b, s.log = before ++ [(.execve env.execFileInChroot argv curatedEnvp, b)] ∧
    steps before = (plan lib env fd).map fun c => (c, true)

structure Dropped (k : Kernel Dir) (lib : Libsandbox) (env : JailerEnv) (launcher : Process Dir)
    (s : Sys Dir) : Prop where
  completed : Completed lib env s
  creds : s.proc.creds = jailCreds env launcher.creds
  rooted : Rooted k env.chrootDir launcher s

theorem ends_exec {argv : List (List UInt8)} {E : Sys Dir → Prop} (hargv : env.buildArgv = .ok argv)
    (hE : ∀ s' b, s'.log = s.log ++ [(.execve env.execFileInChroot argv curatedEnvp, b)] →
      s'.proc = s.proc → E s') : Ends (exec k env argv) s (fun _ s' => E s') E := by
  obtain ⟨args, rfl⟩ := JailerEnv.head_buildArgv hargv
  refine (ends_call _).bind fun r s' h => ?_
  obtain ⟨rc, rfl, hdid⟩ | ⟨errno, rfl, hlog, hproc⟩ := h
  · exact .throw (hE s' true hdid.log (Except.ok.inj hdid.effect).symm)
  · exact .throw (hE s' false hlog hproc)

def launch (launcher : Process Dir) : Sys Dir := { proc := launcher, log := [] }

def Started (s : Sys Dir) : Prop := ∃ e ∈ s.log, isExec e.1 = true

theorem ends_run (launcher : Process Dir) :
    Ends (run k lib env) (launch launcher)
      (fun _ s => NoExec s ∨ Dropped k lib env launcher s)
      fun s => NoExec s ∨ Dropped k lib env launcher s := by
  have hs : NoExec (launch launcher) := fun _ he => absurd he List.not_mem_nil
  refine ((ends_dropPrivileges hs).mono_error fun _ => .inl).bind ?_
  rintro argv s ⟨⟨fd, hran⟩, hargv, hrooted, hcreds⟩
  refine ends_exec hargv fun s' b hlog hproc => .inr ⟨?_, ?_, ?_⟩
  · exact ⟨fd, s.log, argv, b, hlog, hran.steps_eq⟩
  · rw [hproc, hcreds]
    rfl
  · exact hrooted.later ⟨_, hlog.symm⟩ (by rw [hproc]) (by rw [hproc])

theorem dropped_of_started {launcher : Process Dir}
    (h : Started (endState (run k lib env (launch launcher)))) :
    Dropped k lib env launcher (endState (run k lib env (launch launcher))) := by
  obtain ⟨e, he, hexec⟩ := h
  refine (ends_run launcher).endState.resolve_left fun hno => ?_
  rw [hno e he] at hexec
  cases hexec

structure Jailed (k : Kernel Dir) (lib : Libsandbox) (env : JailerEnv) (launcher : Process Dir)
    (s : Sys Dir) : Prop where
  completed : Completed lib env s
  ruid : s.proc.creds.ruid = env.uid
  euid : s.proc.creds.euid = env.uid
  suid : s.proc.creds.suid = env.uid
  rgid : s.proc.creds.rgid = env.gid
  egid : s.proc.creds.egid = env.gid
  sgid : s.proc.creds.sgid = env.gid
  groups : ∀ g ∈ s.proc.creds.groups, g = env.gid
  rooted : Rooted k env.chrootDir launcher s

variable (k lib env) in
/-- **The groups of the launcher survive the jail.** -/
theorem jailed_iff (launcher : Process Dir)
    (h : Started (endState (run k lib env (launch launcher)))) :
    Jailed k lib env launcher (endState (run k lib env (launch launcher))) ↔
      ∀ g ∈ launcher.creds.groups, g = env.gid := by
  have hdropped := dropped_of_started h
  have hcreds := hdropped.creds
  constructor
  · intro hjailed g hg
    exact hjailed.groups g (by rw [hcreds]; exact hg)
  · intro hgroups
    exact {
      completed := hdropped.completed
      ruid := by rw [hcreds]; rfl
      euid := by rw [hcreds]; rfl
      suid := by rw [hcreds]; rfl
      rgid := by rw [hcreds]; rfl
      egid := by rw [hcreds]; rfl
      sgid := by rw [hcreds]; rfl
      groups := by rw [hcreds]; exact hgroups
      rooted := hdropped.rooted }

end Whole

section Scenario

instance (s : Sys Dir) : Decidable (Started s) := inferInstanceAs (Decidable (∃ e ∈ s.log, _))

def quietKernel : Kernel Bool where
  lookup _ root _ path := if path = rootPath then some root else some true
  fate _ _ := .ok 0
  lookup_root _ _ _ := if_pos rfl

def sampleLib : Libsandbox where
  profileBody _ := Text.bytes "(version 1)"
  errbuf _ := none

def superuser (groups : List UInt32) : Process Bool where
  creds := { ruid := 0, euid := 0, suid := 0, rgid := 0, egid := 0, sgid := 0, groups }
  root := false
  cwd := false

theorem jailed_iff_superuser :
    Started (endState (run quietKernel sampleLib sampleEnv (launch (superuser [1000])))) ∧
      (Jailed quietKernel sampleLib sampleEnv (superuser [1000])
          (endState (run quietKernel sampleLib sampleEnv (launch (superuser [1000])))) ↔
        ∀ g ∈ (superuser [1000]).creds.groups, g = sampleEnv.gid) := by
  have hstarted :
      Started (endState (run quietKernel sampleLib sampleEnv (launch (superuser [1000])))) := by
    decide +kernel
  exact ⟨hstarted, jailed_iff quietKernel sampleLib sampleEnv _ hstarted⟩

theorem groups_survive :
    Started (endState (run quietKernel sampleLib sampleEnv (launch (superuser [0, 20])))) ∧
      ¬ Jailed quietKernel sampleLib sampleEnv (superuser [0, 20])
        (endState (run quietKernel sampleLib sampleEnv (launch (superuser [0, 20])))) := by
  refine ⟨by decide +kernel, fun hjailed => ?_⟩
  have hmember : 20 ∈ (endState (run quietKernel sampleLib sampleEnv
      (launch (superuser [0, 20])))).proc.creds.groups := by decide +kernel
  exact absurd (hjailed.groups 20 hmember) (by decide)

end Scenario

end Squib.Jail
