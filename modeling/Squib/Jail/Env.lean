import Squib.Lib.Checked
import Squib.Lib.FileTree
import Squib.Lib.Text

/-!
# The validated configuration of the jailer
-/

namespace Squib.Jail

open Posix Checked

inductive IoError where
  | os (errno : ℕ)
  | invalidInput (message : List UInt8)
  | other (message : List UInt8)
  deriving DecidableEq, Repr

inductive JailerError where
  | InvalidInstanceId (id : List UInt8)
  | InvalidResourceLimit (spec : List UInt8)
  | UnsupportedResource (key : List UInt8)
  | SandboxInit (message : List UInt8)
  | Chroot (path : Path) (source : IoError)
  | ChdirRoot (source : IoError)
  | Setgid (gid : UInt32) (source : IoError)
  | Setuid (uid : UInt32) (source : IoError)
  | Setrlimit (key : List UInt8) (source : IoError)
  | Setsid (source : IoError)
  | RedirectStdio (source : IoError)
  | OpenDevNull (source : IoError)
  | CreateChroot (path : Path) (source : IoError)
  | StageExecFile (src dst : Path) (source : IoError)
  | ExecFileNotRegular (path : Path)
  | Canonicalize (path : Path) (source : IoError)
  | PathContainsNul (path : Path)
  | Exec (path : Path) (source : IoError)
  deriving DecidableEq, Repr

/-! ## Resource limits -/

inductive Resource where
  | fsize
  | noFile
  deriving DecidableEq, Repr

namespace Resource

def key : Resource → List UInt8
  | fsize => Text.bytes "fsize"
  | noFile => Text.bytes "no-file"

def number : Resource → ℕ
  | fsize => 1
  | noFile => 8

end Resource

structure ResourceLimit where
  resource : Resource
  value : ℕ
  deriving DecidableEq, Repr

def rlimMax : ℕ := 18446744073709551615

def ResourceLimit.parse (spec : List UInt8) : Except JailerError ResourceLimit := do
  let (keyRaw, valueRaw) ← okOr (Text.cutAt 61 spec) (.InvalidResourceLimit spec)
  let key := Text.trim keyRaw
  let value ← okOr (Text.parseUint rlimMax (Text.trim valueRaw)) (.InvalidResourceLimit spec)
  if key = Resource.fsize.key then return { resource := .fsize, value }
  else if key = Resource.noFile.key then return { resource := .noFile, value }
  else throw (.UnsupportedResource key)

/-! ## The environment -/

inductive SandboxProfile where
  | Default
  | Permissive
  deriving DecidableEq, Repr

structure Args where
  id : List UInt8
  execFile : Path
  uid : UInt32
  gid : UInt32
  chrootBaseDir : Path
  resourceLimits : List (List UInt8)
  daemonize : Bool
  macosSandboxProfile : Option SandboxProfile
  passthroughArgv : List (List UInt8)

def composeChrootDir (base : Path) (id : List UInt8) : Path :=
  join (join (join base (Text.bytes "firecracker")) id) (Text.bytes "root")

structure JailerEnv where
  execFileHost : Path
  execFileBasename : Name
  chrootDir : Path
  uid : UInt32
  gid : UInt32
  resourceLimits : List ResourceLimit
  daemonize : Bool
  sandboxProfile : Option SandboxProfile
  childArgv : List (List UInt8)
  basename_isName : IsName execFileBasename
  chrootDir_eq : ∃ base id, chrootDir = composeChrootDir base id

structure Host where
  canonicalize : Path → Except ℕ Path
  isFile : Path → Except ℕ Bool

def maxIdBytes : ℕ := 64

def isIdByte (b : UInt8) : Bool :=
  (0x30 ≤ b && b ≤ 0x39) || (0x41 ≤ b && b ≤ 0x5A) || (0x61 ≤ b && b ≤ 0x7A) || b == 0x5F || b == 0x2D

def validateId (raw : List UInt8) : Except JailerError (List UInt8) := do
  rejectIf (raw = []) (.InvalidInstanceId (Text.bytes "empty"))
  rejectIf (maxIdBytes < raw.length) (.InvalidInstanceId
    (Text.bytes "id is " ++ Text.decimal raw.length ++ Text.bytes " bytes; max " ++
      Text.decimal maxIdBytes))
  rejectIf (raw.all isIdByte = false) (.InvalidInstanceId raw)
  return raw

def canonicalizeExecFile (host : Host) (path : Path) : Except JailerError Path :=
  match host.canonicalize path with
  | .error errno => .error (.Canonicalize path (.os errno))
  | .ok canonical =>
    match host.isFile canonical with
    | .error errno => .error (.Canonicalize canonical (.os errno))
    | .ok false => .error (.ExecFileNotRegular canonical)
    | .ok true => .ok canonical

namespace JailerEnv

def fromArgs (host : Host) (args : Args) : Except JailerError JailerEnv := do
  let id ← validateId args.id
  let resourceLimits ← args.resourceLimits.mapM ResourceLimit.parse
  let execFileHost ← canonicalizeExecFile host args.execFile
  match h : fileName execFileHost with
  | none => throw (.ExecFileNotRegular execFileHost)
  | some execFileBasename =>
    rejectIf (Text.isUtf8 execFileBasename = false) (.ExecFileNotRegular execFileHost)
    return {
      execFileHost
      execFileBasename
      chrootDir := composeChrootDir args.chrootBaseDir id
      uid := args.uid
      gid := args.gid
      resourceLimits
      daemonize := args.daemonize
      sandboxProfile := args.macosSandboxProfile
      childArgv := args.passthroughArgv
      basename_isName := isName_of_fileName h
      chrootDir_eq := ⟨_, _, rfl⟩ }

variable (env : JailerEnv)

theorem getLast?_chrootDir : env.chrootDir.getLast? ≠ some 47 := by
  obtain ⟨base, id, h⟩ := env.chrootDir_eq
  have hroot : (Text.bytes "root").getLast? = some 116 := by decide +kernel
  have hrelative : isAbsolute (Text.bytes "root") = false := by decide +kernel
  rw [h, composeChrootDir, join, hrelative, if_neg Bool.false_ne_true]
  split_ifs
  · rw [List.getLast?_append, hroot]
    simp
  · rw [List.getLast?_append, List.getLast?_cons, hroot]
    simp

def execFileInChroot : Path := join rootPath env.execFileBasename

end JailerEnv

def cstring (bytes : List UInt8) : Option (List UInt8) := if 0 ∈ bytes then none else some bytes

def pathToCstring (p : Path) : Except JailerError (List UInt8) := okOr (cstring p) (.PathContainsNul p)

def argToCstring (raw : List UInt8) : Except JailerError (List UInt8) :=
  okOr (cstring raw) (.PathContainsNul raw)

def JailerEnv.buildArgv (env : JailerEnv) : Except JailerError (List (List UInt8)) := do
  let argv0 ← pathToCstring env.execFileInChroot
  let args ← env.childArgv.mapM argToCstring
  return argv0 :: args

theorem cstring_eq_some {bytes c : List UInt8} : cstring bytes = some c ↔ 0 ∉ bytes ∧ bytes = c := by
  unfold cstring
  by_cases h : 0 ∈ bytes <;> simp [h]

theorem JailerEnv.head_buildArgv {env : JailerEnv} {argv : List (List UInt8)}
    (h : env.buildArgv = .ok argv) : ∃ args, argv = env.execFileInChroot :: args := by
  unfold JailerEnv.buildArgv pathToCstring at h
  obtain ⟨argv0, h₀, h⟩ := bind_eq_ok.1 h
  obtain ⟨args, -, h⟩ := bind_eq_ok.1 h
  have hargv0 := (cstring_eq_some.1 (okOr_eq_ok.1 h₀)).2
  rw [pure_eq_ok] at h
  exact ⟨args, by rw [← h, hargv0]⟩

def sampleEnv : JailerEnv where
  execFileHost := Text.bytes "/usr/squib"
  execFileBasename := Text.bytes "squib"
  chrootDir := Text.bytes "/srv/jailer/firecracker/vm1/root"
  uid := 1000
  gid := 1000
  resourceLimits := [{ resource := .noFile, value := 1024 }]
  daemonize := true
  sandboxProfile := some .Default
  childArgv := [Text.bytes "--api-sock", Text.bytes "/x.sock"]
  basename_isName := by decide +kernel
  chrootDir_eq := ⟨Text.bytes "/srv/jailer", Text.bytes "vm1", by decide +kernel⟩

/-! ## Jails of one base directory -/

theorem isName_of_validateId {raw id : List UInt8} (h : validateId raw = .ok id) :
    raw = id ∧ IsName id := by
  simp only [validateId, bind_eq_ok, rejectIf_eq_ok, pure_eq_ok, Bool.not_eq_false] at h
  obtain ⟨-, hne, -, -, -, hall, rfl⟩ := h
  have hbyte : ∀ b ∈ raw, isIdByte b = true := List.all_eq_true.1 hall
  have hdot : 46 ∉ raw := fun h => absurd (hbyte 46 h) (by decide)
  exact ⟨rfl, hne, fun h => hdot (h ▸ List.mem_cons_self), fun h => hdot (h ▸ List.mem_cons_self),
    fun h => absurd (hbyte 47 h) (by decide)⟩

namespace JailerEnv

variable {host host' : Host} {args args' : Args} {env env' : JailerEnv}

theorem components_chrootDir (h : fromArgs host args = .ok env) :
    components env.chrootDir = components args.chrootBaseDir ++
      [Text.bytes "firecracker", args.id, Text.bytes "root"] := by
  simp only [fromArgs, bind_eq_ok] at h
  obtain ⟨id, hid, limits, -, exec, -, h⟩ := h
  obtain ⟨rfl, hname⟩ := isName_of_validateId hid
  have hdir : env.chrootDir = composeChrootDir args.chrootBaseDir args.id := by
    split at h
    · cases h
    · obtain ⟨-, -, h⟩ := bind_eq_ok.1 h
      cases h
      rfl
  rw [hdir, composeChrootDir, components_join (by decide +kernel), components_join hname,
    components_join (by decide +kernel)]
  simp

/-- **No path lies in the jails of two ids.** -/
theorem jails_apart (h : fromArgs host args = .ok env) (h' : fromArgs host' args' = .ok env')
    (hbase : args.chrootBaseDir = args'.chrootBaseDir) (hid : args.id ≠ args'.id) (p : Path)
    (hp : components env.chrootDir <+: components p) :
    ¬ components env'.chrootDir <+: components p := by
  rintro ⟨rest', hrest'⟩
  obtain ⟨rest, hrest⟩ := hp
  rw [← hrest, components_chrootDir h, components_chrootDir h', ← hbase] at hrest'
  simp at hrest'
  exact hid hrest'.1.symm

def vm (id : List UInt8) : Args := ⟨id, [47, 115], 0, 0, [47, 106], [], false, none, []⟩

theorem jails_apart_of_two_ids : ∃ env env' : JailerEnv, ∀ p,
    components env.chrootDir <+: components p → ¬ components env'.chrootDir <+: components p := by
  obtain ⟨env, h⟩ : ∃ env, fromArgs ⟨.ok, fun _ => .ok true⟩ (vm [97]) = .ok env := ⟨_, rfl⟩
  obtain ⟨env', h'⟩ : ∃ env, fromArgs ⟨.ok, fun _ => .ok true⟩ (vm [98]) = .ok env := ⟨_, rfl⟩
  exact ⟨env, env', jails_apart h h' rfl (by decide)⟩

end JailerEnv

end Squib.Jail
