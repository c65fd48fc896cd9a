import Squib.Jail.Env
import Squib.Lib.FileOps
import Squib.Lib.Stateful

/-!
# Staging the executable
-/

namespace Squib.Jail

open Posix Checked Stateful

structure Launcher where
  cwd : Ino
  umask : UInt32
  uid : UInt32
  gid : UInt32
  denied : ℕ → Option ℕ
  chunk : ℕ → ℕ

structure Session where
  tree : Tree
  clock : ℕ

abbrev StageIo (ε α : Type) := EStateM ε Session α

variable {ε α : Type}

section Calls

variable (w : Launcher)

def attempt (x : Tree → Except ℕ (α × Tree)) : StageIo ε (Except IoError α) := fun s =>
  match w.denied s.clock with
  | some errno => .ok (.error (.os errno)) { s with clock := s.clock + 1 }
  | none =>
    match x s.tree with
    | .error errno => .ok (.error (.os errno)) { s with clock := s.clock + 1 }
    | .ok (a, tree) => .ok (.ok a) { tree, clock := s.clock + 1 }

def onPath (p : Path) (x : Tree → Except ℕ (α × Tree)) : StageIo ε (Except IoError α) :=
  if 0 ∈ p then
    pure (.error (.invalidInput (Text.bytes "file name contained an unexpected NUL byte")))
  else attempt w x

def orThrow (x : StageIo ε (Except IoError α)) (e : IoError → ε) : StageIo ε α := do
  match ← x with
  | .ok a => return a
  | .error err => throw (e err)

def query (f : Tree → Except ℕ α) (T : Tree) : Except ℕ (α × Tree) := (f T).map fun a => (a, T)

def update (f : Tree → Except ℕ Tree) (T : Tree) : Except ℕ (Unit × Tree) := (f T).map fun T => ((), T)

/-! ## Directories -/

def mkdir (p : Path) : StageIo ε (Except IoError Unit) :=
  onPath w p (update fun T => T.mkdir w.cwd p (0o777 &&& ~~~ w.umask))

def unlessDir (p : Path) (err : IoError) : StageIo ε (Except IoError Unit) := do
  match ← onPath w p (query fun T => .ok (T.isDir w.cwd p)) with
  | .ok true => return .ok ()
  | _ => return .error err

def mkdirAgain (p : Path) : StageIo ε (Except IoError Unit) := do
  match ← mkdir w p with
  | .ok _ => return .ok ()
  | .error err => unlessDir w p err

def ofComponents (absolute : Bool) (cs : List Name) : Path :=
  (if absolute then [47] else []) ++ [47].intercalate cs

def ancestors (p : Path) : List Path :=
  p :: (components p).dropLast.inits.reverse.map (ofComponents (isAbsolute p))

def createDirs : List Path → StageIo ε (Except IoError Unit)
  | [] => return .error (.other (Text.bytes "failed to create whole tree"))
  | p :: parents =>
    if p = [] then return .ok ()
    else do
      match ← mkdir w p with
      | .ok _ => return .ok ()
      | .error err =>
        if err = .os ENOENT then
          match ← createDirs parents with
          | .error err => return .error err
          | .ok _ => mkdirAgain w p
        else unlessDir w p err

def createDirAll (p : Path) : StageIo ε (Except IoError Unit) := createDirs w (ancestors p)

/-! ## Copying -/

def isRegular (T : Tree) (i : Ino) : Bool :=
  match T.node i with
  | some (.file _) => true
  | _ => false

def readAt (i : Ino) (off : ℕ) (T : Tree) : List UInt8 :=
  ((T.bytes i).drop off).take (min 8192 (max 1 (w.chunk off)))

def copyLoop (src dst : Ino) : ℕ → ℕ → StageIo IoError ℕ
  | 0, off => return off
  | fuel + 1, off => do
    let data ← orThrow (attempt w (query fun T => .ok (readAt w src off T))) id
    if data = [] then return off
    else do
      orThrow (attempt w (update fun T => .ok (T.pwrite dst off data))) id
      copyLoop src dst fuel (off + data.length)

def copy (src dst : Ino) : StageIo IoError ℕ := fun s =>
  copyLoop w src dst ((s.tree.bytes src).length + 1) 0 s

def createFile (p : Path) : StageIo IoError Ino :=
  let new : File := { bytes := [], mode := 0o666 &&& ~~~ w.umask, uid := w.uid, gid := w.gid }
  orThrow (onPath w p fun T => T.creat w.cwd p new) id

def copyViaNofollow (src dst : Path) : StageIo IoError ℕ :=
  if 0 ∈ src then throw (.invalidInput (Text.bytes "src path contains NUL"))
  else do
    let i ← orThrow (attempt w (query fun T => T.openNofollow w.cwd src)) id
    let regular ← orThrow (attempt w (query fun T => .ok (isRegular T i))) id
    if regular = false then
      throw (.invalidInput
        (Text.bytes "exec-file is not a regular file (post-canonicalise check failed)"))
    else do
      let j ← createFile w dst
      copy w i j

def mapErr {ε' : Type} (e : ε → ε') (x : StageIo ε α) : StageIo ε' α := fun s =>
  match x s with
  | .ok a s' => .ok a s'
  | .error err s' => .error (e err) s'

variable (env : JailerEnv)

def stagedPath : Path := join env.chrootDir env.execFileBasename

def stage : StageIo JailerError Unit := do
  orThrow (createDirAll w env.chrootDir) (.CreateChroot env.chrootDir)
  orThrow (onPath w env.chrootDir (update fun T => T.chmod w.cwd env.chrootDir 0o755))
    (.CreateChroot env.chrootDir)
  let _ ← mapErr (.StageExecFile env.execFileHost (stagedPath env))
    (copyViaNofollow w env.execFileHost (stagedPath env))

end Calls

/-! ## What the calls do -/

abbrev IfOk (x : StageIo ε α) (s : Session) (Q : α → Session → Prop) : Prop :=
  Ends x s Q fun _ => True

section Effects

variable {w : Launcher} {s : Session} (p : Path) (x : Tree → Except ℕ (α × Tree))

theorem ends_attempt :
    IfOk (attempt w x : StageIo ε _) s fun r s' =>
      (∃ a, r = .ok a ∧ x s.tree = .ok (a, s'.tree)) ∨ ∃ err, r = .error err ∧ s'.tree = s.tree := by
  unfold IfOk Ends attempt
  cases w.denied s.clock with
  | some errno => exact .inr ⟨_, rfl, rfl⟩
  | none =>
    cases hx : x s.tree with
    | error errno => exact .inr ⟨_, rfl, rfl⟩
    | ok r => exact .inl ⟨r.1, rfl, rfl⟩

theorem ends_onPath :
    IfOk (onPath w p x : StageIo ε _) s fun r s' =>
      (∃ a, r = .ok a ∧ x s.tree = .ok (a, s'.tree)) ∨ ∃ err, r = .error err ∧ s'.tree = s.tree := by
  unfold onPath
  by_cases hp : 0 ∈ p
  · rw [if_pos hp]
    exact .pure (.inr ⟨_, rfl, rfl⟩)
  · rw [if_neg hp]
    exact ends_attempt x

variable {Q : α → Session → Prop} {T T' : Tree} {g : File}

theorem ends_orThrow {x : StageIo ε (Except IoError α)} {e : IoError → ε}
    (h : IfOk x s fun r s' => ∀ a, r = .ok a → Q a s') : IfOk (orThrow x e) s Q := by
  refine h.bind fun r s' hr => ?_
  cases r with
  | ok a => exact .pure (hr a rfl)
  | error err => exact .throw trivial

theorem ends_orThrow_attempt (e : IoError → ε) :
    IfOk (orThrow (attempt w x) e) s fun a s' => x s.tree = .ok (a, s'.tree) := by
  refine ends_orThrow ((ends_attempt x).mono fun r s' h a hr => ?_)
  obtain ⟨a', rfl, hx⟩ | ⟨err, rfl, -⟩ := h
  · cases hr
    exact hx
  · cases hr

theorem ends_orThrow_onPath (e : IoError → ε) :
    IfOk (orThrow (onPath w p x) e) s fun a s' => x s.tree = .ok (a, s'.tree) := by
  refine ends_orThrow ((ends_onPath p x).mono fun r s' h a hr => ?_)
  obtain ⟨a', rfl, hx⟩ | ⟨err, rfl, -⟩ := h
  · cases hr
    exact hx
  · cases hr

theorem query_eq_ok {f : Tree → Except ℕ α} {a : α} :
    query f T = .ok (a, T') ↔ f T = .ok a ∧ T' = T := by
  unfold query
  cases f T with
  | error errno => simp [Except.map]
  | ok b => simp [Except.map, eq_comm]

theorem update_eq_ok {f : Tree → Except ℕ Tree} {u : Unit} :
    update f T = .ok (u, T') ↔ f T = .ok T' := by
  unfold update
  cases f T with
  | error errno | ok T₁ => simp [Except.map]

theorem ends_mapErr {ε' : Type} {e : ε → ε'} {x : StageIo ε α} (h : IfOk x s Q) :
    IfOk (mapErr e x) s Q := by
  unfold IfOk Ends mapErr
  cases hx : x s with
  | ok a s' => exact h.of_ok hx
  | error err s' => trivial

/-! ## Directories -/

theorem ends_mkdir : IfOk (mkdir w p : StageIo ε _) s fun _ s' => DirsOnly s.tree s'.tree := by
  refine (ends_onPath p _).mono fun r s' h => ?_
  obtain ⟨u, -, hx⟩ | ⟨err, -, hs⟩ := h
  · exact Tree.dirsOnly_mkdir (update_eq_ok.1 hx)
  · rw [hs]
    exact .refl _

theorem ends_unlessDir (err : IoError) :
    IfOk (unlessDir w p err : StageIo ε _) s fun _ s' => DirsOnly s.tree s'.tree := by
  have hquery : IfOk (onPath w p (query fun T => .ok (T.isDir w.cwd p)) : StageIo ε _) s
      fun _ s' => s'.tree = s.tree := by
    refine (ends_onPath p _).mono fun r s' h => ?_
    obtain ⟨b, -, hx⟩ | ⟨err, -, hs⟩ := h
    · exact (query_eq_ok.1 hx).2
    · exact hs
  refine hquery.bind fun r s' hs => ?_
  have hdirs : DirsOnly s.tree s'.tree := by
    rw [hs]
    exact .refl _
  split
  · exact .pure hdirs
  · exact .pure hdirs

theorem ends_mkdirAgain :
    IfOk (mkdirAgain w p : StageIo ε _) s fun _ s' => DirsOnly s.tree s'.tree := by
  refine (ends_mkdir p).bind fun r s₁ h₁ => ?_
  cases r with
  | ok u => exact .pure h₁
  | error err => exact (ends_unlessDir p err).mono fun _ _ h₂ => h₁.trans h₂

theorem ends_createDirs (ps : List Path) :
    IfOk (createDirs w ps : StageIo ε _) s fun _ s' => DirsOnly s.tree s'.tree := by
  induction ps generalizing s with
  | nil => exact .pure (.refl _)
  | cons p parents ih =>
    unfold createDirs
    by_cases hp : p = []
    · rw [if_pos hp]
      exact .pure (.refl _)
    · rw [if_neg hp]
      refine (ends_mkdir p).bind fun r s₁ h₁ => ?_
      cases r with
      | ok u => exact .pure h₁
      | error err =>
        dsimp only
        by_cases herr : err = .os ENOENT
        · rw [if_pos herr]
          refine ih.bind fun r s₂ h₂ => ?_
          cases r with
          | ok u => exact (ends_mkdirAgain p).mono fun _ _ h₃ => (h₁.trans h₂).trans h₃
          | error err => exact .pure (h₁.trans h₂)
        · rw [if_neg herr]
          exact (ends_unlessDir p err).mono fun _ _ h₂ => h₁.trans h₂

/-! ## Copying -/

theorem ends_read (src : Ino) (off : ℕ) :
    IfOk (orThrow (attempt w (query fun T => .ok (readAt w src off T))) id) s
      fun data s' => data = readAt w src off s.tree ∧ s'.tree = s.tree := by
  refine (ends_orThrow_attempt _ _).mono fun data s' h => ?_
  obtain ⟨hdata, hs⟩ := query_eq_ok.1 h
  exact ⟨(Except.ok.inj hdata).symm, hs⟩

theorem ends_write (dst : Ino) (off : ℕ) (data : List UInt8) :
    IfOk (orThrow (attempt w (update fun T => .ok (T.pwrite dst off data))) id) s
      fun _ s' => s'.tree = s.tree.pwrite dst off data :=
  (ends_orThrow_attempt _ _).mono fun _ _ h => (Except.ok.inj (update_eq_ok.1 h)).symm

theorem ends_copyLoop_rewrites (src dst fuel : ℕ) (off : ℕ) :
    IfOk (copyLoop w src dst fuel off) s fun _ s' => Tree.Rewrites dst s.tree s'.tree := by
  induction fuel generalizing s off with
  | zero => exact .pure (.refl _ _)
  | succ fuel ih =>
    refine (ends_read src off).bind ?_
    rintro data s₁ ⟨-, hs₁⟩
    by_cases hdata : data = []
    · rw [if_pos hdata]
      exact .pure (hs₁ ▸ .refl _ _)
    · rw [if_neg hdata]
      refine (ends_write dst off data).bind fun _ s₂ hs₂ => ?_
      refine (ih (off + data.length)).mono fun _ s₃ h₃ => ?_
      have h₂ : Tree.Rewrites dst s.tree s₂.tree := by
        rw [hs₂, hs₁]
        exact Tree.rewrites_pwrite
      exact h₂.trans h₃

theorem take_append_readAt (B data : List UInt8) (off c : ℕ) (hdata : data = (B.drop off).take c) :
    B.take off ++ data = B.take (off + data.length) := by
  have hprefix : data = (B.drop off).take data.length := by
    have h := List.take_prefix c (B.drop off)
    rw [← hdata] at h
    exact List.prefix_iff_eq_take.1 h
  rw [List.take_add, ← hprefix]

variable {src dst : Ino}

theorem ends_copyLoop_bytes (hne : src ≠ dst) (fuel off : ℕ) (hg : s.tree.node dst = some (.file g))
    (hbytes : g.bytes = (s.tree.bytes src).take off) (hoff : off ≤ (s.tree.bytes src).length)
    (hfuel : (s.tree.bytes src).length < fuel + off) :
    IfOk (copyLoop w src dst fuel off) s fun _ s' => s'.tree.bytes dst = s.tree.bytes src := by
  induction fuel generalizing s off g with
  | zero => omega
  | succ fuel ih =>
    refine (ends_read src off).bind ?_
    rintro data s₁ ⟨hdata, hs₁⟩
    by_cases hempty : data = []
    · rw [if_pos hempty]
      have hend : (s.tree.bytes src).length ≤ off := by
        rw [hempty, readAt, eq_comm, List.take_eq_nil_iff, List.drop_eq_nil_iff] at hdata
        omega
      refine .pure ?_
      rw [hs₁, Tree.bytes_eq hg, hbytes, List.take_of_length_le hend]
    · rw [if_neg hempty]
      refine (ends_write dst off data).bind fun _ s₂ hs₂ => ?_
      have hlen : data.length ≤ (s.tree.bytes src).length - off := by
        rw [hdata, ← List.length_drop]
        exact List.length_take_le' _ _
      have hpos : 0 < data.length := List.length_pos_iff.2 hempty
      have hrewrites : Tree.Rewrites dst s.tree s₂.tree := by
        rw [hs₂, hs₁]
        exact Tree.rewrites_pwrite
      have hsrc : s₂.tree.bytes src = s.tree.bytes src := hrewrites.bytes_of_ne hne
      -- the file has `off` bytes, so the write only appends
      have hg₂ : s₂.tree.node dst =
          some (.file { g with bytes := (s.tree.bytes src).take (off + data.length) }) := by
        have hgoff : g.bytes.length ≤ off := by
          rw [hbytes]
          exact List.length_take_le _ _
        rw [hs₂, hs₁, Tree.pwrite_eq hg, Tree.node_write, List.take_of_length_le hgoff,
          List.drop_eq_nil_of_le (by omega), List.append_nil, hbytes,
          take_append_readAt _ _ _ _ hdata]
      rw [← hsrc]
      rw [← hsrc] at hg₂ hoff hfuel hlen
      exact ih (off + data.length) hg₂ rfl (by omega) (by omega)

theorem ends_copy_rewrites (src dst : Ino) :
    IfOk (copy w src dst) s fun _ s' => Tree.Rewrites dst s.tree s'.tree :=
  ends_copyLoop_rewrites src dst _ 0

theorem ends_copy_bytes (hne : src ≠ dst) (hg : s.tree.node dst = some (.file g))
    (hbytes : g.bytes = []) :
    IfOk (copy w src dst) s fun _ s' => s'.tree.bytes dst = s.tree.bytes src :=
  ends_copyLoop_bytes hne _ 0 hg (by rw [hbytes, List.take_zero]) (Nat.zero_le _) (Nat.lt_succ_self _)

theorem ends_copy_empty (hsrc : s.tree.bytes src = []) :
    IfOk (copy w src dst) s fun _ s' => s'.tree = s.tree := by
  refine (ends_read src 0).bind ?_
  rintro data s₁ ⟨hdata, hs₁⟩
  have hempty : data = [] := by
    rw [hdata, readAt, hsrc, List.drop_nil, List.take_nil]
  rw [if_pos hempty]
  exact .pure hs₁

inductive Copied (w : Launcher) (src dst : Path) (T T' : Tree) : Prop
  | rewritten {i j f} : T.shape.resolve false w.cwd src = .ok (.found i) →
      T.shape.resolve true w.cwd dst = .ok (.found j) → T.node j = some (.file f) →
      T'.shape = T.shape →
      T'.node j = some (.file { f with bytes := if i = j then [] else T.bytes i }) →
      (∀ {k}, k ≠ j → T'.node k = T.node k) → Copied w src dst T T'
  | notFile {j} : T.shape.resolve true w.cwd dst = .ok (.found j) →
      (∀ f, T.node j ≠ some (.file f)) → T'.shape = T.shape → Copied w src dst T T'
  | made {d n j f} : T.shape.resolve true w.cwd dst = .ok (.missing d n) →
      T'.shape.resolve true w.cwd dst = .ok (.found j) → T'.node j = some (.file f) →
      f.mode = 0o666 &&& ~~~ w.umask → Copied w src dst T T'

theorem copied_emptied {src dst : Path} {i j : Ino} {f : File} {T₀ : Tree}
    (hsrc : T₀.shape.resolve false w.cwd src = .ok (.found i))
    (hdst : T₀.shape.resolve true w.cwd dst = .ok (.found j)) (hf : T₀.node j = some (.file f))
    (hs : s.tree = T₀.write j (.file { f with bytes := [] })) :
    IfOk (copy w i j) s fun _ s' => Copied w src dst T₀ s'.tree := by
  have hempty : Tree.Rewrites j T₀ s.tree := hs ▸ Tree.rewrites_write hf
  have hj : s.tree.node j = some (.file { f with bytes := [] }) := by rw [hs, Tree.node_write]
  by_cases hij : i = j
  · have hbytes : s.tree.bytes i = [] := by rw [hij, Tree.bytes_eq hj]
    refine (ends_copy_empty hbytes).mono fun _ s' hs' => ?_
    refine .rewritten hsrc hdst hf (by rw [hs', hempty.shape]) ?_ fun hk => ?_
    · rw [hs', hj, if_pos hij]
    · rw [hs', hempty.other hk]
  · refine ((ends_copy_rewrites i j).and (ends_copy_bytes hij hj rfl)).mono ?_
    rintro - s' ⟨hrewrites, hbytes⟩
    refine .rewritten hsrc hdst hf (hrewrites.shape.trans hempty.shape) ?_ fun hk => ?_
    · obtain ⟨b, hb⟩ := hrewrites.file hj
      rw [Tree.bytes_eq hb, hempty.bytes_of_ne hij] at hbytes
      rw [hb, if_neg hij, ← hbytes]
    · rw [hrewrites.other hk, hempty.other hk]

theorem ends_copyViaNofollow (src dst : Path) :
    IfOk (copyViaNofollow w src dst) s fun _ s' => Copied w src dst s.tree s'.tree := by
  unfold copyViaNofollow
  by_cases hnul : 0 ∈ src
  · rw [if_pos hnul]
    exact .throw trivial
  rw [if_neg hnul]
  refine (ends_orThrow_attempt _ _).bind fun i s₁ h₁ => ?_
  obtain ⟨hopen, hs₁⟩ := query_eq_ok.1 h₁
  refine (ends_orThrow_attempt _ _).bind fun regular s₂ h₂ => ?_
  obtain ⟨-, hs₂⟩ := query_eq_ok.1 h₂
  by_cases hregular : regular = false
  · rw [if_pos hregular]
    exact .throw trivial
  rw [if_neg hregular]
  refine (ends_orThrow_onPath _ _ _).bind fun j s₃ h₃ => ?_
  rw [hs₂, hs₁] at h₃
  have hcreated := Tree.creat_inv h₃
  generalize htree : s₃.tree = T₃ at hcreated
  cases hcreated with
  | emptied hdst hf => exact copied_emptied (Tree.openNofollow_inv hopen) hdst hf htree
  | other hdst hnode =>
    refine (ends_copy_rewrites i j).mono fun _ s' h => ?_
    exact .notFile hdst hnode (by rw [h.shape, htree])
  | made hdst =>
    refine (ends_copy_rewrites i _).mono fun _ s' h => ?_
    obtain ⟨⟨D, hd⟩, hentry⟩ := Tree.directory_of_missing hdst
    rw [htree] at h
    obtain ⟨b, hb⟩ := h.file (Tree.node_insert_next hd)
    refine .made hdst ?_ hb rfl
    rw [h.shape]
    exact Shape.resolve_insert (Tree.inserts_insert hd hentry fun _ => by simp) hdst

def prepared (w : Launcher) (env : JailerEnv) (s : Session) : Tree :=
  (endState ((createDirAll w env.chrootDir : StageIo JailerError _) s)).tree

theorem ends_stage (env : JailerEnv) :
    IfOk (stage w env) s fun _ s' => DirsOnly s.tree (prepared w env s) ∧
      ∃ C T₂, (prepared w env s).shape.resolve true w.cwd env.chrootDir = .ok (.found C) ∧
        T₂.shape = (prepared w env s).shape ∧
        (∀ {k}, k ≠ C → T₂.node k = (prepared w env s).node k) ∧
        Copied w env.execFileHost (stagedPath env) T₂ s'.tree := by
  have hdirs := (ends_createDirs (ε := JailerError) (w := w) (s := s) (ancestors env.chrootDir)).remember
  refine (ends_orThrow (hdirs.mono fun _ _ h _ _ => h)).bind ?_
  rintro - s₁ ⟨hs₁, hdirs⟩
  have hprepared : prepared w env s = s₁.tree := by rw [hs₁]; rfl
  rw [hprepared]
  refine (ends_orThrow_onPath _ _ _).bind fun _ s₂ h₂ => ?_
  obtain ⟨C, hC, hshape, hnodes⟩ := Tree.chmod_inv (update_eq_ok.1 h₂)
  refine Ends.discard ((ends_mapErr (ends_copyViaNofollow _ _)).mono fun _ s₃ hcopied => ?_)
  exact ⟨hdirs, C, s₂.tree, hC, hshape, hnodes, hcopied⟩

end Effects

/-! ## The staged file -/

section Main

variable (w : Launcher) (env : JailerEnv)

def NamedOutside (T : Tree) (C j : Ino) : Prop :=
  ∃ d n, ¬ T.shape.Within C d ∧ T.shape.entry d n = some j

structure Staged (src : File) (T T' : Tree) : Prop where
  outside : ∃ C, T'.shape.resolve true w.cwd env.chrootDir = .ok (.found C) ∧
    Untouched (fun d => ¬ T'.shape.Within C d) T T'
  file : ∃ j g, T'.shape.resolve true w.cwd (stagedPath env) = .ok (.found j) ∧
    T'.node j = some (.file g) ∧ g.bytes = src.bytes ∧ g.mayExec env.uid env.gid = true

def Ready (i : Ino) (src : File) (T : Tree) : Prop :=
  ∃ C j g, T.shape.resolve true w.cwd env.chrootDir = .ok (.found C) ∧
    T.shape.resolve true w.cwd (stagedPath env) = .ok (.found j) ∧ T.node j = some (.file g) ∧
    g.mayExec env.uid env.gid = true ∧ (i = j → src.bytes = []) ∧
    (NamedOutside T C j → g.bytes = src.bytes)

variable {w env} {T₀ T₁ T₂ T' : Tree} {C i j : Ino} {f g : File}

theorem mayExec_eq_false {umask uid gid : UInt32} (h : g.mode = 0o666 &&& ~~~ umask) :
    g.mayExec uid gid = false := by
  have hmask (m : UInt32) (hm : m &&& 0o666 = 0) : g.mode &&& m = 0 := by
    rw [h, UInt32.and_comm, ← UInt32.and_assoc, hm, UInt32.zero_and]
  unfold File.mayExec
  rw [hmask 0o111 (by decide), hmask 0o100 (by decide), hmask 0o010 (by decide),
    hmask 0o001 (by decide)]
  simp

theorem directory_chrootDir {place : Place}
    (hC : T₁.shape.resolve true w.cwd env.chrootDir = .ok (.found C))
    (hplace : T₁.shape.resolve true w.cwd (stagedPath env) = .ok place) :
    ∃ D, T₁.node C = some (.directory D) := by
  obtain ⟨links, hjoin⟩ := Shape.resolve_join env.getLast?_chrootDir env.basename_isName hC
  unfold stagedPath at hplace
  rw [hjoin] at hplace
  obtain ⟨parent, hkind⟩ := Shape.walk_directory hplace
  obtain ⟨x, hx, hkind⟩ := Tree.node_of_kind hkind
  cases x with
  | directory D => exact ⟨D, hx⟩
  | file f | link target | special => cases hkind

theorem file_of_shape (hshape : T₂.shape = T₁.shape) (hj : T₂.node j = some (.file f)) :
    ∃ g, T₁.node j = some (.file g) := by
  have hkind := Tree.kind_of_node hj
  rw [hshape] at hkind
  obtain ⟨x, hx, hkind⟩ := Tree.node_of_kind hkind
  cases x with
  | file g => exact ⟨g, hx⟩
  | directory D | link target | special => cases hkind

theorem isDirectory_of_shape {x : Node} {D : Directory} (hshape : T₂.shape = T₁.shape)
    (hx : T₂.node j = some x) (hD : T₁.node j = some (.directory D)) : x.isDirectory = true := by
  have hkind := Tree.kind_of_node hx
  rw [hshape, Tree.kind_of_node hD] at hkind
  cases x with
  | directory D' => rfl
  | file g | link target | special => cases hkind

theorem staged_iff_of_rewritten (hdirs : DirsOnly T₀ T₁)
    (hC : T₁.shape.resolve true w.cwd env.chrootDir = .ok (.found C))
    (hdst : T₁.shape.resolve true w.cwd (stagedPath env) = .ok (.found j))
    (hg : T₁.node j = some (.file g)) (hshape : T'.shape = T₁.shape)
    (hj : T'.node j = some (.file { g with bytes := if i = j then [] else f.bytes }))
    (hother : ∀ {k x}, k ≠ j → T'.node k = some x → x.isDirectory = false → T₁.node k = some x) :
    Staged w env f T₀ T' ↔ Ready w env i f T₁ := by
  constructor
  · rintro ⟨⟨C', hC', houtside⟩, j', g', hdst', hg', hbytes, hexec⟩
    rw [hshape, hC] at hC'
    rw [hshape, hdst] at hdst'
    cases hC'
    cases hdst'
    rw [hj] at hg'
    cases hg'
    refine ⟨C, j, g, hC, hdst, hg, hexec, fun hij => ?_, ?_⟩
    · rw [← hbytes, if_pos hij]
    · rintro ⟨d, n, hd, hentry⟩
      -- the file was the same before, and the new directories have not changed it
      rw [← hshape] at hd hentry
      have hbefore := (houtside hd hentry hj rfl).2
      have hafter := hdirs.files hbefore
      rw [hg] at hafter
      have hsame := congrArg File.bytes (Node.file.inj (Option.some.inj hafter))
      exact hsame.trans hbytes
  · rintro ⟨C', j', g', hC', hdst', hg', hexec, hself, hnamed⟩
    rw [hC] at hC'
    rw [hdst] at hdst'
    cases hC'
    cases hdst'
    rw [hg] at hg'
    cases hg'
    have hbytes : (if i = j then [] else f.bytes) = f.bytes := by
      by_cases hij : i = j
      · rw [if_pos hij, hself hij]
      · rw [if_neg hij]
    rw [hbytes] at hj
    refine ⟨⟨C, hshape ▸ hC, ?_⟩, j, _, hshape ▸ hdst, hj, rfl, hexec⟩
    intro d n k x hd hentry hx hfile
    rw [hshape] at hd hentry
    have hx₁ : T₁.node k = some x := by
      by_cases hk : k = j
      · subst hk
        rw [hj, ← hnamed ⟨d, n, hd, hentry⟩] at hx
        rw [hg]
        exact hx
      · exact hother hk hx hfile
    exact hdirs.untouched trivial hentry hx₁ hfile

/-- **Staging is safe exactly on a file that is ready for it.** -/
theorem staged_iff (w : Launcher) (env : JailerEnv) (s s' : Session) (i : Ino) (f : File)
    (hsrc : s.tree.shape.resolve false w.cwd env.execFileHost = .ok (.found i))
    (hf : s.tree.node i = some (.file f)) (h : stage w env s = .ok () s') :
    Staged w env f s.tree s'.tree ↔ Ready w env i f (prepared w env s) := by
  obtain ⟨hdirs, C, T₂, hC, hshape, hnodes, hcopied⟩ := (ends_stage env).of_ok h
  generalize prepared w env s = T₁ at *
  -- the executable is where it was
  have hsrc₁ : T₁.shape.resolve false w.cwd env.execFileHost = .ok (.found i) :=
    Shape.resolve_grows hdirs.grows hsrc (Tree.kind_of_node hf)
  have hf₁ : T₁.node i = some (.file f) := hdirs.files hf
  cases hcopied with
  | @rewritten i' j g hsrc' hdst hg hshape' hj hother =>
    rw [hshape] at hsrc' hdst hshape'
    rw [hsrc₁] at hsrc'
    cases hsrc'
    obtain ⟨D, hD⟩ := directory_chrootDir hC hdst
    have hnotC {k : Ino} {x : Node} (hx : T₂.node k = some x) (hfile : x.isDirectory = false) :
        k ≠ C := by
      rintro rfl
      rw [isDirectory_of_shape hshape hx hD] at hfile
      cases hfile
    have hg₁ : T₁.node j = some (.file g) := by rw [← hnodes (hnotC hg rfl), hg]
    have hi : i ≠ C := by
      rintro rfl
      rw [hD] at hf₁
      cases hf₁
    rw [Tree.bytes_eq ((hnodes hi).trans hf₁)] at hj
    refine staged_iff_of_rewritten hdirs hC hdst hg₁ hshape' hj fun hk hx hfile => ?_
    rw [hother hk] at hx
    rw [← hnodes (hnotC hx hfile), hx]
  | notFile hdst hnode hshape' =>
    rw [hshape] at hdst
    constructor
    · rintro ⟨-, j', g, hdst', hg, -⟩
      rw [hshape', hshape, hdst] at hdst'
      cases hdst'
      obtain ⟨g', hg'⟩ := file_of_shape hshape' hg
      exact absurd hg' (hnode g')
    · rintro ⟨-, j', g, -, hdst', hg, -⟩
      rw [hdst] at hdst'
      cases hdst'
      obtain ⟨g', hg'⟩ := file_of_shape hshape.symm hg
      exact absurd hg' (hnode g')
  | made hdst hdst' hnew hmode =>
    rw [hshape] at hdst
    constructor
    · rintro ⟨-, j', g, hdst₁, hg, -, hexec⟩
      rw [hdst'] at hdst₁
      cases hdst₁
      rw [hnew] at hg
      cases hg
      rw [mayExec_eq_false hmode] at hexec
      cases hexec
    · rintro ⟨-, j', g, -, hdst₁, -⟩
      rw [hdst] at hdst₁
      cases hdst₁

end Main

section Scenario

def sampleLauncher : Launcher where
  cwd := 0
  umask := 0o022
  uid := 0
  gid := 0
  denied _ := none
  chunk _ := 8192

def sampleDir (parent : Ino) (entries : List (Name × Ino)) : Node :=
  .directory { parent, mode := 0o755, entries }

def sampleFile : File where
  bytes := [0x7F, 0x45, 0x4C, 0x46]
  mode := 0o755
  uid := 0
  gid := 0

def firstRun : Session where
  tree := (((Tree.empty.write 0 (sampleDir 0 [(Text.bytes "usr", 1), (Text.bytes "srv", 3)])).write 1
    (sampleDir 0 [(Text.bytes "squib", 2)])).write 2 (.file sampleFile)).write 3 (sampleDir 0 [])
  clock := 0

def executable (w : Launcher) (env : JailerEnv) (T : Tree) : Bool :=
  match T.shape.resolve true w.cwd (stagedPath env) with
  | .ok (.found j) =>
    match T.node j with
    | some (.file g) => g.mayExec env.uid env.gid
    | _ => false
  | _ => false

theorem Staged.executable {w : Launcher} {env : JailerEnv} {src : File} {T T' : Tree}
    (h : Staged w env src T T') : executable w env T' = true := by
  obtain ⟨j, g, hdst, hg, -, hexec⟩ := h.file
  simp only [Jail.executable, hdst, hg, hexec]

def secondRun : Session where
  tree := ((((((((Tree.empty.write 0 (sampleDir 0 [(Text.bytes "usr", 1), (Text.bytes "srv", 3)])).write 1
    (sampleDir 0 [(Text.bytes "squib", 2)])).write 2 (.file sampleFile)).write 3
    (sampleDir 0 [(Text.bytes "jailer", 4)])).write 4 (sampleDir 3 [(Text.bytes "firecracker", 5)])).write 5
    (sampleDir 4 [(Text.bytes "vm1", 6)])).write 6 (sampleDir 5 [(Text.bytes "root", 7)])).write 7
    (sampleDir 6 [(Text.bytes "squib", 8)])).write 8 (.file sampleFile)
  clock := 0

theorem staged_secondRun :
    returned (stage sampleLauncher sampleEnv secondRun) = true ∧
      Staged sampleLauncher sampleEnv sampleFile secondRun.tree
        (endState (stage sampleLauncher sampleEnv secondRun)).tree := by
  have hreturned : returned (stage sampleLauncher sampleEnv secondRun) = true := by decide +kernel
  have hready : Ready sampleLauncher sampleEnv 2 sampleFile
      (prepared sampleLauncher sampleEnv secondRun) := by
    refine ⟨7, 8, sampleFile, ?_, ?_, ?_, ?_, fun h => absurd h (by decide), fun _ => rfl⟩
    · decide +kernel
    · decide +kernel
    · decide +kernel
    · decide +kernel
  refine ⟨hreturned, (staged_iff _ _ _ _ 2 sampleFile ?_ ?_ (eq_ok_of_returned hreturned)).2 hready⟩
  · decide +kernel
  · decide +kernel

/-- The first run stages a file that the user of the jail cannot execute. -/
theorem staged_not_executable :
    returned (stage sampleLauncher sampleEnv firstRun) = true ∧
      ¬ Staged sampleLauncher sampleEnv sampleFile firstRun.tree
        (endState (stage sampleLauncher sampleEnv firstRun)).tree := by
  refine ⟨by decide +kernel, fun hstaged => ?_⟩
  have hexecutable := hstaged.executable
  revert hexecutable
  decide +kernel

end Scenario

end Squib.Jail
