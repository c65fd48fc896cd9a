import Squib.Lib.FileTree

/-!
# What the calls on files do to a file system
-/

namespace Posix

namespace Tree

def empty : Tree where
  node _ := none
  root := 0
  next := 0
  free _ _ := rfl

def write (T : Tree) (i : Ino) (x : Node) : Tree where
  node := Function.update T.node i (some x)
  root := T.root
  next := max T.next (i + 1)
  free j hj := by
    have hlt : i < j := Nat.lt_of_lt_of_le (Nat.lt_succ_self i) (Nat.le_trans (Nat.le_max_right ..) hj)
    rw [Function.update_of_ne (Nat.ne_of_gt hlt)]
    exact T.free j (Nat.le_trans (Nat.le_max_left ..) hj)

def insert (T : Tree) (d : Ino) (n : Name) (x : Node) : Tree :=
  match T.node d with
  | some (.directory D) =>
    (T.write d (.directory { D with entries := (n, T.next) :: D.entries })).write T.next x
  | _ => T

variable {T : Tree} {d i j : Ino} {n m : Name} {x y : Node} {D : Directory}

theorem node_write : (T.write i x).node i = some x := Function.update_self ..

theorem node_write_of_ne (h : j ≠ i) : (T.write i x).node j = T.node j := Function.update_of_ne h ..

theorem shape_write (hi : T.node i = some x) (hkind : y.kind = x.kind)
    (hentry : ∀ n, y.entry n = x.entry n) : (T.write i y).shape = T.shape := by
  unfold shape
  congr 1
  · funext j
    by_cases hj : j = i
    · rw [hj, node_write, hi, Option.map_some, Option.map_some, hkind]
    · rw [node_write_of_ne hj]
  · funext j m
    by_cases hj : j = i
    · rw [hj, node_write, hi, Option.bind_some, Option.bind_some, hentry]
    · rw [node_write_of_ne hj]

theorem kind_of_node (h : T.node i = some x) : T.shape.kind i = some x.kind := by
  simp [shape, h]

theorem node_of_kind {κ : Kind} (h : T.shape.kind i = some κ) : ∃ x, T.node i = some x ∧ x.kind = κ :=
  Option.map_eq_some_iff.1 h

theorem node_next : T.node T.next = none := T.free _ (Nat.le_refl _)

theorem ne_next (h : T.node i = some x) : i ≠ T.next := by
  rintro rfl
  rw [node_next] at h
  cases h

section Insert

variable (hd : T.node d = some (.directory D))
include hd

theorem insert_eq : T.insert d n x =
    (T.write d (.directory { D with entries := (n, T.next) :: D.entries })).write T.next x := by
  unfold insert
  rw [hd]

theorem node_insert_next : (T.insert d n x).node T.next = some x := by
  rw [insert_eq hd, node_write]

theorem node_insert_self : (T.insert d n x).node d =
    some (.directory { D with entries := (n, T.next) :: D.entries }) := by
  rw [insert_eq hd, node_write_of_ne (ne_next hd), node_write]

theorem node_insert_of_ne (hi : i ≠ T.next) (hne : i ≠ d) : (T.insert d n x).node i = T.node i := by
  rw [insert_eq hd, node_write_of_ne hi, node_write_of_ne hne]

theorem entry_insert (hi : i ≠ T.next) (hm : i = d → m ≠ n) :
    (T.insert d n x).shape.entry i m = T.shape.entry i m := by
  unfold shape
  by_cases hid : i = d
  · have hne := hm hid
    dsimp only
    rw [hid, node_insert_self hd, hd, Option.bind_some, Option.bind_some, Node.entry, Node.entry,
      List.lookup_cons, beq_false_of_ne hne]
  · dsimp only
    rw [node_insert_of_ne hd hi hid]

theorem entry_insert_self : (T.insert d n x).shape.entry d n = some T.next := by
  unfold shape
  dsimp only
  rw [node_insert_self hd, Option.bind_some, Node.entry, List.lookup_cons, beq_self_eq_true]

theorem inserts_insert (hentry : T.shape.entry d n = none) (hx : ∀ target, x ≠ .link target) :
    Shape.Inserts T.shape (T.insert d n x).shape d n T.next where
  root := by
    rw [insert_eq hd]
    rfl
  kind {i κ} hi := by
    obtain ⟨y, hy, rfl⟩ := node_of_kind hi
    by_cases hid : i = d
    · subst hid
      rw [kind_of_node (node_insert_self hd)]
      rw [hd] at hy
      cases hy
      rfl
    · exact kind_of_node (by rw [node_insert_of_ne hd (ne_next hy) hid, hy])
  entry {i m j} hi := by
    have hnext : i ≠ T.next := by
      rintro rfl
      simp [shape, node_next] at hi
    rw [entry_insert hd hnext, hi]
    rintro rfl rfl
    rw [hentry] at hi
    cases hi
  entry_new := entry_insert_self hd
  not_isLink_new := by
    rintro ⟨target, htarget⟩
    obtain ⟨y, hy, hkind⟩ := node_of_kind htarget
    rw [node_insert_next hd] at hy
    cases hy
    cases x with
    | link target' => exact hx target' rfl
    | file f | directory D' | special => cases hkind

end Insert

end Tree

/-! ## Calls -/

def Node.isDirectory : Node → Bool
  | .directory _ => true
  | _ => false

namespace Tree

variable (T : Tree) (cwd : Ino) (p : Path)

def mkdir (mode : UInt32) : Except ℕ Tree :=
  match T.shape.resolve false cwd p with
  | .error errno => .error errno
  | .ok (.found _) => .error EEXIST
  | .ok (.missing d n) => .ok (T.insert d n (.directory { parent := d, mode, entries := [] }))

def isDir : Bool :=
  match T.shape.resolve true cwd p with
  | .ok (.found i) => (T.node i).any Node.isDirectory
  | _ => false

def chmod (mode : UInt32) : Except ℕ Tree :=
  match T.shape.resolve true cwd p with
  | .error errno => .error errno
  | .ok (.missing _ _) => .error ENOENT
  | .ok (.found i) =>
    match T.node i with
    | some (.file f) => .ok (T.write i (.file { f with mode }))
    | some (.directory d) => .ok (T.write i (.directory { d with mode }))
    | _ => .ok T

def openNofollow : Except ℕ Ino :=
  match T.shape.resolve false cwd p with
  | .error errno => .error errno
  | .ok (.missing _ _) => .error ENOENT
  | .ok (.found i) =>
    match T.node i with
    | some (.link _) => .error ELOOP
    | _ => .ok i

def creat (new : File) : Except ℕ (Ino × Tree) :=
  match T.shape.resolve true cwd p with
  | .error errno => .error errno
  | .ok (.missing d n) => .ok (T.next, T.insert d n (.file new))
  | .ok (.found i) =>
    match T.node i with
    | some (.file f) => .ok (i, T.write i (.file { f with bytes := [] }))
    | some (.directory _) => .error EISDIR
    | _ => .ok (i, T)

def bytes (i : Ino) : List UInt8 :=
  match T.node i with
  | some (.file f) => f.bytes
  | _ => []

def pwrite (i : Ino) (off : ℕ) (data : List UInt8) : Tree :=
  match T.node i with
  | some (.file f) =>
    T.write i (.file { f with bytes := f.bytes.take off ++ data ++ f.bytes.drop (off + data.length) })
  | _ => T

end Tree

/-! ## What stays -/

def Untouched (P : Ino → Prop) (T T' : Tree) : Prop :=
  ∀ {d n i x}, P d → T'.shape.entry d n = some i → T'.node i = some x → x.isDirectory = false →
    T.shape.entry d n = some i ∧ T.node i = some x

structure DirsOnly (T T' : Tree) : Prop where
  grows : Shape.Grows T.shape T'.shape
  files : ∀ {i f}, T.node i = some (.file f) → T'.node i = some (.file f)
  untouched : Untouched (fun _ => True) T T'

theorem DirsOnly.refl (T : Tree) : DirsOnly T T :=
  ⟨.refl _, fun h => h, fun _ hentry hnode _ => ⟨hentry, hnode⟩⟩

theorem DirsOnly.trans {T T' T'' : Tree} (h : DirsOnly T T') (h' : DirsOnly T' T'') :
    DirsOnly T T'' := by
  refine ⟨h.grows.trans h'.grows, fun hf => h'.files (h.files hf), fun _ hentry hnode hx => ?_⟩
  obtain ⟨hentry', hnode'⟩ := h'.untouched trivial hentry hnode hx
  exact h.untouched trivial hentry' hnode' hx

theorem Shape.Walks.missing_inv {S : Shape} {last : Bool} {links : ℕ} {cur d : Ino} {n : Name}
    {ns : List Name} (h : S.Walks last links cur ns (.missing d n)) :
    (∃ parent, S.kind d = some (.directory parent)) ∧ S.entry d n = none := by
  generalize hplace : Place.missing d n = place at h
  induction h with
  | done | atLink => cases hplace
  | stay _ _ _ ih | up _ _ ih | link _ _ _ _ _ _ ih | child _ _ _ _ _ ih => exact ih hplace
  | missing hcur _ hentry =>
    cases hplace
    exact ⟨⟨_, hcur⟩, hentry⟩

namespace Tree

variable {T T' : Tree} {cwd : Ino} {p : Path}

theorem directory_of_missing {last : Bool} {d : Ino} {n : Name}
    (h : T.shape.resolve last cwd p = .ok (.missing d n)) :
    (∃ D, T.node d = some (.directory D)) ∧ T.shape.entry d n = none := by
  obtain ⟨⟨parent, hkind⟩, hentry⟩ := (Shape.walks_of_resolve h).2.missing_inv
  refine ⟨?_, hentry⟩
  obtain ⟨x, hx, hkind⟩ := node_of_kind hkind
  cases x with
  | directory D => exact ⟨D, hx⟩
  | file f | link target | special => cases hkind

theorem untouched_insert {d e i : Ino} {n m : Name} {x : Node} {D new : Directory}
    (hd : T.node d = some (.directory D)) (hnew : new.entries = [])
    (hentry : (T.insert d n (.directory new)).shape.entry e m = some i)
    (hnode : (T.insert d n (.directory new)).node i = some x) (hx : x.isDirectory = false) :
    T.shape.entry e m = some i ∧ T.node i = some x := by
  have hnext : i ≠ T.next := by
    rintro rfl
    rw [node_insert_next hd] at hnode
    cases hnode
    cases hx
  have hid : i ≠ d := by
    rintro rfl
    rw [node_insert_self hd] at hnode
    cases hnode
    cases hx
  have he : e ≠ T.next := by
    rintro rfl
    simp [shape, node_insert_next hd, Node.entry, hnew] at hentry
  have hm : e = d → m ≠ n := by
    rintro rfl rfl
    rw [entry_insert_self hd] at hentry
    exact hnext (Option.some.inj hentry).symm
  rw [node_insert_of_ne hd hnext hid] at hnode
  rw [entry_insert hd he hm] at hentry
  exact ⟨hentry, hnode⟩

theorem dirsOnly_mkdir {mode : UInt32} (h : T.mkdir cwd p mode = .ok T') : DirsOnly T T' := by
  unfold mkdir at h
  cases hplace : T.shape.resolve false cwd p with
  | error errno =>
    rw [hplace] at h
    cases h
  | ok place =>
    cases place with
    | found i =>
      rw [hplace] at h
      cases h
    | missing d n =>
      rw [hplace] at h
      cases h
      obtain ⟨⟨D, hd⟩, hentry⟩ := directory_of_missing hplace
      refine ⟨(inserts_insert hd hentry fun _ => by simp).toGrows, ?_, ?_⟩
      · intro i f hf
        have hne : i ≠ d := by
          rintro rfl
          rw [hd] at hf
          cases hf
        rw [node_insert_of_ne hd (ne_next hf) hne, hf]
      · intro e m i x _ hm hx hdir
        exact untouched_insert hd rfl hm hx hdir

structure Rewrites (j : Ino) (T T' : Tree) : Prop where
  shape : T'.shape = T.shape
  other : ∀ {k}, k ≠ j → T'.node k = T.node k
  file : ∀ {g}, T.node j = some (.file g) → ∃ b, T'.node j = some (.file { g with bytes := b })

theorem Rewrites.refl (j : Ino) (T : Tree) : Rewrites j T T :=
  ⟨rfl, fun _ => rfl, fun {g} h => ⟨g.bytes, h⟩⟩

theorem Rewrites.trans {j : Ino} {T'' : Tree} (h : Rewrites j T T') (h' : Rewrites j T' T'') :
    Rewrites j T T'' := by
  refine ⟨h'.shape.trans h.shape, fun hk => (h'.other hk).trans (h.other hk), fun hg => ?_⟩
  obtain ⟨b, hb⟩ := h.file hg
  obtain ⟨b', hb'⟩ := h'.file hb
  exact ⟨b', hb'⟩

theorem rewrites_write {j : Ino} {f : File} {b : List UInt8} (hf : T.node j = some (.file f)) :
    Rewrites j T (T.write j (.file { f with bytes := b })) where
  shape := shape_write hf rfl fun _ => rfl
  other hk := node_write_of_ne hk
  file hg := by
    rw [hf] at hg
    cases hg
    exact ⟨b, node_write⟩

theorem pwrite_eq {j : Ino} {off : ℕ} {data : List UInt8} {f : File} (hf : T.node j = some (.file f)) :
    T.pwrite j off data = T.write j
      (.file { f with bytes := f.bytes.take off ++ data ++ f.bytes.drop (off + data.length) }) := by
  unfold pwrite
  rw [hf]

theorem rewrites_pwrite {j : Ino} {off : ℕ} {data : List UInt8} :
    Rewrites j T (T.pwrite j off data) := by
  cases hnode : T.node j with
  | none =>
    simp only [pwrite, hnode]
    exact .refl j T
  | some x =>
    cases x with
    | file f =>
      rw [pwrite_eq hnode]
      exact rewrites_write hnode
    | directory d | link target | special =>
      simp only [pwrite, hnode]
      exact .refl j T

theorem bytes_eq {j : Ino} {f : File} (hf : T.node j = some (.file f)) : T.bytes j = f.bytes := by
  unfold bytes
  rw [hf]

theorem Rewrites.bytes_of_ne {j k : Ino} (h : Rewrites j T T') (hk : k ≠ j) :
    T'.bytes k = T.bytes k := by
  unfold bytes
  rw [h.other hk]

/-! ## The calls, taken apart -/

theorem chmod_inv {mode : UInt32} (h : T.chmod cwd p mode = .ok T') :
    ∃ C, T.shape.resolve true cwd p = .ok (.found C) ∧ T'.shape = T.shape ∧
      ∀ {k}, k ≠ C → T'.node k = T.node k := by
  unfold chmod at h
  cases hplace : T.shape.resolve true cwd p with
  | error errno => simp [hplace] at h
  | ok place =>
    cases place with
    | missing d n => simp [hplace] at h
    | found C =>
      simp only [hplace] at h
      refine ⟨C, rfl, ?_⟩
      cases hnode : T.node C with
      | none =>
        simp only [hnode] at h
        cases h
        exact ⟨rfl, fun _ => rfl⟩
      | some x =>
        cases x with
        | file f | directory d =>
          simp only [hnode] at h
          cases h
          exact ⟨shape_write hnode rfl fun _ => rfl, fun hk => node_write_of_ne hk⟩
        | link target | special =>
          simp only [hnode] at h
          cases h
          exact ⟨rfl, fun _ => rfl⟩

theorem openNofollow_inv {i : Ino} (h : T.openNofollow cwd p = .ok i) :
    T.shape.resolve false cwd p = .ok (.found i) := by
  unfold openNofollow at h
  cases hplace : T.shape.resolve false cwd p with
  | error errno => simp [hplace] at h
  | ok place =>
    cases place with
    | missing d n => simp [hplace] at h
    | found k =>
      simp only [hplace] at h
      split at h
      · cases h
      · cases h
        rfl

inductive Created (T : Tree) (cwd : Ino) (p : Path) (new : File) : Ino → Tree → Prop
  | emptied {j f} : T.shape.resolve true cwd p = .ok (.found j) → T.node j = some (.file f) →
      Created T cwd p new j (T.write j (.file { f with bytes := [] }))
  | other {j} : T.shape.resolve true cwd p = .ok (.found j) → (∀ f, T.node j ≠ some (.file f)) →
      Created T cwd p new j T
  | made {d n} : T.shape.resolve true cwd p = .ok (.missing d n) →
      Created T cwd p new T.next (T.insert d n (.file new))

theorem creat_inv {new : File} {j : Ino} (h : T.creat cwd p new = .ok (j, T')) :
    Created T cwd p new j T' := by
  unfold creat at h
  cases hplace : T.shape.resolve true cwd p with
  | error errno => simp [hplace] at h
  | ok place =>
    cases place with
    | missing d n =>
      simp only [hplace] at h
      cases h
      exact .made hplace
    | found k =>
      simp only [hplace] at h
      cases hnode : T.node k with
      | none =>
        simp only [hnode] at h
        cases h
        exact .other hplace (by simp [hnode])
      | some x =>
        cases x with
        | file f =>
          simp only [hnode] at h
          cases h
          exact .emptied hplace hnode
        | directory d => simp [hnode] at h
        | link target | special =>
          simp only [hnode] at h
          cases h
          exact .other hplace (by simp [hnode])

end Tree

end Posix
