import Mathlib.Data.List.Basic
import Mathlib.Logic.Function.Basic

/-!
# A file system with links
-/

namespace Posix

abbrev Path := List UInt8

abbrev Name := List UInt8

def names (p : Path) : List Name := p.splitOn 47

def isAbsolute (p : Path) : Bool := p.head? == some 47

def dot : Name := [46]

def dotDot : Name := [46, 46]

def rootPath : Path := [47]

def IsName (n : Name) : Prop := n ≠ [] ∧ n ≠ dot ∧ n ≠ dotDot ∧ 47 ∉ n

instance (n : Name) : Decidable (IsName n) := inferInstanceAs (Decidable (_ ∧ _ ∧ _ ∧ _))

def join (base p : Path) : Path :=
  if isAbsolute p then p
  else if base = [] ∨ base.getLast? = some 47 then base ++ p
  else base ++ 47 :: p

def components (p : Path) : List Name := (names p).filter fun n => n ≠ [] ∧ n ≠ dot

def fileName (p : Path) : Option Name := ((components p).getLast?).filter (· ≠ dotDot)

variable {p : Path} {n : Name}

theorem not_mem_of_mem_names : ∀ {n : Name}, n ∈ names p → 47 ∉ n := by
  unfold names
  induction p with
  | nil =>
    intro n hn
    rw [List.splitOn_nil, List.mem_singleton] at hn
    rw [hn]
    exact List.not_mem_nil
  | cons b p ih =>
    intro n hn
    rw [List.splitOn_cons_eq_if_modifyHead] at hn
    by_cases hb : b = 47
    · rw [if_pos (by simp [hb]), List.mem_cons] at hn
      obtain rfl | hn := hn
      · exact List.not_mem_nil
      · exact ih hn
    · rw [if_neg (by simp [hb])] at hn
      cases hp : p.splitOn 47 with
      | nil => exact absurd hp (List.splitOn_ne_nil _ _)
      | cons m ms =>
        rw [hp, List.modifyHead_cons, List.mem_cons] at hn
        obtain rfl | hn := hn
        · have hm := ih (hp ▸ List.mem_cons_self : m ∈ p.splitOn 47)
          exact List.not_mem_cons_of_ne_of_not_mem (fun h => hb h.symm) hm
        · exact ih (hp ▸ List.mem_cons_of_mem m hn)

theorem isName_of_fileName (h : fileName p = some n) : IsName n := by
  unfold fileName at h
  rw [Option.filter_eq_some_iff] at h
  obtain ⟨hlast, hdots⟩ := h
  have hmem := List.mem_of_getLast? hlast
  unfold components at hmem
  rw [List.mem_filter] at hmem
  obtain ⟨hnames, hkeep⟩ := hmem
  have hkeep : n ≠ [] ∧ n ≠ dot := of_decide_eq_true hkeep
  exact ⟨hkeep.1, hkeep.2, of_decide_eq_true hdots, not_mem_of_mem_names hnames⟩

theorem names_append_cons (p q : Path) : names (p ++ 47 :: q) = names p ++ names q :=
  List.splitOn_append_cons_of_beq p q (beq_self_eq_true 47)

theorem names_of_isName (h : IsName n) : names n = [n] :=
  List.splitOn_eq_singleton h.2.2.2

theorem isAbsolute_append {q : Path} (hp : p ≠ []) : isAbsolute (p ++ q) = isAbsolute p := by
  cases p with
  | nil => exact absurd rfl hp
  | cons b p => rfl

theorem join_eq {base : Path} (hne : base ≠ []) (hlast : base.getLast? ≠ some 47) (hn : IsName n) :
    join base n = base ++ 47 :: n := by
  have hrelative : isAbsolute n = false := by
    cases n with
    | nil => rfl
    | cons b n =>
      have hb : b ≠ 47 := fun h => hn.2.2.2 (h ▸ List.mem_cons_self)
      simp [isAbsolute, hb]
  unfold join
  rw [hrelative, if_neg Bool.false_ne_true, if_neg (not_or.2 ⟨hne, hlast⟩)]

theorem components_join {base : Path} {n : Name} (hn : IsName n) :
    components (join base n) = components base ++ [n] := by
  have hrelative : isAbsolute n = false := by
    rw [isAbsolute, beq_eq_false_iff_ne]
    exact fun h => hn.2.2.2 (List.mem_of_head? h)
  have hnames := names_of_isName hn
  have hempty : names [] = [[]] := List.splitOn_nil 47
  rw [join, hrelative, if_neg Bool.false_ne_true]
  split_ifs with hend
  · obtain rfl | hlast := hend
    · simp [components, hempty, hnames, hn.1, hn.2.1]
    · obtain ⟨base, rfl⟩ := List.getLast?_eq_some_iff.1 hlast
      simp [components, names_append_cons, hempty, hnames, hn.1, hn.2.1]
  · simp [components, names_append_cons, hnames, hn.1, hn.2.1]

/-! ## Nodes -/

abbrev Ino := ℕ

structure File where
  bytes : List UInt8
  mode : UInt32
  uid : UInt32
  gid : UInt32
  deriving DecidableEq, Repr

structure Directory where
  parent : Ino
  mode : UInt32
  entries : List (Name × Ino)
  deriving DecidableEq, Repr

inductive Node where
  | file (f : File)
  | directory (d : Directory)
  | link (target : Path)
  | special
  deriving DecidableEq, Repr

inductive Kind where
  | file
  | directory (parent : Ino)
  | link (target : Path)
  | special
  deriving DecidableEq, Repr

def Node.kind : Node → Kind
  | .file _ => .file
  | .directory d => .directory d.parent
  | .link target => .link target
  | .special => .special

def Node.entry (n : Name) : Node → Option Ino
  | .directory d => d.entries.lookup n
  | _ => none

def File.mayExec (f : File) (uid gid : UInt32) : Bool :=
  if uid = 0 then f.mode &&& 0o111 != 0
  else if uid = f.uid then f.mode &&& 0o100 != 0
  else if gid = f.gid then f.mode &&& 0o010 != 0
  else f.mode &&& 0o001 != 0

structure Shape where
  root : Ino
  kind : Ino → Option Kind
  entry : Ino → Name → Option Ino

structure Tree where
  node : Ino → Option Node
  root : Ino
  next : Ino
  free : ∀ i, next ≤ i → node i = none

def Tree.shape (T : Tree) : Shape where
  root := T.root
  kind i := (T.node i).map Node.kind
  entry d n := (T.node d).bind (Node.entry n)

/-! ## Resolution -/

inductive Place where
  | found (i : Ino)
  | missing (dir : Ino) (name : Name)
  deriving DecidableEq, Repr

def ENOENT : ℕ := 2
def EEXIST : ℕ := 17
def ENOTDIR : ℕ := 20
def EISDIR : ℕ := 21
def ELOOP : ℕ := 62

def maxSymlinks : ℕ := 32

namespace Shape

variable (S : Shape)

def start (cwd : Ino) (p : Path) : Ino := if isAbsolute p then S.root else cwd

def walkWith (last : Bool) (follow : Ino → List Name → Except ℕ Place) :
    Ino → List Name → Except ℕ Place
  | cur, [] => .ok (.found cur)
  | cur, n :: rest =>
    match S.kind cur with
    | some (.directory parent) =>
      if n = [] ∨ n = dot then walkWith last follow cur rest
      else if n = dotDot then walkWith last follow parent rest
      else
        match S.entry cur n with
        | none => if rest = [] then .ok (.missing cur n) else .error ENOENT
        | some i =>
          match S.kind i with
          | some (.link target) =>
            if rest = [] ∧ last = false then .ok (.found i)
            else follow (S.start cur target) (names target ++ rest)
          | _ => walkWith last follow i rest
    | _ => .error ENOTDIR

def walk (last : Bool) : ℕ → Ino → List Name → Except ℕ Place
  | 0 => S.walkWith last fun _ _ => .error ELOOP
  | links + 1 => S.walkWith last (walk last links)

def resolve (last : Bool) (cwd : Ino) (p : Path) : Except ℕ Place :=
  if p = [] then .error ENOENT else S.walk last maxSymlinks (S.start cwd p) (names p)

def Plain (n : Name) : Prop := n ≠ [] ∧ n ≠ dot ∧ n ≠ dotDot

def IsLink (i : Ino) : Prop := ∃ target, S.kind i = some (.link target)

inductive Walks (last : Bool) : ℕ → Ino → List Name → Place → Prop
  | done {links cur} : Walks last links cur [] (.found cur)
  | stay {links cur parent n rest place} : S.kind cur = some (.directory parent) →
      n = [] ∨ n = dot → Walks last links cur rest place → Walks last links cur (n :: rest) place
  | up {links cur parent rest place} : S.kind cur = some (.directory parent) →
      Walks last links parent rest place → Walks last links cur (dotDot :: rest) place
  | missing {links cur parent n} : S.kind cur = some (.directory parent) → Plain n →
      S.entry cur n = none → Walks last links cur [n] (.missing cur n)
  | atLink {links cur parent n i} : S.kind cur = some (.directory parent) → Plain n →
      S.entry cur n = some i → S.IsLink i → last = false → Walks last links cur [n] (.found i)
  | link {links cur parent n i target rest place} : S.kind cur = some (.directory parent) → Plain n →
      S.entry cur n = some i → S.kind i = some (.link target) → ¬ (rest = [] ∧ last = false) →
      Walks last links (S.start cur target) (names target ++ rest) place →
      Walks last (links + 1) cur (n :: rest) place
  | child {links cur parent n i rest place} : S.kind cur = some (.directory parent) → Plain n →
      S.entry cur n = some i → ¬ S.IsLink i → Walks last links i rest place →
      Walks last links cur (n :: rest) place

section Equations

variable {S} {last : Bool} {links cur parent i : ℕ} {n : Name} {rest : List Name}

theorem walk_eq (links : ℕ) : ∃ follow : Ino → List Name → Except ℕ Place,
    S.walk last links = S.walkWith last follow := by
  cases links with
  | zero | succ links => exact ⟨_, rfl⟩

theorem walk_nil : S.walk last links cur [] = .ok (.found cur) := by
  obtain ⟨follow, h⟩ := walk_eq links
  rw [h]
  rfl

theorem walk_stay (hcur : S.kind cur = some (.directory parent)) (hn : n = [] ∨ n = dot) :
    S.walk last links cur (n :: rest) = S.walk last links cur rest := by
  obtain ⟨follow, h⟩ := walk_eq links
  rw [h, walkWith]
  simp only [hcur, if_pos hn]

theorem walk_up (hcur : S.kind cur = some (.directory parent)) :
    S.walk last links cur (dotDot :: rest) = S.walk last links parent rest := by
  obtain ⟨follow, h⟩ := walk_eq links
  rw [h, walkWith]
  simp [hcur, dotDot, dot]

theorem walk_atLink (hcur : S.kind cur = some (.directory parent)) (hn : Plain n)
    (hentry : S.entry cur n = some i) (hlink : S.IsLink i) (hlast : last = false) :
    S.walk last links cur [n] = .ok (.found i) := by
  obtain ⟨follow, h⟩ := walk_eq links
  obtain ⟨target, hlink⟩ := hlink
  rw [h, walkWith]
  simp [hcur, hn.1, hn.2.1, hn.2.2, hentry, hlink, hlast]

theorem walk_link {target : Path} (hcur : S.kind cur = some (.directory parent)) (hn : Plain n)
    (hentry : S.entry cur n = some i) (hlink : S.kind i = some (.link target))
    (hlast : ¬ (rest = [] ∧ last = false)) :
    S.walk last (links + 1) cur (n :: rest) =
      S.walk last links (S.start cur target) (names target ++ rest) := by
  rw [walk, walkWith]
  simp only [hcur, if_neg (not_or.2 ⟨hn.1, hn.2.1⟩), if_neg hn.2.2, hentry, hlink, if_neg hlast]

theorem walk_child (hcur : S.kind cur = some (.directory parent)) (hn : Plain n)
    (hentry : S.entry cur n = some i) (hlink : ¬ S.IsLink i) :
    S.walk last links cur (n :: rest) = S.walk last links i rest := by
  obtain ⟨follow, h⟩ := walk_eq links
  rw [h, walkWith]
  simp only [hcur, if_neg (not_or.2 ⟨hn.1, hn.2.1⟩), if_neg hn.2.2, hentry]
  cases hkind : S.kind i with
  | none => rfl
  | some kind =>
    cases kind with
    | link target => exact absurd ⟨target, hkind⟩ hlink
    | file | directory parent | special => rfl

end Equations

variable {S} {last : Bool} {links : ℕ} {cur cwd : Ino} {n : Name} {place : Place} {ns : List Name}
  {p : Path} {κ : Kind} {follow : Ino → List Name → Except ℕ Place} {C j d new : Ino}

theorem walks_entry {parent : Ino} {rest : List Name}
    (hfollow : ∀ cur ns place, follow cur ns = .ok place →
      ∃ l, links = l + 1 ∧ S.Walks last l cur ns place)
    (ih : ∀ cur place, S.walkWith last follow cur rest = .ok place →
      S.Walks last links cur rest place) (hcur : S.kind cur = some (.directory parent))
    (hn : Plain n) (h : S.walkWith last follow cur (n :: rest) = .ok place) :
    S.Walks last links cur (n :: rest) place := by
  simp only [walkWith, hcur, if_neg (not_or.2 ⟨hn.1, hn.2.1⟩), if_neg hn.2.2] at h
  cases hentry : S.entry cur n with
  | none =>
    simp only [hentry] at h
    by_cases hrest : rest = []
    · rw [if_pos hrest] at h
      cases h
      rw [hrest]
      exact .missing hcur hn hentry
    · rw [if_neg hrest] at h
      cases h
  | some i =>
    simp only [hentry] at h
    by_cases hlink : S.IsLink i
    · obtain ⟨target, htarget⟩ := hlink
      simp only [htarget] at h
      by_cases hlast : rest = [] ∧ last = false
      · rw [if_pos hlast] at h
        cases h
        rw [hlast.1]
        exact .atLink hcur hn hentry ⟨target, htarget⟩ hlast.2
      · rw [if_neg hlast] at h
        obtain ⟨l, rfl, hwalks⟩ := hfollow _ _ _ h
        exact .link hcur hn hentry htarget hlast hwalks
    · refine .child hcur hn hentry hlink (ih i place ?_)
      cases hkind : S.kind i with
      | none => simpa only [hkind] using h
      | some kind =>
        cases kind with
        | link target => exact absurd ⟨target, hkind⟩ hlink
        | file | directory parent | special => simpa only [hkind] using h

theorem walks_of_walkWith (hfollow : ∀ cur ns place, follow cur ns = .ok place →
      ∃ l, links = l + 1 ∧ S.Walks last l cur ns place) (ns : List Name) :
    ∀ cur place, S.walkWith last follow cur ns = .ok place → S.Walks last links cur ns place := by
  induction ns with
  | nil =>
    intro cur place h
    cases h
    exact .done
  | cons n rest ih =>
    intro cur place h
    cases hcur : S.kind cur with
    | none => simp [walkWith, hcur] at h
    | some kind =>
      cases kind with
      | file | link target | special => simp [walkWith, hcur] at h
      | directory parent =>
        by_cases hstay : n = [] ∨ n = dot
        · simp only [walkWith, hcur, if_pos hstay] at h
          exact .stay hcur hstay (ih cur place h)
        by_cases hup : n = dotDot
        · simp only [walkWith, hcur, if_neg hstay, if_pos hup] at h
          rw [hup]
          exact .up hcur (ih parent place h)
        have hn : Plain n := ⟨(not_or.1 hstay).1, (not_or.1 hstay).2, hup⟩
        exact walks_entry hfollow ih hcur hn h

theorem walks_of_walk (links : ℕ) : ∀ {cur ns place}, S.walk last links cur ns = .ok place →
    S.Walks last links cur ns place := by
  induction links with
  | zero =>
    intro cur ns place h
    refine walks_of_walkWith ?_ ns cur place h
    rintro _ _ _ ⟨⟩
  | succ links ih =>
    intro cur ns place h
    exact walks_of_walkWith (fun _ _ _ h => ⟨links, rfl, ih h⟩) ns cur place h

theorem walk_append (h : S.Walks true links cur ns (.found C)) :
    ∃ l, ∀ rest last, rest ≠ [] → S.walk last links cur (ns ++ rest) = S.walk last l C rest := by
  generalize hplace : Place.found C = place at h
  induction h with
  | done =>
    cases hplace
    exact ⟨_, fun _ _ _ => rfl⟩
  | stay hcur hn _ ih =>
    obtain ⟨l, hl⟩ := ih hplace
    exact ⟨l, fun rest last hrest => by rw [List.cons_append, walk_stay hcur hn, hl rest last hrest]⟩
  | up hcur _ ih =>
    obtain ⟨l, hl⟩ := ih hplace
    exact ⟨l, fun rest last hrest => by rw [List.cons_append, walk_up hcur, hl rest last hrest]⟩
  | missing => cases hplace
  | atLink _ _ _ _ hlast => cases hlast
  | link hcur hn hentry hlink _ _ ih =>
    obtain ⟨l, hl⟩ := ih hplace
    refine ⟨l, fun rest last hrest => ?_⟩
    rw [List.cons_append, walk_link hcur hn hentry hlink (by simp [hrest]), ← List.append_assoc,
      hl rest last hrest]
  | child hcur hn hentry hlink _ ih =>
    obtain ⟨l, hl⟩ := ih hplace
    refine ⟨l, fun rest last hrest => ?_⟩
    rw [List.cons_append, walk_child hcur hn hentry hlink, hl rest last hrest]

theorem walks_of_resolve (h : S.resolve last cwd p = .ok place) :
    p ≠ [] ∧ S.Walks last maxSymlinks (S.start cwd p) (names p) place := by
  unfold resolve at h
  by_cases hp : p = []
  · rw [if_pos hp] at h
    cases h
  · rw [if_neg hp] at h
    exact ⟨hp, walks_of_walk _ h⟩

/-! ## More names -/

structure Grows (S S' : Shape) : Prop where
  root : S'.root = S.root
  kind : ∀ {i κ}, S.kind i = some κ → S'.kind i = some κ
  entry : ∀ {d n i}, S.entry d n = some i → S'.entry d n = some i

variable {S' : Shape}

theorem Grows.refl (S : Shape) : Grows S S := ⟨rfl, fun h => h, fun h => h⟩

theorem Grows.trans {S'' : Shape} (h : Grows S S') (h' : Grows S' S'') : Grows S S'' :=
  ⟨h'.root.trans h.root, fun hk => h'.kind (h.kind hk), fun he => h'.entry (h.entry he)⟩

theorem Grows.start (h : Grows S S') (cwd : Ino) (p : Path) : S'.start cwd p = S.start cwd p := by
  unfold Shape.start
  rw [h.root]

theorem Grows.not_isLink (h : Grows S S') {i : Ino} (hκ : S.kind i = some κ) (hi : ¬ S.IsLink i) :
    ¬ S'.IsLink i := by
  rintro ⟨target, htarget⟩
  rw [h.kind hκ] at htarget
  exact hi ⟨target, hκ.trans htarget⟩

theorem Walks.kind_start (h : S.Walks last links cur ns place)
    (hplace : ∀ i, place = .found i → ∃ κ, S.kind i = some κ) : ∃ κ, S.kind cur = some κ := by
  cases h with
  | done => exact hplace _ rfl
  | stay hcur _ _ | up hcur _ | missing hcur _ _ | atLink hcur _ _ _ _ | link hcur _ _ _ _ _
  | child hcur _ _ _ _ => exact ⟨_, hcur⟩

theorem walk_grows (hgrows : Grows S S') (h : S.Walks last links cur ns (.found j))
    (hj : S.kind j = some κ) : S'.walk last links cur ns = .ok (.found j) := by
  generalize hplace : Place.found j = place at h
  induction h with
  | done =>
    exact walk_nil
  | stay hcur hn _ ih => rw [walk_stay (hgrows.kind hcur) hn, ih hplace]
  | up hcur _ ih => rw [walk_up (hgrows.kind hcur), ih hplace]
  | missing => cases hplace
  | atLink hcur hn hentry hlink hlast =>
    obtain ⟨target, htarget⟩ := hlink
    exact walk_atLink (hgrows.kind hcur) hn (hgrows.entry hentry) ⟨target, hgrows.kind htarget⟩ hlast
  | link hcur hn hentry hlink hlast _ ih =>
    rw [walk_link (hgrows.kind hcur) hn (hgrows.entry hentry) (hgrows.kind hlink) hlast,
      hgrows.start, ih hplace]
  | child hcur hn hentry hlink hrest ih =>
    obtain ⟨κ', hκ'⟩ := hrest.kind_start fun i hi => ⟨κ, by cases hplace.trans hi; exact hj⟩
    rw [walk_child (hgrows.kind hcur) hn (hgrows.entry hentry) (hgrows.not_isLink hκ' hlink),
      ih hplace]

structure Inserts (S S' : Shape) (d : Ino) (n : Name) (new : Ino) : Prop extends Grows S S' where
  entry_new : S'.entry d n = some new
  not_isLink_new : ¬ S'.IsLink new

theorem walk_insert (hinserts : Inserts S S' d n new) (h : S.Walks last links cur ns (.missing d n)) :
    S'.walk last links cur ns = .ok (.found new) := by
  have hgrows := hinserts.toGrows
  generalize hplace : Place.missing d n = place at h
  induction h with
  | done | atLink => cases hplace
  | stay hcur hn _ ih => rw [walk_stay (hgrows.kind hcur) hn, ih hplace]
  | up hcur _ ih => rw [walk_up (hgrows.kind hcur), ih hplace]
  | missing hcur hn _ =>
    cases hplace
    rw [walk_child (hgrows.kind hcur) hn hinserts.entry_new hinserts.not_isLink_new, walk_nil]
  | link hcur hn hentry hlink hlast _ ih =>
    rw [walk_link (hgrows.kind hcur) hn (hgrows.entry hentry) (hgrows.kind hlink) hlast,
      hgrows.start, ih hplace]
  | child hcur hn hentry hlink hrest ih =>
    obtain ⟨κ, hκ⟩ := hrest.kind_start fun i hi => by cases hplace.trans hi
    rw [walk_child (hgrows.kind hcur) hn (hgrows.entry hentry) (hgrows.not_isLink hκ hlink), ih hplace]

/-! ## Whole paths -/

theorem resolve_grows (hgrows : Grows S S') (h : S.resolve last cwd p = .ok (.found j))
    (hj : S.kind j = some κ) : S'.resolve last cwd p = .ok (.found j) := by
  obtain ⟨hp, hwalks⟩ := walks_of_resolve h
  rw [resolve, if_neg hp, hgrows.start, walk_grows hgrows hwalks hj]

theorem resolve_insert (hinserts : Inserts S S' d n new)
    (h : S.resolve last cwd p = .ok (.missing d n)) : S'.resolve last cwd p = .ok (.found new) := by
  obtain ⟨hp, hwalks⟩ := walks_of_resolve h
  rw [resolve, if_neg hp, hinserts.toGrows.start, walk_insert hinserts hwalks]

theorem resolve_join {base : Path} (hbase : base.getLast? ≠ some 47) (hn : IsName n)
    (h : S.resolve true cwd base = .ok (.found C)) :
    ∃ links, S.resolve last cwd (join base n) = S.walk last links C [n] := by
  obtain ⟨hne, hwalks⟩ := walks_of_resolve h
  obtain ⟨links, hlinks⟩ := walk_append hwalks
  have hjoin := join_eq hne hbase hn
  refine ⟨links, ?_⟩
  rw [resolve, hjoin, if_neg (by simp), names_append_cons, names_of_isName hn, start,
    isAbsolute_append hne, ← hlinks [n] last (by simp), start]

theorem walk_directory (h : S.walk last links cur [n] = .ok place) :
    ∃ parent, S.kind cur = some (.directory parent) := by
  cases walks_of_walk _ h with
  | stay hcur _ _ | up hcur _ | missing hcur _ _ | atLink hcur _ _ _ _ | link hcur _ _ _ _ _
  | child hcur _ _ _ _ => exact ⟨_, hcur⟩

inductive Within (S : Shape) (C : Ino) : Ino → Prop
  | self : Within S C C
  | entry {d n i} : Within S C d → S.entry d n = some i → Within S C i

end Shape

end Posix
