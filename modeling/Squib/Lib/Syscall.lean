import Squib.Lib.Disk

/-!
# System calls that fail and crash
-/

namespace Fs

variable {Name ε α β : Type}

/-! ## Calls -/

inductive Call (Name : Type) where
  | stat (n : Name)
  | create (n : Name)
  | write (n : Name) (pos len : ℕ)
  | setLen (n : Name) (len : ℕ)
  | seek (n : Name) (pos : ℕ)
  | fsync (n : Name)
  | rename (a b : Name)
  | unlink (n : Name)
  deriving DecidableEq, Repr

inductive Fate where
  | ok
  | fail (errno done : ℕ)
  | crash (done : ℕ)
  deriving DecidableEq, Repr

structure World (Name : Type) where
  disk : Disk Name
  clock : ℕ
  fate : ℕ → Call Name → Fate
  written : List (Name × ℕ × ℕ)

inductive Stop (ε : Type) where
  | err (e : ε)
  | crash
  | hang

abbrev Io (Name ε α : Type) : Type := EStateM (Stop ε) (World Name) α

structure File (Name : Type) where
  name : Name
  inode : ℕ
  pos : ℕ
  deriving DecidableEq, Repr

def World.next (w : World Name) (d : Disk Name) : World Name :=
  { w with disk := d, clock := w.clock + 1 }

def call (c : Call Name) (e : ℕ → ε) (act : Disk Name → Except ℕ (α × Disk Name))
    (torn : ℕ → Disk Name → Disk Name) : Io Name ε α := fun w =>
  match w.fate w.clock c with
  | .fail errno k => .error (.err (e errno)) (w.next (torn k w.disk))
  | .crash k => .error .crash (w.next (torn k w.disk))
  | .ok =>
    match act w.disk with
    | .error errno => .error (.err (e errno)) (w.next w.disk)
    | .ok (a, d) => .ok a (w.next d)

def probe (c : Call Name) (e : ℕ → ε) : Io Name ε Unit :=
  call c e (fun d => .ok ((), d)) fun _ d => d

section Calls

variable [DecidableEq Name] (e : ℕ → ε)

def create (n : Name) : Io Name ε (File Name) :=
  call (.create n) e
    (fun d => .ok ({ name := n, inode := (d.create n).1, pos := 0 }, (d.create n).2)) fun _ d => d

def File.put (f : File Name) (bs : List UInt8) (d : Disk Name) : Disk Name :=
  d.setData f.inode (overwrite (d.data f.inode) f.pos bs)

def writeAll (f : File Name) (bs : List UInt8) : Io Name ε (File Name) := fun w =>
  if bs = [] then .ok f w
  else
    match call (.write f.name f.pos bs.length) e (fun d => .ok ((), f.put bs d))
        (fun k d => f.put (bs.take k) d) w with
    | .error s w' => .error s w'
    | .ok () w' =>
      .ok { f with pos := f.pos + bs.length }
        { w' with written := w'.written ++ [(f.name, f.pos, bs.length)] }

def setLen (f : File Name) (len : ℕ) : Io Name ε Unit :=
  call (.setLen f.name len) e
    (fun d => .ok ((), d.setData f.inode (resize (d.data f.inode) len))) fun _ d => d

def seek (f : File Name) (pos : ℕ) : Io Name ε (File Name) := do
  probe (.seek f.name pos) e
  return { f with pos }

def rename (a b : Name) : Io Name ε Unit :=
  call (.rename a b) e
    (fun d =>
      match d.rename a b with
      | none => .error 2
      | some d' => .ok ((), d'))
    fun _ d => d

end Calls

def unlink [DecidableEq Name] (n : Name) : Io Name ε Unit := fun w =>
  match w.fate w.clock (.unlink n) with
  | .ok => .ok () (w.next (w.disk.unlink n))
  | .fail _ _ => .ok () (w.next w.disk)
  | .crash _ => .error .crash (w.next w.disk)

def onErr (m : Io Name ε α) (cleanup : Io Name ε Unit) : Io Name ε α := fun w =>
  match m w with
  | .error (.err e) w' =>
    match cleanup w' with
    | .ok () w'' => .error (.err e) w''
    | .error s w'' => .error s w''
  | r => r

/-! ## Where a program ended -/

def isOk : EStateM.Result (Stop ε) (World Name) α → Bool
  | .ok _ _ => true
  | .error _ _ => false

variable {r : EStateM.Result (Stop ε) (World Name) α} {s : Stop ε}
  {R : World Name → World Name → Prop}

theorem exists_ok (h : isOk r = true) : ∃ a w, r = .ok a w := by
  cases r with
  | ok a w => exact ⟨a, w, rfl⟩
  | error s w => cases h

variable {m : Io Name ε α} {f : α → Io Name ε β} {w w' : World Name} {c : Io Name ε Unit}

theorem bind_eq_ok {b : β} :
    (m >>= f) w = .ok b w' ↔ ∃ a w₁, m w = .ok a w₁ ∧ f a w₁ = .ok b w' := by
  change EStateM.bind m f w = _ ↔ _
  unfold EStateM.bind
  cases m w with
  | ok a w₁ => simp [and_assoc]
  | error s w₁ => simp

theorem bind_eq_error :
    (m >>= f) w = .error s w' ↔
      m w = .error s w' ∨ ∃ a w₁, m w = .ok a w₁ ∧ f a w₁ = .error s w' := by
  change EStateM.bind m f w = _ ↔ _
  unfold EStateM.bind
  cases m w with
  | ok a w₁ => simp [and_assoc]
  | error s w₁ => simp

theorem onErr_eq_ok {a : α} : onErr m c w = .ok a w' ↔ m w = .ok a w' := by
  unfold onErr
  split
  · next e w₁ h =>
    rw [h]
    split <;> simp
  · rfl

theorem onErr_eq_error (h : onErr m c w = .error s w') :
    (∃ e w₁, m w = .error (.err e) w₁ ∧
        (c w₁ = .ok () w' ∧ s = .err e ∨ c w₁ = .error s w')) ∨
      m w = .error s w' ∧ ∀ e, s ≠ .err e := by
  unfold onErr at h
  split at h
  · next e w₁ hm =>
    split at h
    · next hc =>
      cases h
      exact .inl ⟨e, w₁, hm, .inl ⟨hc, rfl⟩⟩
    · next hc =>
      cases h
      exact .inl ⟨e, w₁, hm, .inr hc⟩
  · next hne =>
    refine .inr ⟨h, fun e he => ?_⟩
    subst he
    exact hne e w' h

section Ended

variable {e : ℕ → ε} {w w' : World Name} {f : File Name} {c : Call Name} {f' : File Name}
  {bs : List UInt8} {n : Name} {act : Disk Name → Except ℕ (α × Disk Name)}
  {torn : ℕ → Disk Name → Disk Name} {a : α} {s : Stop ε} {b : Name}

theorem call_eq_ok (h : call c e act torn w = .ok a w') :
    ∃ d, act w.disk = .ok (a, d) ∧ w' = w.next d := by
  unfold call at h
  split at h
  · cases h
  · cases h
  · split at h
    · cases h
    · next hact =>
      cases h
      exact ⟨_, hact, rfl⟩

theorem call_of_ok {d : Disk Name} (hfate : w.fate w.clock c = .ok) (hact : act w.disk = .ok (a, d)) :
    call c e act torn w = .ok a (w.next d) := by
  simp only [call, hfate, hact]

theorem probe_ok (h : probe c e w = .ok () w') : w' = w.next w.disk := by
  obtain ⟨d, hact, rfl⟩ := call_eq_ok h
  cases hact
  rfl

theorem setLen_ok {len : ℕ} (h : setLen e f len w = .ok () w') :
    w' = w.next (w.disk.setData f.inode (resize (w.disk.data f.inode) len)) := by
  obtain ⟨d, hact, rfl⟩ := call_eq_ok h
  cases hact
  rfl

theorem seek_ok {pos : ℕ} (h : seek e f pos w = .ok f' w') :
    f' = { f with pos } ∧ w' = w.next w.disk := by
  obtain ⟨u, w₁, h₁, h₂⟩ := bind_eq_ok.1 h
  cases h₂
  exact ⟨rfl, probe_ok h₁⟩

theorem writeAll_ok (hbs : bs ≠ []) (h : writeAll e f bs w = .ok f' w') :
    f' = { f with pos := f.pos + bs.length } ∧ w'.disk = f.put bs w.disk ∧
      w'.written = w.written ++ [(f.name, f.pos, bs.length)] := by
  unfold writeAll at h
  rw [if_neg hbs] at h
  split at h
  · cases h
  · next hcall =>
    cases h
    obtain ⟨d, hact, rfl⟩ := call_eq_ok hcall
    cases hact
    exact ⟨rfl, rfl, rfl⟩

theorem writeAll_nil : writeAll e f [] w = .ok f w := by
  simp [writeAll]

theorem writeAll_data (hpos : f.pos ≤ (w.disk.data f.inode).length)
    (h : writeAll e f bs w = .ok f' w') :
    f'.pos = f.pos + bs.length ∧
      w'.disk.data f.inode = overwrite (w.disk.data f.inode) f.pos bs := by
  by_cases hbs : bs = []
  · subst hbs
    cases h
    exact ⟨rfl, (overwrite_nil hpos).symm⟩
  · obtain ⟨rfl, hdisk, -⟩ := writeAll_ok hbs h
    refine ⟨rfl, ?_⟩
    rw [hdisk]
    exact Function.update_self ..

theorem writeAll_file (h : writeAll e f bs w = .ok f' w') :
    f'.name = f.name ∧ f'.inode = f.inode := by
  by_cases hbs : bs = []
  · subst hbs
    cases h
    exact ⟨rfl, rfl⟩
  · obtain ⟨rfl, -⟩ := writeAll_ok hbs h
    exact ⟨rfl, rfl⟩

theorem writeAll_written (h : writeAll e f bs w = .ok f' w') :
    ∃ es, w'.written = w.written ++ es ∧ ∀ x ∈ es, x.1 = f.name := by
  by_cases hbs : bs = []
  · subst hbs
    cases h
    exact ⟨[], by simp, nofun⟩
  · exact ⟨_, (writeAll_ok hbs h).2.2, by simp⟩

variable [DecidableEq Name]

theorem create_ok (h : create e n w = .ok f w') :
    f = { name := n, inode := (w.disk.create n).1, pos := 0 } ∧
      w' = w.next (w.disk.create n).2 := by
  obtain ⟨d, hact, rfl⟩ := call_eq_ok h
  cases hact
  exact ⟨rfl, rfl⟩

theorem create_error (h : create e n w = .error s w') : w' = w.next w.disk := by
  unfold create call at h
  split at h
  · cases h
    rfl
  · cases h
    rfl
  · cases h

theorem rename_ok {a : Name} (h : rename e a b w = .ok () w') :
    ∃ d, w.disk.rename a b = some d ∧ w' = w.next d := by
  obtain ⟨d, hact, rfl⟩ := call_eq_ok h
  split at hact
  · cases hact
  · next d' hd =>
    cases hact
    exact ⟨d, hd, rfl⟩

theorem rename_error {a : Name} (h : rename e a b w = .error s w') : w' = w.next w.disk := by
  unfold rename call at h
  split at h
  · cases h
    rfl
  · cases h
    rfl
  · split at h
    · cases h
      rfl
    · cases h

theorem unlink_ne_err {x : ε} :
    (unlink n w : EStateM.Result (Stop ε) _ _) ≠ .error (.err x) w' := by
  unfold unlink
  split <;> simp

theorem unlink_ok (hfate : ∀ t, w.fate t (.unlink n) = .ok)
    (h : (unlink n w : EStateM.Result (Stop ε) _ _) = .ok () w') :
    w' = w.next (w.disk.unlink n) := by
  unfold unlink at h
  rw [hfate] at h
  cases h
  rfl

end Ended

/-! ## What a program can have changed -/

def endWorld : EStateM.Result (Stop ε) (World Name) α → World Name
  | .ok _ w => w
  | .error _ w => w

@[simp] theorem endWorld_ok (a : α) (w : World Name) :
    endWorld (.ok a w : EStateM.Result (Stop ε) (World Name) α) = w := rfl

@[simp] theorem endWorld_error (s : Stop ε) (w : World Name) :
    endWorld (.error s w : EStateM.Result (Stop ε) (World Name) α) = w := rfl

def errorOf : EStateM.Result (Stop ε) (World Name) α → Option ε
  | .error (.err e) _ => some e
  | _ => none

theorem eq_error {e : ε} (h : errorOf r = some e) : r = .error (.err e) (endWorld r) := by
  unfold errorOf at h
  split at h
  · cases h
    rfl
  · cases h

theorem endWorld_bind (htrans : ∀ {a b c}, R a b → R b c → R a c) (hm : R w (endWorld (m w)))
    (hf : ∀ a w₁, m w = .ok a w₁ → R w₁ (endWorld (f a w₁))) : R w (endWorld ((m >>= f) w)) := by
  change R w (endWorld (EStateM.bind m f w))
  unfold EStateM.bind
  cases h : m w with
  | ok a w₁ =>
    rw [h] at hm
    exact htrans hm (hf a w₁ h)
  | error s w₁ =>
    rw [h] at hm
    exact hm

theorem endWorld_onErr (htrans : ∀ {a b c}, R a b → R b c → R a c) (hm : R w (endWorld (m w)))
    (hc : ∀ w₁, R w₁ (endWorld (c w₁))) : R w (endWorld (onErr m c w)) := by
  unfold onErr
  split
  · next e w₁ h =>
    rw [h] at hm
    have hc' := hc w₁
    split
    · next h' =>
      rw [h'] at hc'
      exact htrans hm hc'
    · next h' =>
      rw [h'] at hc'
      exact htrans hm hc'
  · exact hm

structure Unchanged (w w' : World Name) : Prop where
  disk : w'.disk = w.disk
  fate : w'.fate = w.fate
  written : w'.written = w.written

structure Writes (n : Name) (w w' : World Name) : Prop where
  fate : w'.fate = w.fate
  next : w'.disk.next = w.disk.next
  entry : w'.disk.entry = w.disk.entry
  read : ∀ m ≠ n, w'.disk.read m = w.disk.read m

structure Touches (T : List Name) (w w' : World Name) : Prop where
  fate : w'.fate = w.fate
  next : w.disk.next ≤ w'.disk.next
  entry : ∀ n ∉ T, w'.disk.entry n = w.disk.entry n
  read : ∀ n ∉ T, w'.disk.read n = w.disk.read n

section Relations

variable {n : Name} {T : List Name} {w w₁ w₂ : World Name}

theorem Unchanged.refl (w : World Name) : Unchanged w w := ⟨rfl, rfl, rfl⟩

theorem Unchanged.trans (h : Unchanged w w₁) (h' : Unchanged w₁ w₂) : Unchanged w w₂ :=
  ⟨h'.disk.trans h.disk, h'.fate.trans h.fate, h'.written.trans h.written⟩

theorem Unchanged.writes (h : Unchanged w w₁) (n : Name) : Writes n w w₁ :=
  ⟨h.fate, by rw [h.disk], by rw [h.disk], fun m _ => by rw [h.disk]⟩

theorem Writes.refl (n : Name) (w : World Name) : Writes n w w := ⟨rfl, rfl, rfl, fun _ _ => rfl⟩

theorem Writes.trans (h : Writes n w w₁) (h' : Writes n w₁ w₂) : Writes n w w₂ :=
  ⟨h'.fate.trans h.fate, h'.next.trans h.next, h'.entry.trans h.entry,
    fun m hm => (h'.read m hm).trans (h.read m hm)⟩

theorem Touches.refl (T : List Name) (w : World Name) : Touches T w w :=
  ⟨rfl, Nat.le_refl _, fun _ _ => rfl, fun _ _ => rfl⟩

theorem Touches.trans (h : Touches T w w₁) (h' : Touches T w₁ w₂) : Touches T w w₂ :=
  ⟨h'.fate.trans h.fate, Nat.le_trans h.next h'.next,
    fun m hm => (h'.entry m hm).trans (h.entry m hm),
    fun m hm => (h'.read m hm).trans (h.read m hm)⟩

theorem Touches.mono {U : List Name} (h : Touches T w w₁) (hTU : ∀ n ∈ T, n ∈ U) :
    Touches U w w₁ :=
  ⟨h.fate, h.next, fun m hm => h.entry m fun ht => hm (hTU m ht),
    fun m hm => h.read m fun ht => hm (hTU m ht)⟩

theorem Writes.touches (h : Writes n w w₁) (hn : n ∈ T) : Touches T w w₁ :=
  ⟨h.fate, Nat.le_of_eq h.next.symm, fun m _ => congrFun h.entry m,
    fun m hm => h.read m fun he => hm (he ▸ hn)⟩

end Relations

section Rules

variable {e : ℕ → ε} {w : World Name} {f : File Name}

theorem endWorld_call {R : World Name → World Name → Prop} {c : Call Name}
    {act : Disk Name → Except ℕ (α × Disk Name)} {torn : ℕ → Disk Name → Disk Name}
    (hact : ∀ a d, act w.disk = .ok (a, d) → R w (w.next d)) (hsame : R w (w.next w.disk))
    (htorn : ∀ k, R w (w.next (torn k w.disk))) : R w (endWorld (call c e act torn w)) := by
  unfold call
  split
  · exact htorn _
  · exact htorn _
  · split
    · exact hsame
    · next h => exact hact _ _ h

theorem unchanged_next (w : World Name) : Unchanged w (w.next w.disk) := ⟨rfl, rfl, rfl⟩

theorem unchanged_probe (c : Call Name) : Unchanged w (endWorld (probe c e w)) := by
  refine endWorld_call (fun a d h => ?_) (unchanged_next w) fun _ => unchanged_next w
  cases h
  exact unchanged_next w

theorem writes_next_self (n : Name) (w : World Name) : Writes n w (w.next w.disk) :=
  (unchanged_next w).writes n

theorem writes_next_setData {n : Name} {i : ℕ} (h : w.disk.entry n = some i) (bs : List UInt8) :
    Writes n w (w.next (w.disk.setData i bs)) :=
  ⟨rfl, rfl, rfl, fun _ hm => Disk.read_setData_of_ne h hm bs⟩

theorem writes_setLen (hf : w.disk.entry f.name = some f.inode) (len : ℕ) :
    Writes f.name w (endWorld (setLen e f len w)) := by
  refine endWorld_call (fun a d h => ?_) (writes_next_self _ w) fun _ => writes_next_self _ w
  cases h
  exact writes_next_setData hf _

theorem writes_seek (pos : ℕ) : Writes f.name w (endWorld (seek e f pos w)) :=
  endWorld_bind Writes.trans ((unchanged_probe _).writes f.name) fun _ w₁ _ => .refl _ w₁

theorem writes_writeAll (hf : w.disk.entry f.name = some f.inode) (bs : List UInt8) :
    Writes f.name w (endWorld (writeAll e f bs w)) := by
  unfold writeAll
  split
  · exact .refl _ w
  · have h : Writes f.name w (endWorld (call (.write f.name f.pos bs.length) e
        (fun d => .ok ((), f.put bs d)) (fun k d => f.put (bs.take k) d) w)) := by
      refine endWorld_call (fun a d h => ?_) (writes_next_self _ w) fun k =>
        writes_next_setData hf _
      cases h
      exact writes_next_setData hf _
    split
    · next h' =>
      rw [h'] at h
      exact h
    · next h' =>
      rw [h'] at h
      exact ⟨h.fate, h.next, h.entry, h.read⟩

theorem touches_next_self (T : List Name) (w : World Name) : Touches T w (w.next w.disk) :=
  ⟨rfl, Nat.le_refl _, fun _ _ => rfl, fun _ _ => rfl⟩

variable [DecidableEq Name]

theorem touches_create (n : Name) : Touches [n] w (endWorld (create e n w)) := by
  refine endWorld_call (fun a d h => ?_) (touches_next_self _ w) fun _ => touches_next_self _ w
  cases h
  obtain ⟨-, -, hnext, hother⟩ := w.disk.create_spec n
  refine ⟨rfl, hnext, fun m hm => (hother m ?_).1, fun m hm => (hother m ?_).2⟩ <;> simpa using hm

theorem touches_unlink (n : Name) :
    Touches [n] w (endWorld (unlink n w : EStateM.Result (Stop ε) _ _)) := by
  unfold unlink
  split
  · refine ⟨rfl, Nat.le_refl _, fun m hm => ?_, fun m hm => ?_⟩
    · have hne : m ≠ n := by simpa using hm
      exact (Disk.entry_unlink _ m n).trans (if_neg hne)
    · have hne : m ≠ n := by simpa using hm
      exact (Disk.read_unlink m n).trans (if_neg hne)
  · exact touches_next_self _ w
  · exact touches_next_self _ w

end Rules

end Fs
