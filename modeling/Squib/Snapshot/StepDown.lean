import Mathlib.Logic.Function.Basic
import Squib.Snapshot.Tracking

/-!
# Marking during a step-down
-/

namespace Squib.Snapshot

namespace StepDown

/-! ## Threads and steps -/

inductive Call where
  | idle
  | counted (addr : ℕ)
  | holding (addr handle : ℕ)
  | ticked (granule : TrackingGranule)
  | folding (fine : DirtyBitmap) (next : ℕ)
  | draining (handle next : ℕ)

structure State where
  bitmap : ℕ → DirtyBitmap
  current : ℕ
  writer : Option ℕ
  controller : AdaptiveController
  geometry : PageGeometry
  calls : ℕ → Call
  owed : List ℕ

def State.active (s : State) : DirtyBitmap := s.bitmap s.current

def State.region (s : State) : TrackedRegion :=
  { bitmap := s.active, controller := s.controller, geometry := s.geometry }

def init (r : TrackedRegion) : State where
  bitmap := fun _ => r.bitmap
  current := 0
  writer := none
  controller := r.controller
  geometry := r.geometry
  calls := fun _ => .idle
  owed := []

inductive Event where
  | count (t addr : ℕ)
  | take (t : ℕ)
  | setBit (t : ℕ)
  | tick (t now : ℕ)
  | lock (t : ℕ)
  | fold (t : ℕ)
  | replace (t : ℕ)
  | openDrain (t : ℕ)
  | swap (t : ℕ)
  | closeDrain (t : ℕ)
  deriving DecidableEq, Repr

def State.goto (s : State) (t : ℕ) (c : Call) : State :=
  { s with calls := Function.update s.calls t c }

@[simp] theorem goto_calls_self (s : State) (t : ℕ) (c : Call) : (s.goto t c).calls t = c :=
  Function.update_self ..

@[simp] theorem goto_writer (s : State) (t : ℕ) (c : Call) : (s.goto t c).writer = s.writer := rfl

@[simp] theorem goto_current (s : State) (t : ℕ) (c : Call) :
    (s.goto t c).current = s.current := rfl

@[simp] theorem goto_region (s : State) (t : ℕ) (c : Call) : (s.goto t c).region = s.region := rfl

@[simp] theorem goto_active (s : State) (t : ℕ) (c : Call) : (s.goto t c).active = s.active := rfl

@[simp] theorem goto_goto (s : State) (t : ℕ) (c c' : Call) :
    (s.goto t c).goto t c' = s.goto t c' := by
  simp [State.goto]

def State.put (s : State) (handle : ℕ) (b : DirtyBitmap) : State :=
  { s with bitmap := Function.update s.bitmap handle b }

def State.install (s : State) (b : DirtyBitmap) : State :=
  { s.put (s.current + 1) b with current := s.current + 1, writer := none }

def count (s : State) (t addr : ℕ) : Option State :=
  match s.calls t, s.writer with
  | .idle, none =>
    some ({ s with controller := (s.region.recordFault addr).controller }.goto t (.counted addr))
  | _, _ => none

def take (s : State) (t : ℕ) : Option State :=
  match s.calls t, s.writer with
  | .counted addr, none => some (s.goto t (.holding addr s.current))
  | _, _ => none

def setBit (s : State) (t : ℕ) : Option State :=
  match s.calls t with
  | .holding addr handle =>
    let b := s.bitmap handle
    let s := (s.put handle (b.setDirty addr).2).goto t .idle
    some { s with owed := if b.InRam addr then addr :: s.owed else s.owed }
  | _ => none

def tick (s : State) (t now : ℕ) : Option State :=
  match s.calls t with
  | .idle =>
    let (granule, controller) := s.controller.tick now
    some ({ s with controller }.goto t (.ticked granule))
  | _ => none

def lock (heap : Heap) (s : State) (t : ℕ) : Option State :=
  match s.calls t, s.writer with
  | .ticked granule, none =>
    if granule.pageSize s.geometry = s.active.pageSize then some (s.goto t .idle)
    else
      match DirtyBitmap.new heap s.active.ramStart s.active.ramSize (granule.pageSize s.geometry)
          (granule.pageSize_lt s.geometry) with
      | none => none
      | some (.error _) => some (s.goto t .idle)
      | some (.ok fine) =>
        match s.active.foldIntoFiner fine with
        | .error _ => some (s.goto t .idle)
        | .ok _ => some ({ s with writer := some t }.goto t (.folding fine 0))
  | _, _ => none

def fold (s : State) (t : ℕ) : Option State :=
  match s.calls t with
  | .folding fine next =>
    if next < s.active.words.length then
      some (s.goto t (.folding (s.active.foldWord next fine) (next + 1)))
    else none
  | _ => none

def replace (s : State) (t : ℕ) : Option State :=
  match s.calls t with
  | .folding fine next =>
    if next = s.active.words.length then some ((s.install fine).goto t .idle) else none
  | _ => none

def openDrain (s : State) (t : ℕ) : Option State :=
  match s.calls t, s.writer with
  | .idle, none => some (s.goto t (.draining s.current 0))
  | _, _ => none

def swap (s : State) (t : ℕ) : Option State :=
  match s.calls t with
  | .draining handle next =>
    let b := s.bitmap handle
    if next < b.words.length then
      let (pages, b') := b.drainWord next
      let s := (s.put handle b').goto t (.draining handle (next + 1))
      some { s with owed := s.owed.filter fun a => b.pageOf a ∉ pages }
    else none
  | _ => none

def closeDrain (s : State) (t : ℕ) : Option State :=
  match s.calls t with
  | .draining handle next =>
    if next = (s.bitmap handle).words.length then some (s.goto t .idle) else none
  | _ => none

def step (heap : Heap) (s : State) : Event → Option State
  | .count t addr => count s t addr
  | .take t => take s t
  | .setBit t => setBit s t
  | .tick t now => tick s t now
  | .lock t => lock heap s t
  | .fold t => fold s t
  | .replace t => replace s t
  | .openDrain t => openDrain s t
  | .swap t => swap s t
  | .closeDrain t => closeDrain s t

variable {s s' : State} {t : ℕ}

/-! ## Calls that run alone

The steps of one call, with no step of another thread in between, are the sequential call. -/

def markEvents (t addr : ℕ) : List Event := [.count t addr, .take t, .setBit t]

variable {heap : Heap} {fine : DirtyBitmap} {next handle : ℕ} {addr now u : ℕ} {c : Call}
  {b : DirtyBitmap}

theorem markEvents_alone (ht : s.calls t = .idle) (hw : s.writer = none) :
    ∃ s', Run.run (step heap) (markEvents t addr) s = some s' ∧
      s'.region = (s.region.markDirty addr).2 ∧ s'.calls = s.calls ∧ s'.writer = none := by
  let s₁ := { s with controller := (s.region.recordFault addr).controller }.goto t (.counted addr)
  let s₂ := s₁.goto t (.holding addr s.current)
  let s₃ := (s₂.put s.current (s.active.setDirty addr).2).goto t .idle
  let s₄ := { s₃ with owed := if s.active.InRam addr then addr :: s.owed else s.owed }
  have h₁ : step heap s (.count t addr) = some s₁ := by simp only [step, count, ht, hw, s₁]
  have h₂ : step heap s₁ (.take t) = some s₂ := by
    simp [step, take, s₁, hw, s₂]
  have h₃ : step heap s₂ (.setBit t) = some s₄ := by
    simp only [step, setBit, s₂, goto_calls_self]
    rfl
  have hcalls : s₄.calls = s.calls := by
    funext u
    by_cases hu : u = t
    · simp [s₄, s₃, hu, ht]
    · simp [s₄, s₃, s₂, s₁, State.goto, State.put, hu]
  refine ⟨s₄, ?_, ?_, hcalls, hw⟩
  · rw [markEvents, Run.run_cons h₁, Run.run_cons h₂, Run.run_cons h₃]
    rfl
  · simp [s₄, s₃, s₂, s₁, State.goto, State.put, State.region, State.active,
      TrackedRegion.markDirty]

def tickEvents (t now : ℕ) (words : Option ℕ) : List Event :=
  [.tick t now, .lock t] ++
    match words with
    | none => []
    | some n => List.replicate n (.fold t) ++ [.replace t]

theorem run_folds {heap : Heap} {fine : DirtyBitmap} {i : ℕ} :
    ∀ {n : ℕ}, i + n ≤ s.active.words.length →
      Run.run (step heap) (List.replicate n (.fold t))
          (s.goto t (.folding (s.active.foldWords i fine) i)) =
        some (s.goto t (.folding (s.active.foldWords (i + n) fine) (i + n)))
  | 0, _ => rfl
  | n + 1, h => by
    have hstep : step heap (s.goto t (.folding (s.active.foldWords i fine) i)) (.fold t) =
        some (s.goto t (.folding (s.active.foldWords (i + 1) fine) (i + 1))) := by
      simp only [step, fold, goto_calls_self, goto_active, goto_goto, DirtyBitmap.foldWords_succ]
      rw [if_pos (by omega)]
    rw [List.replicate_succ, Run.run_cons hstep, run_folds (by omega), Nat.add_assoc,
      Nat.add_comm 1 n]

theorem replace_of_folded :
    replace (s.goto t (.folding fine s.active.words.length)) t =
      some ((s.install fine).goto t .idle) := by
  unfold replace
  simp only [goto_active]
  simp [State.install, State.put, State.goto]

section Lock

variable {heap : Heap} {g : TrackingGranule} (hcall : s.calls t = .ticked g) (hw : s.writer = none)

def State.finer (heap : Heap) (s : State) (g : TrackingGranule) :
    Option (Except SnapshotError DirtyBitmap) :=
  DirtyBitmap.new heap s.active.ramStart s.active.ramSize (g.pageSize s.geometry)
    (g.pageSize_lt s.geometry)

include hcall hw in
theorem lock_of_keep (h : g.pageSize s.geometry = s.active.pageSize ∨
      (∃ e, s.finer heap g = some (.error e)) ∨
      ∃ fine e, s.finer heap g = some (.ok fine) ∧ s.active.foldIntoFiner fine = .error e) :
    lock heap s t = some (s.goto t .idle) := by
  simp only [lock, hcall, hw]
  split_ifs with hsize
  · rfl
  · unfold State.finer at h
    rcases h with h | ⟨e, h⟩ | ⟨fine, e, h, hfold⟩
    · exact absurd h hsize
    · rw [h]
    · rw [h]
      simp only [hfold]

variable {fine' : DirtyBitmap}

include hcall hw in
theorem lock_of_fold (h : s.finer heap g = some (.ok fine))
    (hfold : s.active.foldIntoFiner fine = .ok fine') :
    lock heap s t = some ({ s with writer := some t }.goto t (.folding fine 0)) := by
  have hsize : g.pageSize s.geometry ≠ s.active.pageSize := by
    rw [← (DirtyBitmap.new_ok h).2.2.1]
    exact (DirtyBitmap.refines_of_foldIntoFiner hfold).1.lt.ne
  unfold State.finer at h
  simp only [lock, hcall, hw, if_neg hsize, h, hfold]

include hcall hw in
theorem run_lock_of_fold (h : s.finer heap g = some (.ok fine))
    (hfold : s.active.foldIntoFiner fine = .ok fine') :
    Run.run (step heap)
        (.lock t :: (List.replicate s.active.words.length (.fold t) ++ [.replace t])) s =
      some (({ s with writer := some t }.install fine').goto t .idle) := by
  have hlock : step heap s (.lock t) =
      some ({ s with writer := some t }.goto t (.folding fine 0)) := lock_of_fold hcall hw h hfold
  obtain ⟨-, rfl⟩ := DirtyBitmap.refines_of_foldIntoFiner hfold
  let s₁ : State := { s with writer := some t }
  let n := s.active.words.length
  have hfolds : Run.run (step heap) (List.replicate n (.fold t)) (s₁.goto t (.folding fine 0)) =
      some (s₁.goto t (.folding (s₁.active.foldWords n fine) n)) := by
    have := @run_folds s₁ t heap fine 0 n (by rw [Nat.zero_add]; exact le_rfl)
    rwa [Nat.zero_add] at this
  have hreplace : step heap (s₁.goto t (.folding (s₁.active.foldWords n fine) n)) (.replace t) =
      some ((s₁.install (s₁.active.foldWords n fine)).goto t .idle) := replace_of_folded
  rw [Run.run_cons hlock, Run.run_append, hfolds, Option.bind_some, Run.run_cons hreplace]
  rfl

end Lock

theorem region_install (b : DirtyBitmap) :
    (s.install b).region = { s.region with bitmap := b } := by
  simp [State.install, State.put, State.region, State.active]

theorem tickEvents_alone {g : TrackingGranule} {r' : TrackedRegion} (ht : s.calls t = .idle)
    (hw : s.writer = none) (h : s.region.tickAdaptive heap now = some (g, r')) :
    ∃ words s', Run.run (step heap) (tickEvents t now words) s = some s' ∧ s'.region = r' ∧
      s'.writer = none := by
  let s₁ := { s with controller := (s.controller.tick now).2 }
  let s₂ := s₁.goto t (.ticked (s.controller.tick now).1)
  have htick : step heap s (.tick t now) = some s₂ := by
    simp only [step, tick, ht, s₁, s₂]
  have hcall : s₂.calls t = .ticked (s.controller.tick now).1 := goto_calls_self ..
  obtain ⟨hgeom, hctrl, ⟨hbitmap, hkeep⟩ | ⟨fine, hnew, hfold⟩⟩ :=
    TrackedRegion.tickAdaptive_cases h
  · have hlock : step heap s₂ (.lock t) = some (s₂.goto t .idle) := lock_of_keep hcall hw hkeep
    refine ⟨none, s₂.goto t .idle, ?_, ?_, hw⟩
    · rw [tickEvents, List.append_nil, Run.run_cons htick, Run.run_cons hlock]
      rfl
    · cases r'
      cases hgeom
      cases hctrl
      cases hbitmap
      rfl
  · refine ⟨some s.active.words.length, _,
      (Run.run_cons htick).trans (run_lock_of_fold hcall hw hnew hfold), ?_, rfl⟩
    rw [goto_region, region_install]
    cases r'
    cases hgeom
    cases hctrl
    rfl

/-! ## Timely marks -/

def State.wordsRead (s : State) : ℕ :=
  match s.writer.map s.calls with
  | some (.folding _ next) => next
  | _ => 0

def Timely (s : State) : Event → Prop
  | .setBit t =>
    match s.calls t with
    | .holding addr handle =>
      s.active.InRam addr → handle = s.current ∧ s.wordsRead ≤ s.active.pageOf addr / 64
    | _ => True
  | _ => True

instance (s : State) (e : Event) : Decidable (Timely s e) := by
  unfold Timely
  split
  · split <;> infer_instance
  · infer_instance

structure Inv (s : State) : Prop where
  ramStart : ∀ h, (s.bitmap h).ramStart = s.active.ramStart
  ramSize : ∀ h, (s.bitmap h).ramSize = s.active.ramSize
  inRam : ∀ a ∈ s.owed, s.active.InRam a
  dirty : ∀ a ∈ s.owed, s.active.isDirty a = true
  writer : ∀ t fine next, s.calls t = .folding fine next → s.writer = some t
  refines : ∀ t fine next, s.calls t = .folding fine next → s.active.Refines fine
  folded : ∀ t fine next, s.calls t = .folding fine next → ∀ a ∈ s.owed,
    s.active.pageOf a / 64 < next → fine.isDirty a = true

theorem inv_init (r : TrackedRegion) : Inv (init r) where
  ramStart := fun _ => rfl
  ramSize := fun _ => rfl
  inRam := by simp [init]
  dirty := by simp [init]
  writer := by simp [init]
  refines := by simp [init]
  folded := by simp [init]

theorem folding_of_goto (hc : ∀ fine next, c ≠ .folding fine next)
    (h : (s.goto t c).calls u = .folding fine next) : u ≠ t ∧ s.calls u = .folding fine next := by
  by_cases hu : u = t
  · subst hu
    simp only [State.goto, Function.update_self] at h
    exact absurd h (hc fine next)
  · simp only [State.goto, Function.update_of_ne hu] at h
    exact ⟨hu, h⟩

theorem Inv.goto (h : Inv s) (hc : ∀ fine next, c ≠ .folding fine next) : Inv (s.goto t c) where
  ramStart := h.ramStart
  ramSize := h.ramSize
  inRam := h.inRam
  dirty := h.dirty
  writer := fun u fine next hu => h.writer u fine next (folding_of_goto hc hu).2
  refines := fun u fine next hu => h.refines u fine next (folding_of_goto hc hu).2
  folded := fun u fine next hu => h.folded u fine next (folding_of_goto hc hu).2

theorem Inv.setController (h : Inv s) (c : AdaptiveController) : Inv { s with controller := c } :=
  { h with }

theorem inv_count (h : Inv s) (hs : count s t addr = some s') : Inv s' := by
  unfold count at hs
  split at hs
  · cases hs
    exact (h.setController _).goto (by simp)
  · cases hs

theorem inv_take (h : Inv s) (hs : take s t = some s') : Inv s' := by
  unfold take at hs
  split at hs
  · cases hs
    exact h.goto (by simp)
  · cases hs

theorem inv_tick (h : Inv s) (hs : tick s t now = some s') : Inv s' := by
  unfold tick at hs
  split at hs
  · cases hs
    exact (h.setController _).goto (by simp)
  · cases hs

theorem inv_openDrain (h : Inv s) (hs : openDrain s t = some s') : Inv s' := by
  unfold openDrain at hs
  split at hs
  · cases hs
    exact h.goto (by simp)
  · cases hs

theorem inv_closeDrain (h : Inv s) (hs : closeDrain s t = some s') : Inv s' := by
  unfold closeDrain at hs
  split at hs
  · split_ifs at hs
    cases hs
    exact h.goto (by simp)
  · cases hs

theorem Inv.not_folding (h : Inv s) (hw : s.writer = none) (u : ℕ) (fine : DirtyBitmap) (next : ℕ) :
    s.calls u ≠ .folding fine next := by
  intro hu
  rw [h.writer u fine next hu] at hw
  cases hw

theorem Inv.folding_unique (h : Inv s) {f : DirtyBitmap} {n : ℕ}
    (ht : s.calls t = .folding fine next) (hu : s.calls u = .folding f n) : u = t :=
  Option.some.inj ((h.writer u f n hu).symm.trans (h.writer t fine next ht))

theorem Inv.goto_folding (h : Inv s) (honly : ∀ u f n, s.calls u = .folding f n → u = t)
    (hwriter : s.writer = some t) (href : s.active.Refines fine)
    (hfolded : ∀ a ∈ s.owed, s.active.pageOf a / 64 < next → fine.isDirty a = true) :
    Inv (s.goto t (.folding fine next)) := by
  have hcalls : ∀ u f n, (s.goto t (.folding fine next)).calls u = .folding f n →
      u = t ∧ f = fine ∧ n = next := by
    intro u f n hu
    by_cases hut : u = t
    · subst hut
      simp only [State.goto, Function.update_self] at hu
      cases hu
      exact ⟨rfl, rfl, rfl⟩
    · simp only [State.goto, Function.update_of_ne hut] at hu
      exact absurd (honly u f n hu) hut
  refine ⟨h.ramStart, h.ramSize, h.inRam, h.dirty, ?_, ?_, ?_⟩
  · intro u f n hu
    obtain ⟨rfl, -, -⟩ := hcalls u f n hu
    exact hwriter
  · intro u f n hu
    obtain ⟨-, rfl, -⟩ := hcalls u f n hu
    exact href
  · intro u f n hu
    obtain ⟨-, rfl, rfl⟩ := hcalls u f n hu
    exact hfolded

theorem inv_lock (h : Inv s) (hs : lock heap s t = some s') : Inv s' := by
  unfold lock at hs
  split at hs
  · next granule hcall hwriter =>
    split_ifs at hs
    · cases hs
      exact h.goto (by simp)
    · split at hs
      · cases hs
      · cases hs
        exact h.goto (by simp)
      · next fine hnew =>
        split at hs
        · cases hs
          exact h.goto (by simp)
        · next hfold =>
          cases hs
          have hfree := h.not_folding hwriter
          have hlocked : Inv { s with writer := some t } :=
            { h with writer := fun u f n hu => absurd hu (hfree u f n) }
          -- the fold that begins here has read nothing
          exact hlocked.goto_folding (fun u f n hu => absurd hu (hfree u f n)) rfl
            (DirtyBitmap.refines_of_foldIntoFiner hfold).1
            fun a _ hlt => absurd hlt (Nat.not_lt_zero _)
  · cases hs

theorem Inv.wordsRead_eq (h : Inv s) (ht : s.calls t = .folding fine next) :
    s.wordsRead = next := by
  rw [State.wordsRead, h.writer t fine next ht, Option.map_some, ht]

theorem inv_fold (h : Inv s) (hs : fold s t = some s') : Inv s' := by
  unfold fold at hs
  split at hs
  · next fine next hcall =>
    split_ifs at hs
    cases hs
    have href := h.refines t fine next hcall
    refine h.goto_folding (fun u f n hu => h.folding_unique hcall hu) (h.writer t fine next hcall)
      (href.congr (DirtyBitmap.sameShape_foldWord _ _ _)) fun a ha hlt => ?_
    rw [DirtyBitmap.isDirty_foldWord href (h.inRam a ha)]
    rcases Nat.lt_succ_iff_lt_or_eq.1 hlt with hold | hnow
    · exact .inl (h.folded t fine next hcall a ha hold)
    · exact .inr ⟨h.dirty a ha, hnow⟩
  · cases hs

theorem inv_replace (h : Inv s) (hs : replace s t = some s') : Inv s' := by
  unfold replace at hs
  split at hs
  · next fine next hcall =>
    split_ifs at hs with hnext
    cases hs
    have href := h.refines t fine next hcall
    have hactive : ((s.install fine).goto t .idle).active = fine := by
      simp [State.goto, State.install, State.put, State.active]
    have hother : ∀ k, k ≠ s.current + 1 →
        ((s.install fine).goto t .idle).bitmap k = s.bitmap k := by
      intro k hk
      simp [State.goto, State.install, State.put, hk]
    have hcalls : ∀ u f n, ((s.install fine).goto t .idle).calls u ≠ .folding f n := by
      intro u f n hu
      obtain ⟨hut, hu'⟩ := folding_of_goto (by simp) hu
      exact hut (h.folding_unique hcall hu')
    refine ⟨fun k => ?_, fun k => ?_, fun a ha => ?_, fun a ha => ?_, fun u f n hu => ?_,
      fun u f n hu => ?_, fun u f n hu => ?_⟩
    · by_cases hk : k = s.current + 1
      · rw [hk]
        rfl
      · rw [hactive, hother k hk, h.ramStart k, href.ramStart]
    · by_cases hk : k = s.current + 1
      · rw [hk]
        rfl
      · rw [hactive, hother k hk, h.ramSize k, href.ramSize]
    · rw [hactive, href.inRam]
      exact h.inRam a ha
    · -- every word has been read
      rw [hactive]
      have hword := DirtyBitmap.word_lt (DirtyBitmap.pageOf_lt (h.inRam a ha))
      exact h.folded t fine next hcall a ha (hnext ▸ hword)
    · exact absurd hu (hcalls u f n)
    · exact absurd hu (hcalls u f n)
    · exact absurd hu (hcalls u f n)
  · cases hs

/-! ## Steps that write a bitmap -/

theorem active_put_self (b : DirtyBitmap) : (s.put s.current b).active = b := by
  simp [State.put, State.active]

theorem active_put_of_ne (hne : handle ≠ s.current) (b : DirtyBitmap) :
    (s.put handle b).active = s.active := by
  simp [State.put, State.active, hne.symm]

theorem sameShape_put (hb : (s.bitmap handle).SameShape b) (k : ℕ) :
    (s.bitmap k).SameShape ((s.put handle b).bitmap k) := by
  by_cases hk : k = handle
  · subst hk
    simpa [State.put] using hb
  · simpa [State.put, hk] using .refl (s.bitmap k)

theorem Inv.put (h : Inv s) {owed : List ℕ} (hb : (s.bitmap handle).SameShape b)
    (hin : ∀ a ∈ owed, s.active.InRam a)
    (hdirty : ∀ a ∈ owed, (s.put handle b).active.isDirty a = true)
    (hfolded : ∀ u fine next, s.calls u = .folding fine next → ∀ a ∈ owed,
      s.active.pageOf a / 64 < next → fine.isDirty a = true) :
    Inv { s.put handle b with owed := owed } where
  ramStart := fun k => by
    have hk := (sameShape_put hb k).ramStart
    have hc := (sameShape_put hb s.current).ramStart
    exact hk.trans ((h.ramStart k).trans hc.symm)
  ramSize := fun k => by
    have hk := (sameShape_put hb k).ramSize
    have hc := (sameShape_put hb s.current).ramSize
    exact hk.trans ((h.ramSize k).trans hc.symm)
  inRam := fun a ha => (sameShape_put hb s.current).inRam.2 (hin a ha)
  dirty := hdirty
  writer := h.writer
  refines := fun u fine next hu =>
    (h.refines u fine next hu).congr_left (sameShape_put hb s.current)
  folded := fun u fine next hu a ha hlt =>
    hfolded u fine next hu a ha ((sameShape_put hb s.current).pageOf a ▸ hlt)

theorem inv_setBit (h : Inv s) (htimely : Timely s (.setBit t)) (hs : setBit s t = some s') :
    Inv s' := by
  unfold setBit at hs
  split at hs
  · next addr handle hcall =>
    cases hs
    have hram : (s.bitmap handle).InRam addr ↔ s.active.InRam addr := by
      rw [DirtyBitmap.InRam, DirtyBitmap.InRam, h.ramStart, h.ramSize]
    by_cases hin : s.active.InRam addr
    · rw [if_pos (hram.2 hin)]
      simp only [Timely, hcall] at htimely
      obtain ⟨rfl, hword⟩ := htimely hin
      have hinv :
          Inv { s.put s.current (s.active.setDirty addr).2 with owed := addr :: s.owed } := by
        refine h.put (DirtyBitmap.sameShape_setDirty addr) ?_ ?_ ?_
        · intro a ha
          rcases List.mem_cons.1 ha with rfl | ha
          · exact hin
          · exact h.inRam a ha
        · intro a ha
          rw [active_put_self]
          rcases List.mem_cons.1 ha with rfl | ha
          · exact (DirtyBitmap.isDirty_setDirty hin).2 (.inr ⟨hin, rfl⟩)
          · exact (DirtyBitmap.isDirty_setDirty (h.inRam a ha)).2 (.inl (h.dirty a ha))
        · intro u fine next hu a ha hlt
          rcases List.mem_cons.1 ha with rfl | ha
          · rw [h.wordsRead_eq hu] at hword
            exact absurd hlt (Nat.not_lt.2 hword)
          · exact h.folded u fine next hu a ha hlt
      exact hinv.goto (by simp)
    · -- an address outside RAM changes no bitmap
      rw [if_neg (fun hb => hin (hram.1 hb))]
      have hsame : (s.bitmap handle).setDirty addr = (false, s.bitmap handle) := by
        rw [DirtyBitmap.setDirty, DirtyBitmap.pageIndexOf_of_not_inRam fun hb => hin (hram.1 hb)]
      have hput : s.put handle ((s.bitmap handle).setDirty addr).2 = s := by
        rw [hsame, State.put, Function.update_eq_self]
      rw [hput]
      exact h.goto (by simp)
  · cases hs

theorem inv_swap (h : Inv s) (hs : swap s t = some s') : Inv s' := by
  unfold swap at hs
  split at hs
  · next handle next hcall =>
    dsimp only at hs
    split_ifs at hs with hnext
    cases hs
    have hinv : Inv { s.put handle ((s.bitmap handle).drainWord next).2 with
        owed := s.owed.filter fun a =>
          (s.bitmap handle).pageOf a ∉ ((s.bitmap handle).drainWord next).1 } := by
      refine h.put (DirtyBitmap.sameShape_drainWord next) ?_ ?_ ?_
      · exact fun a ha => h.inRam a (List.mem_filter.1 ha).1
      · intro a ha
        obtain ⟨howed, hkeep⟩ := List.mem_filter.1 ha
        have hram := h.inRam a howed
        by_cases hh : handle = s.current
        · subst hh
          have hshape := (s.bitmap s.current).sameShape_drainWord next
          rw [active_put_self, DirtyBitmap.isDirty_of_inRam (hshape.inRam.2 hram),
            DirtyBitmap.isDirtyByIndex_drainWord hnext]
          refine ⟨?_, of_decide_eq_true hkeep⟩
          have hdirty := h.dirty a howed
          rwa [DirtyBitmap.isDirty_of_inRam hram] at hdirty
        · rw [active_put_of_ne hh]
          exact h.dirty a howed
      · exact fun u fine k hu a ha => h.folded u fine k hu a (List.mem_filter.1 ha).1
    exact hinv.goto (by simp)
  · cases hs

theorem inv_step {e : Event} (h : Inv s) (htimely : Timely s e) (hs : step heap s e = some s') :
    Inv s' := by
  cases e with
  | count t addr => exact inv_count h hs
  | take t => exact inv_take h hs
  | setBit t => exact inv_setBit h htimely hs
  | tick t now => exact inv_tick h hs
  | lock t => exact inv_lock h hs
  | fold t => exact inv_fold h hs
  | replace t => exact inv_replace h hs
  | openDrain t => exact inv_openDrain h hs
  | swap t => exact inv_swap h hs
  | closeDrain t => exact inv_closeDrain h hs

/-- **No mark is lost if every marker sets its bit in time**: in the active bitmap, before a
step-down has read the word. -/
theorem owed_isDirty (heap : Heap) (r : TrackedRegion) (events : List Event) (s' : State)
    (htimely : Run.Along (step heap) Timely events (init r))
    (hrun : Run.run (step heap) events (init r) = some s') :
    ∀ a ∈ s'.owed, s'.active.isDirty a = true :=
  (Run.invariant (fun _ _ _ => inv_step) htimely (inv_init r) hrun).dirty

section Scenario

open TrackedRegion (smallHeap smallGeometry)

def stepDownEvents (t : ℕ) : List Event := [.tick t 100000000, .lock t, .fold t, .replace t]

def lostMark : List Event :=
  (List.replicate 33 (markEvents 0 16)).flatten ++ [.count 1 25, .take 1] ++ stepDownEvents 0 ++
    [.setBit 1]

def keptMark : List Event :=
  (List.replicate 33 (markEvents 0 16)).flatten ++ [.count 1 25, .take 1] ++
    [.tick 0 100000000, .lock 0, .setBit 1, .fold 0, .replace 0]

def smallRegion : Option TrackedRegion :=
  (TrackedRegion.new smallHeap 16 10 smallGeometry 0).bind Except.toOption

theorem owed_isDirty_kept :
    ∃ r s', smallRegion = some r ∧ Run.run (step smallHeap) keptMark (init r) = some s' ∧
      25 ∈ s'.owed ∧ s'.active.pageSize = 2 ∧ s'.active.isDirty 25 = true := by
  obtain ⟨r, hr, htimely, s', hs', howed, hpage⟩ : ∃ r ∈ smallRegion,
      Run.Along (step smallHeap) Timely keptMark (init r) ∧
      ∃ s' ∈ Run.run (step smallHeap) keptMark (init r),
        25 ∈ s'.owed ∧ s'.active.pageSize = 2 := by decide +kernel
  exact ⟨r, s', hr, hs', howed, hpage,
    owed_isDirty smallHeap r keptMark s' htimely hs' 25 howed⟩

/-- **A marker that holds the replaced bitmap loses its mark.** -/
theorem mark_lost_in_step_down :
    ∃ r s', smallRegion = some r ∧ Run.run (step smallHeap) lostMark (init r) = some s' ∧
      s'.writer = none ∧ 25 ∈ s'.owed ∧ s'.active.isDirty 25 = false := by
  obtain ⟨r, hr, s', hs', h⟩ : ∃ r ∈ smallRegion,
      ∃ s' ∈ Run.run (step smallHeap) lostMark (init r),
        s'.writer = none ∧ 25 ∈ s'.owed ∧ s'.active.isDirty 25 = false := by decide +kernel
  exact ⟨r, s', hr, hs', h⟩

end Scenario

end StepDown

end Squib.Snapshot
