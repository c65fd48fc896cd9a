import Squib.Lib.Run
import Squib.Snapshot.Dirty

/-!
# Tracked regions

The adaptive controller, the tracked region that it drives, and the runs of `mark_dirty` and
`tick_adaptive` calls that do not overlap.
-/

namespace Squib.Snapshot

structure PageGeometry.Valid (geom : PageGeometry) : Prop where
  default_pow : isPowerOfTwo geom.trackingPageDefault = true
  hot_pow : isPowerOfTwo geom.trackingPageHot = true
  dvd : geom.trackingPageHot ∣ geom.trackingPageDefault

/-! ## The adaptive controller -/

def DEFAULT_STEP_DOWN_THRESHOLD : ℕ := 32

def ADAPTIVE_WINDOW : ℕ := 100000000

structure AdaptiveController where
  threshold : ℕ
  blockFaults : List ℕ
  lastReset : ℕ
  granule : TrackingGranule

namespace AdaptiveController

def withThreshold (heap : Heap) (blockCount threshold now : ℕ) : Option AdaptiveController :=
  if heap.bytes < 4 * blockCount then none
  else
    some
      { threshold, blockFaults := List.replicate blockCount 0, lastReset := now
        granule := .coarse }

variable (c : AdaptiveController)

def recordFault (blockIdx : ℕ) : AdaptiveController :=
  { c with blockFaults := c.blockFaults.modify blockIdx fun n => (n + 1) % 2 ^ 32 }

def tick (now : ℕ) : TrackingGranule × AdaptiveController :=
  if now - c.lastReset < ADAPTIVE_WINDOW then (c.granule, c)
  else
    let maxInWindow := c.blockFaults.foldl (fun m n => if m < n then n else m) 0
    let granule :=
      if c.threshold < maxInWindow ∧ c.granule = .coarse then .fine else c.granule
    (granule,
      { c with blockFaults := c.blockFaults.map fun _ => 0, lastReset := now, granule })

variable {c}

theorem tick_fst (now : ℕ) : (c.tick now).1 = (c.tick now).2.granule := by
  unfold tick
  split_ifs <;> rfl

theorem tick_granule (now : ℕ) :
    (c.tick now).2.granule = c.granule ∨ c.granule = .coarse ∧ (c.tick now).2.granule = .fine := by
  unfold tick
  split
  · exact .inl rfl
  · by_cases hhot : c.threshold < c.blockFaults.foldl (fun m n => if m < n then n else m) 0 ∧
        c.granule = .coarse
    · exact .inr ⟨hhot.2, if_pos hhot⟩
    · exact .inl (if_neg hhot)

end AdaptiveController

/-! ## The tracked region -/

structure TrackedRegion where
  bitmap : DirtyBitmap
  controller : AdaptiveController
  geometry : PageGeometry

namespace TrackedRegion

def withThreshold (heap : Heap) (ramStart ramSize : ℕ) (geometry : PageGeometry)
    (threshold now : ℕ) : Option (Except SnapshotError TrackedRegion) := do
  match ← DirtyBitmap.new heap ramStart ramSize geometry.trackingPageDefault
      geometry.default_lt with
  | .error e => return .error e
  | .ok bitmap =>
    let controller ← AdaptiveController.withThreshold heap bitmap.pageCount threshold now
    return .ok { bitmap, controller, geometry }

def new (heap : Heap) (ramStart ramSize : ℕ) (geometry : PageGeometry) (now : ℕ) :
    Option (Except SnapshotError TrackedRegion) :=
  withThreshold heap ramStart ramSize geometry DEFAULT_STEP_DOWN_THRESHOLD now

variable (r : TrackedRegion)

def recordFault (addr : ℕ) : TrackedRegion :=
  if r.bitmap.ramStart ≤ addr then
    { r with
      controller := r.controller.recordFault
        ((addr - r.bitmap.ramStart) / r.geometry.trackingPageDefault) }
  else r

def markDirty (addr : ℕ) : Bool × TrackedRegion :=
  let r := r.recordFault addr
  let (clean, bitmap) := r.bitmap.setDirty addr
  (clean, { r with bitmap })

def tickAdaptive (heap : Heap) (now : ℕ) : Option (TrackingGranule × TrackedRegion) :=
  let (granule, controller) := r.controller.tick now
  let r := { r with controller }
  let targetSize := granule.pageSize r.geometry
  if targetSize = r.bitmap.pageSize then some (granule, r)
  else
    match DirtyBitmap.new heap r.bitmap.ramStart r.bitmap.ramSize targetSize
        (granule.pageSize_lt r.geometry) with
    | none => none
    | some (.error _) => some (r.controller.granule, r)
    | some (.ok fine) =>
      match r.bitmap.foldIntoFiner fine with
      | .error _ => some (granule, r)
      | .ok fine => some (granule, { r with bitmap := fine })

/-! ## Runs -/

inductive Op where
  | mark (addr : ℕ)
  | tick (now : ℕ)
  deriving DecidableEq, Repr

def exec (heap : Heap) (r : TrackedRegion) : Op → Option TrackedRegion
  | .mark addr => some (r.markDirty addr).2
  | .tick now => (r.tickAdaptive heap now).map Prod.snd

def run (heap : Heap) (ops : List Op) (r : TrackedRegion) : Option TrackedRegion :=
  Run.run (exec heap) ops r

/-! ## What a call does to the dirty set -/

variable {r}

structure SameRange (r r' : TrackedRegion) : Prop where
  ramStart : r'.bitmap.ramStart = r.bitmap.ramStart
  ramSize : r'.bitmap.ramSize = r.bitmap.ramSize
  geometry : r'.geometry = r.geometry

namespace SameRange

variable {r' r'' : TrackedRegion}

theorem refl (r : TrackedRegion) : SameRange r r := ⟨rfl, rfl, rfl⟩

theorem trans (h : SameRange r r') (h' : SameRange r' r'') : SameRange r r'' :=
  ⟨h'.ramStart.trans h.ramStart, h'.ramSize.trans h.ramSize, h'.geometry.trans h.geometry⟩

theorem inRam (h : SameRange r r') {a : ℕ} : r'.bitmap.InRam a ↔ r.bitmap.InRam a := by
  rw [DirtyBitmap.InRam, DirtyBitmap.InRam, h.ramStart, h.ramSize]

end SameRange

variable (ops : List Op) (addr : ℕ)

@[simp] theorem recordFault_bitmap : (r.recordFault addr).bitmap = r.bitmap := by
  unfold recordFault
  split_ifs <;> rfl

@[simp] theorem recordFault_geometry : (r.recordFault addr).geometry = r.geometry := by
  unfold recordFault
  split_ifs <;> rfl

theorem markDirty_bitmap : (r.markDirty addr).2.bitmap = (r.bitmap.setDirty addr).2 := by
  simp [markDirty]

theorem sameRange_markDirty : SameRange r (r.markDirty addr).2 := by
  have hs := r.bitmap.sameShape_setDirty addr
  refine ⟨?_, ?_, by simp [markDirty]⟩
  · rw [markDirty_bitmap, hs.ramStart]
  · rw [markDirty_bitmap, hs.ramSize]

section Tick

variable {heap : Heap} {now : ℕ} {g : TrackingGranule} {r' : TrackedRegion}

def finer (heap : Heap) (now : ℕ) (r : TrackedRegion) : Option (Except SnapshotError DirtyBitmap) :=
  DirtyBitmap.new heap r.bitmap.ramStart r.bitmap.ramSize
    ((r.controller.tick now).1.pageSize r.geometry)
    ((r.controller.tick now).1.pageSize_lt r.geometry)

theorem tickAdaptive_cases (h : r.tickAdaptive heap now = some (g, r')) :
    r'.geometry = r.geometry ∧ r'.controller = (r.controller.tick now).2 ∧
      (r'.bitmap = r.bitmap ∧
          ((r.controller.tick now).1.pageSize r.geometry = r.bitmap.pageSize ∨
            (∃ e, r.finer heap now = some (.error e)) ∨
            ∃ fine e, r.finer heap now = some (.ok fine) ∧ r.bitmap.foldIntoFiner fine = .error e) ∨
        ∃ fine, r.finer heap now = some (.ok fine) ∧
          r.bitmap.foldIntoFiner fine = .ok r'.bitmap) := by
  simp only [tickAdaptive] at h
  split at h
  · next hsize =>
    cases h
    exact ⟨rfl, rfl, .inl ⟨rfl, .inl hsize⟩⟩
  · split at h
    · cases h
    · next e hnew =>
      cases h
      exact ⟨rfl, rfl, .inl ⟨rfl, .inr (.inl ⟨e, hnew⟩)⟩⟩
    · next fine hnew =>
      split at h
      · next e hfold =>
        cases h
        exact ⟨rfl, rfl, .inl ⟨rfl, .inr (.inr ⟨fine, e, hnew, hfold⟩)⟩⟩
      · next hfold =>
        cases h
        exact ⟨rfl, rfl, .inr ⟨fine, hnew, hfold⟩⟩

theorem tickAdaptive_isDirty (h : r.tickAdaptive heap now = some (g, r')) :
    SameRange r r' ∧ ∀ a, r.bitmap.InRam a → r'.bitmap.isDirty a = r.bitmap.isDirty a := by
  obtain ⟨hgeom, -, ⟨hbitmap, -⟩ | ⟨fine, hnew, hfold⟩⟩ := tickAdaptive_cases h
  · rw [hbitmap]
    exact ⟨⟨by rw [hbitmap], by rw [hbitmap], hgeom⟩, fun a _ => rfl⟩
  · obtain ⟨hstart, hsize, -, hclean⟩ := DirtyBitmap.new_ok hnew
    obtain ⟨-, hbitmap⟩ := DirtyBitmap.refines_of_foldIntoFiner hfold
    have hs := r.bitmap.sameShape_foldWords fine r.bitmap.words.length
    rw [← hbitmap] at hs
    exact ⟨⟨hs.ramStart.trans hstart, hs.ramSize.trans hsize, hgeom⟩,
      fun a ha => DirtyBitmap.isDirty_foldIntoFiner hfold hclean ha⟩

end Tick

/-! ## The granularity in force -/

def Granular (r : TrackedRegion) : Prop :=
  r.bitmap.pageSize = r.controller.granule.pageSize r.geometry

def hotBytes (r : TrackedRegion) : ℕ :=
  8 * divCeil (divCeil r.bitmap.ramSize r.geometry.trackingPageHot) 64

variable {heap : Heap} {r' r₁ : TrackedRegion} {op : Op}

theorem exists_new {p : ℕ} (hlt : p < 2 ^ 64) (hpow : isPowerOfTwo p = true) :
    DirtyBitmap.new heap r.bitmap.ramStart r.bitmap.ramSize p hlt = none ∧
        heap.bytes < 8 * divCeil (divCeil r.bitmap.ramSize p) 64 ∨
      ∃ fine, DirtyBitmap.new heap r.bitmap.ramStart r.bitmap.ramSize p hlt = some (.ok fine) := by
  have hsize := r.bitmap.ramSize_pos
  have hov := r.bitmap.ram_lt
  rw [DirtyBitmap.new, dif_neg (by simp [hpow]), dif_neg (by omega), dif_neg (by omega)]
  split_ifs with hheap
  · exact .inl ⟨rfl, hheap⟩
  · exact .inr ⟨_, rfl⟩

theorem granular_tickAdaptive {now : ℕ} {g : TrackingGranule} (hv : r.geometry.Valid)
    (hg : r.Granular) (h : r.tickAdaptive heap now = some (g, r')) : r'.Granular := by
  obtain ⟨hgeom, hctrl, hcases⟩ := tickAdaptive_cases h
  have hpow : isPowerOfTwo ((r.controller.tick now).1.pageSize r.geometry) = true := by
    cases (r.controller.tick now).1
    · exact hv.default_pow
    · exact hv.hot_pow
  rw [Granular, hctrl, hgeom, ← AdaptiveController.tick_fst]
  rcases hcases with ⟨hbitmap, hkeep | ⟨e, hnew⟩ | ⟨fine, e, hnew, hfold⟩⟩ | ⟨fine, hnew, hfold⟩
  · rw [hbitmap, hkeep]
  · rcases r.exists_new ((r.controller.tick now).1.pageSize_lt r.geometry) hpow with
      ⟨hn, -⟩ | ⟨f, hf⟩
    · exact absurd (hn.symm.trans hnew) (by simp)
    · exact absurd (hf.symm.trans hnew) (by simp)
  · -- the fold can only fail if the page size does not change
    obtain ⟨hstart, hsize, hpage, -⟩ := DirtyBitmap.new_ok hnew
    rw [hbitmap]
    by_contra hne
    rw [AdaptiveController.tick_fst] at hne hpage
    rcases r.controller.tick_granule now with hsame | ⟨hcoarse, hfine⟩
    · exact hne (by rw [hsame]; exact hg)
    · rw [hfine] at hpage hne
      rw [Granular, hcoarse] at hg
      have hdvd : fine.pageSize ∣ r.bitmap.pageSize := by
        rw [hpage, hg]
        exact hv.dvd
      have hlt : fine.pageSize < r.bitmap.pageSize :=
        lt_of_le_of_ne (Nat.le_of_dvd r.bitmap.pageSize_pos hdvd) (by rw [hpage]; exact Ne.symm hne)
      rw [DirtyBitmap.foldIntoFiner_of_refines ⟨hstart, hsize, hlt, hdvd⟩] at hfold
      cases hfold
  · obtain ⟨-, hbitmap⟩ := DirtyBitmap.refines_of_foldIntoFiner hfold
    rw [hbitmap, (r.bitmap.sameShape_foldWords fine _).pageSize, (DirtyBitmap.new_ok hnew).2.2.1]

theorem granular_markDirty (hg : r.Granular) (addr : ℕ) : (r.markDirty addr).2.Granular := by
  have hctrl : (r.markDirty addr).2.controller.granule = r.controller.granule := by
    simp only [markDirty, recordFault]
    split_ifs <;> rfl
  rw [Granular, markDirty_bitmap, (r.bitmap.sameShape_setDirty addr).pageSize, hctrl,
    (sameRange_markDirty addr).geometry]
  exact hg

/-! ## Whole runs -/

def Marked (heap : Heap) (r : TrackedRegion) (ops : List Op) (a : ℕ) : Prop :=
  ∃ pre m post rm, ops = pre ++ .mark m :: post ∧ run heap pre r = some rm ∧
    rm.bitmap.InRam m ∧ rm.bitmap.pageOf m = rm.bitmap.pageOf a

theorem marked_cons {ops : List Op} {a : ℕ} (h : exec heap r op = some r₁) :
    Marked heap r (op :: ops) a ↔
      (∃ m, op = .mark m ∧ r.bitmap.InRam m ∧ r.bitmap.pageOf m = r.bitmap.pageOf a) ∨
        Marked heap r₁ ops a := by
  constructor
  · rintro ⟨pre, m, post, rm, hops, hrun, hm, hp⟩
    cases pre with
    | nil =>
      obtain ⟨rfl, rfl⟩ := List.cons.inj hops
      cases hrun
      exact .inl ⟨m, rfl, hm, hp⟩
    | cons op' pre =>
      obtain ⟨rfl, rfl⟩ := List.cons.inj hops
      rw [run, Run.run_cons h] at hrun
      exact .inr ⟨pre, m, post, rm, rfl, hrun, hm, hp⟩
  · rintro (⟨m, rfl, hm, hp⟩ | ⟨pre, m, post, rm, rfl, hrun, hm, hp⟩)
    · exact ⟨[], m, ops, r, rfl, rfl, hm, hp⟩
    · exact ⟨op :: pre, m, post, rm, rfl, by rw [run, Run.run_cons h]; exact hrun, hm, hp⟩

theorem exec_isDirty (h : exec heap r op = some r₁) :
    SameRange r r₁ ∧ ∀ a, r.bitmap.InRam a → (r₁.bitmap.isDirty a = true ↔
      r.bitmap.isDirty a = true ∨
        ∃ m, op = .mark m ∧ r.bitmap.InRam m ∧ r.bitmap.pageOf m = r.bitmap.pageOf a) := by
  cases op with
  | mark m =>
    cases h
    refine ⟨sameRange_markDirty m, fun a ha => ?_⟩
    rw [markDirty_bitmap, DirtyBitmap.isDirty_setDirty ha]
    simp
  | tick now =>
    obtain ⟨⟨g, r₂⟩, htick, rfl⟩ := Option.map_eq_some_iff.1 h
    obtain ⟨hs, hd⟩ := tickAdaptive_isDirty htick
    refine ⟨hs, fun a ha => ?_⟩
    rw [hd a ha]
    simp

theorem run_isDirty :
    ∀ {r : TrackedRegion}, run heap ops r = some r' → ∀ {a : ℕ}, r.bitmap.InRam a →
      (r'.bitmap.isDirty a = true ↔ r.bitmap.isDirty a = true ∨ Marked heap r ops a) := by
  induction ops with
  | nil =>
    intro r h a ha
    cases h
    simp [Marked]
  | cons op ops ih =>
    intro r h a ha
    obtain ⟨r₁, h₁, h₂⟩ := Run.run_cons_eq_some.1 h
    obtain ⟨hs, hd⟩ := exec_isDirty h₁
    rw [ih h₂ (hs.inRam.2 ha), hd a ha, marked_cons h₁, or_assoc]

theorem exec_returns (hv : r.geometry.Valid) (hg : r.Granular) (hheap : r.hotBytes ≤ heap.bytes)
    (op : Op) : ∃ r₁, exec heap r op = some r₁ := by
  cases op with
  | mark addr => exact ⟨_, rfl⟩
  | tick now =>
    suffices h : ∃ p, r.tickAdaptive heap now = some p by
      obtain ⟨p, hp⟩ := h
      exact ⟨p.2, by rw [exec, hp]; rfl⟩
    by_cases hsize : (r.controller.tick now).1.pageSize r.geometry = r.bitmap.pageSize
    · exact ⟨((r.controller.tick now).1, { r with controller := (r.controller.tick now).2 }),
        by simp only [tickAdaptive, if_pos hsize]⟩
    · -- the page size changes only to the hot one, for which the heap has room
      have hfine : (r.controller.tick now).1 = .fine := by
        rw [AdaptiveController.tick_fst] at hsize ⊢
        rcases r.controller.tick_granule now with hsame | ⟨-, hfine⟩
        · exact absurd (by rw [hsame]; exact hg.symm) hsize
        · exact hfine
      have hsome : ∃ x, r.finer heap now = some (.ok x) := by
        have hpow : isPowerOfTwo ((r.controller.tick now).1.pageSize r.geometry) = true := by
          rw [hfine]
          exact hv.hot_pow
        rcases r.exists_new ((r.controller.tick now).1.pageSize_lt r.geometry) hpow with
          ⟨-, hlt⟩ | hok
        · rw [hfine] at hlt
          exact absurd hlt (Nat.not_lt.2 hheap)
        · exact hok
      obtain ⟨fine, hnew⟩ := hsome
      rw [finer] at hnew
      simp only [tickAdaptive, if_neg hsize, hnew]
      cases r.bitmap.foldIntoFiner fine with
      | error e => exact ⟨_, rfl⟩
      | ok f => exact ⟨_, rfl⟩

theorem exec_granular (hv : r.geometry.Valid) (hg : r.Granular) (h : exec heap r op = some r₁) :
    r₁.Granular := by
  cases op with
  | mark addr =>
    cases h
    exact granular_markDirty hg addr
  | tick now =>
    obtain ⟨⟨g, r₂⟩, htick, rfl⟩ := Option.map_eq_some_iff.1 h
    exact granular_tickAdaptive hv hg htick

theorem run_granular :
    ∀ {r : TrackedRegion}, r.geometry.Valid → r.Granular → run heap ops r = some r' →
      r'.Granular ∧ SameRange r r' := by
  induction ops with
  | nil =>
    intro r _ hg h
    cases h
    exact ⟨hg, .refl _⟩
  | cons op ops ih =>
    intro r hv hg h
    obtain ⟨r₁, h₁, h₂⟩ := Run.run_cons_eq_some.1 h
    have hs := (exec_isDirty h₁).1
    obtain ⟨hg', hs'⟩ := ih (hs.geometry ▸ hv) (exec_granular hv hg h₁) h₂
    exact ⟨hg', hs.trans hs'⟩

theorem run_returns :
    ∀ {r : TrackedRegion}, r.geometry.Valid → r.Granular → r.hotBytes ≤ heap.bytes →
      ∃ r', run heap ops r = some r' := by
  induction ops with
  | nil => exact fun _ _ _ => ⟨_, rfl⟩
  | cons op ops ih =>
    intro r hv hg hheap
    obtain ⟨r₁, h₁⟩ := exec_returns hv hg hheap op
    have hs := (exec_isDirty h₁).1
    have hheap' : r₁.hotBytes ≤ heap.bytes := by
      rw [hotBytes, hs.ramSize, hs.geometry]
      exact hheap
    obtain ⟨r', h'⟩ := ih (hs.geometry ▸ hv) (exec_granular hv hg h₁) hheap'
    exact ⟨r', by rw [run, Run.run_cons h₁]; exact h'⟩

theorem withThreshold_ok {ramStart ramSize threshold now : ℕ} {geom : PageGeometry}
    (h : withThreshold heap ramStart ramSize geom threshold now = some (.ok r)) :
    r.bitmap.ramStart = ramStart ∧ r.bitmap.ramSize = ramSize ∧ r.geometry = geom ∧ r.Granular ∧
      ∀ q, r.bitmap.isDirtyByIndex q = false := by
  obtain ⟨x, hnew, h⟩ := Option.bind_eq_some_iff.1 h
  cases x with
  | error e => cases h
  | ok bitmap =>
    obtain ⟨c, hc, h⟩ := Option.bind_eq_some_iff.1 h
    cases h
    obtain ⟨hstart, hsize, hpage, hclean⟩ := DirtyBitmap.new_ok hnew
    refine ⟨hstart, hsize, rfl, ?_, hclean⟩
    rw [AdaptiveController.withThreshold] at hc
    split_ifs at hc
    cases hc
    exact hpage

section Coverage

variable (heap : Heap) (ramStart ramSize threshold start : ℕ) (geom : PageGeometry)

/-- **The dirty set of a run**: an address of RAM is dirty exactly if a call marked its tracking
page, at the granularity then in force. All calls return if the heap has room. -/
theorem isDirty_iff_marked (hv : geom.Valid)
    (hnew : withThreshold heap ramStart ramSize geom threshold start = some (.ok r))
    (ops : List Op) :
    (∀ r', run heap ops r = some r' → r'.Granular ∧ ∀ a, ramStart ≤ a → a < ramStart + ramSize →
        (r'.bitmap.isDirty a = true ↔ Marked heap r ops a)) ∧
      (r.hotBytes ≤ heap.bytes → ∃ r', run heap ops r = some r') := by
  obtain ⟨hstart, hsize, hgeom, hgran, hclean⟩ := withThreshold_ok hnew
  rw [← hgeom] at hv
  refine ⟨fun r' hrun => ⟨(run_granular ops hv hgran hrun).1, fun a h₁ h₂ => ?_⟩,
    run_returns ops hv hgran⟩
  have ha : r.bitmap.InRam a := ⟨by omega, by omega⟩
  rw [run_isDirty ops hrun ha, DirtyBitmap.isDirty_of_inRam ha, hclean]
  simp

end Coverage

section Scenario

def smallGeometry : PageGeometry where
  trackingPageDefault := 4
  trackingPageHot := 2
  default_lt := UInt64.toNat_lt 4
  hot_lt := UInt64.toNat_lt 2

def stepDownOps : List Op := [.mark 25, .tick 100000000, .mark 17]

def smallHeap : Heap := ⟨64, by decide⟩

theorem isDirty_iff_marked_step_down :
    ∃ r r', withThreshold smallHeap 16 10 smallGeometry 0 0 = some (.ok r) ∧
      run smallHeap stepDownOps r = some r' ∧ r'.Granular ∧ r'.bitmap.pageSize = 2 ∧
        ∀ a, 16 ≤ a → a < 16 + 10 →
          (r'.bitmap.isDirty a = true ↔ Marked smallHeap r stepDownOps a) := by
  have hv : smallGeometry.Valid := ⟨by decide, by decide, by decide⟩
  have hnew : ∃ r, withThreshold smallHeap 16 10 smallGeometry 0 0 = some (.ok r) ∧
      r.hotBytes ≤ smallHeap.bytes ∧
        ∃ r', run smallHeap stepDownOps r = some r' ∧ r'.bitmap.pageSize = 2 :=
    ⟨_, rfl, by decide, _, rfl, rfl⟩
  obtain ⟨r, hr, -, r', hr', hp⟩ := hnew
  obtain ⟨hgran, hdirty⟩ :=
    (isDirty_iff_marked smallHeap 16 10 0 0 smallGeometry hv hr stepDownOps).1 r' hr'
  exact ⟨r, r', hr, hr', hgran, hp, hdirty⟩

end Scenario

end TrackedRegion

end Squib.Snapshot
