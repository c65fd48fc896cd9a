import Mathlib.Data.List.Induction
import Squib.Snapshot.Commit
import Squib.Snapshot.Tracking

/-!
# Incremental snapshots
-/

namespace Squib.Snapshot

open Fs

/-! ## The pages that a diff writes -/

section Written

variable {host : Host} {codec : Codec MicrovmState} {req : SaveRequest} {w w' : World}
  {bitmap : DirtyBitmap}

def pagesWritten (req : SaveRequest) (bitmap : DirtyBitmap) (w w' : World) : List ℕ :=
  ((w'.written.drop w.written.length).filter fun x => x.1 = deriveTempPath req.memoryPath).map
    fun x => x.2.1 / bitmap.pageSize

variable {report : SaveReport}

theorem save_written (hkind : req.kind = .diff) (hdirty : req.dirty = some bitmap)
    (h : save host codec req w = .ok report w') :
    ∃ es, (∀ x ∈ es, x.1 = deriveTempPath req.statePath) ∧
      req.memoryPageSize ∣ bitmap.pageSize ∧
      w'.written = w.written ++ es ++
        (diffOffsets bitmap.ramSize req.memoryPageSize bitmap (List.range bitmap.pageCount)).map
          fun offset => (deriveTempPath req.memoryPath, offset,
            min (bitmap.ramSize - offset) req.memoryPageSize) := by
  obtain ⟨-, pages, mw, w₅, hstate, hcommit, -⟩ := save_eq_ok h
  obtain ⟨⟨sw, n, mw₁⟩, w₄, hstaged, h₁⟩ := bind_eq_ok.1 hstate
  obtain ⟨u, w₅', hcommit', h₂⟩ := bind_eq_ok.1 h₁
  cases h₂
  obtain ⟨sw₀, w₁, hopen, hstage⟩ := bind_eq_ok.1 hstaged
  obtain ⟨file, w₂, hsave, h₃⟩ := bind_eq_ok.1 (onErr_eq_ok.1 hstage)
  obtain ⟨mw₀, w₃, hopen', h₄⟩ := bind_eq_ok.1 h₃
  obtain ⟨⟨n', mw₂⟩, w₄', hwrite, h₅⟩ := bind_eq_ok.1 h₄
  cases h₅
  obtain ⟨hst, hdest, -, hwritten₁, -⟩ := AtomicWriter.open_ok hopen
  obtain ⟨es, hwritten₂, hes⟩ := Envelope.save_written hsave
  obtain ⟨hinner, -, hpage⟩ := MemoryWriter.open_ok hopen'
  obtain ⟨hst₀, hdest₀, -, hwritten₃, -⟩ := AtomicWriter.open_ok hinner
  have hdiff := onErr_eq_ok.1 hwrite
  simp only [writeMemory, hkind, hdirty] at hdiff
  obtain ⟨-, -, -, hdvd, -, -, hwritten₄⟩ := MemoryWriter.writeDiff_ok hst₀ hdiff
  obtain ⟨-, -, -, -, hwritten₅⟩ := AtomicWriter.commit_ok (onErr_eq_ok.1 hcommit')
  obtain ⟨-, -, -, -, hwritten₆⟩ := AtomicWriter.commit_ok hcommit
  rw [hpage] at hdvd hwritten₄
  refine ⟨es, fun x hx => ?_, hdvd, ?_⟩
  · rw [hes x hx, hst.name, hst.temp, hdest]
  · rw [hwritten₆, hwritten₅, hwritten₄, hwritten₃, hwritten₂, hwritten₁, hst₀.temp, hdest₀]

theorem mem_pagesWritten (hkind : req.kind = .diff) (hdirty : req.dirty = some bitmap)
    (h : save host codec req w = .ok report w') {page : ℕ} :
    page ∈ pagesWritten req bitmap w w' ↔ bitmap.isDirtyByIndex page = true := by
  obtain ⟨es, hes, hdvd, hwritten⟩ := save_written hkind hdirty h
  have htemps : deriveTempPath req.statePath ≠ deriveTempPath req.memoryPath :=
    fun he => (save_ok h).1 (deriveTempPath_inj he)
  have hstate : es.filter (fun x => x.1 = deriveTempPath req.memoryPath) = [] := by
    refine List.filter_eq_nil_iff.2 fun x hx => ?_
    rw [decide_eq_true_iff, hes x hx]
    exact htemps
  rw [pagesWritten, hwritten, List.append_assoc, List.drop_left, List.filter_append, hstate]
  simp only [List.nil_append, List.mem_map, List.mem_filter]
  constructor
  · rintro ⟨x, ⟨⟨offset, hoffset, rfl⟩, -⟩, rfl⟩
    exact ((mem_diffOffsets hdvd).1 hoffset).2.2
  · intro hpage
    have hlt : page * bitmap.pageSize < bitmap.ramSize :=
      DirtyBitmap.lt_pageCount_iff.1 (DirtyBitmap.isDirtyByIndex_iff.1 hpage).1
    have hdiv : page * bitmap.pageSize / bitmap.pageSize = page :=
      Nat.mul_div_cancel _ bitmap.pageSize_pos
    have hmem := (mem_diffOffsets hdvd).2
      ⟨hlt, hdvd.mul_left page, by rw [hdiv]; exact hpage⟩
    exact ⟨_, ⟨⟨_, hmem, rfl⟩, by simp⟩, hdiv⟩

end Written

/-! ## Runs -/

structure DiffCall where
  host : Host
  codec : Codec MicrovmState
  req : SaveRequest
  world : World

def DiffCall.request (c : DiffCall) (r : TrackedRegion) : SaveRequest :=
  { c.req with kind := .diff, dirty := some r.bitmap }

def DiffCall.save (c : DiffCall) (r : TrackedRegion) :
    EStateM.Result (Stop SnapshotError) World SaveReport :=
  Snapshot.save c.host c.codec (c.request r) c.world

def DiffCall.pages (c : DiffCall) (r : TrackedRegion) : List ℕ :=
  pagesWritten (c.request r) r.bitmap c.world (endWorld (c.save r))

inductive DiffEvent where
  | mark (addr : ℕ)
  | diff (c : DiffCall)

namespace DiffEvent

def step (r : TrackedRegion) : DiffEvent → Option TrackedRegion
  | .mark addr => some (r.markDirty addr).2
  | .diff c => if isOk (c.save r) = true then some r else none

def marks (b : DirtyBitmap) : DiffEvent → List ℕ
  | .mark addr => if b.InRam addr then [b.pageOf addr] else []
  | .diff _ => []

def markedEver (b : DirtyBitmap) (es : List DiffEvent) : List ℕ := es.flatMap (marks b)

def markedSince (b : DirtyBitmap) (es : List DiffEvent) : List ℕ :=
  es.foldl
    (fun pages e =>
      match e with
      | .mark _ => pages ++ e.marks b
      | .diff _ => [])
    []

variable {r r' : TrackedRegion} {b : DirtyBitmap} {page : ℕ}

theorem marks_congr {b' : DirtyBitmap} (h : DirtyBitmap.SameShape b b') (e : DiffEvent) :
    e.marks b' = e.marks b := by
  cases e with
  | mark addr => simp only [marks, h.inRam, h.pageOf]
  | diff c => rfl

theorem step_dirty {e : DiffEvent} (h : step r e = some r') :
    DirtyBitmap.SameShape r.bitmap r'.bitmap ∧
      ∀ page, r'.bitmap.isDirtyByIndex page = true ↔
        r.bitmap.isDirtyByIndex page = true ∨ page ∈ e.marks r.bitmap := by
  cases e with
  | mark addr =>
    cases h
    rw [TrackedRegion.markDirty_bitmap]
    refine ⟨DirtyBitmap.sameShape_setDirty addr, fun page => ?_⟩
    rw [DirtyBitmap.isDirtyByIndex_setDirty, marks]
    by_cases haddr : r.bitmap.InRam addr <;> simp [haddr]
  | diff c =>
    rw [step] at h
    split_ifs at h
    cases h
    exact ⟨.refl _, fun page => by simp [marks]⟩

variable {es : List DiffEvent}

theorem run_dirty (h : Run.run step es r = some r') :
    DirtyBitmap.SameShape r.bitmap r'.bitmap ∧
      ∀ page, r'.bitmap.isDirtyByIndex page = true ↔
        r.bitmap.isDirtyByIndex page = true ∨ page ∈ markedEver r.bitmap es := by
  induction es generalizing r with
  | nil =>
    cases h
    exact ⟨.refl _, fun page => by simp [markedEver]⟩
  | cons e es ih =>
    obtain ⟨r₁, h₁, h₂⟩ := Run.run_cons_eq_some.1 h
    obtain ⟨hs, hd⟩ := step_dirty h₁
    obtain ⟨hs', hd'⟩ := ih h₂
    refine ⟨hs.trans hs', fun page => ?_⟩
    have hmarks : markedEver r₁.bitmap es = markedEver r.bitmap es :=
      congrArg (es.flatMap ·) (funext (marks_congr hs))
    rw [hd', hd, hmarks, or_assoc, markedEver, markedEver, List.flatMap_cons, List.mem_append]

theorem mem_markedEver_of_mem_markedSince (h : page ∈ markedSince b es) :
    page ∈ markedEver b es := by
  induction es using List.reverseRecOn with
  | nil => cases h
  | append_singleton es e ih =>
    rw [markedSince, List.foldl_append] at h
    rw [markedEver, List.flatMap_append, List.mem_append]
    cases e with
    | mark addr =>
      rcases List.mem_append.1 h with hold | hnew
      · exact .inl (ih hold)
      · exact .inr (by simpa using hnew)
    | diff c => cases h

theorem mem_pages_iff {c : DiffCall} {r₁ : TrackedRegion}
    (hclean : ∀ q, r.bitmap.isDirtyByIndex q = false) (hrun : Run.run step es r = some r₁)
    (hsave : isOk (c.save r₁) = true) : page ∈ c.pages r₁ ↔ page ∈ markedEver r.bitmap es := by
  obtain ⟨report, w', hok⟩ := exists_ok hsave
  rw [DiffCall.pages, hok, endWorld_ok, mem_pagesWritten rfl rfl hok, (run_dirty hrun).2 page,
    hclean page]
  simp

/-- **Diffs are incremental exactly if every page is marked again**: at each diff, every page marked
so far was marked since the diff before it. -/
theorem diffs_incremental_iff {heap : Heap} {ramStart ramSize threshold now : ℕ}
    {geom : PageGeometry} {es : List DiffEvent}
    (hnew : TrackedRegion.withThreshold heap ramStart ramSize geom threshold now = some (.ok r))
    (hrun : Run.run step es r = some r') :
    (∀ pre c post r₁, es = pre ++ .diff c :: post → Run.run step pre r = some r₁ →
        ∀ page, page ∈ c.pages r₁ ↔ page ∈ markedSince r.bitmap pre) ↔
      ∀ pre c post, es = pre ++ .diff c :: post →
        ∀ page ∈ markedEver r.bitmap pre, page ∈ markedSince r.bitmap pre := by
  obtain ⟨-, -, -, -, hclean⟩ := TrackedRegion.withThreshold_ok hnew
  -- the diff after `pre` was taken and succeeded
  have hdiff : ∀ pre c post, es = pre ++ .diff c :: post →
      ∃ r₁, Run.run step pre r = some r₁ ∧ isOk (c.save r₁) = true := by
    rintro pre c post rfl
    rw [Run.run_append] at hrun
    obtain ⟨r₁, hpre, hrest⟩ := Option.bind_eq_some_iff.1 hrun
    obtain ⟨r₂, hstep, -⟩ := Run.run_cons_eq_some.1 hrest
    rw [step] at hstep
    split_ifs at hstep with hok
    exact ⟨r₁, hpre, hok⟩
  constructor
  · intro h pre c post hes page hpage
    obtain ⟨r₁, hpre, hok⟩ := hdiff pre c post hes
    exact (h pre c post r₁ hes hpre page).1 ((mem_pages_iff hclean hpre hok).2 hpage)
  · intro h pre c post r₁ hes hpre page
    obtain ⟨r₂, hpre', hok⟩ := hdiff pre c post hes
    cases hpre.symm.trans hpre'
    rw [mem_pages_iff hclean hpre hok]
    exact ⟨h pre c post hes page, mem_markedEver_of_mem_markedSince⟩

section Scenario

def smallDiff : DiffCall where
  host := oneDir
  codec := sampleCodec
  req :=
    { statePath := "vm.snap", memoryPath := "vm.mem", kind := .diff, state := sampleState 0
      memory := .ofVec baseImage, ramSize := 10, memoryPageSize := 2, dirty := none }
  world := emptyDisk

def tenBytesRegion : Option TrackedRegion :=
  (TrackedRegion.withThreshold TrackedRegion.smallHeap 16 10 TrackedRegion.smallGeometry 0 0).bind
    Except.toOption

theorem tenBytesRegion_eq (h : tenBytesRegion = some r) :
    TrackedRegion.withThreshold TrackedRegion.smallHeap 16 10 TrackedRegion.smallGeometry 0 0 =
      some (.ok r) := by
  obtain ⟨x, hx, hr⟩ := Option.bind_eq_some_iff.1 h
  cases x with
  | error e => cases hr
  | ok r' =>
    cases hr
    exact hx

def markedAgain : List DiffEvent := [.mark 16, .diff smallDiff, .mark 17]

theorem diffs_incremental_iff_marked_again :
    ∃ r r₁, tenBytesRegion = some r ∧ Run.run step markedAgain r = some r₁ ∧
      ∀ page, page ∈ smallDiff.pages r₁ ↔ page ∈ markedSince r.bitmap markedAgain := by
  obtain ⟨r, hr, hpre, hrun, hever₁, hsince₁, hever₂, hsince₂⟩ : ∃ r ∈ tenBytesRegion,
      (Run.run step markedAgain r).isSome ∧
        (Run.run step (markedAgain ++ [.diff smallDiff]) r).isSome ∧
        markedEver r.bitmap [.mark 16] = [0] ∧ markedSince r.bitmap [.mark 16] = [0] ∧
        markedEver r.bitmap markedAgain = [0, 0] ∧ markedSince r.bitmap markedAgain = [0] := by
    decide +kernel
  obtain ⟨r₁, hr₁⟩ := Option.isSome_iff_exists.1 hpre
  obtain ⟨r', hr'⟩ := Option.isSome_iff_exists.1 hrun
  refine ⟨r, r₁, hr, hr₁, (diffs_incremental_iff (tenBytesRegion_eq hr) hr').2 ?_
    markedAgain smallDiff [] r₁ rfl hr₁⟩
  intro pre c post hes page hpage
  -- a diff comes after the first call or after the third
  rcases pre with _ | ⟨e₁, _ | ⟨e₂, _ | ⟨e₃, _ | ⟨e₄, pre⟩⟩⟩⟩
  · cases hes
  · cases hes
    rw [hever₁] at hpage
    rw [hsince₁]
    exact hpage
  · cases hes
  · cases hes
    rw [markedAgain] at hever₂ hsince₂
    rw [hever₂] at hpage
    rw [hsince₂]
    simpa using hpage
  · cases pre <;> cases hes

/-- **A second diff repeats the first**: page 0 was written, was not marked again, and is written
again. -/
theorem second_diff_repeats :
    ∃ r r₁, tenBytesRegion = some r ∧
      Run.run step [.mark 16, .diff smallDiff, .mark 25] r = some r₁ ∧
      isOk (smallDiff.save r₁) = true ∧
      0 ∈ smallDiff.pages r₁ ∧ 0 ∉ markedSince r.bitmap [.mark 16, .diff smallDiff, .mark 25] := by
  obtain ⟨r, hr, r₁, hr₁, h⟩ : ∃ r ∈ tenBytesRegion,
      ∃ r₁ ∈ Run.run step [.mark 16, .diff smallDiff, .mark 25] r,
        isOk (smallDiff.save r₁) = true ∧ 0 ∈ smallDiff.pages r₁ ∧
          0 ∉ markedSince r.bitmap [.mark 16, .diff smallDiff, .mark 25] := by
    decide +kernel
  exact ⟨r, r₁, hr, hr₁, h⟩

end Scenario

end DiffEvent

end Squib.Snapshot
