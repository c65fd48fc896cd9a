import Squib.Snapshot.Envelope
import Squib.Snapshot.Memory

/-!
# Saving and loading a snapshot
-/

namespace Squib.Snapshot

open Fs

inductive SnapshotKind where
  | full
  | diff
  deriving DecidableEq, Repr

structure SaveRequest where
  statePath : Path
  memoryPath : Path
  kind : SnapshotKind
  state : MicrovmState
  memory : PageReader
  ramSize : ℕ
  memoryPageSize : ℕ
  dirty : Option DirtyBitmap

structure SaveReport where
  kind : SnapshotKind
  pagesWritten : ℕ
  deriving DecidableEq, Repr

section Save

variable (host : Host) (codec : Codec MicrovmState) (req : SaveRequest)

def writeMemory (mw : MemoryWriter) : Io (ℕ × MemoryWriter) :=
  match req.kind with
  | .full => do
    let mw ← mw.writeFull req.memory
    return (0, mw)
  | .diff =>
    match req.dirty with
    | none =>
      throw (.err (.invalidPath
        "Diff snapshot requires track_dirty_pages=true and a dirty bitmap"))
    | some bitmap => mw.writeDiff req.memory bitmap

def stage (sw : AtomicWriter) : Io (AtomicWriter × ℕ × MemoryWriter) := do
  let file ← (Envelope.new req.state).save codec sw.file
  let mw ← MemoryWriter.open host req.memoryPath req.ramSize req.memoryPageSize
  let (pages, mw) ← onErr (writeMemory req mw) mw.drop
  return ({ sw with file }, pages, mw)

def openAndStage : Io (AtomicWriter × ℕ × MemoryWriter) := do
  let sw ← AtomicWriter.open host req.statePath
  onErr (stage host codec req sw) sw.drop

def commitState : Io (ℕ × MemoryWriter) := do
  let (sw, pages, mw) ← openAndStage host codec req
  onErr sw.commit mw.drop
  return (pages, mw)

def save : Io SaveReport :=
  if req.kind = .diff ∧ req.state.vmInfo.trackDirtyPages = false then
    throw (.err (.invalidPath "Diff snapshot requested but vm_info.track_dirty_pages is false"))
  else
    match req.state.verifyCompatible with
    | .error e => throw (.err e)
    | .ok () => do
      let (pages, mw) ← commitState host codec req
      mw.commit
      return { kind := req.kind, pagesWritten := pages }

end Save

structure LoadedSnapshot where
  state : MicrovmState
  sourceVersion : Version
  deriving DecidableEq, Repr

def load (codec : Codec MicrovmState) (disk : Disk Path) (statePath : Path) :
    Except SnapshotError LoadedSnapshot :=
  match disk.read statePath with
  | none => .error (.io 2)
  | some content =>
    match Envelope.load codec content with
    | .error e => .error e
    | .ok snapshot =>
      match snapshot.data.verifyCompatible with
      | .error e => .error e
      | .ok () => .ok { state := snapshot.data, sourceVersion := snapshot.header.version }

/-! ## The image of a request -/

def SaveRequest.Writes (req : SaveRequest) (i : ℕ) : Prop :=
  req.kind = .full ∨ ∃ bitmap ∈ req.dirty, bitmap.isDirtyByIndex (i / bitmap.pageSize) = true

instance (req : SaveRequest) (i : ℕ) : Decidable (req.Writes i) :=
  inferInstanceAs (Decidable (_ ∨ _))

def SaveRequest.image (req : SaveRequest) : List UInt8 :=
  (List.range req.ramSize).map fun i => if req.Writes i then req.memory.image.getD i 0 else 0

theorem SaveRequest.length_image (req : SaveRequest) : req.image.length = req.ramSize := by
  rw [SaveRequest.image, List.length_map, List.length_range]

def SaveRequest.Whole (req : SaveRequest) : Prop :=
  req.kind = .full → req.memory.image.take req.ramSize = req.image

variable {req : SaveRequest}

theorem SaveRequest.image_full (hkind : req.kind = .full)
    (hlen : req.ramSize ≤ req.memory.image.length) :
    req.memory.image.take req.ramSize = req.image := by
  refine List.ext_getElem ?_ fun i hi hi' => ?_
  · rw [req.length_image, List.length_take, Nat.min_eq_left hlen]
  · rw [req.length_image] at hi'
    have hi'' : i < req.memory.image.length := by omega
    have hwrites : req.Writes i := .inl hkind
    simp [SaveRequest.image, hwrites, hi'']

theorem SaveRequest.image_diff {bitmap : DirtyBitmap} (hkind : req.kind = .diff)
    (hdirty : req.dirty = some bitmap) (hram : bitmap.ramSize = req.ramSize)
    (hdvd : req.memoryPageSize ∣ bitmap.pageSize)
    (hread : ∀ offset ∈ diffOffsets bitmap.ramSize req.memoryPageSize bitmap
      (List.range bitmap.pageCount),
      Readable req.memory.image bitmap.ramSize req.memoryPageSize offset) :
    MemoryWriter.diffBytes req.memory.image req.memoryPageSize bitmap = req.image := by
  obtain ⟨hlen, hbyte⟩ := MemoryWriter.diffBytes_spec hdvd hread
  refine List.ext_getElem (by rw [hlen, hram, req.length_image]) fun i hi hi' => ?_
  have hwrites : req.Writes i ↔ bitmap.isDirtyByIndex (i / bitmap.pageSize) = true := by
    simp [SaveRequest.Writes, hkind, hdirty]
  have hgetD := hbyte i (hlen ▸ hi)
  rw [List.getD_eq_getElem?_getD, List.getElem?_eq_getElem hi, Option.getD_some] at hgetD
  simp only [hgetD, SaveRequest.image, List.getElem_map, List.getElem_range, hwrites]

section Stage

variable {host : Host} {codec : Codec MicrovmState} {req : SaveRequest} {w w' : World}
  {mw mw' : MemoryWriter} {sw sw' : AtomicWriter} {pages : ℕ}

theorem writes_writeMemory (hfile : w.disk.entry mw.inner.file.name = some mw.inner.file.inode) :
    Fs.Writes mw.inner.file.name w (endWorld (writeMemory req mw w)) := by
  cases hkind : req.kind with
  | full =>
    simp only [writeMemory, hkind]
    exact endWorld_bind Fs.Writes.trans
      (MemoryWriter.writes_writeFull hfile) fun _ w₁ _ => .refl _ w₁
  | diff =>
    cases hdirty : req.dirty with
    | none =>
      simp only [writeMemory, hkind, hdirty]
      exact .refl _ w
    | some bitmap =>
      simp only [writeMemory, hkind, hdirty]
      exact MemoryWriter.writes_writeDiff hfile

theorem writeMemory_ok (hst : mw.inner.Staged w []) (hpos : mw.inner.file.pos = 0)
    (hram : mw.ramSize = req.ramSize) (hpage : mw.pageSize = req.memoryPageSize)
    (h : writeMemory req mw w = .ok (pages, mw') w') :
    mw'.inner.Staged w' req.image ∧ mw'.inner.destPath = mw.inner.destPath ∧ req.Whole := by
  cases hkind : req.kind with
  | full =>
    simp only [writeMemory, hkind] at h
    obtain ⟨mw₁, w₁, hwrite, h₁⟩ := bind_eq_ok.1 h
    cases h₁
    obtain ⟨hst', hlen, hdest⟩ := MemoryWriter.writeFull_ok hst hpos hwrite
    rw [hram] at hst' hlen
    have hfull := SaveRequest.image_full hkind hlen
    rw [hfull] at hst'
    exact ⟨hst', hdest, fun _ => hfull⟩
  | diff =>
    cases hdirty : req.dirty with
    | none =>
      simp only [writeMemory, hkind, hdirty] at h
      cases h
    | some bitmap =>
      simp only [writeMemory, hkind, hdirty] at h
      obtain ⟨hst', hdest, hcover, hdvd, hread, -⟩ := MemoryWriter.writeDiff_ok hst h
      rw [hpage] at hst' hdvd hread
      rw [SaveRequest.image_diff hkind hdirty (hcover.trans hram) hdvd hread] at hst'
      exact ⟨hst', hdest, fun hfull => by rw [hkind] at hfull; cases hfull⟩

theorem touches_drop (a : AtomicWriter) : Touches [a.tempPath] w (endWorld (a.drop w)) :=
  touches_unlink a.tempPath

theorem touches_openMemory :
    Touches [deriveTempPath req.memoryPath] w
      (endWorld (MemoryWriter.open host req.memoryPath req.ramSize req.memoryPageSize w)) :=
  endWorld_bind Touches.trans AtomicWriter.touches_open
    fun _ w₁ _ => .refl _ w₁

theorem touches_stage (hst : sw.Staged w []) :
    Touches [sw.tempPath, deriveTempPath req.memoryPath] w
      (endWorld (stage host codec req sw w)) := by
  refine endWorld_bind Touches.trans ?_ fun file w₁ _ => ?_
  · exact (Envelope.writes_save hst.file_entry).touches (by simp [hst.name])
  refine endWorld_bind Touches.trans ?_ fun mw w₂ hopen => ?_
  · exact touches_openMemory.mono (by simp)
  obtain ⟨hinner, -⟩ := MemoryWriter.open_ok hopen
  obtain ⟨hst', hdest, -⟩ := AtomicWriter.open_ok hinner
  have htemp : mw.inner.tempPath = deriveTempPath req.memoryPath := by rw [hst'.temp, hdest]
  refine endWorld_bind Touches.trans ?_ fun _ w₃ _ => .refl _ w₃
  refine endWorld_onErr Touches.trans ?_ fun w₃ => ?_
  · exact (writes_writeMemory hst'.file_entry).touches (by simp [hst'.name, htemp])
  · exact (touches_drop mw.inner).mono (by simp [htemp])

theorem stage_ok (hst : sw.Staged w []) (hpos : sw.file.pos = 0)
    (h : stage host codec req sw w = .ok (sw', pages, mw) w') :
    ∃ encoded, codec.serialize (Envelope.new req.state) = .ok encoded ∧
      mw.inner.Staged w' req.image ∧ mw.inner.destPath = req.memoryPath ∧ req.Whole ∧
      sw'.destPath = sw.destPath ∧ sw'.tempPath = sw.tempPath ∧
      (sw.destPath ≠ req.memoryPath → sw'.Staged w' (Envelope.withCrc codec encoded)) := by
  obtain ⟨file, w₁, hsave, h₁⟩ := bind_eq_ok.1 h
  obtain ⟨mw₁, w₂, hopen, h₂⟩ := bind_eq_ok.1 h₁
  obtain ⟨⟨n, mw₂⟩, w₃, hwrite, h₃⟩ := bind_eq_ok.1 h₂
  cases h₃
  obtain ⟨encoded, hser, hst₁⟩ := Envelope.save_ok hst hpos hsave
  obtain ⟨hinner, hram, hpage⟩ := MemoryWriter.open_ok hopen
  obtain ⟨hst₂, hdest, hpos₂, -, htouch⟩ := AtomicWriter.open_ok hinner
  obtain ⟨hst₃, hdest₃, hwhole⟩ := writeMemory_ok hst₂ hpos₂ hram hpage (onErr_eq_ok.1 hwrite)
  refine ⟨encoded, hser, hst₃, hdest₃.trans hdest, hwhole, rfl, rfl, fun hne => ?_⟩
  -- the memory file is staged elsewhere
  have hne' : sw.tempPath ≠ deriveTempPath req.memoryPath := by
    rw [hst.temp]
    exact fun he => hne (deriveTempPath_inj he)
  have hw := @writes_writeMemory req w₂ mw₁ hst₂.file_entry
  rw [onErr_eq_ok.1 hwrite, endWorld_ok, hst₂.name, hst₂.temp, hdest] at hw
  have hentry : w'.disk.entry sw.tempPath = some file.inode := by
    rw [hw.entry, htouch.entry _ (by simpa using hne')]
    exact hst₁.entry
  have hread : w'.disk.read sw.tempPath = some (Envelope.withCrc codec encoded) := by
    rw [hw.read _ hne', htouch.read _ (by simpa using hne')]
    exact hst₁.read
  rw [Disk.read, hentry, Option.map_some, Option.some_inj] at hread
  exact ⟨hst.temp, hst₁.name, hentry, hread⟩

def Clean (n : Path) (w w' : World) : Prop :=
  w'.disk.entry n = none ∨ w'.disk.entry n = w.disk.entry n

theorem entry_drop {a : AtomicWriter} (hunlink : ∀ t n, w.fate t (.unlink n) = .ok)
    (h : a.drop w = .ok () w') (n : Path) :
    w'.disk.entry n = if n = a.tempPath then none else w.disk.entry n := by
  rw [unlink_ok (fun t => hunlink t _) h]
  exact Disk.entry_unlink ..

variable {e : SnapshotError}

theorem stage_err_clean (hst : sw.Staged w []) (hunlink : ∀ t n, w.fate t (.unlink n) = .ok)
    (h : stage host codec req sw w = .error (.err e) w') :
    Clean (deriveTempPath req.memoryPath) w w' := by
  have hw := @Envelope.writes_save _ codec (Envelope.new req.state) sw.file w hst.file_entry
  rcases bind_eq_error.1 h with hsave | ⟨file, w₁, hsave, h₁⟩
  · rw [hsave] at hw
    exact .inr (congrFun hw.entry _)
  rw [hsave, endWorld_ok] at hw
  rcases bind_eq_error.1 h₁ with hopen | ⟨mw₁, w₂, hopen, h₂⟩
  · have hsame := AtomicWriter.open_error (MemoryWriter.open_error hopen)
    refine .inr ?_
    rw [hsame.disk]
    exact congrFun hw.entry _
  obtain ⟨hinner, -⟩ := MemoryWriter.open_ok hopen
  obtain ⟨hst₂, hdest, -, -, htouch⟩ := AtomicWriter.open_ok hinner
  rcases bind_eq_error.1 h₂ with hwrite | ⟨⟨n, mw₂⟩, w₃, -, h₃⟩
  · have hm := @writes_writeMemory req w₂ mw₁ hst₂.file_entry
    rcases onErr_eq_error hwrite with ⟨e', w₃, hm₃, ⟨hdrop, -⟩ | hdrop⟩ | ⟨-, hne⟩
    · rw [hm₃, endWorld_error] at hm
      refine .inl ?_
      rw [entry_drop (fun t n => by rw [hm.fate, htouch.fate, hw.fate]; exact hunlink t n) hdrop,
        if_pos]
      rw [hst₂.temp, hdest]
    · exact absurd hdrop unlink_ne_err
    · exact absurd rfl (hne e)
  · cases h₃

theorem touches_openAndStage :
    Touches [deriveTempPath req.statePath, deriveTempPath req.memoryPath] w
      (endWorld (openAndStage host codec req w)) := by
  refine endWorld_bind Touches.trans ?_ fun sw w₁ hopen => ?_
  · exact AtomicWriter.touches_open.mono (by simp)
  obtain ⟨hst, hdest, -⟩ := AtomicWriter.open_ok hopen
  have htemp : sw.tempPath = deriveTempPath req.statePath := by rw [hst.temp, hdest]
  refine endWorld_onErr Touches.trans ?_ fun w₂ => ?_
  · exact (touches_stage hst).mono (by simp [htemp])
  · exact (touches_drop sw).mono (by simp [htemp])

theorem openAndStage_ok (h : openAndStage host codec req w = .ok (sw, pages, mw) w') :
    ∃ encoded, codec.serialize (Envelope.new req.state) = .ok encoded ∧
      mw.inner.Staged w' req.image ∧ mw.inner.destPath = req.memoryPath ∧ req.Whole ∧
      sw.destPath = req.statePath ∧ sw.tempPath = deriveTempPath req.statePath ∧
      (req.statePath ≠ req.memoryPath → sw.Staged w' (Envelope.withCrc codec encoded)) := by
  obtain ⟨sw₁, w₁, hopen, h₁⟩ := bind_eq_ok.1 h
  obtain ⟨hst, hdest, hpos, -⟩ := AtomicWriter.open_ok hopen
  obtain ⟨encoded, hser, hmem, hmdest, hwhole, hsdest, hstemp, hstate⟩ :=
    stage_ok hst hpos (onErr_eq_ok.1 h₁)
  rw [hdest] at hsdest hstate
  rw [hst.temp, hdest] at hstemp
  exact ⟨encoded, hser, hmem, hmdest, hwhole, hsdest, hstemp, hstate⟩

theorem openAndStage_err_clean (hunlink : ∀ t n, w.fate t (.unlink n) = .ok)
    (h : openAndStage host codec req w = .error (.err e) w') :
    Clean (deriveTempPath req.statePath) w w' ∧ Clean (deriveTempPath req.memoryPath) w w' := by
  rcases bind_eq_error.1 h with hopen | ⟨sw, w₁, hopen, h₁⟩
  · have hsame := AtomicWriter.open_error hopen
    exact ⟨.inr (by rw [hsame.disk]), .inr (by rw [hsame.disk])⟩
  obtain ⟨hst, hdest, -, -, htouch⟩ := AtomicWriter.open_ok hopen
  have htemp : sw.tempPath = deriveTempPath req.statePath := by rw [hst.temp, hdest]
  have hunlink₁ : ∀ t n, w₁.fate t (.unlink n) = .ok := by rw [htouch.fate]; exact hunlink
  rcases onErr_eq_error h₁ with ⟨e', w₂, hstage, ⟨hdrop, -⟩ | hdrop⟩ | ⟨-, hne⟩
  · have htouch₂ := @touches_stage host codec req w₁ sw hst
    rw [hstage, endWorld_error] at htouch₂
    have hgone := entry_drop (by rw [htouch₂.fate]; exact hunlink₁) hdrop
    refine ⟨.inl (by rw [hgone, if_pos htemp.symm]), ?_⟩
    unfold Clean
    rw [hgone]
    split_ifs with hsame
    · exact .inl rfl
    · rcases stage_err_clean hst hunlink₁ hstage with hnone | hkept
      · exact .inl hnone
      · rw [hkept, htouch.entry _ (by rw [← htemp]; simpa using hsame)]
        exact .inr rfl
  · exact absurd hdrop unlink_ne_err
  · exact absurd rfl (hne e)

end Stage

section Commits

variable {host : Host} {codec : Codec MicrovmState} {req : SaveRequest} {w w' : World}
  {mw : MemoryWriter} {pages : ℕ} {s : Stop SnapshotError}

theorem commitState_error (h : commitState host codec req w = .error s w') :
    Touches [deriveTempPath req.statePath, deriveTempPath req.memoryPath] w w' ∧
      ∀ e, s = .err e → (∀ t n, w.fate t (.unlink n) = .ok) →
        Clean (deriveTempPath req.statePath) w w' ∧ Clean (deriveTempPath req.memoryPath) w w' := by
  have htouch := @touches_openAndStage host codec req w
  rcases bind_eq_error.1 h with hstage | ⟨⟨sw, n, mw⟩, w₁, hstage, h₁⟩
  · rw [hstage] at htouch
    refine ⟨htouch, ?_⟩
    rintro e rfl hunlink
    exact openAndStage_err_clean hunlink hstage
  rw [hstage, endWorld_ok] at htouch
  obtain ⟨encoded, -, hmem, hmdest, -, -, htemp, -⟩ := openAndStage_ok hstage
  have hmtemp : mw.inner.tempPath = deriveTempPath req.memoryPath := by rw [hmem.temp, hmdest]
  rcases bind_eq_error.1 h₁ with hcommit | ⟨u, w₂, -, h₂⟩
  · rcases onErr_eq_error hcommit with ⟨e', w₂, hfail, hdrop⟩ | ⟨hfail, hne⟩
    · have htouch₂ := htouch.trans ((AtomicWriter.commit_error hfail).mono (by simp [htemp]))
      have hdropped := (@touches_drop w₂ mw.inner).mono
        (U := [deriveTempPath req.statePath, deriveTempPath req.memoryPath]) (by simp [hmtemp])
      refine ⟨htouch₂.trans ?_, fun e he hunlink => ?_⟩
      · rcases hdrop with ⟨hdrop, -⟩ | hdrop
        · rw [MemoryWriter.drop] at hdrop
          rwa [hdrop] at hdropped
        · rw [MemoryWriter.drop] at hdrop
          rwa [hdrop] at hdropped
      · rcases hdrop with ⟨hdrop, -⟩ | hdrop
        · have hgone := AtomicWriter.commit_err_entry (by rw [htouch.fate]; exact hunlink) hfail
          have hentry := entry_drop (by rw [htouch₂.fate]; exact hunlink) hdrop
          refine ⟨.inl ?_, .inl (by rw [hentry, if_pos hmtemp.symm])⟩
          rw [hentry, ← htemp, hgone, ite_self]
        · rw [he] at hdrop
          exact absurd hdrop unlink_ne_err
    · refine ⟨htouch.trans ((AtomicWriter.commit_error hfail).mono (by simp [htemp])), ?_⟩
      rintro e rfl
      exact absurd rfl (hne e)
  · cases h₂

theorem commitState_ok (h : commitState host codec req w = .ok (pages, mw) w') :
    ∃ encoded w₁, codec.serialize (Envelope.new req.state) = .ok encoded ∧
      mw.inner.Staged w₁ req.image ∧ mw.inner.destPath = req.memoryPath ∧ req.Whole ∧
      Touches [deriveTempPath req.statePath, deriveTempPath req.memoryPath] w w₁ ∧
      w₁.disk.rename (deriveTempPath req.statePath) req.statePath = some w'.disk ∧
      w'.fate = w.fate ∧
      (req.statePath ≠ req.memoryPath →
        w₁.disk.read (deriveTempPath req.statePath) = some (Envelope.withCrc codec encoded)) := by
  obtain ⟨⟨sw, n, mw₁⟩, w₁, hstage, h₁⟩ := bind_eq_ok.1 h
  obtain ⟨u, w₂, hcommit, h₂⟩ := bind_eq_ok.1 h₁
  cases h₂
  have htouch := @touches_openAndStage host codec req w
  rw [hstage] at htouch
  obtain ⟨encoded, hser, hmem, hmdest, hwhole, hsdest, htemp, hstate⟩ := openAndStage_ok hstage
  obtain ⟨d, hrename, hdisk, hfate, -⟩ := AtomicWriter.commit_ok (onErr_eq_ok.1 hcommit)
  rw [htemp, hsdest, ← hdisk] at hrename
  refine ⟨encoded, w₁, hser, hmem, hmdest, hwhole, htouch, hrename, hfate.trans htouch.fate,
    fun hne => ?_⟩
  rw [← htemp]
  exact (hstate hne).read

variable {report : SaveReport}

theorem save_eq_ok (h : save host codec req w = .ok report w') :
    req.state.verifyCompatible = .ok () ∧
      ∃ pages mw w₁, commitState host codec req w = .ok (pages, mw) w₁ ∧
        mw.commit w₁ = .ok () w' ∧ report = { kind := req.kind, pagesWritten := pages } := by
  unfold save at h
  split_ifs at h with hdiff
  · cases h
  · cases hcompat : req.state.verifyCompatible with
    | error e =>
      rw [hcompat] at h
      cases h
    | ok u =>
      rw [hcompat] at h
      obtain ⟨⟨pages, mw⟩, w₁, hstate, h₁⟩ := bind_eq_ok.1 h
      obtain ⟨v, w₂, hcommit, h₂⟩ := bind_eq_ok.1 h₁
      cases h₂
      exact ⟨rfl, pages, mw, w₁, hstate, hcommit, rfl⟩

theorem save_eq_error (h : save host codec req w = .error s w') :
    w' = w ∨ commitState host codec req w = .error s w' ∨
      ∃ pages mw w₁, commitState host codec req w = .ok (pages, mw) w₁ ∧
        mw.commit w₁ = .error s w' := by
  unfold save at h
  split_ifs at h with hdiff
  · cases h
    exact .inl rfl
  · cases hcompat : req.state.verifyCompatible with
    | error e =>
      rw [hcompat] at h
      cases h
      exact .inl rfl
    | ok u =>
      rw [hcompat] at h
      rcases bind_eq_error.1 h with hstate | ⟨⟨pages, mw⟩, w₁, hstate, h₁⟩
      · exact .inr (.inl hstate)
      · rcases bind_eq_error.1 h₁ with hcommit | ⟨v, w₂, -, h₂⟩
        · exact .inr (.inr ⟨pages, mw, w₁, hstate, hcommit⟩)
        · cases h₂

theorem save_ok (h : save host codec req w = .ok report w') :
    req.statePath ≠ req.memoryPath ∧ req.Whole ∧
      ∃ encoded, codec.serialize (Envelope.new req.state) = .ok encoded ∧
        (req.statePath ≠ deriveTempPath req.memoryPath →
          w'.disk.read req.statePath = some (Envelope.withCrc codec encoded) ∧
            w'.disk.read req.memoryPath = some req.image) ∧
        (req.statePath = deriveTempPath req.memoryPath → w'.disk.read req.statePath = none) := by
  obtain ⟨-, pages, mw, w₂, hcommitState, hcommit, -⟩ := save_eq_ok h
  obtain ⟨encoded, w₁, hser, hmem, hmdest, hwhole, -, hrename, -, hstate⟩ :=
    commitState_ok hcommitState
  obtain ⟨d, hrename', rfl, -⟩ := AtomicWriter.commit_ok hcommit
  have hmtemp : mw.inner.tempPath = deriveTempPath req.memoryPath := by rw [hmem.temp, hmdest]
  rw [hmtemp, hmdest] at hrename'
  have hne : req.statePath ≠ req.memoryPath := by
    intro he
    have hgone := (Disk.rename_spec hrename (deriveTempPath req.statePath)).1
    rw [if_neg (deriveTempPath_ne _), if_pos rfl, he] at hgone
    rw [Disk.rename_eq_none.2 hgone] at hrename'
    cases hrename'
  have htemps : deriveTempPath req.memoryPath ≠ deriveTempPath req.statePath :=
    fun he => hne (deriveTempPath_inj he).symm
  refine ⟨hne, hwhole, encoded, hser, fun hmoved => ⟨?_, ?_⟩, fun hmoved => ?_⟩
  · rw [(Disk.rename_spec hrename' _).2, if_neg hne, if_neg hmoved,
      (Disk.rename_spec hrename _).2, if_pos rfl]
    exact hstate hne
  · rw [(Disk.rename_spec hrename' _).2, if_pos rfl, (Disk.rename_spec hrename _).2,
      if_neg hmoved.symm, if_neg htemps, ← hmtemp]
    exact hmem.read
  · rw [(Disk.rename_spec hrename' _).2, if_neg hne, if_pos hmoved]

structure Unrelated (statePath memoryPath : Path) : Prop where
  ne : statePath ≠ memoryPath
  state_ne : statePath ≠ deriveTempPath memoryPath
  memory_ne : memoryPath ≠ deriveTempPath statePath

structure MemoryCommits (req : SaveRequest) (w : World) : Prop where
  fsync : ∀ t, w.fate t (.fsync (deriveTempPath req.memoryPath)) = .ok
  rename : ∀ t, w.fate t (.rename (deriveTempPath req.memoryPath) req.memoryPath) = .ok

theorem save_error (hpaths : Unrelated req.statePath req.memoryPath)
    (hcommits : MemoryCommits req w)
    (h : save host codec req w = .error s w') :
    Touches [deriveTempPath req.statePath, deriveTempPath req.memoryPath] w w' ∧
      ∀ e, s = .err e → (∀ t n, w.fate t (.unlink n) = .ok) →
        Clean (deriveTempPath req.statePath) w w' ∧ Clean (deriveTempPath req.memoryPath) w w' := by
  rcases save_eq_error h with rfl | hstate | ⟨pages, mw, w₂, hstate, hfail⟩
  · exact ⟨.refl _ w', fun _ _ _ => ⟨.inr rfl, .inr rfl⟩⟩
  · exact commitState_error hstate
  · obtain ⟨encoded, w₁, -, hmem, hmdest, -, -, hrename, hfate, -⟩ := commitState_ok hstate
    have hmtemp : mw.inner.tempPath = deriveTempPath req.memoryPath := by rw [hmem.temp, hmdest]
    have htemps : deriveTempPath req.memoryPath ≠ deriveTempPath req.statePath :=
      fun he => hpaths.ne (deriveTempPath_inj he).symm
    have hentry : w₂.disk.entry mw.inner.tempPath ≠ none := by
      rw [hmtemp, (Disk.rename_spec hrename _).1, if_neg hpaths.state_ne.symm, if_neg htemps,
        ← hmtemp, hmem.entry]
      exact Option.some_ne_none _
    obtain ⟨w₃, hok⟩ := AtomicWriter.commit_returns
      (by rw [hfate, hmem.name, hmtemp]; exact hcommits.fsync)
      (by rw [hfate, hmtemp, hmdest]; exact hcommits.rename) hentry
    rw [MemoryWriter.commit, hok] at hfail
    cases hfail

end Commits

end Squib.Snapshot
