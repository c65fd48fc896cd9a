import Squib.Snapshot.Memory

/-!
# A full dump and a diff restore memory
-/

namespace Squib.Snapshot

open Fs

def overlayDirty (dirty : DirtyBitmap) (full diff : List UInt8) : List UInt8 :=
  full.mapIdx fun i byte =>
    if dirty.isDirtyByIndex (i / dirty.pageSize) = true then diff.getD i 0 else byte

theorem overlayDirty_eq {dirty : DirtyBitmap} {base current diff : List UInt8}
    (hlen : current.length = base.length)
    (hdiff : ∀ i < base.length, diff.getD i 0 =
      if dirty.isDirtyByIndex (i / dirty.pageSize) = true then current.getD i 0 else 0)
    (hclean : ∀ i < base.length, dirty.isDirtyByIndex (i / dirty.pageSize) = false →
      current.getD i 0 = base.getD i 0) :
    overlayDirty dirty base diff = current := by
  refine List.ext_getElem (by simp [overlayDirty, hlen]) fun i hi hi' => ?_
  have hbase : i < base.length := hlen ▸ hi'
  have hcur : current.getD i 0 = current[i] := by simp [List.getD_eq_getElem?_getD, hi']
  rw [← hcur]
  simp only [overlayDirty, List.getElem_mapIdx]
  split_ifs with h
  · rw [hdiff i hbase, if_pos h]
  · rw [hclean i hbase (by simpa using h)]
    simp [List.getD_eq_getElem?_getD, hbase]

/-- **The files of a full dump of `base` and of a diff of `current`**: the diff over the dump gives
`current`, and its pages are those that start in RAM and lie in a dirty tracking page. -/
theorem full_and_diff {host : Host} {fullDest diffDest : Path} {ramSize p pages : ℕ}
    {dirty : DirtyBitmap} {base current : PageReader} {mw₀ mw₁ : MemoryWriter}
    {w₀ w₀' w₁ w₁' : World} (hcover : dirty.ramSize = ramSize) (hdvd : p ∣ dirty.pageSize)
    (hbase : base.image.length = ramSize) (hcurrent : current.image.length = ramSize)
    (hclean : ∀ i < ramSize, dirty.isDirtyByIndex (i / dirty.pageSize) = false →
      current.image.getD i 0 = base.image.getD i 0)
    (hfull : (do
      let mw ← MemoryWriter.open host fullDest ramSize p
      mw.writeFull base : Io MemoryWriter) w₀ = .ok mw₀ w₀')
    (hdiff : (do
      let mw ← MemoryWriter.open host diffDest ramSize p
      mw.writeDiff current dirty : Io (ℕ × MemoryWriter)) w₁ = .ok (pages, mw₁) w₁') :
    ∃ full diff, w₀'.disk.read (deriveTempPath fullDest) = some full ∧
      w₁'.disk.read (deriveTempPath diffDest) = some diff ∧
      full.length = ramSize ∧ diff.length = ramSize ∧
      full = base.image ∧
      (∀ i < ramSize, diff.getD i 0 =
        if dirty.isDirtyByIndex (i / dirty.pageSize) = true then current.image.getD i 0 else 0) ∧
      overlayDirty dirty full diff = current.image ∧
      pages = ((List.range (divCeil ramSize p)).filter fun j =>
        dirty.isDirtyByIndex (j * p / dirty.pageSize)).length := by
  subst hcover
  obtain ⟨mw, w, hopen, hwrite⟩ := bind_eq_ok.1 hfull
  obtain ⟨hinner, hram, -⟩ := MemoryWriter.open_ok hopen
  obtain ⟨hst, hdest, hpos, -⟩ := AtomicWriter.open_ok hinner
  obtain ⟨hst', -, hdest'⟩ := MemoryWriter.writeFull_ok hst hpos hwrite
  have hfile := hst'.read
  rw [hst'.temp, hdest', hdest, hram, List.take_of_length_le (Nat.le_of_eq hbase)] at hfile
  obtain ⟨mw, w, hopen, hwrite⟩ := bind_eq_ok.1 hdiff
  obtain ⟨hinner, -, rfl⟩ := MemoryWriter.open_ok hopen
  obtain ⟨hst, hdest, hpos, -⟩ := AtomicWriter.open_ok hinner
  obtain ⟨hst', hdest', -, -, hread, hcount, -⟩ := MemoryWriter.writeDiff_ok hst hwrite
  obtain ⟨hlen, hbyte⟩ := MemoryWriter.diffBytes_spec hdvd hread
  have hfile' := hst'.read
  rw [hst'.temp, hdest', hdest] at hfile'
  refine ⟨_, _, hfile, hfile', hbase, hlen, rfl, hbyte, ?_, ?_⟩
  · rw [← hbase] at hbyte hclean
    exact overlayDirty_eq (hcurrent.trans hbase.symm) hbyte hclean
  · rw [hcount, length_diffOffsets hdvd]

section Scenario

def tenBytes : DirtyBitmap where
  ramStart := 0
  ramSize := 10
  pageSize := 4
  pageCount := 3
  words := [4#64]
  pageSize_pow := by decide
  pageSize_lt := by decide
  ramSize_pos := by decide
  ram_lt := by decide
  pageCount_eq := by decide
  words_length := by decide
  addressable := by decide

def baseImage : List UInt8 := [0, 1, 2, 3, 4, 5, 6, 7, 8, 9]

def currentImage : List UInt8 := [0, 1, 2, 3, 4, 5, 6, 7, 80, 90]

def oneDir : Host := { parent := fun _ => "/", dev := fun _ => 0 }

def emptyDisk : World :=
  { disk := Disk.empty, clock := 0, fate := fun _ _ => .ok, written := [] }

theorem full_and_diff_partial_page :
    ∃ full diff, overlayDirty tenBytes full diff = currentImage ∧ full.length = 10 ∧
      diff.length = 10 := by
  obtain ⟨mw₀, w₀', hfull⟩ := exists_ok (r := (do
    let mw ← MemoryWriter.open oneDir "base.mem" 10 1
    mw.writeFull (.ofVec baseImage) : Io MemoryWriter) emptyDisk) (by decide +kernel)
  obtain ⟨⟨pages, mw₁⟩, w₁', hdiff⟩ := exists_ok (r := (do
    let mw ← MemoryWriter.open oneDir "diff.mem" 10 1
    mw.writeDiff (.ofVec currentImage) tenBytes : Io (ℕ × MemoryWriter)) emptyDisk)
      (by decide +kernel)
  have hclean : ∀ i < 10, tenBytes.isDirtyByIndex (i / tenBytes.pageSize) = false →
      currentImage.getD i 0 = baseImage.getD i 0 := by decide +kernel
  obtain ⟨full, diff, -, -, hlen, hlen', -, -, hover, -⟩ :=
    @full_and_diff oneDir "base.mem" "diff.mem" 10 1 pages tenBytes (.ofVec baseImage)
      (.ofVec currentImage) mw₀ mw₁ emptyDisk w₀' emptyDisk w₁' rfl (one_dvd _) rfl rfl hclean
      hfull hdiff
  exact ⟨full, diff, hover, hlen, hlen'⟩

end Scenario

end Squib.Snapshot
