import Mathlib.Data.List.Nodup
import Squib.Snapshot.Atomic
import Squib.Snapshot.Dirty

/-!
# The memory file
-/

namespace Squib.Snapshot

open Fs

structure PageReader where
  image : List UInt8
  readAt : ℕ → ℕ → Except ℕ (List UInt8)
  readAt_ok : ∀ {offset len bs}, readAt offset len = .ok bs →
    offset + len ≤ image.length ∧ bs = (image.drop offset).take len

def PageReader.ofVec (bytes : List UInt8) : PageReader where
  image := bytes
  readAt := fun offset len =>
    if bytes.length < offset + len then .error 0 else .ok ((bytes.drop offset).take len)
  readAt_ok := by
    intro offset len bs h
    split_ifs at h with hlen
    cases h
    exact ⟨Nat.le_of_not_lt hlen, rfl⟩

def PageReader.page (reader : PageReader) (offset len : ℕ) : Io (List UInt8) :=
  match reader.readAt offset len with
  | .error errno => throw (.err (.memoryIo errno))
  | .ok bs => pure bs

structure MemoryWriter where
  inner : AtomicWriter
  ramSize : ℕ
  pageSize : ℕ

namespace MemoryWriter

def «open» (host : Host) (dest : Path) (ramSize pageSize : ℕ) : Io MemoryWriter := do
  let inner ← AtomicWriter.open host dest
  return { inner, ramSize, pageSize }

def setFile (mw : MemoryWriter) (file : File Path) : MemoryWriter :=
  { mw with inner := { mw.inner with file } }

def writeFullLoop (reader : PageReader) (ramSize pageSize : ℕ) :
    ℕ → ℕ → File Path → Io (File Path)
  | 0, offset, file => if offset < ramSize then throw .hang else return file
  | fuel + 1, offset, file =>
    if offset < ramSize then do
      let chunk := min (ramSize - offset) pageSize
      let bs ← reader.page offset chunk
      let file ← writeAll .memoryIo file bs
      writeFullLoop reader ramSize pageSize fuel (offset + chunk) file
    else return file

def writeFull (mw : MemoryWriter) (reader : PageReader) : Io MemoryWriter := do
  let file ← writeFullLoop reader mw.ramSize mw.pageSize mw.ramSize 0 mw.inner.file
  return mw.setFile file

def writePage (reader : PageReader) (ramSize pageSize offset : ℕ) (file : File Path) :
    Io (File Path) := do
  let bs ← reader.page offset (min (ramSize - offset) pageSize)
  let file ← seek .memoryIo file offset
  writeAll .memoryIo file bs

def writeBlock (reader : PageReader) (ramSize pageSize block : ℕ) :
    List ℕ → ℕ × File Path → Io (ℕ × File Path)
  | [], st => return st
  | sub :: subs, (pages, file) =>
    let offset := (block + sub * pageSize) % 2 ^ 64
    if ramSize ≤ offset then return (pages, file)
    else do
      let file ← writePage reader ramSize pageSize offset file
      writeBlock reader ramSize pageSize block subs (pages + 1, file)

def writeBlocks (reader : PageReader) (ramSize pageSize : ℕ) (dirty : DirtyBitmap) :
    List ℕ → ℕ × File Path → Io (ℕ × File Path)
  | [], st => return st
  | page :: rest, st =>
    if dirty.isDirtyByIndex page = true then do
      let st ← writeBlock reader ramSize pageSize (page * dirty.pageSize % 2 ^ 64)
        (List.range (dirty.pageSize / pageSize)) st
      writeBlocks reader ramSize pageSize dirty rest st
    else writeBlocks reader ramSize pageSize dirty rest st

def writeDiff (mw : MemoryWriter) (reader : PageReader) (dirty : DirtyBitmap) :
    Io (ℕ × MemoryWriter) :=
  if dirty.ramSize ≠ mw.ramSize then
    throw (.err (.invalidPath
      s!"diff bitmap covers {dirty.ramSize} bytes, memory file expects {mw.ramSize}"))
  else if dirty.pageSize < mw.pageSize ∨ ¬ mw.pageSize ∣ dirty.pageSize then
    throw (.err (.invalidPath
      (s!"diff bitmap page ({dirty.pageSize}) must be a multiple of memory-file page " ++
        s!"({mw.pageSize})")))
  else do
    setLen .memoryIo mw.inner.file mw.ramSize
    let (pages, file) ← writeBlocks reader mw.ramSize mw.pageSize dirty
      (List.range dirty.pageCount) (0, mw.inner.file)
    return (pages, mw.setFile file)

def commit (mw : MemoryWriter) : Io Unit := mw.inner.commit

def drop (mw : MemoryWriter) : Io Unit := mw.inner.drop

end MemoryWriter

section Offsets

variable {ramSize pageSize : ℕ} {dirty : DirtyBitmap}

def blockOffsets (ramSize pageSize block : ℕ) (subs : List ℕ) : List ℕ :=
  (subs.map fun sub => (block + sub * pageSize) % 2 ^ 64).takeWhile (· < ramSize)

def diffOffsets (ramSize pageSize : ℕ) (dirty : DirtyBitmap) (pages : List ℕ) : List ℕ :=
  (pages.filter dirty.isDirtyByIndex).flatMap fun page =>
    blockOffsets ramSize pageSize (page * dirty.pageSize % 2 ^ 64)
      (List.range (dirty.pageSize / pageSize))

variable {page : ℕ}

theorem succ_mul_pageSize_le (h : page < dirty.pageCount) :
    (page + 1) * dirty.pageSize ≤ 2 ^ 64 := by
  obtain ⟨k, hk, hpow⟩ := dirty.exists_pageSize_eq
  have hlt : page * dirty.pageSize < 2 ^ 64 := by
    have := DirtyBitmap.lt_pageCount_iff.1 h
    have := dirty.ram_lt
    omega
  have hsplit : (2 : ℕ) ^ 64 = 2 ^ (64 - k) * 2 ^ k := by
    rw [← Nat.pow_add]
    congr 1
    omega
  rw [hpow, hsplit] at hlt ⊢
  exact Nat.mul_le_mul_right _ (Nat.lt_of_mul_lt_mul_right hlt)

theorem blockOffset_eq {sub : ℕ} (hdvd : pageSize ∣ dirty.pageSize) (hpage : page < dirty.pageCount)
    (hsub : sub < dirty.pageSize / pageSize) :
    (page * dirty.pageSize % 2 ^ 64 + sub * pageSize) % 2 ^ 64 =
        page * dirty.pageSize + sub * pageSize ∧
      sub * pageSize < dirty.pageSize := by
  have hin : sub * pageSize < dirty.pageSize := by
    calc sub * pageSize < dirty.pageSize / pageSize * pageSize :=
          Nat.mul_lt_mul_of_pos_right hsub (Nat.pos_of_dvd_of_pos hdvd dirty.pageSize_pos)
      _ = dirty.pageSize := Nat.div_mul_cancel hdvd
  have hend := succ_mul_pageSize_le hpage
  rw [Nat.add_one_mul] at hend
  refine ⟨?_, hin⟩
  rw [Nat.mod_eq_of_lt (by omega), Nat.mod_eq_of_lt (by omega)]

theorem blockOffsets_eq (hdvd : pageSize ∣ dirty.pageSize) (hpage : page < dirty.pageCount) :
    blockOffsets ramSize pageSize (page * dirty.pageSize % 2 ^ 64)
        (List.range (dirty.pageSize / pageSize)) =
      ((List.range (dirty.pageSize / pageSize)).map
        fun sub => page * dirty.pageSize + sub * pageSize).takeWhile (· < ramSize) := by
  rw [blockOffsets]
  congr 1
  refine List.map_congr_left fun sub hsub => ?_
  exact (blockOffset_eq hdvd hpage (List.mem_range.1 hsub)).1

theorem block_sorted (hpos : 0 < pageSize) (base n : ℕ) :
    ((List.range n).map fun sub => base + sub * pageSize).Pairwise (· < ·) := by
  refine List.pairwise_map.2 (List.pairwise_lt_range.imp fun {a b} hab => ?_)
  exact Nat.add_lt_add_left (Nat.mul_lt_mul_of_pos_right hab hpos) base

variable {offset : ℕ}

theorem mem_blockOffsets (hdvd : pageSize ∣ dirty.pageSize) (hpage : page < dirty.pageCount) :
    offset ∈ blockOffsets ramSize pageSize (page * dirty.pageSize % 2 ^ 64)
        (List.range (dirty.pageSize / pageSize)) ↔
      offset < ramSize ∧ pageSize ∣ offset ∧ offset / dirty.pageSize = page := by
  have hpos := Nat.pos_of_dvd_of_pos hdvd dirty.pageSize_pos
  rw [blockOffsets_eq hdvd hpage, Bits.mem_takeWhile_of_sorted ?_ (block_sorted hpos _ _)]
  · rw [List.mem_map, decide_eq_true_iff]
    constructor
    · rintro ⟨⟨sub, hsub, rfl⟩, hlt⟩
      have hin := (blockOffset_eq hdvd hpage (List.mem_range.1 hsub)).2
      refine ⟨hlt, Nat.dvd_add (hdvd.mul_left page) (Nat.dvd_mul_left _ _), ?_⟩
      rw [Nat.mul_comm page, Nat.mul_add_div dirty.pageSize_pos, Nat.div_eq_of_lt hin, Nat.add_zero]
    · rintro ⟨hlt, ⟨j, rfl⟩, rfl⟩
      obtain ⟨q, hq⟩ := hdvd
      have hq' : dirty.pageSize / pageSize = q := by rw [hq, Nat.mul_div_cancel_left _ hpos]
      have hqpos : 0 < q := Nat.pos_of_ne_zero fun h0 =>
        absurd dirty.pageSize_pos (by rw [hq, h0]; exact Nat.lt_irrefl 0)
      rw [hq']
      refine ⟨⟨j % q, List.mem_range.2 (Nat.mod_lt _ hqpos), ?_⟩, hlt⟩
      rw [hq, Nat.mul_div_mul_left _ _ hpos]
      calc j / q * (pageSize * q) + j % q * pageSize = pageSize * (q * (j / q) + j % q) := by
            rw [Nat.mul_add]
            ac_rfl
        _ = pageSize * j := by rw [Nat.div_add_mod]
  · intro i j hij hj
    simp only [decide_eq_true_eq] at hj ⊢
    omega

theorem mem_diffOffsets (hdvd : pageSize ∣ dirty.pageSize) :
    offset ∈ diffOffsets dirty.ramSize pageSize dirty (List.range dirty.pageCount) ↔
      offset < dirty.ramSize ∧ pageSize ∣ offset ∧
        dirty.isDirtyByIndex (offset / dirty.pageSize) = true := by
  simp only [diffOffsets, List.mem_flatMap, List.mem_filter, List.mem_range]
  constructor
  · rintro ⟨page, ⟨hpage, hdirty⟩, hmem⟩
    obtain ⟨hlt, hd, rfl⟩ := (mem_blockOffsets hdvd hpage).1 hmem
    exact ⟨hlt, hd, hdirty⟩
  · rintro ⟨hlt, hd, hdirty⟩
    have hpage : offset / dirty.pageSize < dirty.pageCount :=
      DirtyBitmap.lt_pageCount_iff.2 (Nat.lt_of_le_of_lt (Nat.div_mul_le_self _ _) hlt)
    exact ⟨_, ⟨hpage, hdirty⟩, (mem_blockOffsets hdvd hpage).2 ⟨hlt, hd, rfl⟩⟩

theorem diffOffsets_nodup (hdvd : pageSize ∣ dirty.pageSize) :
    (diffOffsets ramSize pageSize dirty (List.range dirty.pageCount)).Nodup := by
  have hpos := Nat.pos_of_dvd_of_pos hdvd dirty.pageSize_pos
  have hpage : ∀ page ∈ (List.range dirty.pageCount).filter dirty.isDirtyByIndex,
      page < dirty.pageCount := fun page h => List.mem_range.1 (List.mem_filter.1 h).1
  refine List.nodup_flatMap.2 ⟨fun page h => ?_, ?_⟩
  · rw [blockOffsets_eq hdvd (hpage page h)]
    exact ((block_sorted hpos _ _).imp Nat.ne_of_lt).sublist (List.takeWhile_sublist _)
  · refine (List.nodup_range.filter _).imp_of_mem fun {a b} ha hb hab => ?_
    intro offset hoa hob
    have h₁ := ((mem_blockOffsets hdvd (hpage a ha)).1 hoa).2.2
    have h₂ := ((mem_blockOffsets hdvd (hpage b hb)).1 hob).2.2
    exact hab (h₁.symm.trans h₂)

theorem length_diffOffsets (hdvd : pageSize ∣ dirty.pageSize) :
    (diffOffsets dirty.ramSize pageSize dirty (List.range dirty.pageCount)).length =
      ((List.range (divCeil dirty.ramSize pageSize)).filter fun j =>
        dirty.isDirtyByIndex (j * pageSize / dirty.pageSize)).length := by
  have hpos := Nat.pos_of_dvd_of_pos hdvd dirty.pageSize_pos
  refine Eq.trans ?_ (List.length_map (· * pageSize))
  refine ((List.perm_ext_iff_of_nodup (diffOffsets_nodup hdvd) ?_).2 fun offset => ?_).length_eq
  · refine (List.nodup_map_iff fun a b hab => ?_).2 (List.nodup_range.filter _)
    exact Nat.eq_of_mul_eq_mul_right hpos hab
  · rw [mem_diffOffsets hdvd, List.mem_map]
    constructor
    · rintro ⟨hlt, ⟨j, rfl⟩, hdirty⟩
      rw [Nat.mul_comm] at hlt hdirty
      have hj := (DirtyBitmap.lt_divCeil_iff hpos).2 hlt
      exact ⟨j, List.mem_filter.2 ⟨List.mem_range.2 hj, hdirty⟩, Nat.mul_comm _ _⟩
    · rintro ⟨j, hj, rfl⟩
      obtain ⟨hlt, hdirty⟩ := List.mem_filter.1 hj
      exact ⟨(DirtyBitmap.lt_divCeil_iff hpos).1 (List.mem_range.1 hlt), Nat.dvd_mul_left _ _,
        hdirty⟩

end Offsets

/-! ## The bytes of a diff -/

section Copy

variable {image : List UInt8} {ramSize pageSize : ℕ}

def pageBytes (image : List UInt8) (ramSize pageSize offset : ℕ) : List UInt8 :=
  (image.drop offset).take (min (ramSize - offset) pageSize)

def copyPages (image : List UInt8) (ramSize pageSize : ℕ) (c : List UInt8) (offsets : List ℕ) :
    List UInt8 :=
  offsets.foldl (fun c offset => overwrite c offset (pageBytes image ramSize pageSize offset)) c

structure Readable (image : List UInt8) (ramSize pageSize offset : ℕ) : Prop where
  lt : offset < ramSize
  le : offset + min (ramSize - offset) pageSize ≤ image.length

variable {offset : ℕ}

theorem Readable.length_pageBytes (h : Readable image ramSize pageSize offset) :
    (pageBytes image ramSize pageSize offset).length = min (ramSize - offset) pageSize := by
  have := h.le
  rw [pageBytes, List.length_take, List.length_drop]
  omega

theorem Readable.end_le (h : Readable image ramSize pageSize offset) :
    offset + (pageBytes image ramSize pageSize offset).length ≤ ramSize := by
  have := h.lt
  rw [h.length_pageBytes]
  omega

variable {i : ℕ}

theorem getD_pageBytes (h : i < min (ramSize - offset) pageSize) :
    (pageBytes image ramSize pageSize offset).getD i 0 = image.getD (offset + i) 0 := by
  simp [pageBytes, h]

theorem copyPages_spec {offsets : List ℕ} {c : List UInt8} (hc : c.length = ramSize)
    (hoffs : ∀ offset ∈ offsets, Readable image ramSize pageSize offset) :
    (copyPages image ramSize pageSize c offsets).length = ramSize ∧
      ∀ i, (copyPages image ramSize pageSize c offsets).getD i 0 =
        if ∃ offset ∈ offsets, offset ≤ i ∧ i < offset + min (ramSize - offset) pageSize then
          image.getD i 0
        else c.getD i 0 := by
  induction offsets generalizing c with
  | nil => exact ⟨hc, fun i => by simp [copyPages]⟩
  | cons offset offsets ih =>
    have hread := hoffs offset (by simp)
    have hend : offset + (pageBytes image ramSize pageSize offset).length ≤ c.length :=
      hc ▸ hread.end_le
    obtain ⟨hlen, hbyte⟩ := ih ((length_overwrite hend).trans hc) fun o ho => hoffs o (by simp [ho])
    refine ⟨hlen, fun i => (hbyte i).trans ?_⟩
    rw [getD_overwrite hend, hread.length_pageBytes]
    by_cases hlater : ∃ o ∈ offsets, o ≤ i ∧ i < o + min (ramSize - o) pageSize
    · rw [if_pos hlater, if_pos]
      obtain ⟨o, ho, hi⟩ := hlater
      exact ⟨o, by simp [ho], hi⟩
    · rw [if_neg hlater]
      by_cases hhere : offset ≤ i ∧ i < offset + min (ramSize - offset) pageSize
      · rw [if_pos hhere, if_pos ⟨offset, by simp, hhere⟩, getD_pageBytes (by omega)]
        congr 1
        omega
      · rw [if_neg hhere, if_neg]
        rintro ⟨o, ho, hi⟩
        rcases List.mem_cons.1 ho with rfl | ho'
        · exact hhere hi
        · exact hlater ⟨o, ho', hi⟩

theorem covered_iff {dirty : DirtyBitmap} (hdvd : pageSize ∣ dirty.pageSize)
    (hi : i < dirty.ramSize) :
    (∃ offset ∈ diffOffsets dirty.ramSize pageSize dirty (List.range dirty.pageCount),
        offset ≤ i ∧ i < offset + min (dirty.ramSize - offset) pageSize) ↔
      dirty.isDirtyByIndex (i / dirty.pageSize) = true := by
  have hpos := Nat.pos_of_dvd_of_pos hdvd dirty.pageSize_pos
  -- a page of the file lies in one tracking page
  have hsame : ∀ {offset}, pageSize ∣ offset → offset ≤ i → i < offset + pageSize →
      offset / dirty.pageSize = i / dirty.pageSize := by
    rintro offset ⟨j, rfl⟩ hle hlt
    obtain ⟨q, hq⟩ := hdvd
    have hj : i / pageSize = j := by
      rw [Nat.div_eq_iff hpos]
      constructor
      · rw [Nat.mul_comm]
        exact hle
      · rw [Nat.mul_comm]
        omega
    rw [hq, ← Nat.div_div_eq_div_mul, ← Nat.div_div_eq_div_mul, hj, Nat.mul_div_cancel_left _ hpos]
  constructor
  · rintro ⟨offset, hmem, hle, hlt⟩
    obtain ⟨-, hd, hdirty⟩ := (mem_diffOffsets hdvd).1 hmem
    rw [← hsame hd hle (by omega)]
    exact hdirty
  · intro hdirty
    have hle := Nat.div_mul_le_self i pageSize
    have hlt := Nat.lt_div_mul_add hpos (a := i)
    have hd : pageSize ∣ i / pageSize * pageSize := Nat.dvd_mul_left _ _
    refine ⟨i / pageSize * pageSize, (mem_diffOffsets hdvd).2 ⟨by omega, hd, ?_⟩, hle, by omega⟩
    rw [hsame hd hle hlt]
    exact hdirty

end Copy

/-! ## The writers -/

namespace MemoryWriter

section Loops

variable {reader : PageReader} {ramSize pageSize : ℕ} {dirty : DirtyBitmap} {w w' : World}

theorem endWorld_page (offset len : ℕ) : endWorld (reader.page offset len w) = w := by
  unfold PageReader.page
  cases reader.readAt offset len with
  | error errno => rfl
  | ok bs => rfl

variable {offset fuel : ℕ} {file file' : File Path} {offsets : List ℕ} {st : ℕ × File Path}

theorem page_ok {len : ℕ} {bs : List UInt8} (h : reader.page offset len w = .ok bs w') :
    w' = w ∧ offset + len ≤ reader.image.length ∧ bs = (reader.image.drop offset).take len := by
  unfold PageReader.page at h
  cases hread : reader.readAt offset len with
  | error errno =>
    rw [hread] at h
    cases h
  | ok bs' =>
    rw [hread] at h
    cases h
    exact ⟨rfl, reader.readAt_ok hread⟩

/-! ### The full dump -/

theorem writes_writeFullLoop (hfile : w.disk.entry file.name = some file.inode) :
    Writes file.name w (endWorld (writeFullLoop reader ramSize pageSize fuel offset file w)) := by
  induction fuel generalizing file offset w with
  | zero =>
    unfold writeFullLoop
    split_ifs
    · exact .refl _ w
    · exact .refl _ w
  | succ fuel ih =>
    unfold writeFullLoop
    split_ifs
    · refine endWorld_bind Writes.trans ?_ fun bs w₁ hbs => ?_
      · rw [endWorld_page]
        exact .refl _ w
      · obtain ⟨rfl, -⟩ := page_ok hbs
        have hw := writes_writeAll (e := SnapshotError.memoryIo) hfile bs
        refine endWorld_bind Writes.trans hw fun file₁ w₂ hwrite => ?_
        rw [hwrite] at hw
        obtain ⟨hname, hinode⟩ := writeAll_file hwrite
        rw [← hname, ← hinode] at hfile
        rw [← hname]
        exact ih (by rw [← hfile, ← hw.entry]; rfl)
    · exact .refl _ w

theorem writeFullLoop_ok (hle : offset ≤ ramSize) (hpos : file.pos = offset)
    (hread : offset ≤ reader.image.length)
    (hdata : w.disk.data file.inode = reader.image.take offset)
    (h : writeFullLoop reader ramSize pageSize fuel offset file w = .ok file' w') :
    ramSize ≤ reader.image.length ∧ w'.disk.data file.inode = reader.image.take ramSize ∧
      file'.name = file.name ∧ file'.inode = file.inode := by
  induction fuel generalizing file offset w with
  | zero =>
    unfold writeFullLoop at h
    split_ifs at h with hlt
    · cases h
    · cases h
      obtain rfl : offset = ramSize := by omega
      exact ⟨hread, hdata, rfl, rfl⟩
  | succ fuel ih =>
    unfold writeFullLoop at h
    split_ifs at h with hlt
    · obtain ⟨bs, w₁, hbs, h₁⟩ := bind_eq_ok.1 h
      obtain ⟨file₁, w₂, hwrite, hrest⟩ := bind_eq_ok.1 h₁
      obtain ⟨rfl, hlen, rfl⟩ := page_ok hbs
      have hend : file.pos = (w₁.disk.data file.inode).length := by
        rw [hdata, hpos, List.length_take, Nat.min_eq_left hread]
      obtain ⟨hpos₁, hdata₁⟩ := writeAll_data (Nat.le_of_eq hend) hwrite
      rw [hend, overwrite_length, hdata, ← List.take_add] at hdata₁
      rw [List.length_take, List.length_drop] at hpos₁
      obtain ⟨hname, hinode⟩ := writeAll_file hwrite
      rw [← hinode] at hdata₁ ⊢
      rw [← hname]
      exact ih (by omega) (by omega) hlen hdata₁ hrest
    · cases h
      obtain rfl : offset = ramSize := by omega
      exact ⟨hread, hdata, rfl, rfl⟩

/-! ### The diff -/

def writePages (reader : PageReader) (ramSize pageSize : ℕ) :
    List ℕ → ℕ × File Path → Io (ℕ × File Path)
  | [], st => return st
  | offset :: offsets, (pages, file) => do
    let file ← writePage reader ramSize pageSize offset file
    writePages reader ramSize pageSize offsets (pages + 1, file)

theorem writePages_append (l₁ l₂ : List ℕ) (st : ℕ × File Path) :
    writePages reader ramSize pageSize (l₁ ++ l₂) st =
      writePages reader ramSize pageSize l₁ st >>= writePages reader ramSize pageSize l₂ := by
  induction l₁ generalizing st with
  | nil => rfl
  | cons offset l₁ ih =>
    simp [writePages, ih]

theorem writeBlock_eq (block : ℕ) (subs : List ℕ) (st : ℕ × File Path) :
    writeBlock reader ramSize pageSize block subs st =
      writePages reader ramSize pageSize (blockOffsets ramSize pageSize block subs) st := by
  induction subs generalizing st with
  | nil => rfl
  | cons sub subs ih =>
    obtain ⟨pages, file⟩ := st
    rw [writeBlock, blockOffsets, List.map_cons]
    by_cases hend : ramSize ≤ (block + sub * pageSize) % 2 ^ 64
    · rw [if_pos hend, List.takeWhile_cons_of_neg (by simpa using hend)]
      rfl
    · rw [if_neg hend, List.takeWhile_cons_of_pos (by simpa using hend)]
      exact congrArg _ (funext fun file₁ => ih (pages + 1, file₁))

theorem writeBlocks_eq (pages : List ℕ) (st : ℕ × File Path) :
    writeBlocks reader ramSize pageSize dirty pages st =
      writePages reader ramSize pageSize (diffOffsets ramSize pageSize dirty pages) st := by
  induction pages generalizing st with
  | nil => rfl
  | cons page pages ih =>
    rw [writeBlocks, diffOffsets, List.filter_cons]
    split_ifs with hdirty
    · rw [List.flatMap_cons, writePages_append, writeBlock_eq]
      exact congrArg _ (funext ih)
    · exact ih st

theorem writePage_file (h : writePage reader ramSize pageSize offset file w = .ok file' w') :
    file'.name = file.name ∧ file'.inode = file.inode := by
  obtain ⟨bs, w₁, -, h₁⟩ := bind_eq_ok.1 h
  obtain ⟨file₁, w₂, hseek, hwrite⟩ := bind_eq_ok.1 h₁
  obtain ⟨rfl, -⟩ := seek_ok hseek
  exact ⟨(writeAll_file hwrite).1, (writeAll_file hwrite).2⟩

theorem writePage_ok (hpage : 0 < pageSize) (hlt : offset < ramSize)
    (h : writePage reader ramSize pageSize offset file w = .ok file' w') :
    Readable reader.image ramSize pageSize offset ∧
      w'.disk.data file.inode = overwrite (w.disk.data file.inode) offset
        (pageBytes reader.image ramSize pageSize offset) ∧
      w'.written = w.written ++ [(file.name, offset, min (ramSize - offset) pageSize)] := by
  obtain ⟨bs, w₁, hbs, h₁⟩ := bind_eq_ok.1 h
  obtain ⟨file₁, w₂, hseek, hwrite⟩ := bind_eq_ok.1 h₁
  obtain ⟨rfl, hlen, rfl⟩ := page_ok hbs
  obtain ⟨rfl, rfl⟩ := seek_ok hseek
  have hread : Readable reader.image ramSize pageSize offset := ⟨hlt, hlen⟩
  have hbytes : ((reader.image.drop offset).take (min (ramSize - offset) pageSize)).length =
      min (ramSize - offset) pageSize := hread.length_pageBytes
  have hne : (reader.image.drop offset).take (min (ramSize - offset) pageSize) ≠ [] := by
    refine List.ne_nil_of_length_pos ?_
    omega
  obtain ⟨-, hdisk, hwritten⟩ := writeAll_ok hne hwrite
  refine ⟨hread, ?_, ?_⟩
  · rw [hdisk]
    exact Function.update_self ..
  · rw [hwritten, hbytes]
    rfl

theorem writes_writePage (hfile : w.disk.entry file.name = some file.inode) (offset : ℕ) :
    Writes file.name w (endWorld (writePage reader ramSize pageSize offset file w)) := by
  refine endWorld_bind Writes.trans ?_ fun bs w₁ hbs => ?_
  · rw [endWorld_page]
    exact .refl _ w
  · obtain ⟨rfl, -⟩ := page_ok hbs
    refine endWorld_bind Writes.trans (writes_seek offset)
      fun file₁ w₂ hseek => ?_
    obtain ⟨rfl, rfl⟩ := seek_ok hseek
    have hmoved : (w₁.next w₁.disk).disk.entry file.name = some file.inode := hfile
    exact writes_writeAll (f := { file with pos := offset }) hmoved bs

variable {st' : ℕ × File Path}

theorem writePages_ok (hpage : 0 < pageSize) (hlt : ∀ offset ∈ offsets, offset < ramSize)
    (h : writePages reader ramSize pageSize offsets st w = .ok st' w') :
    (∀ offset ∈ offsets, Readable reader.image ramSize pageSize offset) ∧
      st'.1 = st.1 + offsets.length ∧
      w'.disk.data st.2.inode =
        copyPages reader.image ramSize pageSize (w.disk.data st.2.inode) offsets ∧
      w'.written = w.written ++
        (offsets.map fun offset => (st.2.name, offset, min (ramSize - offset) pageSize)) ∧
      st'.2.name = st.2.name ∧ st'.2.inode = st.2.inode := by
  induction offsets generalizing st w with
  | nil =>
    cases h
    exact ⟨nofun, rfl, rfl, by simp, rfl, rfl⟩
  | cons offset offsets ih =>
    obtain ⟨file₁, w₁, hwrite, hrest⟩ := bind_eq_ok.1 h
    obtain ⟨hname, hinode⟩ := writePage_file hwrite
    obtain ⟨hread, hdata, hwritten⟩ := writePage_ok hpage (hlt offset (by simp)) hwrite
    obtain ⟨hreads, hcount, hdata', hwritten', hname', hinode'⟩ :=
      ih (fun o ho => hlt o (by simp [ho])) hrest
    refine ⟨?_, ?_, ?_, ?_, hname'.trans hname, hinode'.trans hinode⟩
    · rintro o ho
      rcases List.mem_cons.1 ho with rfl | ho'
      · exact hread
      · exact hreads o ho'
    · rw [List.length_cons]
      omega
    · rw [hinode, hdata] at hdata'
      exact hdata'
    · rw [hwritten', hwritten, hname, List.append_assoc]
      rfl

theorem writes_writePages (hfile : w.disk.entry st.2.name = some st.2.inode) :
    Writes st.2.name w (endWorld (writePages reader ramSize pageSize offsets st w)) := by
  induction offsets generalizing st w with
  | nil => exact .refl _ w
  | cons offset offsets ih =>
    obtain ⟨pages, file⟩ := st
    have hw : Writes file.name w (endWorld (writePage reader ramSize pageSize offset file w)) :=
      writes_writePage hfile offset
    refine endWorld_bind Writes.trans hw fun file₁ w₁ hwrite => ?_
    rw [hwrite] at hw
    obtain ⟨hname, hinode⟩ := writePage_file hwrite
    rw [← hname, ← hinode] at hfile
    rw [← hname]
    exact @ih w₁ (pages + 1, file₁) (by rw [← hfile, ← hw.entry]; rfl)

end Loops

section Writers

variable {mw mw' : MemoryWriter} {reader : PageReader} {dirty : DirtyBitmap} {w w' : World}

def diffBytes (image : List UInt8) (pageSize : ℕ) (dirty : DirtyBitmap) : List UInt8 :=
  copyPages image dirty.ramSize pageSize (List.replicate dirty.ramSize 0)
    (diffOffsets dirty.ramSize pageSize dirty (List.range dirty.pageCount))

variable {pageSize : ℕ} {host : Host} {dest : Path} {ramSize : ℕ}

theorem open_ok (h : MemoryWriter.open host dest ramSize pageSize w = .ok mw w') :
    AtomicWriter.open host dest w = .ok mw.inner w' ∧ mw.ramSize = ramSize ∧
      mw.pageSize = pageSize := by
  obtain ⟨a, w₁, hopen, h₁⟩ := bind_eq_ok.1 h
  cases h₁
  exact ⟨hopen, rfl, rfl⟩

theorem open_error {s : Stop SnapshotError}
    (h : MemoryWriter.open host dest ramSize pageSize w = .error s w') :
    AtomicWriter.open host dest w = .error s w' := by
  rcases bind_eq_error.1 h with hopen | ⟨a, w₁, -, h₁⟩
  · exact hopen
  · cases h₁

theorem writes_writeFull (hfile : w.disk.entry mw.inner.file.name = some mw.inner.file.inode) :
    Writes mw.inner.file.name w (endWorld (mw.writeFull reader w)) :=
  endWorld_bind Writes.trans (writes_writeFullLoop hfile)
    fun _ w₁ _ => .refl _ w₁

theorem writeFull_ok (hst : mw.inner.Staged w []) (hpos : mw.inner.file.pos = 0)
    (h : mw.writeFull reader w = .ok mw' w') :
    mw'.inner.Staged w' (reader.image.take mw.ramSize) ∧ mw.ramSize ≤ reader.image.length ∧
      mw'.inner.destPath = mw.inner.destPath := by
  have hw := @writes_writeFull mw reader w hst.file_entry
  rw [h] at hw
  obtain ⟨file, w₁, hloop, h₁⟩ := bind_eq_ok.1 h
  cases h₁
  obtain ⟨hlen, hdata, hname, hinode⟩ :=
    writeFullLoop_ok (Nat.zero_le _) hpos (Nat.zero_le _) hst.data hloop
  refine ⟨⟨hst.temp, hname.trans hst.name, ?_, ?_⟩, hlen, rfl⟩
  · exact (congrFun hw.entry _).trans (hst.entry.trans (congrArg some hinode.symm))
  · exact (congrArg w'.disk.data hinode).trans hdata

theorem writes_writeDiff (hfile : w.disk.entry mw.inner.file.name = some mw.inner.file.inode) :
    Writes mw.inner.file.name w (endWorld (mw.writeDiff reader dirty w)) := by
  unfold writeDiff
  split_ifs
  · exact .refl _ w
  · exact .refl _ w
  · have hw := writes_setLen (e := SnapshotError.memoryIo) hfile mw.ramSize
    refine endWorld_bind Writes.trans hw fun u w₁ hset => ?_
    rw [hset] at hw
    have hfile₁ : w₁.disk.entry mw.inner.file.name = some mw.inner.file.inode :=
      (congrFun hw.entry _).trans hfile
    rw [writeBlocks_eq]
    exact endWorld_bind Writes.trans
      (@writes_writePages _ _ _ _ _ (0, mw.inner.file) hfile₁) fun _ w₂ _ => .refl _ w₂

theorem writeDiff_ok {pages : ℕ} (hst : mw.inner.Staged w [])
    (h : mw.writeDiff reader dirty w = .ok (pages, mw') w') :
    mw'.inner.Staged w' (diffBytes reader.image mw.pageSize dirty) ∧
      mw'.inner.destPath = mw.inner.destPath ∧
      dirty.ramSize = mw.ramSize ∧ mw.pageSize ∣ dirty.pageSize ∧
      (∀ offset ∈ diffOffsets dirty.ramSize mw.pageSize dirty (List.range dirty.pageCount),
        Readable reader.image dirty.ramSize mw.pageSize offset) ∧
      pages = (diffOffsets dirty.ramSize mw.pageSize dirty (List.range dirty.pageCount)).length ∧
      w'.written = w.written ++
        (diffOffsets dirty.ramSize mw.pageSize dirty (List.range dirty.pageCount)).map
          fun offset => (mw.inner.tempPath, offset, min (dirty.ramSize - offset) mw.pageSize) := by
  have hw := @writes_writeDiff mw reader dirty w hst.file_entry
  rw [h] at hw
  unfold writeDiff at h
  split_ifs at h with hram hpage
  · cases h
  · cases h
  · obtain ⟨u, w₁, hset, h₁⟩ := bind_eq_ok.1 h
    obtain ⟨st, w₂, hblocks, h₂⟩ := bind_eq_ok.1 h₁
    cases h₂
    have hram' : dirty.ramSize = mw.ramSize := of_not_not hram
    have hdvd : mw.pageSize ∣ dirty.pageSize := of_not_not (not_or.1 hpage).2
    have hpos := Nat.pos_of_dvd_of_pos hdvd dirty.pageSize_pos
    rw [writeBlocks_eq, ← hram'] at hblocks
    obtain ⟨hread, hcount, hdata, hwritten, hname, hinode⟩ :=
      writePages_ok hpos (fun o ho => ((mem_diffOffsets hdvd).1 ho).1) hblocks
    obtain rfl := setLen_ok hset
    refine ⟨⟨hst.temp, hname.trans hst.name, ?_, ?_⟩, rfl, hram', hdvd, hread, ?_, ?_⟩
    · exact (congrFun hw.entry _).trans (hst.entry.trans (congrArg some hinode.symm))
    · refine (congrArg w'.disk.data hinode).trans (hdata.trans ?_)
      simp [World.next, Disk.setData, hst.data, resize_nil, hram', diffBytes]
    · rw [hcount, Nat.zero_add]
    · rw [hwritten, hst.name]
      rfl

theorem diffBytes_spec {image : List UInt8} (hdvd : pageSize ∣ dirty.pageSize)
    (hread : ∀ offset ∈ diffOffsets dirty.ramSize pageSize dirty (List.range dirty.pageCount),
      Readable image dirty.ramSize pageSize offset) :
    (diffBytes image pageSize dirty).length = dirty.ramSize ∧
      ∀ i < dirty.ramSize, (diffBytes image pageSize dirty).getD i 0 =
        if dirty.isDirtyByIndex (i / dirty.pageSize) = true then image.getD i 0 else 0 := by
  obtain ⟨hlen, hbyte⟩ := copyPages_spec List.length_replicate hread
  refine ⟨hlen, fun i hi => (hbyte i).trans ?_⟩
  simp only [covered_iff hdvd hi]
  simp [List.getD_eq_getElem?_getD]

end Writers

end MemoryWriter

end Squib.Snapshot
