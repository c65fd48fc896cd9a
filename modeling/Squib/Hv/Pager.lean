import Squib.Core.Arith
import Squib.Snapshot.Restore

/-!
# The postcopy pager
-/

namespace Squib

open Fs Snapshot

structure PageRequest where
  ipa : UInt64
  pageSize : UInt64

inductive PageSourceError where
  | short (got expected : UInt64)
  | open (message : String)
  | io (error : String)
  deriving DecidableEq, Repr

structure FilePageSource where
  readAt : ℕ → ℕ → Except String (List UInt8)
  ramStart : UInt64
  reads : List (UInt64 × UInt64) := []

namespace FilePageSource

def «open» (pread : List UInt8 → ℕ → ℕ → Except String (List UInt8)) (disk : Disk Path)
    (path : Path) (ramStart : UInt64) : Except PageSourceError FilePageSource :=
  match disk.read path with
  | none => .error (.open (path ++ ": No such file or directory (os error 2)"))
  | some content => .ok { readAt := pread content, ramStart }

def fetch (req : PageRequest) (s : FilePageSource) :
    Except PageSourceError (List UInt8) × FilePageSource :=
  if req.ipa < s.ramStart then
    (.error (.open ("ipa " ++ hex req.ipa.toNat ++ " below ram_start " ++ hex s.ramStart.toNat)), s)
  else
    let offset := req.ipa - s.ramStart
    let aligned := offset &&& ~~~(req.pageSize - 1)
    let s' := { s with reads := s.reads ++ [(aligned, req.pageSize)] }
    match s.readAt aligned.toNat req.pageSize.toNat with
    | .error e => (.error (.io e), s')
    | .ok buf =>
      if buf.length < req.pageSize.toNat then
        (.error (.short (UInt64.ofNat buf.length) req.pageSize), s')
      else (.ok buf, s')

end FilePageSource

inductive PagerError where
  | outOfRegion (ipa : UInt64)
  | source (error : PageSourceError)
  deriving DecidableEq, Repr

structure Region where
  base : UInt64
  size : UInt64
  deriving DecidableEq, Repr

def Region.contains (r : Region) (ipa : UInt64) : Bool :=
  r.base ≤ ipa && ipa < saturatingAdd64 r.base r.size

structure Pager (σ : Type) where
  source : σ
  regions : List Region
  faults : UInt64

namespace Pager

variable {σ : Type}

def new (source : σ) : Pager σ := { source, regions := [], faults := 0 }

def insertRegion (r : Region) : List Region → List Region
  | [] => [r]
  | x :: xs =>
    if r.base < x.base then r :: x :: xs
    else if r.base = x.base then r :: xs
    else x :: insertRegion r xs

def registerRegion (p : Pager σ) (base size : UInt64) : Pager σ :=
  { p with regions := insertRegion { base, size } p.regions }

def containsIpa (p : Pager σ) (ipa : UInt64) : Bool := p.regions.any (·.contains ipa)

variable (fetch : PageRequest → σ → Except PageSourceError (List UInt8) × σ)

def serveFault (p : Pager σ) (ipa pageSize : UInt64) :
    Except PagerError (List UInt8) × Pager σ :=
  if p.containsIpa ipa = false then (.error (.outOfRegion ipa), p)
  else
    let aligned := ipa &&& ~~~(pageSize - 1)
    match fetch { ipa := aligned, pageSize } p.source with
    | (.error e, source) => (.error (.source e), { p with source })
    | (.ok bytes, source) => (.ok bytes, { p with source, faults := p.faults + 1 })

def serveAll (pageSize : UInt64) :
    List UInt64 → Pager σ → List (Except PagerError (List UInt8)) × Pager σ
  | [], p => ([], p)
  | ipa :: ipas, p =>
    let (r, p) := p.serveFault fetch ipa pageSize
    let (rs, p) := serveAll pageSize ipas p
    (r :: rs, p)

end Pager

section Pages

variable {image : List UInt8} {ramStart ramSize pageSize ipa : UInt64}

def InRam (ramStart ramSize ipa : UInt64) : Prop :=
  ramStart.toNat ≤ ipa.toNat ∧ ipa.toNat < ramStart.toNat + ramSize.toNat

instance decidableInRam : Decidable (InRam ramStart ramSize ipa) := inferInstanceAs (Decidable (_ ∧ _))

def pageOffset (ramStart pageSize ipa : UInt64) : ℕ :=
  ipa.toNat / pageSize.toNat * pageSize.toNat - ramStart.toNat

def pageOf (image : List UInt8) (ramStart pageSize ipa : UInt64) : List UInt8 :=
  (image.drop (pageOffset ramStart pageSize ipa)).take pageSize.toNat

structure Paged (ramStart ramSize pageSize : UInt64) : Prop where
  pow : ∃ k, pageSize.toNat = 2 ^ k
  start : pageSize.toNat ∣ ramStart.toNat
  size : pageSize.toNat ∣ ramSize.toNat

theorem toNat_and_mask (h : ∃ k, pageSize.toNat = 2 ^ k) (x : UInt64) :
    (x &&& ~~~(pageSize - 1)).toNat = x.toNat / pageSize.toNat * pageSize.toNat := by
  obtain ⟨k, hk⟩ := h
  have hlt : 2 ^ k < 2 ^ 64 := hk ▸ pageSize.toNat_lt
  have hk64 : k < 64 := (Nat.pow_lt_pow_iff_right (by decide)).1 hlt
  have hmask : (~~~(pageSize - 1)).toNat = (2 ^ (64 - k) - 1) * 2 ^ k := by
    have hone : (1 : UInt64) ≤ pageSize := by
      rw [UInt64.le_iff_toNat_le, hk]
      exact Nat.one_le_two_pow
    have hpow : 2 ^ (64 - k) * 2 ^ k = 2 ^ 64 := by rw [← Nat.pow_add, Nat.sub_add_cancel hk64.le]
    rw [UInt64.toNat_not, UInt64.toNat_sub_of_le _ _ hone, Nat.sub_mul]
    have : 1 ≤ 2 ^ k := Nat.one_le_two_pow
    simp only [UInt64.size, UInt64.toNat_one]
    omega
  rw [UInt64.toNat_and, hmask, hk, Bits.and_highMask]
  rw [Nat.add_sub_cancel' hk64.le]
  exact x.toNat_lt

theorem Paged.page_le (hp : Paged ramStart ramSize pageSize) (h : InRam ramStart ramSize ipa) :
    ramStart.toNat ≤ ipa.toNat / pageSize.toNat * pageSize.toNat ∧
      pageOffset ramStart pageSize ipa + pageSize.toNat ≤ ramSize.toNat := by
  obtain ⟨k, hk⟩ := hp.pow
  have hpos : 0 < pageSize.toNat := hk ▸ Nat.two_pow_pos k
  obtain ⟨a, ha⟩ := hp.start
  obtain ⟨b, hb⟩ := hp.size
  obtain ⟨hlo, hhi⟩ := h
  have hquot : a ≤ ipa.toNat / pageSize.toNat := by
    rw [Nat.le_div_iff_mul_le hpos, Nat.mul_comm, ← ha]
    exact hlo
  have hquot' : ipa.toNat / pageSize.toNat < a + b := by
    rw [Nat.div_lt_iff_lt_mul hpos, Nat.mul_comm, Nat.mul_add, ← ha, ← hb]
    exact hhi
  have hle := Nat.mul_le_mul_right pageSize.toNat hquot
  have hle' := Nat.mul_le_mul_right pageSize.toNat (Nat.succ_le_of_lt hquot')
  rw [Nat.mul_comm a] at hle
  rw [Nat.succ_mul, Nat.add_mul, Nat.mul_comm a, Nat.mul_comm b] at hle'
  rw [pageOffset]
  omega

end Pages

/-! ## Faults -/

def ReadsInside (pread : List UInt8 → ℕ → ℕ → Except String (List UInt8)) : Prop :=
  ∀ content offset len, offset + len ≤ content.length →
    pread content offset len = .ok ((content.drop offset).take len)

structure FilePageSource.Backs (s : FilePageSource) (image : List UInt8) (ramStart : UInt64) :
    Prop where
  start : s.ramStart = ramStart
  read : ∀ offset len, offset + len ≤ image.length →
    s.readAt offset len = .ok ((image.drop offset).take len)

def answer (image : List UInt8) (ramStart ramSize pageSize ipa : UInt64) :
    Except PagerError (List UInt8) :=
  if InRam ramStart ramSize ipa then .ok (pageOf image ramStart pageSize ipa)
  else .error (.outOfRegion ipa)

def pageRead (ramStart pageSize ipa : UInt64) : UInt64 × UInt64 :=
  (.ofNat (pageOffset ramStart pageSize ipa), pageSize)

structure Serves (image : List UInt8) (ramStart ramSize pageSize : UInt64) (p : Pager FilePageSource)
    (ipas : List UInt64) : Prop where
  answers : (p.serveAll FilePageSource.fetch pageSize ipas).1 =
    ipas.map (answer image ramStart ramSize pageSize)
  reads : (p.serveAll FilePageSource.fetch pageSize ipas).2.source.reads =
    p.source.reads ++ (ipas.filter (InRam ramStart ramSize ·)).map (pageRead ramStart pageSize)
  faults : (p.serveAll FilePageSource.fetch pageSize ipas).2.faults =
    p.faults + .ofNat ((p.serveAll FilePageSource.fetch pageSize ipas).1.countP (·.isOk))

section Faults

variable {image : List UInt8} {ramStart ramSize pageSize ipa : UInt64} {p : Pager FilePageSource}
  {s : FilePageSource}

theorem fetch_page (hp : Paged ramStart ramSize pageSize) (hs : s.Backs image ramStart)
    (himage : image.length = ramSize.toNat) (h : InRam ramStart ramSize ipa) :
    s.fetch { ipa := ipa &&& ~~~(pageSize - 1), pageSize } =
      (.ok (pageOf image ramStart pageSize ipa),
        { s with reads := s.reads ++ [pageRead ramStart pageSize ipa] }) := by
  obtain ⟨hstart, hend⟩ := hp.page_le h
  have hround := toNat_and_mask hp.pow ipa
  have hle : ramStart ≤ ipa &&& ~~~(pageSize - 1) := by
    rw [UInt64.le_iff_toNat_le, hround]
    exact hstart
  have hlt : pageOffset ramStart pageSize ipa < 2 ^ 64 := by
    have := ramSize.toNat_lt
    omega
  have hoffset :
      (ipa &&& ~~~(pageSize - 1)) - ramStart = .ofNat (pageOffset ramStart pageSize ipa) := by
    rw [← UInt64.toNat_inj, UInt64.toNat_sub_of_le _ _ hle, hround, UInt64.toNat_ofNat_of_lt' hlt,
      pageOffset]
  have hdvd : pageSize.toNat ∣ pageOffset ramStart pageSize ipa :=
    Nat.dvd_sub (Nat.dvd_mul_left ..) hp.start
  have haligned : UInt64.ofNat (pageOffset ramStart pageSize ipa) &&& ~~~(pageSize - 1) =
      .ofNat (pageOffset ramStart pageSize ipa) := by
    rw [← UInt64.toNat_inj, toNat_and_mask hp.pow, UInt64.toNat_ofNat_of_lt' hlt,
      Nat.div_mul_cancel hdvd]
  have hread := hs.read _ _ (himage ▸ hend)
  have hlen : ¬ (pageOf image ramStart pageSize ipa).length < pageSize.toNat := by
    rw [pageOf, List.length_take, List.length_drop]
    omega
  rw [FilePageSource.fetch, hs.start, if_neg (UInt64.not_lt.2 hle)]
  dsimp only
  rw [hoffset, haligned, UInt64.toNat_ofNat_of_lt' hlt, hread]
  exact if_neg hlen

theorem contains_iff : Region.contains ⟨ramStart, ramSize⟩ ipa = true ↔
    InRam ramStart ramSize ipa ∧ ipa.toNat < 2 ^ 64 - 1 := by
  rw [Region.contains, Bool.and_eq_true, decide_eq_true_eq, decide_eq_true_eq,
    UInt64.le_iff_toNat_le, UInt64.lt_iff_toNat_lt, toNat_saturatingAdd64, Nat.lt_min, InRam,
    and_assoc]

structure Pager.Over (p : Pager FilePageSource) (image : List UInt8) (ramStart ramSize : UInt64) :
    Prop where
  source : p.source.Backs image ramStart
  regions : p.regions = [⟨ramStart, ramSize⟩]

theorem Pager.Over.containsIpa_iff (h : p.Over image ramStart ramSize) :
    p.containsIpa ipa = true ↔ InRam ramStart ramSize ipa ∧ ipa.toNat < 2 ^ 64 - 1 := by
  rw [containsIpa, h.regions, List.any_cons, List.any_nil, Bool.or_false, contains_iff]

theorem serveFault_of_contains (hp : Paged ramStart ramSize pageSize)
    (h : p.Over image ramStart ramSize) (himage : image.length = ramSize.toNat)
    (hin : p.containsIpa ipa = true) :
    p.serveFault FilePageSource.fetch ipa pageSize =
      (.ok (pageOf image ramStart pageSize ipa),
        { p with
          source := { p.source with reads := p.source.reads ++ [pageRead ramStart pageSize ipa] }
          faults := p.faults + 1 }) := by
  rw [Pager.serveFault, if_neg (by rw [hin]; decide)]
  dsimp only
  rw [fetch_page hp h.source himage (h.containsIpa_iff.1 hin).1]

theorem serveFault_of_not_contains (hin : p.containsIpa ipa = false) :
    p.serveFault FilePageSource.fetch ipa pageSize = (.error (.outOfRegion ipa), p) := by
  rw [Pager.serveFault, if_pos hin]

theorem Serves.cons {p' : Pager FilePageSource} {r : Except PagerError (List UInt8)}
    {ipas : List UInt64} (hstep : p.serveFault FilePageSource.fetch ipa pageSize = (r, p'))
    (hanswer : r = answer image ramStart ramSize pageSize ipa)
    (hreads : p'.source.reads = p.source.reads ++
      if InRam ramStart ramSize ipa then [pageRead ramStart pageSize ipa] else [])
    (hfaults : p'.faults = p.faults + if r.isOk then 1 else 0)
    (hrest : Serves image ramStart ramSize pageSize p' ipas) :
    Serves image ramStart ramSize pageSize p (ipa :: ipas) := by
  have hall : p.serveAll FilePageSource.fetch pageSize (ipa :: ipas) =
      (r :: (p'.serveAll FilePageSource.fetch pageSize ipas).1,
        (p'.serveAll FilePageSource.fetch pageSize ipas).2) := by
    rw [Pager.serveAll, hstep]
  refine ⟨?_, ?_, ?_⟩
  · rw [hall, hrest.answers, List.map_cons, hanswer]
  · rw [hall, hrest.reads, hreads]
    by_cases h : InRam ramStart ramSize ipa
    · simp [h]
    · simp [h]
  · rw [hall, hrest.faults, hfaults, List.countP_cons]
    by_cases h : r.isOk = true
    · rw [if_pos h, if_pos h, UInt64.ofNat_add, UInt64.add_assoc]
      exact congrArg _ (UInt64.add_comm ..)
    · rw [if_neg h, if_neg h, UInt64.add_zero, Nat.add_zero]

theorem serves_serveAll (hp : Paged ramStart ramSize pageSize)
    (himage : image.length = ramSize.toNat) (hfit : ramStart.toNat + ramSize.toNat < 2 ^ 64)
    (ipas : List UInt64) (h : p.Over image ramStart ramSize) :
    Serves image ramStart ramSize pageSize p ipas := by
  induction ipas generalizing p with
  | nil => exact ⟨rfl, by simp [Pager.serveAll], by simp [Pager.serveAll]⟩
  | cons ipa ipas ih =>
    by_cases hin : InRam ramStart ramSize ipa
    · have hlast : ipa.toNat < 2 ^ 64 - 1 := by
        have := hin.2
        omega
      refine .cons (serveFault_of_contains hp h himage (h.containsIpa_iff.2 ⟨hin, hlast⟩)) ?_ ?_ rfl
        (ih ⟨⟨h.source.start, h.source.read⟩, h.regions⟩)
      · rw [answer, if_pos hin]
      · rw [if_pos hin]
    · have hout : p.containsIpa ipa = false := by
        rw [← Bool.not_eq_true, h.containsIpa_iff]
        exact fun hc => hin hc.1
      refine .cons (serveFault_of_not_contains hout) ?_ ?_ (UInt64.add_zero _).symm (ih h)
      · rw [answer, if_neg hin]
      · rw [if_neg hin, List.append_nil]

theorem not_serves_last (h : p.Over image ramStart ramSize)
    (hfit : 2 ^ 64 ≤ ramStart.toNat + ramSize.toNat) :
    ¬ Serves image ramStart ramSize pageSize p [0xFFFFFFFFFFFFFFFF] := by
  intro hserves
  have hin : InRam ramStart ramSize 0xFFFFFFFFFFFFFFFF := by
    have := ramStart.toNat_lt
    have hmax : (0xFFFFFFFFFFFFFFFF : UInt64).toNat = 2 ^ 64 - 1 := rfl
    rw [InRam]
    omega
  have hout : p.containsIpa 0xFFFFFFFFFFFFFFFF = false := by
    rw [← Bool.not_eq_true, h.containsIpa_iff]
    exact fun hc => absurd hc.2 (by decide)
  have hanswers := hserves.answers
  rw [Pager.serveAll, serveFault_of_not_contains hout, List.map_cons, answer, if_pos hin] at hanswers
  cases hanswers

end Faults

/-! ## After a full dump -/

section Postcopy

variable {image : PageReader} {host : Host} {dest : Path} {filePage : ℕ} {w w' : World}
  {ramStart ramSize pageSize : UInt64}

theorem read_committed (hlen : image.image.length = ramSize.toNat)
    (hsave : (do
      let mw ← MemoryWriter.open host dest ramSize.toNat filePage
      let mw ← mw.writeFull image
      mw.commit : Io Unit) w = .ok () w') :
    w'.disk.read dest = some image.image := by
  obtain ⟨mw, w₁, hopen, hsave⟩ := bind_eq_ok.1 hsave
  obtain ⟨mw', w₂, hwrite, hcommit⟩ := bind_eq_ok.1 hsave
  obtain ⟨hinner, hram, -⟩ := MemoryWriter.open_ok hopen
  obtain ⟨hst, hdest, hpos, -⟩ := AtomicWriter.open_ok hinner
  obtain ⟨hst', -, hdest'⟩ := MemoryWriter.writeFull_ok hst hpos hwrite
  obtain ⟨d, hrename, hd, -⟩ := AtomicWriter.commit_ok hcommit
  have hread := (Disk.rename_spec hrename dest).2
  rw [hdest', hdest, if_pos rfl, hst'.read, hram, List.take_of_length_le (Nat.le_of_eq hlen)] at hread
  rw [hd, hread]

/-- **Postcopy from a full dump** serves every sequence of faults exactly if RAM ends before the
address space does. -/
theorem postcopy_iff {pread : List UInt8 → ℕ → ℕ → Except String (List UInt8)}
    (hpread : ReadsInside pread) (hp : Paged ramStart ramSize pageSize)
    (hlen : image.image.length = ramSize.toNat)
    (hsave : (do
      let mw ← MemoryWriter.open host dest ramSize.toNat filePage
      let mw ← mw.writeFull image
      mw.commit : Io Unit) w = .ok () w') :
    ∃ source, FilePageSource.open pread w'.disk dest ramStart = .ok source ∧
      ((∀ ipas, Serves image.image ramStart ramSize pageSize
          ((Pager.new source).registerRegion ramStart ramSize) ipas) ↔
        ramStart.toNat + ramSize.toNat < 2 ^ 64) := by
  refine ⟨{ readAt := pread image.image, ramStart }, ?_, ?_⟩
  · rw [FilePageSource.open, read_committed hlen hsave]
  · have hover : ((Pager.new { readAt := pread image.image, ramStart }).registerRegion
        ramStart ramSize).Over image.image ramStart ramSize :=
      ⟨⟨rfl, hpread image.image⟩, rfl⟩
    refine ⟨fun h => ?_, fun hfit ipas => serves_serveAll hp hlen hfit ipas hover⟩
    by_contra hfit
    exact not_serves_last hover (Nat.not_lt.1 hfit) (h _)

section Scenario

def wholeRead (content : List UInt8) (offset len : ℕ) : Except String (List UInt8) :=
  .ok ((content.drop offset).take len)

def dumpFour : Io Unit := do
  let mw ← MemoryWriter.open oneDir "vm.mem" 4 4
  let mw ← mw.writeFull (.ofVec [1, 2, 3, 4])
  mw.commit

theorem postcopy_iff_two_pages : ∃ source, ∀ ipas, Serves [1, 2, 3, 4] 0x80000000 4 2
    ((Pager.new source).registerRegion 0x80000000 4) ipas := by
  obtain ⟨u, w', hsave⟩ := exists_ok (r := dumpFour emptyDisk) (by decide +kernel)
  have hpaged : Paged 0x80000000 4 2 := ⟨⟨1, rfl⟩, by decide, by decide⟩
  obtain ⟨source, -, hiff⟩ := @postcopy_iff (.ofVec [1, 2, 3, 4]) oneDir "vm.mem" 4 emptyDisk w'
    0x80000000 4 2 wholeRead (fun _ _ _ _ => rfl) hpaged rfl hsave
  exact ⟨source, hiff.2 (by decide)⟩

def lastPage (ipa : UInt64) : Option (Except PagerError (List UInt8)) :=
  match dumpFour emptyDisk with
  | .error _ _ => none
  | .ok _ w =>
    match FilePageSource.open wholeRead w.disk "vm.mem" 0xFFFFFFFFFFFFFFFC with
    | .error _ => none
    | .ok source =>
      some (((Pager.new source).registerRegion 0xFFFFFFFFFFFFFFFC 4).serveFault
        FilePageSource.fetch ipa 4).1

/-- The last byte of RAM is refused, the one before it is served. -/
theorem last_address_refused :
    Paged 0xFFFFFFFFFFFFFFFC 4 4 ∧ InRam 0xFFFFFFFFFFFFFFFC 4 0xFFFFFFFFFFFFFFFF ∧
      lastPage 0xFFFFFFFFFFFFFFFF = some (.error (.outOfRegion 0xFFFFFFFFFFFFFFFF)) ∧
      lastPage 0xFFFFFFFFFFFFFFFE = some (.ok [1, 2, 3, 4]) := by
  refine ⟨⟨⟨2, rfl⟩, by decide, by decide⟩, by decide, ?_, ?_⟩
  · decide +kernel
  · decide +kernel

end Scenario

end Postcopy

end Squib
