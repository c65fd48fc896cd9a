import Squib.Lib.Bits
import Squib.Snapshot.State

/-!
# Dirty-page tracking
-/

namespace Squib.Snapshot

open Bits

/-! ## Page geometry -/

structure PageGeometry where
  trackingPageDefault : ℕ
  trackingPageHot : ℕ
  default_lt : trackingPageDefault < 2 ^ 64
  hot_lt : trackingPageHot < 2 ^ 64

inductive TrackingGranule where
  | coarse
  | fine
  deriving DecidableEq, Repr

def TrackingGranule.pageSize (geom : PageGeometry) : TrackingGranule → ℕ
  | .coarse => geom.trackingPageDefault
  | .fine => geom.trackingPageHot

theorem TrackingGranule.pageSize_lt (geom : PageGeometry) (g : TrackingGranule) :
    g.pageSize geom < 2 ^ 64 := by
  cases g
  · exact geom.default_lt
  · exact geom.hot_lt

/-! ## The heap -/

def ADDRESS_SPACE : ℕ := 2 ^ 56

structure Heap where
  bytes : ℕ
  bytes_le : bytes ≤ ADDRESS_SPACE

/-! ## The bitmap -/

def isPowerOfTwo (n : ℕ) : Bool := n = 2 ^ n.log2

def divCeil (a b : ℕ) : ℕ := (a + b - 1) / b

def hex (n : ℕ) : String := "0x" ++ String.ofList (Nat.toDigits 16 n)

structure DirtyBitmap where
  ramStart : ℕ
  ramSize : ℕ
  pageSize : ℕ
  pageCount : ℕ
  words : List (BitVec 64)
  pageSize_pow : isPowerOfTwo pageSize = true
  pageSize_lt : pageSize < 2 ^ 64
  ramSize_pos : 0 < ramSize
  ram_lt : ramStart + ramSize < 2 ^ 64
  pageCount_eq : pageCount = divCeil ramSize pageSize
  words_length : words.length = divCeil pageCount 64
  addressable : 8 * words.length ≤ ADDRESS_SPACE

namespace DirtyBitmap

def new (heap : Heap) (ramStart ramSize pageSize : ℕ) (hlt : pageSize < 2 ^ 64) :
    Option (Except SnapshotError DirtyBitmap) :=
  if hpow : isPowerOfTwo pageSize = false then
    some (.error (.invalidPath s!"page_size must be a power of two: {pageSize}"))
  else if hsize : ramSize = 0 then
    some (.error (.invalidPath "dirty bitmap requires a non-empty RAM range"))
  else if hov : 2 ^ 64 ≤ ramStart + ramSize then
    some (.error (.invalidPath
      s!"RAM range overflows: start={hex ramStart}, size={hex ramSize}"))
  else if hheap : heap.bytes < 8 * divCeil (divCeil ramSize pageSize) 64 then none
  else
    some (.ok
      { ramStart, ramSize, pageSize
        pageCount := divCeil ramSize pageSize
        words := List.replicate (divCeil (divCeil ramSize pageSize) 64) 0#64
        pageSize_pow := by simpa using hpow
        pageSize_lt := hlt
        ramSize_pos := Nat.pos_of_ne_zero hsize
        ram_lt := Nat.lt_of_not_le hov
        pageCount_eq := rfl
        words_length := List.length_replicate
        addressable := by
          rw [List.length_replicate]
          exact (Nat.le_of_not_lt hheap).trans heap.bytes_le })

variable (b : DirtyBitmap)

def pageShift : ℕ := trailingZeros (BitVec.ofNat 64 b.pageSize)

def pageIndexOf (addr : ℕ) : Option ℕ :=
  if addr < b.ramStart then none
  else if b.ramSize ≤ addr - b.ramStart then none
  else some ((addr - b.ramStart) / 2 ^ b.pageShift)

def word (i : ℕ) : BitVec 64 := b.words.getD i 0#64

def setWord (i : ℕ) (x : BitVec 64) : DirtyBitmap :=
  { b with
    words := b.words.set i x
    words_length := by rw [List.length_set, b.words_length]
    addressable := by rw [List.length_set]; exact b.addressable }

def setDirtyByIndex (page : ℕ) : Bool × DirtyBitmap :=
  if b.pageCount ≤ page then (false, b)
  else
    let mask := 1#64 <<< (page % 64)
    let prev := b.word (page / 64)
    (prev &&& mask == 0#64, b.setWord (page / 64) (prev ||| mask))

def setDirty (addr : ℕ) : Bool × DirtyBitmap :=
  match b.pageIndexOf addr with
  | none => (false, b)
  | some page => b.setDirtyByIndex page

def isDirtyByIndex (page : ℕ) : Bool :=
  if b.pageCount ≤ page then false else b.word (page / 64) &&& (1#64 <<< (page % 64)) != 0#64

def isDirty (addr : ℕ) : Bool :=
  match b.pageIndexOf addr with
  | none => false
  | some page => b.isDirtyByIndex page

def drainWord (i : ℕ) : List ℕ × DirtyBitmap :=
  (((setBits (b.word i)).map (i * 64 + ·)).filter (· < b.pageCount), b.setWord i 0#64)

def drain : List ℕ × DirtyBitmap :=
  (List.range b.words.length).foldl
    (fun (out, b) i => let (pages, b) := b.drainWord i; (out ++ pages, b)) ([], b)

def foldPage (ratio page : ℕ) (fine : DirtyBitmap) : DirtyBitmap :=
  let fineStart := page * ratio % 2 ^ 64
  let fineEnd := min ((fineStart + ratio) % 2 ^ 64) fine.pageCount
  (List.range' fineStart (fineEnd - fineStart)).foldl (fun f p => (f.setDirtyByIndex p).2) fine

def foldWord (i : ℕ) (fine : DirtyBitmap) : DirtyBitmap :=
  ((setBits (b.word i)).takeWhile (i * 64 + · < b.pageCount)).foldl
    (fun fine bit => foldPage (b.pageSize / fine.pageSize) (i * 64 + bit) fine) fine

def foldIntoFiner (fine : DirtyBitmap) : Except SnapshotError DirtyBitmap :=
  if fine.ramStart ≠ b.ramStart ∨ fine.ramSize ≠ b.ramSize then
    .error (.invalidPath "fold_into_finer requires identical ranges")
  else if b.pageSize ≤ fine.pageSize then
    .error (.invalidPath "fold_into_finer expects a strictly smaller page size")
  else if ¬ fine.pageSize ∣ b.pageSize then
    .error (.invalidPath "coarse page must be a multiple of fine page")
  else .ok ((List.range b.words.length).foldl (fun fine i => b.foldWord i fine) fine)

/-! ## Pages and bits -/

def InRam (addr : ℕ) : Prop := b.ramStart ≤ addr ∧ addr < b.ramStart + b.ramSize

instance (addr : ℕ) : Decidable (b.InRam addr) := inferInstanceAs (Decidable (_ ∧ _))

def pageOf (addr : ℕ) : ℕ := (addr - b.ramStart) / b.pageSize

variable {b}

theorem exists_pageSize_eq (b : DirtyBitmap) : ∃ k < 64, b.pageSize = 2 ^ k := by
  refine ⟨b.pageSize.log2, ?_, of_decide_eq_true b.pageSize_pow⟩
  have h : b.pageSize = 2 ^ b.pageSize.log2 := of_decide_eq_true b.pageSize_pow
  refine (Nat.pow_lt_pow_iff_right Nat.one_lt_two).1 ?_
  rw [← h]
  exact b.pageSize_lt

theorem pageSize_pos (b : DirtyBitmap) : 0 < b.pageSize := by
  obtain ⟨k, -, hk⟩ := b.exists_pageSize_eq
  rw [hk]
  exact Nat.two_pow_pos k

theorem two_pow_pageShift (b : DirtyBitmap) : 2 ^ b.pageShift = b.pageSize := by
  obtain ⟨k, hk, hb⟩ := b.exists_pageSize_eq
  have h : BitVec.ofNat 64 b.pageSize = BitVec.twoPow 64 k := by
    refine BitVec.eq_of_toNat_eq ?_
    rw [hb, BitVec.toNat_ofNat, BitVec.toNat_twoPow]
  rw [pageShift, h, trailingZeros_twoPow hk, hb]

variable {i page addr q : ℕ}

theorem lt_divCeil_iff {n p : ℕ} (hp : 0 < p) : i < divCeil n p ↔ i * p < n := by
  rw [divCeil, Nat.lt_div_iff_mul_lt hp]
  constructor <;> intro h <;> omega

theorem lt_pageCount_iff : page < b.pageCount ↔ page * b.pageSize < b.ramSize := by
  rw [b.pageCount_eq, lt_divCeil_iff b.pageSize_pos]

theorem pageOf_lt (h : b.InRam addr) : b.pageOf addr < b.pageCount := by
  rw [lt_pageCount_iff, pageOf]
  have := Nat.div_mul_le_self (addr - b.ramStart) b.pageSize
  obtain ⟨h₁, h₂⟩ := h
  omega

theorem pageIndexOf_of_inRam (h : b.InRam addr) : b.pageIndexOf addr = some (b.pageOf addr) := by
  obtain ⟨h₁, h₂⟩ := h
  rw [pageIndexOf, if_neg (by omega), if_neg (by omega), two_pow_pageShift, pageOf]

theorem pageIndexOf_of_not_inRam (h : ¬ b.InRam addr) : b.pageIndexOf addr = none := by
  unfold InRam at h
  rw [pageIndexOf]
  split_ifs
  · rfl
  · rfl
  · omega

theorem isDirty_of_inRam (h : b.InRam addr) :
    b.isDirty addr = b.isDirtyByIndex (b.pageOf addr) := by
  rw [isDirty, pageIndexOf_of_inRam h]

theorem word_lt (h : page < b.pageCount) : page / 64 < b.words.length := by
  rw [b.words_length, lt_divCeil_iff (by omega)]
  omega

theorem isDirtyByIndex_iff :
    b.isDirtyByIndex page = true ↔ page < b.pageCount ∧ bitAt b.words page = true := by
  rw [isDirtyByIndex]
  split_ifs with h
  · simp [h]
  · rw [and_shiftLeft_ne_zero _ (Nat.mod_lt _ (by omega)), bitAt, word]
    simp [Nat.lt_of_not_le h]

@[simp] theorem setWord_pageCount (i : ℕ) (x : BitVec 64) :
    (b.setWord i x).pageCount = b.pageCount := rfl

/-! ## One bit -/

theorem isDirtyByIndex_setDirtyByIndex :
    (b.setDirtyByIndex page).2.isDirtyByIndex q = true ↔
      b.isDirtyByIndex q = true ∨ q = page ∧ page < b.pageCount := by
  rw [setDirtyByIndex]
  split_ifs with h
  · simp [Nat.not_lt.2 h]
  · have hlt := Nat.lt_of_not_le h
    have hbit : bitAt (b.setWord (page / 64) (b.word (page / 64) ||| 1#64 <<< (page % 64))).words q =
        (bitAt b.words q || decide (q = page)) := bitAt_set_or (word_lt hlt) q
    simp only [isDirtyByIndex_iff, hbit, Bool.or_eq_true, decide_eq_true_eq, hlt,
      and_true]
    constructor
    · rintro ⟨hq, hb | he⟩
      · exact .inl ⟨hq, hb⟩
      · exact .inr he
    · rintro (⟨hq, hb⟩ | rfl)
      · exact ⟨hq, .inl hb⟩
      · exact ⟨hlt, .inr rfl⟩

structure SameShape (b c : DirtyBitmap) : Prop where
  ramStart : c.ramStart = b.ramStart
  ramSize : c.ramSize = b.ramSize
  pageSize : c.pageSize = b.pageSize

namespace SameShape

variable {c d : DirtyBitmap}

theorem refl (b : DirtyBitmap) : SameShape b b := ⟨rfl, rfl, rfl⟩

theorem trans (h : SameShape b c) (h' : SameShape c d) : SameShape b d :=
  ⟨h'.ramStart.trans h.ramStart, h'.ramSize.trans h.ramSize, h'.pageSize.trans h.pageSize⟩

theorem pageCount (h : SameShape b c) : c.pageCount = b.pageCount := by
  rw [c.pageCount_eq, b.pageCount_eq, h.ramSize, h.pageSize]

theorem inRam (h : SameShape b c) : c.InRam addr ↔ b.InRam addr := by
  rw [InRam, InRam, h.ramStart, h.ramSize]

theorem pageOf (h : SameShape b c) (addr : ℕ) : c.pageOf addr = b.pageOf addr := by
  rw [DirtyBitmap.pageOf, DirtyBitmap.pageOf, h.ramStart, h.pageSize]

end SameShape

theorem sameShape_setWord (i : ℕ) (x : BitVec 64) : SameShape b (b.setWord i x) := ⟨rfl, rfl, rfl⟩

theorem sameShape_setDirtyByIndex (page : ℕ) : SameShape b (b.setDirtyByIndex page).2 := by
  rw [setDirtyByIndex]
  split_ifs
  · exact .refl b
  · exact sameShape_setWord _ _

theorem sameShape_setDirty (addr : ℕ) : SameShape b (b.setDirty addr).2 := by
  rw [setDirty]
  split
  · exact .refl b
  · exact sameShape_setDirtyByIndex _

variable {m : ℕ}

theorem isDirtyByIndex_setDirty :
    (b.setDirty m).2.isDirtyByIndex q = true ↔
      b.isDirtyByIndex q = true ∨ b.InRam m ∧ q = b.pageOf m := by
  by_cases hm : b.InRam m
  · rw [setDirty, pageIndexOf_of_inRam hm, isDirtyByIndex_setDirtyByIndex]
    simp [pageOf_lt hm, hm]
  · rw [setDirty, pageIndexOf_of_not_inRam hm]
    simp [hm]

theorem isDirty_setDirty {a : ℕ} (ha : b.InRam a) :
    (b.setDirty m).2.isDirty a = true ↔
      b.isDirty a = true ∨ b.InRam m ∧ b.pageOf m = b.pageOf a := by
  have hs := b.sameShape_setDirty m
  rw [isDirty_of_inRam (hs.inRam.2 ha), isDirty_of_inRam ha, hs.pageOf, isDirtyByIndex_setDirty,
    @eq_comm _ (b.pageOf a)]

/-! ## Draining a word -/

theorem mem_drainWord : q ∈ (b.drainWord i).1 ↔ b.isDirtyByIndex q = true ∧ q / 64 = i := by
  rw [drainWord, isDirtyByIndex_iff, List.mem_filter, decide_eq_true_eq, word, mem_map_setBits]
  tauto

theorem isDirtyByIndex_drainWord (hi : i < b.words.length) :
    (b.drainWord i).2.isDirtyByIndex q = true ↔
      b.isDirtyByIndex q = true ∧ q ∉ (b.drainWord i).1 := by
  have hbit : bitAt (b.setWord i 0#64).words q = (bitAt b.words q && decide (q / 64 ≠ i)) :=
    bitAt_set_zero hi
  rw [mem_drainWord, isDirtyByIndex_iff, isDirtyByIndex_iff, drainWord, hbit,
    Bool.and_eq_true, decide_eq_true_eq]
  tauto

theorem sameShape_drainWord (i : ℕ) : SameShape b (b.drainWord i).2 := sameShape_setWord i _

section Fold

variable {fine : DirtyBitmap}

theorem sameShape_foldl_set (ps : List ℕ) :
    ∀ fine : DirtyBitmap,
      SameShape fine (ps.foldl (fun f p => (f.setDirtyByIndex p).2) fine) := by
  induction ps with
  | nil => exact .refl
  | cons p ps ih =>
    intro fine
    exact (sameShape_setDirtyByIndex p).trans (ih _)

variable {q i : ℕ} {fine' : DirtyBitmap}

theorem isDirtyByIndex_foldl_set (ps : List ℕ) :
    ∀ fine : DirtyBitmap,
      (ps.foldl (fun f p => (f.setDirtyByIndex p).2) fine).isDirtyByIndex q = true ↔
        fine.isDirtyByIndex q = true ∨ q ∈ ps ∧ q < fine.pageCount := by
  induction ps with
  | nil => simp
  | cons p ps ih =>
    intro fine
    rw [List.foldl_cons, ih, isDirtyByIndex_setDirtyByIndex,
      (sameShape_setDirtyByIndex p).pageCount, List.mem_cons]
    constructor
    · rintro ((h | ⟨rfl, h⟩) | ⟨h, hq⟩)
      · exact .inl h
      · exact .inr ⟨.inl rfl, h⟩
      · exact .inr ⟨.inr h, hq⟩
    · rintro (h | ⟨rfl | h, hq⟩)
      · exact .inl (.inl h)
      · exact .inl (.inr ⟨rfl, hq⟩)
      · exact .inr ⟨h, hq⟩

structure Refines (b fine : DirtyBitmap) : Prop where
  ramStart : fine.ramStart = b.ramStart
  ramSize : fine.ramSize = b.ramSize
  lt : fine.pageSize < b.pageSize
  dvd : fine.pageSize ∣ b.pageSize

theorem Refines.congr (h : Refines b fine) (hs : SameShape fine fine') : Refines b fine' where
  ramStart := hs.ramStart.trans h.ramStart
  ramSize := hs.ramSize.trans h.ramSize
  lt := hs.pageSize ▸ h.lt
  dvd := hs.pageSize ▸ h.dvd

theorem Refines.congr_left {b' : DirtyBitmap} (h : Refines b fine) (hs : SameShape b b') :
    Refines b' fine where
  ramStart := h.ramStart.trans hs.ramStart.symm
  ramSize := h.ramSize.trans hs.ramSize.symm
  lt := hs.pageSize ▸ h.lt
  dvd := hs.pageSize ▸ h.dvd

theorem Refines.mul_ratio (h : Refines b fine) :
    b.pageSize / fine.pageSize * fine.pageSize = b.pageSize := Nat.div_mul_cancel h.dvd

theorem Refines.ratio_pos (h : Refines b fine) : 0 < b.pageSize / fine.pageSize :=
  Nat.div_pos h.lt.le fine.pageSize_pos

theorem pageCount_le (b : DirtyBitmap) : b.pageCount ≤ 2 ^ 59 := by
  by_contra hc
  have hw : 2 ^ 53 < b.words.length := by
    rw [b.words_length, lt_divCeil_iff (by omega)]
    omega
  have := b.addressable
  rw [ADDRESS_SPACE] at this
  omega

theorem Refines.mul_add_ratio_lt (h : Refines b fine) (hp : page < b.pageCount) :
    page * (b.pageSize / fine.pageSize) + b.pageSize / fine.pageSize < 2 ^ 64 := by
  have hfirst : page * (b.pageSize / fine.pageSize) < fine.pageCount := by
    rw [lt_pageCount_iff, Nat.mul_assoc, h.mul_ratio, h.ramSize]
    exact lt_pageCount_iff.1 hp
  have hratio : b.pageSize / fine.pageSize ≤ 2 ^ 63 := by
    obtain ⟨k, hk, hb⟩ := b.exists_pageSize_eq
    calc b.pageSize / fine.pageSize ≤ b.pageSize := Nat.div_le_self _ _
      _ = 2 ^ k := hb
      _ ≤ 2 ^ 63 := Nat.pow_le_pow_right (by omega) (by omega)
  have := fine.pageCount_le
  omega

theorem isDirtyByIndex_foldPage (h : Refines b fine) (hp : page < b.pageCount)
    (hq : q < fine.pageCount) :
    (foldPage (b.pageSize / fine.pageSize) page fine).isDirtyByIndex q = true ↔
      fine.isDirtyByIndex q = true ∨ q / (b.pageSize / fine.pageSize) = page := by
  have hlt := h.mul_add_ratio_lt hp
  have hpos := h.ratio_pos
  rw [foldPage, isDirtyByIndex_foldl_set, Nat.mod_eq_of_lt (by omega), Nat.mod_eq_of_lt hlt]
  refine or_congr_right ?_
  rw [List.mem_range'_1, Nat.div_eq_iff hpos]
  constructor
  · omega
  · omega

theorem sameShape_foldWord (b fine : DirtyBitmap) (i : ℕ) : SameShape fine (b.foldWord i fine) := by
  unfold foldWord
  generalize (setBits (b.word i)).takeWhile (i * 64 + · < b.pageCount) = l
  induction l generalizing fine with
  | nil => exact .refl fine
  | cons bit l ih => exact (sameShape_foldl_set _ _).trans (ih _)

theorem mem_takeWhile_word {bit : ℕ} :
    bit ∈ (setBits (b.word i)).takeWhile (i * 64 + · < b.pageCount) ↔
      bit < 64 ∧ b.isDirtyByIndex (i * 64 + bit) = true := by
  have hprefix : ∀ j k, j < k → decide (i * 64 + k < b.pageCount) = true →
      decide (i * 64 + j < b.pageCount) = true := by
    intro j k hjk hk
    simp only [decide_eq_true_eq] at hk ⊢
    omega
  have hmem := @mem_map_setBits b.words i (i * 64 + bit)
  simp only [List.mem_map, Nat.add_left_cancel_iff, exists_eq_right, mem_setBits] at hmem
  rw [mem_takeWhile_setBits hprefix, isDirtyByIndex_iff, decide_eq_true_eq, word, hmem]
  constructor
  · rintro ⟨⟨hbit, hi⟩, hlt⟩
    exact ⟨by omega, hlt, hbit⟩
  · rintro ⟨h64, hlt, hbit⟩
    exact ⟨⟨hbit, by omega⟩, hlt⟩

theorem isDirtyByIndex_foldl_foldPage (h : Refines b fine) {q : ℕ} (hq : q < fine.pageCount) :
    ∀ (l : List ℕ), (∀ page ∈ l, page < b.pageCount) → ∀ f : DirtyBitmap, SameShape fine f →
      ((l.foldl (fun f page => foldPage (b.pageSize / f.pageSize) page f) f).isDirtyByIndex q =
          true ↔
        f.isDirtyByIndex q = true ∨ q / (b.pageSize / fine.pageSize) ∈ l)
  | [], _, f, _ => by simp
  | page :: l, hl, f, hf => by
    have hs : SameShape f (foldPage (b.pageSize / f.pageSize) page f) := sameShape_foldl_set _ _
    rw [List.foldl_cons, isDirtyByIndex_foldl_foldPage h hq l
        (fun c hc => hl c (List.mem_cons_of_mem _ hc)) _ (hf.trans hs),
      isDirtyByIndex_foldPage (h.congr hf) (hl page List.mem_cons_self) (hf.pageCount ▸ hq),
      hf.pageSize, or_assoc, List.mem_cons]

theorem isDirtyByIndex_foldWord (h : Refines b fine) (hq : q < fine.pageCount) :
    (b.foldWord i fine).isDirtyByIndex q = true ↔
      fine.isDirtyByIndex q = true ∨
        b.isDirtyByIndex (q / (b.pageSize / fine.pageSize)) = true ∧
          q / (b.pageSize / fine.pageSize) / 64 = i := by
  have hlt : ∀ page ∈ ((setBits (b.word i)).takeWhile (i * 64 + · < b.pageCount)).map (i * 64 + ·),
      page < b.pageCount := by
    intro page hpage
    obtain ⟨bit, hbit, rfl⟩ := List.mem_map.1 hpage
    exact (isDirtyByIndex_iff.1 (mem_takeWhile_word.1 hbit).2).1
  have hfold := isDirtyByIndex_foldl_foldPage h hq _ hlt fine (.refl fine)
  rw [List.foldl_map] at hfold
  rw [foldWord, hfold]
  refine or_congr_right ⟨fun hmem => ?_, fun ⟨hd, hi⟩ => ?_⟩
  · obtain ⟨bit, hbit, he⟩ := List.mem_map.1 hmem
    obtain ⟨h64, hd⟩ := mem_takeWhile_word.1 hbit
    rw [← he]
    exact ⟨hd, by omega⟩
  · have hpage : i * 64 + q / (b.pageSize / fine.pageSize) % 64 =
        q / (b.pageSize / fine.pageSize) := by omega
    refine List.mem_map.2 ⟨q / (b.pageSize / fine.pageSize) % 64, ?_, hpage⟩
    exact mem_takeWhile_word.2 ⟨Nat.mod_lt _ (by decide), hpage.symm ▸ hd⟩

theorem Refines.inRam (h : Refines b fine) : fine.InRam addr ↔ b.InRam addr := by
  rw [InRam, InRam, h.ramStart, h.ramSize]

theorem Refines.pageOf_div (h : Refines b fine) (addr : ℕ) :
    fine.pageOf addr / (b.pageSize / fine.pageSize) = b.pageOf addr := by
  rw [pageOf, pageOf, h.ramStart, Nat.div_div_eq_div_mul, Nat.mul_comm, h.mul_ratio]

variable {a : ℕ}

theorem isDirty_foldWord (h : Refines b fine) (ha : b.InRam a) :
    (b.foldWord i fine).isDirty a = true ↔
      fine.isDirty a = true ∨ b.isDirty a = true ∧ b.pageOf a / 64 = i := by
  have hfine := h.inRam.2 ha
  have hs := b.sameShape_foldWord fine i
  rw [isDirty_of_inRam (hs.inRam.2 hfine), hs.pageOf, isDirtyByIndex_foldWord h (pageOf_lt hfine),
    h.pageOf_div, isDirty_of_inRam hfine, isDirty_of_inRam ha]

def foldWords (b : DirtyBitmap) (n : ℕ) (fine : DirtyBitmap) : DirtyBitmap :=
  (List.range n).foldl (fun f i => b.foldWord i f) fine

theorem foldWords_succ (n : ℕ) : b.foldWords (n + 1) fine = b.foldWord n (b.foldWords n fine) := by
  rw [foldWords, foldWords, List.range_succ, List.foldl_append, List.foldl_cons, List.foldl_nil]

theorem sameShape_foldWords (b fine : DirtyBitmap) (n : ℕ) :
    SameShape fine (b.foldWords n fine) := by
  induction n with
  | zero => exact .refl fine
  | succ n ih =>
    rw [foldWords_succ]
    exact ih.trans (sameShape_foldWord b _ n)

theorem isDirtyByIndex_foldWords (h : Refines b fine) (hq : q < fine.pageCount) (n : ℕ) :
    (b.foldWords n fine).isDirtyByIndex q = true ↔
      fine.isDirtyByIndex q = true ∨
        b.isDirtyByIndex (q / (b.pageSize / fine.pageSize)) = true ∧
          q / (b.pageSize / fine.pageSize) / 64 < n := by
  induction n with
  | zero => simp [foldWords]
  | succ n ih =>
    have hs := b.sameShape_foldWords fine n
    rw [foldWords_succ, isDirtyByIndex_foldWord (h.congr hs) (hs.pageCount ▸ hq), ih, hs.pageSize,
      or_assoc, ← and_or_left, Nat.lt_succ_iff_lt_or_eq]

theorem refines_of_foldIntoFiner (h : b.foldIntoFiner fine = .ok fine') :
    Refines b fine ∧ fine' = b.foldWords b.words.length fine := by
  rw [foldIntoFiner] at h
  split_ifs at h with h₁ h₂ h₃
  simp only [not_or, not_not] at h₁
  exact ⟨⟨h₁.1, h₁.2, Nat.lt_of_not_le h₂, h₃⟩, (Except.ok.inj h).symm⟩

theorem foldIntoFiner_of_refines (h : Refines b fine) :
    b.foldIntoFiner fine = .ok (b.foldWords b.words.length fine) := by
  rw [foldIntoFiner, if_neg (by simp [h.ramStart, h.ramSize]), if_neg (Nat.not_le.2 h.lt),
    if_neg (not_not.2 h.dvd), foldWords]

theorem isDirty_foldIntoFiner (h : b.foldIntoFiner fine = .ok fine')
    (hclean : ∀ q, fine.isDirtyByIndex q = false) (ha : b.InRam a) :
    fine'.isDirty a = b.isDirty a := by
  obtain ⟨hr, rfl⟩ := refines_of_foldIntoFiner h
  have hfine := hr.inRam.2 ha
  have hs := b.sameShape_foldWords fine b.words.length
  rw [Bool.eq_iff_iff, isDirty_of_inRam (hs.inRam.2 hfine), hs.pageOf,
    isDirtyByIndex_foldWords hr (pageOf_lt hfine), hclean, hr.pageOf_div, isDirty_of_inRam ha]
  simp [word_lt (pageOf_lt ha)]

end Fold

theorem new_ok {heap : Heap} {ramStart ramSize pageSize : ℕ} {hlt : pageSize < 2 ^ 64}
    (h : new heap ramStart ramSize pageSize hlt = some (.ok b)) :
    b.ramStart = ramStart ∧ b.ramSize = ramSize ∧ b.pageSize = pageSize ∧
      ∀ q, b.isDirtyByIndex q = false := by
  rw [new] at h
  split_ifs at h
  · cases h
  · cases h
  · cases h
  · obtain rfl := Except.ok.inj (Option.some.inj h)
    refine ⟨rfl, rfl, rfl, fun q => ?_⟩
    rw [← Bool.not_eq_true, isDirtyByIndex_iff, bitAt]
    rintro ⟨-, hbit⟩
    rw [List.getD_eq_getElem?_getD, List.getElem?_replicate] at hbit
    split_ifs at hbit <;> simp at hbit

end DirtyBitmap

end Squib.Snapshot
