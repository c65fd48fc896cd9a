import Squib.Lib.Latch
import Squib.Snapshot.Dirty

/-!
# Marking pages while a drain runs
-/

namespace Squib.Snapshot.DirtyBitmap

open Bits Latch

def drainIntoWord {β : Type} (callback : β → ℕ → β) (i : ℕ) (b : DirtyBitmap) (acc : β) :
    β × DirtyBitmap :=
  ((setBits (b.word i)).foldl
    (fun acc bit => if i * 64 + bit < b.pageCount then callback acc (i * 64 + bit) else acc) acc,
   b.setWord i 0#64)

def drainInto {β : Type} (callback : β → ℕ → β) (b : DirtyBitmap) (acc : β) : β × DirtyBitmap :=
  (List.range b.words.length).foldl (fun (acc, b) i => drainIntoWord callback i b acc) (acc, b)

variable {b : DirtyBitmap} {β : Type} {addr : ℕ} {c : DirtyBitmap}

theorem drainIntoWord_eq (callback : β → ℕ → β) (i : ℕ) (b : DirtyBitmap) (acc : β) :
    drainIntoWord callback i b acc = ((b.drainWord i).1.foldl callback acc, (b.drainWord i).2) := by
  rw [drainIntoWord, drainWord, List.foldl_filter, List.foldl_map]
  simp only [decide_eq_true_eq]

theorem drainInto_eq (callback : β → ℕ → β) (b : DirtyBitmap) (acc : β) :
    drainInto callback b acc = (b.drain.1.foldl callback acc, b.drain.2) := by
  suffices h : ∀ (l : List ℕ) (out : List ℕ) (c : DirtyBitmap),
      l.foldl (fun p i => drainIntoWord callback i p.2 p.1) (out.foldl callback acc, c) =
        ((l.foldl (fun p i => (p.1 ++ (p.2.drainWord i).1, (p.2.drainWord i).2))
            (out, c)).1.foldl callback acc,
         (l.foldl (fun p i => (p.1 ++ (p.2.drainWord i).1, (p.2.drainWord i).2))
            (out, c)).2) from h _ [] b
  intro l
  induction l with
  | nil => exact fun out c => rfl
  | cons i l ih =>
    intro out c
    rw [List.foldl_cons]
    show l.foldl _ (drainIntoWord callback i c (out.foldl callback acc)) = _
    rw [drainIntoWord_eq, ← List.foldl_append]
    exact ih _ _

theorem drainWord_sorted (b : DirtyBitmap) (i : ℕ) : (b.drainWord i).1.Pairwise (· < ·) := by
  refine List.Pairwise.filter _ (List.Pairwise.map _ (fun j k hjk => ?_) (setBits_sorted _))
  omega

theorem setDirty_fst :
    (b.setDirty addr).1 = true ↔
      ∃ page, b.pageIndexOf addr = some page ∧ b.isDirtyByIndex page = false := by
  by_cases h : b.InRam addr
  · rw [setDirty, pageIndexOf_of_inRam h]
    simp only [Option.some.injEq, exists_eq_left', setDirtyByIndex, isDirtyByIndex,
      if_neg (Nat.not_le.2 (pageOf_lt h))]
    simp
  · rw [setDirty, pageIndexOf_of_not_inRam h]
    simp

theorem SameShape.pageIndexOf (h : SameShape b c) (addr : ℕ) :
    c.pageIndexOf addr = b.pageIndexOf addr := by
  by_cases ha : b.InRam addr
  · rw [pageIndexOf_of_inRam ha, pageIndexOf_of_inRam (h.inRam.2 ha), h.pageOf]
  · rw [pageIndexOf_of_not_inRam ha, pageIndexOf_of_not_inRam (mt h.inRam.1 ha)]

theorem SameShape.words_length (h : SameShape b c) : c.words.length = b.words.length := by
  rw [c.words_length, b.words_length, h.pageCount]

def race (b : DirtyBitmap) : Bank DirtyBitmap ℕ where
  words := b.words.length
  key := b.pageIndexOf
  held := isDirtyByIndex
  set addr c := c.setDirty addr
  swap i c := c.drainWord i
  Inv := SameShape b
  inv_set h := h.trans (sameShape_setDirty _)
  inv_swap h := h.trans (sameShape_drainWord _)
  set_fresh {c addr} h := by rw [setDirty_fst, h.pageIndexOf]
  held_set {c addr page} h := by
    rw [Bool.eq_iff_iff, isDirtyByIndex_setDirty, Bool.or_eq_true, decide_eq_true_eq,
      ← h.pageIndexOf]
    refine or_congr_right ?_
    by_cases ha : c.InRam addr
    · simp [pageIndexOf_of_inRam ha, ha, eq_comm]
    · simp [pageIndexOf_of_not_inRam ha, ha]
  mem_swap _ _ hk := mem_drainWord.1 hk
  held_swap {c i page} h hi := by
    rw [Bool.eq_iff_iff, isDirtyByIndex_drainWord (h.words_length ▸ hi)]
    simp
  sorted := drainWord_sorted _ _

theorem run_drain (b : DirtyBitmap) :
    (b.race.run (.start :: List.replicate b.words.length (.word 0)) b).mem = b.drain.2 ∧
      (b.race.run (.start :: List.replicate b.words.length (.word 0)) b).sweeps =
        [⟨b.words.length, b.drain.1⟩] :=
  Bank.run_alone (B := b.race) le_rfl b

theorem pageIndexOf_lt {page : ℕ} (h : b.pageIndexOf addr = some page) : page < b.pageCount := by
  by_cases ha : b.InRam addr
  · rw [pageIndexOf_of_inRam ha] at h
    cases h
    exact pageOf_lt ha
  · rw [pageIndexOf_of_not_inRam ha] at h
    cases h

/-- **Nothing marked is lost or reported twice.** -/
theorem reports_once {heap : Heap} {ramStart ramSize pageSize : ℕ} {hlt : pageSize < 2 ^ 64}
    (h : new heap ramStart ramSize pageSize hlt = some (.ok b)) (ops : List (Op ℕ)) :
    OnceEach b.pageIndexOf (b.race.run ops b).log (b.race.run ops b).mem.isDirtyByIndex ∧
      (∀ d drain, (b.race.run ops b).sweeps[d]? = some drain →
        drain.out.Pairwise (· < ·) ∧ (∀ page ∈ drain.out, page < b.pageCount) ∧
          drain.out = takenBy d (b.race.run ops b).log) ∧
      ∀ (c : DirtyBitmap) {β : Type} (callback : β → ℕ → β) (acc : β),
        (∀ i, drainIntoWord callback i c acc =
          ((c.drainWord i).1.foldl callback acc, (c.drainWord i).2)) ∧
          drainInto callback c acc = (c.drain.1.foldl callback acc, c.drain.2) := by
  have hrun := Bank.latched_run (B := b.race) (.refl b) (new_ok h).2.2.2 ops
  refine ⟨hrun.onceEach, fun d drain hd => ?_, fun c β callback acc =>
    ⟨fun i => drainIntoWord_eq callback i c acc, drainInto_eq callback c acc⟩⟩
  have hr := hrun.reported d drain hd
  refine ⟨hr.sorted, fun page hpage => ?_, hr.taken⟩
  rw [hr.taken] at hpage
  obtain ⟨addr, haddr⟩ := hrun.onceEach.exists_key hpage
  exact pageIndexOf_lt haddr

/-- One host page, marked while a drain is called, and reported by it. -/
theorem reports_once_page :
    ∃ b, new ⟨8, by decide⟩ 0x80000000 0x4000 0x4000 (by decide) = some (.ok b) ∧
      (b.race.run [.start, .set 0x80000000, .word 0] b).log = [.set 0x80000000 true, .take 0 [0]] ∧
      OnceEach b.pageIndexOf (b.race.run [.start, .set 0x80000000, .word 0] b).log
        (b.race.run [.start, .set 0x80000000, .word 0] b).mem.isDirtyByIndex := by
  refine ⟨_, rfl, by decide +kernel, ?_⟩
  exact (@reports_once _ ⟨8, by decide⟩ 0x80000000 0x4000 0x4000 (by decide) rfl _).1

end Squib.Snapshot.DirtyBitmap
