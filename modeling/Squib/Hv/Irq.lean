import Squib.Lib.Bits
import Squib.Lib.Latch

/-!
# The IRQ shadow of a vCPU

Devices set the bit of an INTID from any thread; the vCPU thread swaps each word to zero and asserts
the INTIDs that it finds.
-/

namespace Squib

open Bits Latch

def MAX_TRACKED_INTID : ℕ := 1024

def WORD_BITS : ℕ := 64

def WORDS : ℕ := MAX_TRACKED_INTID / WORD_BITS

def bitPosition (intid : ℕ) : Option (ℕ × BitVec 64) :=
  if MAX_TRACKED_INTID ≤ intid then none
  else some (intid / WORD_BITS, 1#64 <<< (intid % WORD_BITS))

structure IrqShadow where
  words : List (BitVec 64)
  words_length : words.length = WORDS

namespace IrqShadow

def new : IrqShadow := ⟨List.replicate WORDS 0#64, List.length_replicate⟩

variable (s : IrqShadow)

def setWord (i : ℕ) (x : BitVec 64) : IrqShadow :=
  ⟨s.words.set i x, by rw [List.length_set, s.words_length]⟩

def inject (intid : ℕ) : Bool × IrqShadow :=
  match bitPosition intid with
  | none => (false, s)
  | some (word, mask) =>
    let prev := s.words.getD word 0#64
    (prev &&& mask == 0#64, s.setWord word (prev ||| mask))

def emitBits (base : ℕ) : ℕ → BitVec 64 → List ℕ
  | 0, _ => []
  | n + 1, bits =>
    if bits = 0#64 then []
    else (base + trailingZeros bits) ::
      emitBits base n (bits &&& ~~~(1#64 <<< trailingZeros bits))

def drainWord (idx : ℕ) : List ℕ × IrqShadow :=
  (emitBits (idx * WORD_BITS) 64 (s.words.getD idx 0#64), s.setWord idx 0#64)

def drain {β : Type} (emit : β → ℕ → β) (acc : β) : β × IrqShadow :=
  (List.range s.words.length).foldl
    (fun (acc, s) idx => let (intids, s) := s.drainWord idx; (intids.foldl emit acc, s)) (acc, s)

/-! ## Bits -/

def pending (intid : ℕ) : Bool := bitAt s.words intid

variable {s}

theorem and_not_lowest {x : BitVec 64} (hx : x ≠ 0#64) :
    x &&& ~~~(1#64 <<< trailingZeros x) = clearLowest x := by
  refine BitVec.eq_of_getLsbD_eq fun i hi => ?_
  rw [getLsbD_clearLowest hx, BitVec.getLsbD_and, BitVec.getLsbD_not, ← BitVec.twoPow_eq,
    BitVec.getLsbD_twoPow]
  by_cases h : i = trailingZeros x
  · simp [h, trailingZeros_lt hx]
  · simp [h, hi, Ne.symm h]

theorem emitBits_eq (base n : ℕ) (x : BitVec 64) :
    emitBits base n x = (visit n x).map (base + ·) := by
  induction n generalizing x with
  | zero => rfl
  | succ n ih =>
    rw [emitBits, visit]
    split_ifs with hx
    · rfl
    · rw [and_not_lowest hx, ih, List.map_cons]

theorem drainWord_fst (idx : ℕ) :
    (s.drainWord idx).1 = (setBits (s.words.getD idx 0#64)).map (idx * 64 + ·) :=
  emitBits_eq _ _ _

def tracked (intid : ℕ) : Option ℕ := if intid < MAX_TRACKED_INTID then some intid else none

variable {intid : ℕ}

theorem word_lt (h : intid < MAX_TRACKED_INTID) : intid / 64 < s.words.length := by
  rw [s.words_length]
  change intid < 1024 at h
  change intid / 64 < 16
  omega

theorem inject_of_lt (h : intid < MAX_TRACKED_INTID) :
    s.inject intid = (!s.pending intid, s.setWord (intid / 64)
      (s.words.getD (intid / 64) 0#64 ||| 1#64 <<< (intid % 64))) := by
  have hmask := and_shiftLeft_ne_zero (s.words.getD (intid / 64) 0#64)
    (Nat.mod_lt intid (by decide : 0 < 64))
  rw [inject, bitPosition, if_neg (Nat.not_le.2 h), pending, bitAt, ← hmask, bne, Bool.not_not]
  rfl

theorem inject_of_ge (h : MAX_TRACKED_INTID ≤ intid) : s.inject intid = (false, s) := by
  rw [inject, bitPosition, if_pos h]

def bank : Bank IrqShadow ℕ where
  words := WORDS
  key := tracked
  held := pending
  set intid s := s.inject intid
  swap idx s := s.drainWord idx
  Inv _ := True
  inv_set _ := trivial
  inv_swap _ := trivial
  set_fresh {s intid} _ := by
    rw [tracked]
    split_ifs with h
    · simp [inject_of_lt h]
    · simp [inject_of_ge (Nat.le_of_not_lt h)]
  held_set {s intid k} _ := by
    rw [tracked]
    split_ifs with h
    · rw [inject_of_lt h, pending, setWord, bitAt_set_or (word_lt h)]
      simp [pending, eq_comm]
    · simp [inject_of_ge (Nat.le_of_not_lt h)]
  mem_swap {s idx k} _ _ hk := mem_map_setBits.1 (drainWord_fst idx ▸ hk)
  held_swap {s idx k} _ hidx := by
    have hbit : (s.drainWord idx).2.pending k = (s.pending k && decide (k / 64 ≠ idx)) :=
      bitAt_set_zero (s.words_length ▸ hidx)
    rw [hbit, drainWord_fst, Bool.eq_iff_iff]
    simp only [Bool.and_eq_true, decide_eq_true_eq, mem_map_setBits, pending]
    tauto
  sorted {s idx} := by
    rw [drainWord_fst]
    refine List.Pairwise.map _ (fun j k hjk => ?_) (setBits_sorted _)
    omega

theorem run_drain (s : IrqShadow) :
    (bank.run (.start :: List.replicate WORDS (.word 0)) s).sweeps =
      [⟨WORDS, (s.drain (fun out intid => out ++ [intid]) []).1⟩] := by
  have hpush : ∀ out intids : List ℕ,
      intids.foldl (fun out intid => out ++ [intid]) out = out ++ intids := by
    intro out intids
    rw [List.foldl_append_eq_append, List.flatMap_def.symm, List.flatMap_singleton']
  refine (Bank.run_alone (B := bank) (le_refl WORDS) s).2.trans ?_
  rw [drain, s.words_length]
  simp only [hpush]
  rfl

theorem pending_new (intid : ℕ) : new.pending intid = false := by
  rw [pending, bitAt, new, List.getD_eq_getElem?_getD, List.getElem?_replicate]
  split_ifs <;> simp

/-- **No interrupt is lost or invented.** -/
theorem emits_once (ops : List (Op ℕ)) :
    OnceEach tracked (bank.run ops new).log (bank.run ops new).mem.pending ∧
      ∀ d drain, (bank.run ops new).sweeps[d]? = some drain →
        drain.out = takenBy d (bank.run ops new).log := by
  have h := Bank.latched_run (B := bank) trivial pending_new ops
  exact ⟨h.onceEach, fun d drain hd => (h.reported d drain hd).taken⟩

end IrqShadow

end Squib
