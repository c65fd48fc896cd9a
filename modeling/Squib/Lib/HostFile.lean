import Mathlib.Algebra.Group.Nat.Defs
import Mathlib.Order.Lattice
import Mathlib.Order.Nat
import Squib.Lib.Disk

/-!
# An open file
-/

namespace HostFile

open Fs (overwrite)

inductive Fate where
  | ok
  | fail (msg : String) (done : ℕ)
  deriving DecidableEq, Repr

def Fate.readLen (n off len : ℕ) : Fate → ℕ
  | .ok => min len (n - off)
  | .fail _ done => min done (min len (n - off))

def Fate.writeLen (len : ℕ) : Fate → ℕ
  | .ok => len
  | .fail _ done => min done len

structure Access where
  write : Bool
  off : ℕ
  len : ℕ
  deriving DecidableEq, Repr

structure File where
  data : List UInt8
  pos : ℕ := 0
  fate : ℕ → Fate := fun _ => .ok
  clock : ℕ := 0
  touched : List Access := []

def maxOffset : ℕ := 2 ^ 63

def invalidArgument : String := "Invalid argument (os error 22)"

namespace File

variable (f : File)

def readLen (off len : ℕ) : ℕ := (f.fate f.clock).readLen f.data.length off len

def writeLen (len : ℕ) : ℕ := (f.fate f.clock).writeLen len

def touch (a : Access) : File := { f with touched := f.touched ++ [a], clock := f.clock + 1 }

def store (off : ℕ) (bs : List UInt8) : File :=
  { f with data := if bs = [] then f.data else overwrite f.data off bs }

def readExactAt (off len : ℕ) : Except String (Vector UInt8 len) × File :=
  if len = 0 then (.ok (.replicate len 0), f)
  else if maxOffset ≤ off then (.error invalidArgument, f)
  else
    let f' := f.touch ⟨false, off, f.readLen off len⟩
    match f.fate f.clock with
    | .fail msg _ => (.error msg, f')
    | .ok =>
      if h : off + len ≤ f.data.length then
        (.ok ⟨((f.data.drop off).take len).toArray, by simp; omega⟩, f')
      else (.error "failed to fill whole buffer", f')

def writeAllAt (off : ℕ) (bs : List UInt8) : Except String Unit × File :=
  if bs = [] then (.ok (), f)
  else if maxOffset ≤ off then (.error invalidArgument, f)
  else
    let n := f.writeLen bs.length
    let f' := (f.store off (bs.take n)).touch ⟨true, off, n⟩
    match f.fate f.clock with
    | .fail msg _ => (.error msg, f')
    | .ok => (.ok (), f')

def seekStart (off : ℕ) : Except String Unit × File :=
  if maxOffset ≤ off then (.error invalidArgument, f) else (.ok (), { f with pos := off })

def readExact (len : ℕ) : Except String (Vector UInt8 len) × File :=
  let (r, f') := f.readExactAt f.pos len
  (r, { f' with pos := f.pos + f.readLen f.pos len })

def writeAll (bs : List UInt8) : Except String Unit × File :=
  let (r, f') := f.writeAllAt f.pos bs
  (r, { f' with pos := f.pos + f.writeLen bs.length })

def syncData : Except String Unit × File :=
  match f.fate f.clock with
  | .fail msg _ => (.error msg, { f with clock := f.clock + 1 })
  | .ok => (.ok (), { f with clock := f.clock + 1 })

end File

/-! ## What transfers do -/

def extent (n : ℕ) (accesses : List Access) : ℕ :=
  accesses.foldl (fun n a => if a.write ∧ a.len ≠ 0 then max n (a.off + a.len) else n) n

structure Moved (f f' : File) (accesses : List Access) : Prop where
  fate : f'.fate = f.fate
  touched : f'.touched = f.touched ++ accesses
  length : f'.data.length = extent f.data.length accesses
  same : (∀ a ∈ accesses, a.write = false) → f'.data = f.data

namespace Moved

variable {f f' f'' : File} {as bs : List Access} {off len : ℕ} {buf : List UInt8}

theorem refl (f : File) : Moved f f [] := ⟨rfl, by simp, rfl, fun _ => rfl⟩

theorem trans (h : Moved f f' as) (h' : Moved f' f'' bs) : Moved f f'' (as ++ bs) where
  fate := h'.fate.trans h.fate
  touched := by rw [h'.touched, h.touched, List.append_assoc]
  length := by rw [h'.length, h.length, extent, extent, extent, List.foldl_append]
  same hreads := by
    rw [h'.same fun a ha => hreads a (List.mem_append_right _ ha),
      h.same fun a ha => hreads a (List.mem_append_left _ ha)]

theorem of_eq (hdata : f'.data = f.data) (hfate : f'.fate = f.fate) (htouched : f'.touched = f.touched) :
    Moved f f' [] :=
  ⟨hfate, by rw [htouched, List.append_nil], by rw [hdata]; rfl, fun _ => hdata⟩

theorem touch_read (f : File) (off n : ℕ) : Moved f (f.touch ⟨false, off, n⟩) [⟨false, off, n⟩] :=
  ⟨rfl, rfl, by simp [extent, File.touch], fun _ => rfl⟩

theorem length_overwrite_max {c bs : List UInt8} (hbs : bs ≠ []) (off : ℕ) :
    (overwrite c off bs).length = max c.length (off + bs.length) := by
  have := List.length_pos_iff.2 hbs
  simp only [overwrite, List.length_append, List.length_take, List.length_replicate,
    List.length_drop]
  omega

theorem touch_store (f : File) (off : ℕ) (bs : List UInt8) :
    Moved f ((f.store off bs).touch ⟨true, off, bs.length⟩) [⟨true, off, bs.length⟩] where
  fate := rfl
  touched := rfl
  length := by
    by_cases hbs : bs = []
    · simp [File.touch, File.store, extent, hbs]
    · have hlen : bs.length ≠ 0 := by simpa using hbs
      simp [File.touch, File.store, extent, hbs, length_overwrite_max hbs]
  same h := absurd (h _ List.mem_cons_self) (by simp)

end Moved

namespace File

variable {f : File} {off len : ℕ} {bs : List UInt8}

theorem readExactAt_idle (h : len = 0 ∨ maxOffset ≤ off) : (f.readExactAt off len).2 = f := by
  obtain hlen | hoff := h
  · rw [readExactAt, if_pos hlen]
  · rw [readExactAt]
    split <;> rfl

theorem readExactAt_live (hlen : len ≠ 0) (hoff : off < maxOffset) :
    (f.readExactAt off len).2 = f.touch ⟨false, off, f.readLen off len⟩ ∧
      ((f.readExactAt off len).1.isOk ↔ f.fate f.clock = .ok ∧ off + len ≤ f.data.length) := by
  rw [readExactAt, if_neg hlen, if_neg (not_le.2 hoff)]
  cases hfate : f.fate f.clock with
  | fail msg done => simp [Except.isOk, Except.toBool]
  | ok =>
    dsimp only
    split_ifs with hfits <;> simp [Except.isOk, Except.toBool, hfits]

theorem writeAllAt_idle (h : bs = [] ∨ maxOffset ≤ off) : (f.writeAllAt off bs).2 = f := by
  obtain hbs | hoff := h
  · rw [writeAllAt, if_pos hbs]
  · rw [writeAllAt]
    split <;> rfl

theorem writeLen_le : f.writeLen len ≤ len := by
  rw [writeLen, Fate.writeLen.eq_def]
  split
  · exact le_rfl
  · exact min_le_right _ _

theorem writeAllAt_live (hbs : bs ≠ []) (hoff : off < maxOffset) :
    Moved f (f.writeAllAt off bs).2 [⟨true, off, f.writeLen bs.length⟩] ∧
      (f.writeAllAt off bs).2.clock = f.clock + 1 ∧
      ((f.writeAllAt off bs).1.isOk ↔ f.fate f.clock = .ok) := by
  have hmoved := Moved.touch_store f off (bs.take (f.writeLen bs.length))
  rw [List.length_take_of_le writeLen_le] at hmoved
  rw [writeAllAt, if_neg hbs, if_neg (not_le.2 hoff)]
  cases hfate : f.fate f.clock with
  | fail msg done | ok => exact ⟨hmoved, rfl, by simp [Except.isOk, Except.toBool]⟩

end File

end HostFile
