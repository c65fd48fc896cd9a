import Squib.Lib.Ring
import Squib.Lib.Run
import Squib.Virtio.Posted

/-!
# Both rings over whole runs
-/

namespace Squib

open Checked Bytes GuestMemory Run

namespace Queue

/-! ## What the driver sees -/

def availSlotAddr (q : Queue) (i : ℕ) : GuestAddress := q.availRingAddr + 4 + UInt64.ofNat i * 2

def usedSlotAddr (q : Queue) (i : ℕ) : GuestAddress := q.usedRingAddr + 4 + UInt64.ofNat i * 8

def readUsedElem (q : Queue) (m : GuestMemory) (i : ℕ) : Except Error (UInt32 × UInt32) := do
  let id ← m.readU32Le (q.usedSlotAddr i)
  let len ← m.readU32Le (q.usedSlotAddr i + 4)
  return (id, len)

def usedElem (q : Queue) (m : GuestMemory) (i : ℕ) : Option (UInt32 × UInt32) :=
  (q.readUsedElem m i).toOption

def usedIdx (q : Queue) (m : GuestMemory) : Option UInt16 := (m.readU16Le q.usedIdxAddr).toOption

def pushStages (q : Queue) (m : GuestMemory) (headIndex : UInt16) (bytesWritten : UInt32) :
    List GuestMemory :=
  match m.writeU32Le q.usedElemAddr headIndex.toUInt32 with
  | .error _ => []
  | .ok m₁ =>
    match m₁.writeU32Le q.usedElemLenAddr bytesWritten with
    | .error _ => [m₁]
    | .ok m₂ =>
      match m₂.writeU16Le q.usedIdxAddr (q.nextUsedIdx + 1) with
      | .error _ => [m₁, m₂]
      | .ok m₃ => [m₁, m₂, m₃]

structure Fresh (q : Queue) : Prop where
  valid : q.isValid = true
  avail : q.nextAvailIdx = 0
  used : q.nextUsedIdx = 0
  powerOfTwo : ∃ e, q.size.toNat = 2 ^ e

structure UsedMapped (q : Queue) (m : GuestMemory) : Prop where
  elem : ∀ i < q.size.toNat, m.contains (q.usedSlotAddr i) 4 = true ∧
    m.contains (q.usedSlotAddr i + 4) 4 = true
  idx : m.contains q.usedIdxAddr 2 = true

structure Covers (q : Queue) (start : Option UInt16) (log : List (UInt32 × UInt32)) (begun : ℕ)
    (m : GuestMemory) : Prop where
  idx : q.usedIdx m = if log = [] then start else some (UInt16.ofNat log.length)
  elems : Ring.Shows q.size.toNat log begun (q.usedElem m)

end Queue

/-! ## Runs -/

structure Rings where
  queue : Queue
  mem : GuestMemory
  pops : List UInt16 := []
  pushes : List (UInt32 × UInt32) := []

inductive RingOp where
  | pop
  | push (headIndex : UInt16) (bytesWritten : UInt32)
  | others (mem : GuestMemory)

def poppedHead : Except QueueError (Option DescriptorChain) → List UInt16
  | .ok (some c) => [c.headIndex]
  | _ => []

def pushedElem (headIndex : UInt16) (bytesWritten : UInt32) :
    Except QueueError Unit → List (UInt32 × UInt32)
  | .ok _ => [(headIndex.toUInt32, bytesWritten)]
  | .error _ => []

def Rings.step (s : Rings) : RingOp → Option Rings
  | .pop =>
    let r := s.queue.popAvail s.mem
    some { s with queue := r.2, pops := s.pops ++ poppedHead r.1 }
  | .push headIndex bytesWritten =>
    let r := s.queue.pushUsed s.mem headIndex bytesWritten
    some { s with
      queue := r.2.1
      mem := r.2.2
      pushes := s.pushes ++ pushedElem headIndex bytesWritten r.1 }
  | .others mem => some { s with mem }

def Respects (q : Queue) (s : Rings) : RingOp → Prop
  | .others mem => SameOutside (fun a => ¬ q.InUsedRing a) s.mem mem
  | _ => True

structure Cycles (q : Queue) (start : Option UInt16) (s : Rings) : Prop where
  pop_some : ∀ c q', s.queue.popAvail s.mem = (.ok (some c), q') →
    s.mem.readU16Le (q.availSlotAddr (s.pops.length % q.size.toNat)) = .ok c.headIndex ∧
      ∃ idx, s.mem.readU16Le q.availIdxAddr = .ok idx ∧ idx.toNat ≠ s.pops.length % 2 ^ 16
  pop_other : ∀ r q', s.queue.popAvail s.mem = (r, q') → (∀ c, r ≠ .ok (some c)) → q' = s.queue
  push : ∀ headIndex bytesWritten, ∃ q' m₁ m₂ m₃,
    s.queue.pushStages s.mem headIndex bytesWritten = [m₁, m₂, m₃] ∧
    s.queue.pushUsed s.mem headIndex bytesWritten = (.ok (), q', m₃) ∧
    q.usedElem m₃ (s.pushes.length % q.size.toNat) = some (headIndex.toUInt32, bytesWritten) ∧
    q.usedIdx m₃ = some (UInt16.ofNat (s.pushes.length + 1)) ∧
    q.Covers start s.pushes (s.pushes.length + 1) m₁ ∧
    q.Covers start s.pushes (s.pushes.length + 1) m₂ ∧
    q.Covers start (s.pushes ++ [(headIndex.toUInt32, bytesWritten)]) (s.pushes.length + 1) m₃
  covers : q.Covers start s.pushes s.pushes.length s.mem

/-! ## Addresses -/

namespace Queue

variable {q : Queue} {m m' : GuestMemory} {i k : ℕ} {off : UInt64} {n : ℕ}

theorem span_apart {base off' : UInt64} {n' a : ℕ} (h : Span (base + off) n a)
    (hn : off.toNat + n ≤ 2 ^ 64) (hn' : off'.toNat + n' ≤ 2 ^ 64)
    (hapart : off.toNat + n ≤ off'.toNat ∨ off'.toNat + n' ≤ off.toNat) :
    ¬ Span (base + off') n' a := by
  intro h'
  obtain ⟨j, hj, rfl⟩ := span_offset h
  obtain ⟨j', hj', heq⟩ := span_offset h'
  omega

theorem toUInt64_slot (hpow : ∃ e, q.size.toNat = 2 ^ e) (k : ℕ) :
    (UInt16.ofNat k % q.size).toUInt64 = UInt64.ofNat (k % q.size.toNat) := by
  have hdvd : q.size.toNat ∣ 2 ^ 16 := by
    obtain ⟨e, he⟩ := hpow
    have hlt := q.size.toNat_lt
    rw [he] at hlt ⊢
    exact Nat.pow_dvd_pow 2 ((Nat.pow_lt_pow_iff_right (by decide)).1 hlt).le
  have hpos : 0 < q.size.toNat := Nat.pos_of_dvd_of_pos hdvd (by decide)
  have hlt := (Nat.mod_lt k hpos).trans q.size.toNat_lt
  apply UInt64.toNat_inj.1
  rw [UInt16.toNat_toUInt64, UInt16.toNat_mod, UInt16.toNat_ofNat', Nat.mod_mod_of_dvd _ hdvd,
    UInt64.toNat_ofNat', Nat.mod_eq_of_lt (a := k % q.size.toNat) (by omega)]

theorem usedElemAddr_cursor (hpow : ∃ e, q.size.toNat = 2 ^ e) (a : UInt16) (k : ℕ) :
    usedElemAddr { q with nextAvailIdx := a, nextUsedIdx := UInt16.ofNat k } =
      q.usedSlotAddr (k % q.size.toNat) :=
  congrArg (fun x => q.usedRingAddr + 4 + x * 8) (toUInt64_slot hpow k)

theorem availRingEntryAddr_cursor (hpow : ∃ e, q.size.toNat = 2 ^ e) (k : ℕ) :
    q.availRingEntryAddr (UInt16.ofNat k) = q.availSlotAddr (k % q.size.toNat) :=
  congrArg (fun x => q.availRingAddr + 4 + x * 2) (toUInt64_slot hpow k)

theorem toNat_usedOffset (hi : i < q.size.toNat) : (4 + UInt64.ofNat i * 8).toNat = 4 + i * 8 := by
  have hsize := q.size.toNat_lt
  rw [UInt64.toNat_add, UInt64.toNat_mul, UInt64.toNat_ofNat', Nat.mod_eq_of_lt (a := i) (by omega)]
  change (4 + i * 8 % 2 ^ 64) % 2 ^ 64 = _
  omega

theorem usedSlotAddr_eq (q : Queue) (i : ℕ) :
    q.usedSlotAddr i = q.usedRingAddr + (4 + UInt64.ofNat i * 8) :=
  UInt64.add_assoc ..

theorem usedSlotAddr_add (q : Queue) (i : ℕ) :
    q.usedSlotAddr i + 4 = q.usedRingAddr + (4 + UInt64.ofNat i * 8 + 4) := by
  rw [usedSlotAddr_eq, UInt64.add_assoc]

theorem toNat_usedOffset_add (hi : i < q.size.toNat) :
    (4 + UInt64.ofNat i * 8 + 4).toNat = 8 + i * 8 := by
  have hsize := q.size.toNat_lt
  rw [UInt64.toNat_add, toNat_usedOffset hi]
  change (4 + i * 8 + 4) % 2 ^ 64 = _
  omega

/-! ## Reads of the used ring -/

variable {id len : UInt32} {A : ℕ → Prop} {m₁ m₂ m₃ : GuestMemory} {start : Option UInt16}
  {log : List (UInt32 × UInt32)}

theorem usedElem_eq_some (hid : m.readU32Le (q.usedSlotAddr i) = .ok id)
    (hlen : m.readU32Le (q.usedSlotAddr i + 4) = .ok len) : q.usedElem m i = some (id, len) := by
  rw [usedElem, readUsedElem, hid, hlen]
  rfl

theorem usedElem_congr (hm : SameOutside A m m')
    (h : ∀ a, A a → ¬ Span (q.usedSlotAddr i) 4 a ∧ ¬ Span (q.usedSlotAddr i + 4) 4 a) :
    q.usedElem m' i = q.usedElem m i := by
  rw [usedElem, usedElem, readUsedElem, readUsedElem, hm.readU32Le fun a ha => (h a ha).1,
    hm.readU32Le fun a ha => (h a ha).2]

theorem usedIdx_congr (hm : SameOutside A m m') (h : ∀ a, A a → ¬ Span q.usedIdxAddr 2 a) :
    q.usedIdx m' = q.usedIdx m := by
  rw [usedIdx, usedIdx, hm.readU16Le h]

theorem usedElem_of_apart (hm : SameOutside (Span (q.usedRingAddr + off) n) m m')
    (hi : i < q.size.toNat) (hn : off.toNat + n ≤ 2 ^ 64)
    (hapart : off.toNat + n ≤ 4 + i * 8 ∨ 12 + i * 8 ≤ off.toNat) :
    q.usedElem m' i = q.usedElem m i := by
  have hsize := q.size.toNat_lt
  have hfst := toNat_usedOffset hi
  have hsnd := toNat_usedOffset_add hi
  refine usedElem_congr hm fun a ha => ⟨?_, ?_⟩
  · rw [usedSlotAddr_eq]
    exact span_apart ha hn (by omega) (by omega)
  · rw [usedSlotAddr_add]
    exact span_apart ha hn (by omega) (by omega)

theorem usedIdx_of_apart (hm : SameOutside (Span (q.usedRingAddr + off) n) m m')
    (hn : off.toNat + n ≤ 2 ^ 64) (hapart : 4 ≤ off.toNat) : q.usedIdx m' = q.usedIdx m := by
  have h2 : (2 : UInt64).toNat = 2 := rfl
  exact usedIdx_congr hm fun a ha => span_apart ha hn (by omega) (by omega)

structure WritesWord (q : Queue) (i : ℕ) (m m' : GuestMemory) : Prop where
  regions : m'.regions = m.regions
  idx : q.usedIdx m' = q.usedIdx m
  elem : ∀ j < q.size.toNat, j ≠ i → q.usedElem m' j = q.usedElem m j

theorem writesWord (hm : SameOutside (Span (q.usedRingAddr + off) 4) m m') (hi : i < q.size.toNat)
    (hoff : off.toNat = 4 + i * 8 ∨ off.toNat = 8 + i * 8) : q.WritesWord i m m' := by
  have hsize := q.size.toNat_lt
  refine ⟨hm.regions, usedIdx_of_apart hm (by omega) (by omega), fun j hj hne => ?_⟩
  exact usedElem_of_apart hm hj (by omega) (by omega)

theorem UsedMapped.congr (h : q.UsedMapped m) (hr : m'.regions = m.regions) : q.UsedMapped m' where
  elem i hi := by
    rw [contains_congr hr, contains_congr hr]
    exact h.elem i hi
  idx := by
    rw [contains_congr hr]
    exact h.idx

/-! ## A push, write by write -/

def after (q : Queue) (pops pushes : ℕ) : Queue :=
  { q with nextAvailIdx := UInt16.ofNat pops, nextUsedIdx := UInt16.ofNat pushes }

structure Stages (q : Queue) (k : ℕ) (elem : UInt32 × UInt32) (m m₁ m₂ m₃ : GuestMemory) : Prop where
  fst : q.WritesWord (k % q.size.toNat) m m₁
  snd : q.WritesWord (k % q.size.toNat) m₁ m₂
  elem_eq : q.usedElem m₂ (k % q.size.toNat) = some elem
  published : ∀ i < q.size.toNat, q.usedElem m₃ i = q.usedElem m₂ i
  idx_eq : q.usedIdx m₃ = some (UInt16.ofNat (k + 1))
  regions : m₃.regions = m₂.regions

theorem stages_of_writes (hq : 0 < q.size)
    (h₁ : m.writeU32Le (q.usedSlotAddr (k % q.size.toNat)) id = .ok m₁)
    (h₂ : m₁.writeU32Le (q.usedSlotAddr (k % q.size.toNat) + 4) len = .ok m₂)
    (h₃ : m₂.writeU16Le q.usedIdxAddr (UInt16.ofNat (k + 1)) = .ok m₃) :
    q.Stages k (id, len) m m₁ m₂ m₃ := by
  have hslot : k % q.size.toNat < q.size.toNat := Nat.mod_lt _ (UInt16.lt_iff_toNat_lt.1 hq)
  have hsize := q.size.toNat_lt
  have hfst := toNat_usedOffset hslot
  have hsnd := toNat_usedOffset_add hslot
  have h2 : (2 : UInt64).toNat = 2 := rfl
  have f₁ := sameOutside_writeU32Le h₁
  have f₂ := sameOutside_writeU32Le h₂
  have f₃ := sameOutside_writeU16Le h₃
  have hid : m₂.readU32Le (q.usedSlotAddr (k % q.size.toNat)) = .ok id := by
    rw [f₂.readU32Le, readU32Le_of_writeU32Le h₁]
    rw [usedSlotAddr_add, usedSlotAddr_eq]
    exact fun a ha => span_apart ha (by omega) (by omega) (by omega)
  rw [usedSlotAddr_eq] at f₁
  rw [usedSlotAddr_add] at f₂
  exact {
    fst := writesWord f₁ hslot (.inl hfst)
    snd := writesWord f₂ hslot (.inr hsnd)
    elem_eq := usedElem_eq_some hid (readU32Le_of_writeU32Le h₂)
    published i hi := usedElem_of_apart f₃ hi (by omega) (by omega)
    idx_eq := congrArg Except.toOption (readU16Le_of_writeU16Le h₃)
    regions := f₃.regions }

theorem exists_stages (hv : q.isValid = true) (hpow : ∃ e, q.size.toNat = 2 ^ e)
    (hm : q.UsedMapped m) (pops k : ℕ) (headIndex : UInt16) (bytesWritten : UInt32) :
    ∃ m₁ m₂ m₃, (q.after pops k).pushStages m headIndex bytesWritten = [m₁, m₂, m₃] ∧
      (q.after pops k).pushUsed m headIndex bytesWritten = (.ok (), q.after pops (k + 1), m₃) ∧
      q.Stages k (headIndex.toUInt32, bytesWritten) m m₁ m₂ m₃ := by
  have hq := size_pos hv
  have hslot : k % q.size.toNat < q.size.toNat := Nat.mod_lt _ (UInt16.lt_iff_toNat_lt.1 hq)
  have haddr : (q.after pops k).usedElemAddr = q.usedSlotAddr (k % q.size.toNat) :=
    usedElemAddr_cursor hpow _ k
  have haddr' : (q.after pops k).usedElemLenAddr = q.usedSlotAddr (k % q.size.toNat) + 4 :=
    congrArg (· + 4) haddr
  have hnext : (q.after pops k).nextUsedIdx + 1 = UInt16.ofNat (k + 1) :=
    (UInt16.ofNat_add k 1).symm
  obtain ⟨m₁, h₁, hr₁⟩ : ∃ m₁, m.writeU32Le (q.usedSlotAddr (k % q.size.toNat))
      headIndex.toUInt32 = .ok m₁ ∧ m₁.regions = m.regions :=
    write_ok (by rw [length_leBytes]; exact (hm.elem _ hslot).1)
  obtain ⟨m₂, h₂, hr₂⟩ : ∃ m₂, m₁.writeU32Le (q.usedSlotAddr (k % q.size.toNat) + 4)
      bytesWritten = .ok m₂ ∧ m₂.regions = m₁.regions :=
    write_ok (by rw [contains_congr hr₁]; exact (hm.elem _ hslot).2)
  obtain ⟨m₃, h₃, -⟩ : ∃ m₃, m₂.writeU16Le q.usedIdxAddr (UInt16.ofNat (k + 1)) = .ok m₃ ∧ _ :=
    write_ok (by rw [contains_congr (hr₂.trans hr₁)]; exact hm.idx)
  have hstages := stages_of_writes hq h₁ h₂ h₃
  rw [← haddr] at h₁
  rw [← haddr'] at h₂
  have h₃' : m₂.writeU16Le (q.after pops k).usedIdxAddr ((q.after pops k).nextUsedIdx + 1) =
      .ok m₃ := by
    rw [hnext]
    exact h₃
  refine ⟨m₁, m₂, m₃, ?_, ?_, hstages⟩
  · simp only [pushStages, h₁, h₂, h₃']
  · rw [pushUsed_ok (q := q.after pops k) hv h₁ h₂ h₃', hnext]
    rfl

theorem push_covers {elem : UInt32 × UInt32} (hq : 0 < q.size) (h : q.Covers start log log.length m)
    (hs : q.Stages log.length elem m m₁ m₂ m₃) :
    q.Covers start log (log.length + 1) m₁ ∧ q.Covers start log (log.length + 1) m₂ ∧
      q.Covers start (log ++ [elem]) (log.length + 1) m₃ := by
  have hpos := UInt16.lt_iff_toNat_lt.1 hq
  have hshows₁ := h.elems.begun hpos (Nat.le_succ _) hs.fst.elem
  have hshows₂ := hshows₁.begun hpos le_rfl hs.snd.elem
  have hshows₃ := (hshows₂.append hs.elem_eq).congr hpos hs.published
  refine ⟨⟨?_, hshows₁⟩, ⟨?_, hshows₂⟩, ⟨?_, hshows₃⟩⟩
  · rw [hs.fst.idx, h.idx]
  · rw [hs.snd.idx, hs.fst.idx, h.idx]
  · rw [hs.idx_eq, if_neg (List.append_ne_nil_of_right_ne_nil _ (List.cons_ne_nil _ _)),
      List.length_append, List.length_singleton]

theorem Covers.congr {begun : ℕ} (hq : 0 < q.size) (h : q.Covers start log begun m)
    (hm : SameOutside (fun a => ¬ q.InUsedRing a) m m') : q.Covers start log begun m' := by
  have hpos := UInt16.lt_iff_toNat_lt.1 hq
  have hin {off : UInt64} {n a : ℕ} (hn : off.toNat + n ≤ 6 + 8 * q.size.toNat)
      (ha : Span (q.usedRingAddr + off) n a) : q.InUsedRing a := by
    obtain ⟨j, hj, rfl⟩ := span_offset ha
    exact ⟨off.toNat + j, by omega, by rw [Nat.add_assoc]⟩
  have h2 : (2 : UInt64).toNat = 2 := rfl
  refine ⟨?_, h.elems.congr hpos fun i hi => ?_⟩
  · rw [usedIdx_congr hm fun a ha hspan => ha (hin (by omega) hspan), h.idx]
  · have hfst := toNat_usedOffset hi
    have hsnd := toNat_usedOffset_add hi
    refine usedElem_congr hm fun a ha => ⟨fun hspan => ha ?_, fun hspan => ha ?_⟩
    · rw [usedSlotAddr_eq] at hspan
      exact hin (by omega) hspan
    · rw [usedSlotAddr_add] at hspan
      exact hin (by omega) hspan

theorem headIndex_popAvail {q' : Queue} {c : DescriptorChain}
    (h : q.popAvail m = (.ok (some c), q')) :
    m.readU16Le (q.availRingEntryAddr q.nextAvailIdx) = .ok c.headIndex := by
  unfold popAvail at h
  split_ifs at h
  · cases h
  split at h
  · cases h
  split_ifs at h
  · cases h
  split at h
  · cases h
  · next head hhead =>
    split_ifs at h <;> cases h
    exact mapError_eq_ok.1 hhead

end Queue

open Queue

/-! ## Whole runs -/

section Cycle

variable {q : Queue} {start : Option UInt16} {s s' : Rings} {e : RingOp}

structure Sound (q : Queue) (start : Option UInt16) (s : Rings) : Prop where
  queue : s.queue = q.after s.pops.length s.pushes.length
  mapped : q.UsedMapped s.mem
  covers : q.Covers start s.pushes s.pushes.length s.mem

theorem sound_start (hq : q.Fresh) {m : GuestMemory} (hm : q.UsedMapped m) :
    Sound q (q.usedIdx m) { queue := q, mem := m } where
  queue := by
    have havail := hq.avail
    have hused := hq.used
    cases q
    cases havail
    cases hused
    rfl
  mapped := hm
  covers := ⟨rfl, Ring.shows_nil _ _ _⟩

theorem Sound.push (hq : q.Fresh) (hs : Sound q start s) (headIndex : UInt16)
    (bytesWritten : UInt32) :
    ∃ m₁ m₂ m₃, s.queue.pushStages s.mem headIndex bytesWritten = [m₁, m₂, m₃] ∧
      s.queue.pushUsed s.mem headIndex bytesWritten =
        (.ok (), q.after s.pops.length (s.pushes.length + 1), m₃) ∧
      q.Stages s.pushes.length (headIndex.toUInt32, bytesWritten) s.mem m₁ m₂ m₃ := by
  rw [hs.queue]
  exact exists_stages hq.valid hq.powerOfTwo hs.mapped ..

theorem Sound.popAvail (hs : Sound q start s) : (s.queue.popAvail s.mem).2 =
    q.after (s.pops ++ poppedHead (s.queue.popAvail s.mem).1).length s.pushes.length := by
  rcases hpop : s.queue.popAvail s.mem with ⟨r, q'⟩
  match r with
  | .error e =>
    rw [popAvail_error hpop, hs.queue]
    simp [poppedHead]
  | .ok none =>
    rw [popAvail_none hpop, hs.queue]
    simp only [poppedHead, List.append_nil]
  | .ok (some c) =>
    obtain ⟨-, -, -, rfl⟩ := popAvail_some hpop
    have hnext : s.queue.nextAvailIdx + 1 = UInt16.ofNat (s.pops.length + 1) := by
      rw [hs.queue]
      exact (UInt16.ofNat_add s.pops.length 1).symm
    rw [hnext, List.length_append, hs.queue]
    rfl

theorem sound_step (hq : q.Fresh) (hs : Sound q start s) (he : Respects q s e)
    (h : s.step e = some s') : Sound q start s' := by
  have hsize := size_pos hq.valid
  cases e with
  | pop =>
    cases h
    exact ⟨hs.popAvail, hs.mapped, hs.covers⟩
  | push headIndex bytesWritten =>
    obtain ⟨m₁, m₂, m₃, -, hpush, hstages⟩ := hs.push hq headIndex bytesWritten
    cases h
    have hr : m₃.regions = s.mem.regions :=
      hstages.regions.trans (hstages.snd.regions.trans hstages.fst.regions)
    have hlength : (s.pushes ++ [(headIndex.toUInt32, bytesWritten)]).length =
        s.pushes.length + 1 := by
      rw [List.length_append, List.length_singleton]
    refine ⟨?_, ?_, ?_⟩
    · simp only [hpush, pushedElem, hlength]
    · simp only [hpush]
      exact hs.mapped.congr hr
    · simp only [hpush, pushedElem, hlength]
      exact (push_covers hsize hs.covers hstages).2.2
  | others mem =>
    cases h
    exact ⟨hs.queue, hs.mapped.congr he.regions, hs.covers.congr hsize he⟩

theorem Sound.cycles (hq : q.Fresh) (hs : Sound q start s) : Cycles q start s where
  pop_some c q' hpop := by
    obtain ⟨-, ⟨idx, hidx, hne⟩, -, -⟩ := popAvail_some hpop
    have hhead := headIndex_popAvail hpop
    rw [hs.queue] at hhead hidx hne
    refine ⟨?_, idx, mapError_eq_ok.1 hidx, fun heq => hne ?_⟩
    · rw [← availRingEntryAddr_cursor hq.powerOfTwo]
      exact hhead
    · apply UInt16.toNat_inj.1
      rw [heq]
      exact (UInt16.toNat_ofNat' ..).symm
  pop_other r q' hpop hr := by
    match r with
    | .error e => exact popAvail_error hpop
    | .ok none => exact popAvail_none hpop
    | .ok (some c) => exact absurd rfl (hr c)
  push headIndex bytesWritten := by
    obtain ⟨m₁, m₂, m₃, hstages, hpush, h⟩ := hs.push hq headIndex bytesWritten
    have hslot := Nat.mod_lt s.pushes.length (UInt16.lt_iff_toNat_lt.1 (size_pos hq.valid))
    refine ⟨_, m₁, m₂, m₃, hstages, hpush, ?_, h.idx_eq, push_covers (size_pos hq.valid) hs.covers h⟩
    rw [h.published _ hslot, h.elem_eq]
  covers := hs.covers

/-- **The rings over whole runs**, across the wrap of the cursors: pops and pushes take the slots in
turn, and what `used.idx` covers is written completely. -/
theorem rings_cycle {m : GuestMemory} {es : List RingOp} (hq : q.Fresh) (hm : q.UsedMapped m)
    (hothers : Along Rings.step (Respects q) es { queue := q, mem := m })
    (hrun : Run.run Rings.step es { queue := q, mem := m } = some s) :
    Cycles q (q.usedIdx m) s :=
  (invariant (fun _ _ _ => sound_step hq) hothers (sound_start hq hm) hrun).cycles hq

section Scenario

def fourSlots : Queue :=
  { Queue.new 256 with
    size := 4, ready := true, descTableAddr := 0x1000, availRingAddr := 0x1040
    usedRingAddr := 0x1050 }

def oneOffered : Rings where
  queue := fourSlots
  mem := ringMemory [{ addr := 0x1080, len := 16, flags := 2, next := 0 }] 1

def popAndPush : Option Rings := Run.run Rings.step [.pop, .push 0 5] oneOffered

theorem rings_cycle_four_slots : ∃ s ∈ popAndPush, s.pops = [0] ∧
    fourSlots.usedIdx s.mem = some 1 := by
  have hrun : ∃ s ∈ popAndPush, s.pops = [0] ∧ s.pushes = [(0, 5)] := by decide +kernel
  obtain ⟨s, hs, hpops, hpushes⟩ := hrun
  have hmapped : fourSlots.UsedMapped oneOffered.mem := ⟨by decide +kernel, by decide +kernel⟩
  have hothers : Along Rings.step (Respects fourSlots) [.pop, .push 0 5] oneOffered :=
    ⟨trivial, fun _ _ => ⟨trivial, fun _ _ => trivial⟩⟩
  have hcycles := rings_cycle ⟨rfl, rfl, rfl, 2, rfl⟩ hmapped hothers hs
  refine ⟨s, hs, hpops, ?_⟩
  rw [hcycles.covers.idx, hpushes]
  rfl

end Scenario

end Cycle

end Squib
