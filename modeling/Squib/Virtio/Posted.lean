import Mathlib.Data.List.Basic
import Squib.Virtio.Frame

/-!
# Receive buffers that the driver has posted
-/

namespace Squib

open Checked Bytes GuestMemory

variable {η : Type}

/-! ## What the device reads -/

namespace Queue

variable (q : Queue)

def InAvailRing (a : ℕ) : Prop :=
  ∃ n < 6 + 2 * q.size.toNat, a = (q.availRingAddr.toNat + n) % 2 ^ 64

def InDescTable (a : ℕ) : Prop :=
  ∃ n < 16 * q.size.toNat, a = (q.descTableAddr.toNat + n) % 2 ^ 64

def InDriverArea (a : ℕ) : Prop := q.InAvailRing a ∨ q.InDescTable a

variable {q} {m m' : GuestMemory} {A : ℕ → Prop} {a : ℕ}

theorem inAvailRing_availIdx (h : Span q.availIdxAddr 2 a) : q.InAvailRing a := by
  obtain ⟨j, hj, rfl⟩ := span_offset h
  have h2 : (2 : UInt64).toNat = 2 := rfl
  exact ⟨2 + j, by omega, by rw [h2, Nat.add_assoc]⟩

theorem inAvailRing_entry (hq : 0 < q.size) {i : UInt16}
    (h : Span (q.availRingEntryAddr i) 2 a) : q.InAvailRing a := by
  have hslot := toNat_slot_lt hq i
  have h2 : (2 : UInt64).toNat = 2 := rfl
  rw [availRingEntryAddr, UInt64.add_assoc] at h
  obtain ⟨j, hj, rfl⟩ := span_offset h
  rw [toNat_ringOffset _ (by decide), h2]
  exact ⟨4 + (i % q.size).toNat * 2 + j, by omega, by rw [Nat.add_assoc]⟩

theorem inDescTable_descriptor {c : DescriptorChain} (ht : c.descTableAddr = q.descTableAddr)
    (hc : c.current < q.size) {off : UInt64} {n : ℕ} (hn : off.toNat + n ≤ 16)
    (h : Span (c.descAddr + off) n a) : q.InDescTable a := by
  have hcur := UInt16.lt_iff_toNat_lt.1 hc
  have hsize := q.size.toNat_lt
  have h16 : (16 : UInt64).toNat = 16 := rfl
  rw [DescriptorChain.descAddr, UInt64.add_assoc, ht] at h
  obtain ⟨j, hj, rfl⟩ := span_offset h
  rw [UInt64.toNat_add, toNat_slot _ (by decide), h16,
    Nat.mod_eq_of_lt (a := c.current.toNat * 16 + _) (by omega)]
  exact ⟨c.current.toNat * 16 + off.toNat + j, by omega, by rw [Nat.add_assoc]⟩

theorem popAvail_congr (hm : SameOutside A m m') (hA : ∀ a, A a → ¬ q.InAvailRing a) :
    q.popAvail m' = q.popAvail m := by
  have hidx : q.availIdx m' = q.availIdx m := by
    rw [availIdx, availIdx, hm.readU16Le fun a ha h => hA a ha (inAvailRing_availIdx h)]
  unfold popAvail
  rw [hidx]
  by_cases hv : q.isValid = true
  · have hentry : q.availRingEntry m' q.nextAvailIdx = q.availRingEntry m q.nextAvailIdx := by
      rw [availRingEntry, availRingEntry,
        hm.readU16Le fun a ha h => hA a ha (inAvailRing_entry (size_pos hv) h)]
    rw [hentry]
  · rw [if_pos (by simpa using hv), if_pos (by simpa using hv)]

theorem popAvail_used (u : UInt16) : popAvail { q with nextUsedIdx := u } m =
    ((q.popAvail m).1, { (q.popAvail m).2 with nextUsedIdx := u }) := by
  have hv : isValid { q with nextUsedIdx := u } = q.isValid := rfl
  have hidx : availIdx { q with nextUsedIdx := u } m = q.availIdx m := rfl
  have hentry : availRingEntry { q with nextUsedIdx := u } m q.nextAvailIdx =
    q.availRingEntry m q.nextAvailIdx := rfl
  unfold popAvail
  rw [hv, hidx, hentry]
  split_ifs
  · rfl
  cases q.availIdx m with
  | error e => rfl
  | ok idx =>
    dsimp only
    split_ifs
    · rfl
    cases q.availRingEntry m q.nextAvailIdx with
    | error e => rfl
    | ok head =>
      dsimp only
      split_ifs <;> rfl

theorem pending_eq_zero (h : q.popAvail m = (.ok none, q)) : q.pending m = 0 := by
  unfold popAvail at h
  split_ifs at h
  · cases h
  unfold pending
  cases hidx : q.availIdx m with
  | error e => rfl
  | ok idx =>
    rw [hidx] at h
    dsimp only at h
    split_ifs at h with heq
    · rw [eq_of_beq heq]
      exact congrArg UInt16.toNat (UInt16.sub_self _)
    · split at h
      · cases h
      · split_ifs at h <;> cases h

end Queue

namespace DescriptorChain

variable {q : Queue} {c : DescriptorChain} {m m' : GuestMemory} {A : ℕ → Prop}

theorem readDescriptor_congr (ht : c.descTableAddr = q.descTableAddr) (hc : c.current < q.size)
    (hm : SameOutside A m m') (hA : ∀ a, A a → ¬ q.InDescTable a) :
    c.readDescriptor m' = c.readDescriptor m := by
  have hread : ∀ (off : UInt64) (n : ℕ), off.toNat + n ≤ 16 →
      m'.read (c.descAddr + off) n = m.read (c.descAddr + off) n := fun off n hn =>
    read_congr hm.regions fun a ha => hm.byte a fun hAa =>
      hA a hAa (Queue.inDescTable_descriptor ht hc hn ha)
  have haddr : m'.read c.descAddr 8 = m.read c.descAddr 8 := by
    have h0 := hread 0 8 (by decide)
    rwa [UInt64.add_zero] at h0
  unfold readDescriptor readU64Le readU32Le readU16Le descLenAddr descFlagsAddr descNextAddr
  rw [haddr, hread 8 4 (by decide), hread 12 2 (by decide), hread 14 2 (by decide)]

theorem descTableAddr_nextDescriptor {c' : DescriptorChain} {desc : Descriptor}
    (h : c.nextDescriptor m = .ok (some (desc, c'))) : c'.descTableAddr = c.descTableAddr := by
  unfold nextDescriptor at h
  split_ifs at h
  · cases h
  split at h
  · cases h
  · obtain ⟨-, rfl⟩ := h
    split_ifs <;> rfl

theorem collectFrom_congr (hm : SameOutside A m m') (hA : ∀ a, A a → ¬ q.InDescTable a) :
    ∀ (n : ℕ) {c : DescriptorChain}, c.descTableAddr = q.descTableAddr → c.queueSize = q.size →
      collectFrom m' n c = collectFrom m n c
  | 0, _, _, _ => rfl
  | n + 1, c, ht, hs => by
    have hnext : c.nextDescriptor m' = c.nextDescriptor m := by
      unfold nextDescriptor
      by_cases hc : c.queueSize ≤ c.current
      · rw [if_pos hc, if_pos hc]
      · rw [readDescriptor_congr ht (hs ▸ UInt16.not_le.1 hc) hm hA]
    rw [collectFrom, collectFrom, hnext]
    split
    · rfl
    · rfl
    · next desc c' hc' =>
      have hs' := (nextDescriptor_eq_some hc').2.1
      rw [collectFrom_congr hm hA n ((descTableAddr_nextDescriptor hc').trans ht) (hs'.trans hs)]

end DescriptorChain

variable {q : Queue} {m m' : GuestMemory} {d : Descriptor} {descs : List Descriptor} {a n k : ℕ}
  {b : Buffer} {A : ℕ → Prop} {addr : GuestAddress} {descs' : List Descriptor} {l : List Buffer}

theorem Queue.collect_chainAt_congr (hm : SameOutside A m m') (hA : ∀ a, A a → ¬ q.InDescTable a)
    (head : UInt16) : (q.chainAt head).collect m' = (q.chainAt head).collect m :=
  DescriptorChain.collectFrom_congr hm hA _ rfl rfl

/-! ## Posted chains -/

abbrev Buffer := UInt16 × List Descriptor

def Posted (m : GuestMemory) : List Buffer → Queue → Prop
  | [], q => q.popAvail m = (.ok none, q)
  | (head, descs) :: l, q =>
    q.popAvail m = (.ok (some (q.chainAt head)), { q with nextAvailIdx := q.nextAvailIdx + 1 }) ∧
      (q.chainAt head).collect m = .ok descs ∧
      Posted m l { q with nextAvailIdx := q.nextAvailIdx + 1 }

namespace Posted

variable {m m' : GuestMemory} {A : ℕ → Prop}

theorem congr (hm : SameOutside A m m') :
    ∀ {l : List Buffer} {q : Queue}, (∀ a, A a → ¬ q.InDriverArea a) → Posted m l q → Posted m' l q
  | [], q, hA, h => (q.popAvail_congr hm fun a ha hr => hA a ha (.inl hr)).trans h
  | (head, _) :: _, q, hA, ⟨hpop, hcollect, hl⟩ =>
    ⟨(q.popAvail_congr hm fun a ha hr => hA a ha (.inl hr)).trans hpop,
      (q.collect_chainAt_congr hm (fun a ha hr => hA a ha (.inr hr)) head).trans hcollect,
      congr hm hA hl⟩

theorem used (u : UInt16) :
    ∀ {l : List Buffer} {q : Queue}, Posted m l q → Posted m l { q with nextUsedIdx := u }
  | [], q, h => by
    rw [Posted, Queue.popAvail_used, h]
  | (head, descs) :: l, q, ⟨hpop, hcollect, hl⟩ => by
    refine ⟨?_, hcollect, used u hl⟩
    rw [Queue.popAvail_used, hpop]
    rfl

theorem unique : ∀ {l l' : List Buffer} {q : Queue}, Posted m l q → Posted m l' q → l = l'
  | [], [], _, _, _ => rfl
  | [], _ :: _, _, h, ⟨hpop, _, _⟩ => by cases h.symm.trans hpop
  | _ :: _, [], _, ⟨hpop, _, _⟩, h => by cases h.symm.trans hpop
  | (head, descs) :: l, (head', descs') :: l', q, ⟨hpop, hcollect, hl⟩, ⟨hpop', hcollect', hl'⟩ => by
    have hchain : q.chainAt head = q.chainAt head' := by
      have := hpop.symm.trans hpop'
      simpa using this
    have hhead : head = head' := congrArg DescriptorChain.headIndex hchain
    subst hhead
    have hdescs : descs = descs' := Except.ok.inj (hcollect.symm.trans hcollect')
    rw [hdescs, unique hl hl']

theorem length_eq : ∀ {l : List Buffer} {q : Queue}, Posted m l q → q.pending m = l.length
  | [], _, h => Queue.pending_eq_zero h
  | _ :: _, _, ⟨hpop, _, hl⟩ => by
    rw [← Queue.pending_popAvail hpop, length_eq hl, List.length_cons]

end Posted

/-! ## Filling a buffer -/

def writable (descs : List Descriptor) : List Descriptor := descs.filter Descriptor.isWriteOnly

def capacity (descs : List Descriptor) : ℕ := ((writable descs).map fun d => d.len.toNat).sum

def filled (m : GuestMemory) (descs : List Descriptor) : List UInt8 :=
  (writable descs).flatMap fun d => load m.byte d.addr.toNat d.len.toNat

def Descriptor.Apart (d d' : Descriptor) : Prop :=
  ∀ a, Span d.addr d.len.toNat a → ¬ Span d'.addr d'.len.toNat a

structure Fillable (m : GuestMemory) (descs : List Descriptor) : Prop where
  mapped : ∀ d ∈ writable descs, m.contains d.addr d.len.toNat = true
  apart : (writable descs).Pairwise Descriptor.Apart

theorem writable_cons_of_pos (h : d.isWriteOnly = true) :
    writable (d :: descs) = d :: writable descs := List.filter_cons_of_pos h

theorem writable_cons_of_neg (h : ¬ d.isWriteOnly = true) :
    writable (d :: descs) = writable descs :=
  List.filter_cons_of_neg h

theorem capacity_cons_of_pos (h : d.isWriteOnly = true) :
    capacity (d :: descs) = d.len.toNat + capacity descs := by
  rw [capacity, writable_cons_of_pos h, List.map_cons, List.sum_cons, capacity]

theorem filled_cons_of_pos (m : GuestMemory) (h : d.isWriteOnly = true) :
    filled m (d :: descs) = load m.byte d.addr.toNat d.len.toNat ++ filled m descs := by
  rw [filled, writable_cons_of_pos h, List.flatMap_cons, filled]

theorem writeOnlySpan_iff :
    WriteOnlySpan descs a ↔ ∃ d ∈ writable descs, Span d.addr d.len.toNat a := by
  simp [WriteOnlySpan, writable, and_assoc]

theorem contains_mono (h : m.contains addr n = true) (hk : k ≤ n) : m.contains addr k = true := by
  obtain ⟨r, hr, hin⟩ := List.any_eq_true.1 h
  refine List.any_eq_true.2 ⟨r, hr, ?_⟩
  simp only [Bool.and_eq_true, decide_eq_true_eq] at hin ⊢
  omega

theorem filled_congr (hm : SameOutside A m m')
    (hmapped : ∀ d ∈ writable descs, m.contains d.addr d.len.toNat = true)
    (hA : ∀ a, A a → ¬ WriteOnlySpan descs a) : filled m' descs = filled m descs := by
  refine List.flatMap_congr fun d hd => load_congr fun a ha => hm.byte a fun hAa => ?_
  have hlt := lt_of_contains (hmapped d hd)
  exact hA a hAa (writeOnlySpan_iff.2 ⟨d, hd, ha.1, ha.2, by have := ha.2; omega⟩)

theorem take_load (f : ℕ → UInt8) (addr : ℕ) (h : k ≤ n) :
    (load f addr n).take k = load f addr k := by
  rw [load, ← List.map_take, List.take_range, Nat.min_eq_left h]
  rfl

theorem write_mapped (w : World η) (addr : GuestAddress) (buf : List UInt8)
    (h : w.mem.contains addr buf.length = true) :
    ∃ m, w.write addr buf = .ok { w with mem := m } ∧
      SameOutside (Span addr buf.length) w.mem m ∧ load m.byte addr.toNat buf.length = buf := by
  have hw : w.mem.write addr buf = .ok { w.mem with byte := store w.mem.byte addr.toNat buf } :=
    if_pos h
  refine ⟨_, ?_, sameOutside_write hw, load_store _ _ _⟩
  rw [World.write, hw]
  rfl

theorem Fillable.of_cons (h : Fillable m (d :: descs)) (hregions : m'.regions = m.regions) :
    Fillable m' descs := by
  have hsub : (writable descs).Sublist (writable (d :: descs)) :=
    (List.sublist_cons_self d descs).filter _
  exact ⟨fun d hd => (contains_congr hregions _ _).trans (h.mapped d (hsub.subset hd)),
    h.apart.sublist hsub⟩

theorem Fillable.load_head {m₁ m₂ : GuestMemory} (h : Fillable m (d :: descs))
    (hd : d.isWriteOnly = true) (hm : SameOutside (WriteOnlySpan descs) m₁ m₂) :
    load m₂.byte d.addr.toNat d.len.toNat = load m₁.byte d.addr.toNat d.len.toNat := by
  have hmapped := h.mapped
  have hapart := h.apart
  rw [writable_cons_of_pos hd] at hmapped hapart
  have hlt := lt_of_contains (hmapped d List.mem_cons_self)
  refine load_congr fun a ha => hm.byte a fun hspan => ?_
  obtain ⟨d', hd', ha'⟩ := writeOnlySpan_iff.1 hspan
  exact (List.pairwise_cons.1 hapart).1 d' hd' a ⟨ha.1, ha.2, by have := ha.2; omega⟩ ha'

structure Scattered (wire : List UInt8) (descs : List Descriptor) (wireOff : ℕ)
    (written n : UInt32) (m m' : GuestMemory) : Prop where
  count : n.toNat = written.toNat + (wire.length - wireOff)
  frame : SameOutside (WriteOnlySpan descs) m m'
  content : (filled m' descs).take (wire.length - wireOff) = wire.drop wireOff

namespace Scattered

variable {wire : List UInt8} {desc : Descriptor} {descs : List Descriptor} {wireOff len : ℕ}
  {written written₁ n : UInt32} {m m₁ m' : GuestMemory}

theorem nil (hcap : wire.length - wireOff ≤ capacity []) :
    Scattered wire [] wireOff written written m m := by
  have hend : wire.length - wireOff = 0 := Nat.le_zero.1 hcap
  refine ⟨by rw [hend, Nat.add_zero], .refl _ _, ?_⟩
  rw [hend, List.take_zero, List.drop_of_length_le (by omega)]

theorem frame_cons (h : SameOutside (WriteOnlySpan descs) m m') :
    SameOutside (WriteOnlySpan (desc :: descs)) m m' :=
  h.mono fun _ ha => ha.mono (List.subset_cons_self desc descs)

theorem readOnly (hd : ¬ desc.isWriteOnly = true)
    (h : Scattered wire descs wireOff written n m m') :
    Scattered wire (desc :: descs) wireOff written n m m' where
  count := h.count
  frame := frame_cons h.frame
  content := by
    rw [filled, writable_cons_of_neg hd]
    exact h.content

theorem noRoom (hd : desc.isWriteOnly = true)
    (hlen : min desc.len.toNat (wire.length - wireOff) = 0)
    (h : Scattered wire descs wireOff written n m m') :
    Scattered wire (desc :: descs) wireOff written n m m' where
  count := h.count
  frame := frame_cons h.frame
  content := by
    rw [filled_cons_of_pos m' hd, ← h.content, List.take_append, length_load]
    obtain hzero | hzero : desc.len.toNat = 0 ∨ wire.length - wireOff = 0 := by omega
    · rw [hzero, Nat.sub_zero, load, List.range_zero, List.map_nil, List.take_nil, List.nil_append]
    · rw [hzero, Nat.zero_sub, List.take_zero, List.nil_append]

theorem frame_write (hself : desc ∈ writable descs) (hlen : len ≤ desc.len.toNat)
    (h : SameOutside (Span desc.addr len) m m₁) : SameOutside (WriteOnlySpan descs) m m₁ := by
  refine h.mono fun a ha => writeOnlySpan_iff.2 ⟨desc, hself, ha.1, ?_, ha.2.2⟩
  have := ha.2.1
  omega

theorem last (hd : desc.isWriteOnly = true) (hlen : len ≤ desc.len.toNat)
    (hall : wire.length - wireOff = len) (hn : n.toNat = written.toNat + len)
    (hframe : SameOutside (Span desc.addr len) m m')
    (hload : load m'.byte desc.addr.toNat len = (wire.drop wireOff).take len) :
    Scattered wire (desc :: descs) wireOff written n m m' where
  count := by rw [hn, hall]
  frame := frame_write (by simp [writable_cons_of_pos hd]) hlen hframe
  content := by
    rw [filled_cons_of_pos m' hd, hall, List.take_append_of_le_length (by simpa using hlen),
      take_load _ _ hlen, hload, List.take_of_length_le (by rw [List.length_drop, hall])]

theorem cons (hfill : Fillable m (desc :: descs)) (hd : desc.isWriteOnly = true)
    (hlen : len = desc.len.toNat) (hle : wireOff + len ≤ wire.length)
    (hn : written₁.toNat = written.toNat + len)
    (hframe : SameOutside (Span desc.addr len) m m₁)
    (hload : load m₁.byte desc.addr.toNat len = (wire.drop wireOff).take len)
    (h : Scattered wire descs (wireOff + len) written₁ n m₁ m') :
    Scattered wire (desc :: descs) wireOff written n m m' where
  count := by
    have := h.count
    omega
  frame := (frame_write (by simp [writable_cons_of_pos hd]) hlen.le hframe).trans
    (frame_cons h.frame)
  content := by
    have hleft : wire.length - wireOff = len + (wire.length - (wireOff + len)) := by omega
    have hpiece : ((wire.drop wireOff).take len).length = len := by simp; omega
    rw [filled_cons_of_pos m' hd, hfill.load_head hd h.frame, ← hlen, hload, hleft]
    nth_rewrite 1 [← hpiece]
    rw [List.take_length_add_append, h.content, ← List.drop_drop, List.take_append_drop]

end Scattered

theorem scatter_fills (wire : List UInt8) : ∀ (descs : List Descriptor) (wireOff : ℕ)
    (written : UInt32) (w : World η), wireOff ≤ wire.length → Fillable w.mem descs →
    wire.length - wireOff ≤ capacity descs → written.toNat + (wire.length - wireOff) < 2 ^ 32 →
    ∃ n m, scatter wire descs wireOff written w = .ok (n, { w with mem := m }) ∧
      Scattered wire descs wireOff written n w.mem m
  | [], _, written, w, _, _, hcap, _ => ⟨written, w.mem, rfl, .nil hcap⟩
  | desc :: descs, wireOff, written, w, hoff, hfill, hcap, hlt => by
    unfold scatter
    by_cases hd : desc.isWriteOnly = true
    · rw [if_neg (by simpa using hd)]
      rw [capacity_cons_of_pos hd] at hcap
      by_cases hlen : min desc.len.toNat (wire.length - wireOff) = 0
      · rw [if_pos hlen]
        obtain ⟨n, m, hs, hm⟩ := scatter_fills wire descs wireOff written w hoff
          (hfill.of_cons rfl) (by omega) hlt
        exact ⟨n, m, hs, hm.noRoom hd hlen⟩
      · generalize hk : min desc.len.toNat (wire.length - wireOff) = len at hlen ⊢
        obtain ⟨piece, hslice, hpiece, hplen⟩ : Returns (slice wire wireOff (wireOff + len)) _ :=
          returns_slice (by omega) (by omega)
        rw [Nat.add_sub_cancel_left] at hpiece hplen
        have hmapped := hfill.mapped desc (by simp [writable_cons_of_pos hd])
        obtain ⟨m₁, hw, hm₁, hload⟩ : ∃ m, w.write desc.addr piece = .ok { w with mem := m } ∧ _ :=
          write_mapped _ _ _ (contains_mono hmapped (by omega))
        rw [hplen] at hm₁ hload
        have hsum : (saturatingAdd written (UInt32.ofNat len)).toNat = written.toNat + len := by
          have hof : (UInt32.ofNat len).toNat = len :=
            UInt32.toNat_ofNat_of_lt' (by simp only [UInt32.size]; omega)
          rw [toNat_saturatingAdd (by omega), hof]
        simp only [hslice, bind, Except.bind, hw]
        split_ifs with hend
        · exact ⟨_, m₁, rfl, .last hd (by omega) (by omega) hsum hm₁ (hload.trans hpiece)⟩
        · obtain ⟨n, m, hs, hm⟩ := scatter_fills wire descs (wireOff + len)
            (saturatingAdd written (UInt32.ofNat len)) { w with mem := m₁ } (by omega)
            (hfill.of_cons hm₁.regions) (by omega) (by omega)
          exact ⟨n, m, hs, .cons hfill hd (by omega) (by omega) hsum hm₁ (hload.trans hpiece) hm⟩
    · rw [if_pos (by simpa using hd)]
      rw [capacity, writable_cons_of_neg hd] at hcap
      obtain ⟨n, m, hs, hm⟩ := scatter_fills wire descs wireOff written w hoff
        (hfill.of_cons rfl) hcap hlt
      exact ⟨n, m, hs, hm.readOnly hd⟩

theorem scatter_of_capacity_eq_zero (wire : List UInt8) (wireOff : ℕ) (written : UInt32)
    (w : World η) : ∀ {descs : List Descriptor}, capacity descs = 0 →
      scatter wire descs wireOff written w = .ok (written, w)
  | [], _ => rfl
  | desc :: descs, h => by
    unfold scatter
    by_cases hd : desc.isWriteOnly = true
    · rw [capacity_cons_of_pos hd, Nat.add_eq_zero_iff] at h
      rw [if_neg (by simpa using hd), if_pos (by rw [h.1, Nat.zero_min])]
      exact scatter_of_capacity_eq_zero wire wireOff written w h.2
    · rw [capacity, writable_cons_of_neg hd] at h
      rw [if_pos (by simpa using hd)]
      exact scatter_of_capacity_eq_zero wire wireOff written w h

theorem scatter_take (wire : List UInt8) {k : ℕ} : ∀ (descs : List Descriptor) (wireOff : ℕ)
    (written : UInt32) (w : World η), wireOff + capacity descs ≤ k →
    scatter (wire.take k) descs wireOff written w = scatter wire descs wireOff written w
  | [], _, _, _, _ => rfl
  | desc :: descs, wireOff, written, w, hk => by
    unfold scatter
    by_cases hd : desc.isWriteOnly = true
    · rw [capacity_cons_of_pos hd] at hk
      have hlen : min desc.len.toNat ((wire.take k).length - wireOff) =
          min desc.len.toNat (wire.length - wireOff) := by
        rw [List.length_take]
        omega
      simp only [hd, Bool.not_true, Bool.false_eq_true, if_false, hlen]
      generalize hn : min desc.len.toNat (wire.length - wireOff) = n
      by_cases hzero : n = 0
      · rw [if_pos hzero, if_pos hzero]
        exact scatter_take wire descs wireOff written w (by omega)
      · rw [if_neg hzero, if_neg hzero]
        have hslice : slice (wire.take k) wireOff (wireOff + n) =
            slice wire wireOff (wireOff + n) := by
          rw [slice, slice, if_pos ⟨by omega, by rw [List.length_take]; omega⟩,
            if_pos ⟨by omega, by omega⟩, List.drop_take, List.take_take,
            Nat.min_eq_left (by omega)]
        obtain ⟨piece, hpiece, -⟩ : Returns (slice wire wireOff (wireOff + n)) _ :=
          returns_slice (by omega) (by omega)
        rw [hslice]
        simp only [hpiece, bind, Except.bind]
        cases w.write desc.addr piece with
        | error e => rfl
        | ok w₁ =>
          dsimp only
          rw [scatter_take wire descs (wireOff + n) _ w₁ (by omega)]
          by_cases hend : wire.length ≤ wireOff + n
          · rw [if_pos hend, if_pos (by rw [List.length_take]; omega)]
          · split_ifs with hcut
            -- what is cut off finds no room in the other buffers
            · rw [scatter_of_capacity_eq_zero]
              rw [List.length_take] at hcut
              omega
            · rfl
    · rw [capacity, writable_cons_of_neg hd] at hk
      simp only [hd]
      exact scatter_take wire descs wireOff written w hk

/-! ## Completing a buffer -/

theorem contains_offset {base off : UInt64} (h : m.contains base n = true) (hk : off.toNat + k ≤ n) :
    m.contains (base + off) k = true := by
  have hlt := lt_of_contains h
  have hadd : (base + off).toNat = base.toNat + off.toNat := by
    rw [UInt64.toNat_add]
    exact Nat.mod_eq_of_lt (by omega)
  obtain ⟨r, hr, hin⟩ := List.any_eq_true.1 h
  refine List.any_eq_true.2 ⟨r, hr, ?_⟩
  simp only [Bool.and_eq_true, decide_eq_true_eq] at hin ⊢
  omega

theorem write_ok {buf : List UInt8} (h : m.contains addr buf.length = true) :
    ∃ m', m.write addr buf = .ok m' ∧ m'.regions = m.regions := ⟨_, if_pos h, rfl⟩

theorem Queue.pushUsed_mapped (hv : q.isValid = true)
    (hm : m.contains q.usedRingAddr (6 + 8 * q.size.toNat) = true) (head : UInt16)
    (written : UInt32) :
    ∃ m', q.pushUsed m head written =
        (.ok (), { q with nextUsedIdx := q.nextUsedIdx + 1 }, m') ∧
      SameOutside q.InUsedRing m m' := by
  have hsize := size_pos hv
  have hslot := toNat_slot_lt hsize q.nextUsedIdx
  have hoff : (4 + (q.nextUsedIdx % q.size).toUInt64 * 8).toNat =
      4 + (q.nextUsedIdx % q.size).toNat * 8 := toNat_ringOffset _ (by decide)
  have helem : m.contains q.usedElemAddr 8 = true := by
    rw [usedElemAddr, UInt64.add_assoc]
    exact contains_offset hm (by omega)
  have hidx : m.contains q.usedIdxAddr 2 = true :=
    contains_offset hm (by rw [show (2 : UInt64).toNat = 2 from rfl]; omega)
  obtain ⟨m₁, h₁, hr₁⟩ : ∃ m₁, m.writeU32Le q.usedElemAddr head.toUInt32 = .ok m₁ ∧ _ :=
    write_ok (by rw [length_leBytes]; exact contains_mono helem (by omega))
  obtain ⟨m₂, h₂, hr₂⟩ : ∃ m₂, m₁.writeU32Le q.usedElemLenAddr written = .ok m₂ ∧ _ :=
    write_ok (by
      rw [length_leBytes, contains_congr hr₁]
      exact contains_offset helem (by decide))
  obtain ⟨m₃, h₃, -⟩ : ∃ m₃, m₂.writeU16Le q.usedIdxAddr (q.nextUsedIdx + 1) = .ok m₃ ∧ _ :=
    write_ok (by rwa [contains_congr (hr₂.trans hr₁)])
  have hpush := pushUsed_ok hv h₁ h₂ h₃
  exact ⟨m₃, hpush, (pushUsed_frame hpush).1.mono fun a => inUsedRing_of_usedWrites hsize⟩

/-! ## Well-formed receive buffers -/

structure Usable (lens : List ℕ) (q : Queue) (m : GuestMemory) (l : List Buffer) : Prop where
  valid : q.isValid = true
  posted : Posted m l q
  usedMapped : m.contains q.usedRingAddr (6 + 8 * q.size.toNat) = true
  ringsApart : ∀ a, q.InUsedRing a → ¬ q.InDriverArea a
  lentApart : ∀ b ∈ l, ∀ a, WriteOnlySpan b.2 a → ¬ q.InUsedRing a ∧ ¬ q.InDriverArea a
  fillable : Fillable m (l.flatMap Prod.snd)
  room : ∀ b ∈ l, ∀ n ∈ lens, n ≤ capacity b.2
  small : ∀ b ∈ l, capacity b.2 < 2 ^ 32

def Lent (l : List Buffer) (q : Queue) (a : ℕ) : Prop :=
  WriteOnlySpan (l.flatMap Prod.snd) a ∨ q.InUsedRing a

theorem writable_append (descs descs' : List Descriptor) :
    writable (descs ++ descs') = writable descs ++ writable descs' := List.filter_append ..

theorem writeOnlySpan_append :
    WriteOnlySpan (descs ++ descs') a ↔ WriteOnlySpan descs a ∨ WriteOnlySpan descs' a := by
  simp only [writeOnlySpan_iff, writable_append, List.mem_append, or_and_right, exists_or]

theorem lent_singleton : Lent [b] q a ↔ WriteOnlySpan b.2 a ∨ q.InUsedRing a := by
  rw [Lent, List.flatMap_cons, List.flatMap_nil, List.append_nil]

theorem Lent.head (h : Lent [b] q a) : Lent (b :: l) q a :=
  (lent_singleton.1 h).imp_left fun ha => writeOnlySpan_append.2 (.inl ha)

theorem Lent.tail (h : Lent l q a) : Lent (b :: l) q a :=
  h.imp_left fun ha => writeOnlySpan_append.2 (.inr ha)

theorem Fillable.append (h : Fillable m (descs ++ descs')) :
    Fillable m descs ∧ Fillable m descs' ∧
      ∀ a, WriteOnlySpan descs a → ¬ WriteOnlySpan descs' a := by
  obtain ⟨hmapped, hapart⟩ := h
  rw [writable_append] at hmapped hapart
  obtain ⟨hl, hr, hlr⟩ := List.pairwise_append.1 hapart
  refine ⟨⟨fun d hd => hmapped d (List.mem_append_left _ hd), hl⟩,
    ⟨fun d hd => hmapped d (List.mem_append_right _ hd), hr⟩, fun a ha ha' => ?_⟩
  obtain ⟨d, hd, hda⟩ := writeOnlySpan_iff.1 ha
  obtain ⟨d', hd', hda'⟩ := writeOnlySpan_iff.1 ha'
  exact hlr d hd d' hd' a hda hda'

namespace Usable

variable {lens : List ℕ} {q : Queue} {m m' : GuestMemory} {b : Buffer} {l : List Buffer}

theorem lent_apart (h : Usable lens q m l) (ha : Lent l q a) : ¬ q.InDriverArea a := by
  obtain ha | ha := ha
  · obtain ⟨d, hd, hspan⟩ := ha
    obtain ⟨b, hb, hdb⟩ := List.mem_flatMap.1 hd
    exact (h.lentApart b hb a ⟨d, hdb, hspan⟩).2
  · exact h.ringsApart a ha

theorem anyRoom (h : Usable lens q m l) : Usable [] q m l :=
  { h with room := fun _ _ _ hn => absurd hn List.not_mem_nil }

theorem tail (h : Usable lens q m (b :: l)) (hm : SameOutside (Lent [b] q) m m') :
    Usable lens { q with nextAvailIdx := q.nextAvailIdx + 1, nextUsedIdx := q.nextUsedIdx + 1 }
      m' l where
  valid := h.valid
  posted := by
    have hoff : ∀ a, Lent [b] q a → ¬ q.InDriverArea a := fun a ha => h.lent_apart ha.head
    exact (Posted.congr hm (q := { q with nextAvailIdx := q.nextAvailIdx + 1 }) hoff
      h.posted.2.2).used _
  usedMapped := (contains_congr hm.regions _ _).trans h.usedMapped
  ringsApart := h.ringsApart
  lentApart := fun b' hb' => h.lentApart b' (List.mem_cons_of_mem b hb')
  fillable := by
    obtain ⟨hmapped, hapart⟩ := (h.fillable.append).2.1
    exact ⟨fun d hd => (contains_congr hm.regions _ _).trans (hmapped d hd), hapart⟩
  room := fun b' hb' => h.room b' (List.mem_cons_of_mem b hb')
  small := fun b' hb' => h.small b' (List.mem_cons_of_mem b hb')

end Usable

end Squib
