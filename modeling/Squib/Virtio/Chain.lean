import Squib.Lib.Checked
import Squib.Lib.Walk
import Squib.Virtio.Queue

/-!
# The walk of a descriptor chain
-/

namespace Squib

open Checked Table

def Descriptor.link (d : Descriptor) : Option UInt16 := if d.hasNext then some d.next else none

def Queue.descriptorAt (q : Queue) (m : GuestMemory) (i : UInt16) : Option Descriptor :=
  ((q.chainAt i).readDescriptor m).toOption

abbrev Queue.WalkFrom (q : Queue) (m : GuestMemory) : UInt16 → List (UInt16 × Descriptor) → Prop :=
  Walk (q.descriptorAt m) Descriptor.link

abbrev Queue.LinkedIn (q : Queue) (m : GuestMemory) : UInt16 → UInt16 → Prop :=
  Linked (q.descriptorAt m) Descriptor.link

structure Queue.ChainFrom (q : Queue) (m : GuestMemory) (head : UInt16)
    (w : List (UInt16 × Descriptor)) : Prop where
  walk : q.WalkFrom m head w
  inTable : ∀ p ∈ w, p.1 < q.size
  length_le : w.length ≤ q.size.toNat

inductive Queue.Broken (q : Queue) (m : GuestMemory) (head : UInt16) : Prop
  | outOfRange {i : UInt16} (hi : Relation.ReflTransGen (q.LinkedIn m) head i) (hsize : q.size ≤ i)
  | unreadable {i : UInt16} (hi : Relation.ReflTransGen (q.LinkedIn m) head i)
    (hread : q.descriptorAt m i = none)
  | cyclic {i : UInt16} (hi : Relation.ReflTransGen (q.LinkedIn m) head i)
    (hcycle : Relation.TransGen (q.LinkedIn m) i i)
  | tooLong {is : List UInt16} (his : (head :: is).IsChain (q.LinkedIn m))
    (hsize : q.size.toNat < (head :: is).length)

namespace DescriptorChain

/-! ## The loop -/

inductive Collects (m : GuestMemory) : DescriptorChain → Except QueueError (List Descriptor) → Prop
  | fails {c e} (h : c.nextDescriptor m = .error e) : Collects m c (.error e)
  | stops {c} (h : c.nextDescriptor m = .ok none) : Collects m c (.ok [])
  | continues {c c' d r} (h : c.nextDescriptor m = .ok (some (d, c'))) (hr : Collects m c' r) :
    Collects m c (r.map (d :: ·))

variable {m : GuestMemory} {c c' : DescriptorChain} {desc : Descriptor}

theorem toNat_length_nextDescriptor (h : c.nextDescriptor m = .ok (some (desc, c'))) :
    c'.length.toNat = c.length.toNat + 1 := by
  obtain ⟨hlt, -, hlength⟩ := nextDescriptor_eq_some h
  have hlt' := UInt16.lt_iff_toNat_lt.1 hlt
  have hsize := c.queueSize.toNat_lt
  rw [hlength, UInt16.toNat_add, UInt16.toNat_one, Nat.mod_eq_of_lt (by omega)]

theorem collects_collectFrom : ∀ {n : ℕ} {c : DescriptorChain}, 0 < n →
    c.queueSize.toNat < n + c.length.toNat → Collects m c (collectFrom m n c)
  | n + 1, c, _, hn => by
    rw [collectFrom]
    split
    · next e h => exact .fails h
    · next h => exact .stops h
    · next desc c' h =>
      obtain ⟨hlt, hsize, -⟩ := nextDescriptor_eq_some h
      have hlt' := UInt16.lt_iff_toNat_lt.1 hlt
      have hlength := toNat_length_nextDescriptor h
      exact .continues h (collects_collectFrom (by omega) (by rw [hsize]; omega))

theorem collectFrom_done {n : ℕ} (hn : 0 < n) (h : c.done = true) : collectFrom m n c = .ok [] := by
  obtain ⟨n, rfl⟩ := Nat.exists_eq_add_one_of_ne_zero hn.ne'
  rw [collectFrom, nextDescriptor, if_pos h]

/-! ## What it gives -/

variable {q : Queue} {w : List (UInt16 × Descriptor)}

theorem readDescriptor_eq (ht : c.descTableAddr = q.descTableAddr) :
    c.readDescriptor m = (q.chainAt c.current).readDescriptor m := by
  have haddr : c.descAddr = (q.chainAt c.current).descAddr := by rw [descAddr, ht]; rfl
  simp only [readDescriptor, descLenAddr, descFlagsAddr, descNextAddr, haddr]

structure Open (q : Queue) (c : DescriptorChain) : Prop where
  table : c.descTableAddr = q.descTableAddr
  size : c.queueSize = q.size
  done : c.done = false

def after (c : DescriptorChain) (desc : Descriptor) : DescriptorChain :=
  if desc.hasNext then { c with length := c.length + 1, current := desc.next }
  else { c with length := c.length + 1, done := true }

theorem nextDescriptor_eq_some_iff (hc : c.Open q) :
    c.nextDescriptor m = .ok (some (desc, c')) ↔ c.current < q.size ∧ c.length < q.size ∧
      q.descriptorAt m c.current = some desc ∧ c' = c.after desc := by
  rw [nextDescriptor, if_neg (by rw [hc.done]; decide), ← hc.size, readDescriptor_eq hc.table,
    Queue.descriptorAt, ← UInt16.not_le, ← UInt16.not_le]
  split_ifs with hcurrent hlength
  · exact iff_of_false (fun h => by cases h) fun h => h.1 hcurrent
  · exact iff_of_false (fun h => by cases h) fun h => h.2.1 hlength
  · cases (q.chainAt c.current).readDescriptor m with
    | error e => exact iff_of_false (fun h => by cases h) fun h => by cases h.2.2.1
    | ok desc' =>
      constructor
      · intro h
        cases h
        exact ⟨hcurrent, hlength, rfl, rfl⟩
      · rintro ⟨-, -, hdesc, rfl⟩
        cases hdesc
        rfl

theorem Open.nextDescriptor_ne (hc : c.Open q) : c.nextDescriptor m ≠ .ok none := by
  intro h
  rw [nextDescriptor, if_neg (by rw [hc.done]; decide)] at h
  split_ifs at h
  cases hread : c.readDescriptor m <;> rw [hread] at h <;> cases h

structure Rest (q : Queue) (m : GuestMemory) (c : DescriptorChain)
    (w : List (UInt16 × Descriptor)) : Prop where
  walk : q.WalkFrom m c.current w
  inTable : ∀ p ∈ w, p.1 < q.size
  length_le : c.length.toNat + w.length ≤ q.size.toNat

theorem Rest.nextDescriptor (hc : c.Open q) (h : c.Rest q m w) :
    ∃ desc, c.nextDescriptor m = .ok (some (desc, c.after desc)) := by
  obtain ⟨desc, hdesc, hmem⟩ := h.walk.exists_entry
  have hpos := List.length_pos_of_mem hmem
  have hle := h.length_le
  refine ⟨desc, (nextDescriptor_eq_some_iff hc).2 ⟨h.inTable _ hmem, ?_, hdesc, rfl⟩⟩
  exact UInt16.lt_iff_toNat_lt.2 (by omega)

theorem rest_iff_last (hc : c.Open q) (h : c.nextDescriptor m = .ok (some (desc, c')))
    (hnext : ¬ desc.hasNext = true) : c.Rest q m w ↔ w = [(c.current, desc)] := by
  obtain ⟨hcurrent, hlength, hdesc, -⟩ := (nextDescriptor_eq_some_iff hc).1 h
  have hlink : desc.link = none := if_neg hnext
  have hlast := walk_iff_last (w := w) hdesc hlink
  constructor
  · exact fun hrest => hlast.1 hrest.walk
  · intro hw
    refine ⟨hlast.2 hw, ?_, ?_⟩
    · rw [hw]
      exact List.forall_mem_singleton.2 hcurrent
    · rw [hw]
      exact UInt16.lt_iff_toNat_lt.1 hlength

theorem rest_iff_cons (hc : c.Open q) (h : c.nextDescriptor m = .ok (some (desc, c')))
    (hnext : desc.hasNext = true) :
    c.Rest q m w ↔ ∃ w', c'.Rest q m w' ∧ w = (c.current, desc) :: w' := by
  have hlength := toNat_length_nextDescriptor h
  obtain ⟨hcurrent, -, hdesc, rfl⟩ := (nextDescriptor_eq_some_iff hc).1 h
  have hlink : desc.link = some desc.next := if_pos hnext
  have hcons := walk_iff_cons (w := w) hdesc hlink
  have hat : (c.after desc).current = desc.next := by rw [after, if_pos hnext]
  constructor
  · rintro ⟨hw, hin, hle⟩
    obtain ⟨w', hw', rfl⟩ := hcons.1 hw
    rw [List.length_cons] at hle
    exact ⟨w', ⟨by rwa [hat], (List.forall_mem_cons.1 hin).2, by omega⟩, rfl⟩
  · rintro ⟨w', ⟨hw', hin, hle⟩, hw⟩
    rw [hat] at hw'
    refine ⟨hcons.2 ⟨w', hw', hw⟩, ?_, ?_⟩
    · rw [hw]
      exact List.forall_mem_cons.2 ⟨hcurrent, hin⟩
    · rw [hw, List.length_cons]
      omega

theorem collectFrom_eq_ok_iff : ∀ {n : ℕ} {c : DescriptorChain} {ds : List Descriptor}, c.Open q →
    q.size.toNat < n + c.length.toNat → 0 < n →
    (collectFrom m n c = .ok ds ↔ ∃ w, c.Rest q m w ∧ ds = w.map Prod.snd)
  | n + 1, c, ds, hc, hn, _ => by
    have hfirst {w} (h : c.Rest q m w) := h.nextDescriptor hc
    rw [collectFrom]
    split
    · next e he =>
      refine iff_of_false (fun h => by cases h) ?_
      rintro ⟨w, hw, -⟩
      obtain ⟨desc, hdesc⟩ := hfirst hw
      cases hdesc.symm.trans he
    · next hnone => exact absurd hnone hc.nextDescriptor_ne
    · next desc c' h =>
      obtain ⟨-, hlt, -, hafter⟩ := (nextDescriptor_eq_some_iff hc).1 h
      have hlt' := UInt16.lt_iff_toNat_lt.1 hlt
      have hlength := toNat_length_nextDescriptor h
      by_cases hnext : desc.hasNext = true
      · have hc' : c'.Open q := by
          rw [hafter, after, if_pos hnext]
          exact ⟨hc.table, hc.size, hc.done⟩
        have hn' : q.size.toNat < n + c'.length.toNat := by omega
        have hpos : 0 < n := by omega
        simp only [map_eq_ok, collectFrom_eq_ok_iff hc' hn' hpos, rest_iff_cons hc h hnext]
        constructor
        · rintro ⟨_, ⟨w, hw, rfl⟩, rfl⟩
          exact ⟨_, ⟨w, hw, rfl⟩, rfl⟩
        · rintro ⟨_, ⟨w, hw, rfl⟩, rfl⟩
          exact ⟨_, ⟨w, hw, rfl⟩, rfl⟩
      · have hdone : c'.done = true := by
          rw [hafter, after, if_neg hnext]
        rw [collectFrom_done (by omega) hdone, Except.map]
        simp only [rest_iff_last hc h hnext]
        constructor
        · intro h
          cases h
          exact ⟨_, rfl, rfl⟩
        · rintro ⟨_, rfl, rfl⟩
          rfl

end DescriptorChain

open DescriptorChain

variable {q : Queue} {m : GuestMemory} {head : UInt16} {w : List (UInt16 × Descriptor)}

theorem Queue.ChainFrom.of_walk (hw : q.WalkFrom m head w) (hin : ∀ p ∈ w, p.1 < q.size) :
    q.ChainFrom m head w where
  walk := hw
  inTable := hin
  length_le := hw.length_le (f := UInt16.toNat) (fun _ _ => UInt16.toNat_inj.1)
    fun p hp => UInt16.lt_iff_toNat_lt.1 (hin p hp)

theorem Queue.ChainFrom.not_broken (h : q.ChainFrom m head w) : ¬ q.Broken m head := by
  rintro (⟨hi, hsize⟩ | ⟨hi, hread⟩ | ⟨hi, hcycle⟩ | ⟨his, hsize⟩)
  · obtain ⟨w', hsuffix, hw'⟩ := h.walk.exists_suffix hi
    obtain ⟨d, -, hmem⟩ := hw'.exists_entry
    exact absurd (h.inTable _ (hsuffix.subset hmem)) (UInt16.not_lt.2 hsize)
  · obtain ⟨w', -, hw'⟩ := h.walk.exists_suffix hi
    obtain ⟨d, hd, -⟩ := hw'.exists_entry
    cases hd.symm.trans hread
  · obtain ⟨w', -, hw'⟩ := h.walk.exists_suffix hi
    exact hw'.not_cyclic hcycle
  · have hlt := h.walk.length_of_isChain his
    have hle := h.length_le
    rw [List.length_cons] at hsize
    omega

theorem collect_eq_ok_iff {ds : List Descriptor} :
    (q.chainAt head).collect m = .ok ds ↔ ∃ w, q.ChainFrom m head w ∧ ds = w.map Prod.snd := by
  rw [collect, collectFrom_eq_ok_iff ⟨rfl, rfl, rfl⟩ (Nat.lt_succ_self _) (Nat.succ_pos _)]
  constructor
  · rintro ⟨w, hw, hds⟩
    exact ⟨w, .of_walk hw.walk hw.inTable, hds⟩
  · rintro ⟨w, h, hds⟩
    refine ⟨w, ⟨h.walk, h.inTable, ?_⟩, hds⟩
    rw [Nat.add_comm]
    exact h.length_le

/-- **`collect` gives exactly the chains in the table**: the counter cuts no walk short, and a chain
with a cycle, an index out of range or too many descriptors fails. -/
theorem collect_exact (q : Queue) (m : GuestMemory) (head : UInt16) :
    Collects m (q.chainAt head) ((q.chainAt head).collect m) ∧
      (∀ ds, (q.chainAt head).collect m = .ok ds ↔
        ∃ w, q.ChainFrom m head w ∧ ds = w.map Prod.snd) ∧
      (∀ w, q.WalkFrom m head w → (∀ p ∈ w, p.1 < q.size) →
        (q.chainAt head).collect m = .ok (w.map Prod.snd)) ∧
      (q.Broken m head → ∃ e, (q.chainAt head).collect m = .error e) := by
  refine ⟨?_, fun ds => collect_eq_ok_iff, fun w hw hin => ?_, fun hbroken => ?_⟩
  · exact collects_collectFrom (Nat.succ_pos _) (Nat.lt_succ_self _)
  · exact collect_eq_ok_iff.2 ⟨w, .of_walk hw hin, rfl⟩
  · cases hcollect : (q.chainAt head).collect m with
    | error e => exact ⟨e, rfl⟩
    | ok ds =>
      obtain ⟨w, hchain, -⟩ := collect_eq_ok_iff.1 hcollect
      exact absurd hbroken hchain.not_broken

end Squib
