import Mathlib.Data.Nat.Count
import Squib.Lib.Audit
import Squib.Virtio.Buffers

/-!
# What gathering and scattering cost
-/

namespace Squib

open Audit Checked

variable {η : Type}

inductive Charge where
  | wrote (addr : GuestAddress) (len : ℕ)
  | buffer (len : ℕ)
  | packet (len : ℕ)
  deriving DecidableEq, Repr

namespace Charge

@[simp] def stored : Charge → ℕ
  | wrote _ len => len
  | buffer _ => 0
  | packet _ => 0

def received (descs : List Descriptor) : Charge → ℕ
  | wrote addr len => Nat.count (fun i => WriteOnlySpan descs (addr.toNat + i)) len
  | buffer _ => 0
  | packet _ => 0

@[simp] def allocated : Charge → ℕ
  | wrote _ _ => 0
  | buffer len => len
  | packet len => len

def Inside (descs : List Descriptor) : Charge → Prop
  | wrote addr len => ∀ i < len, WriteOnlySpan descs (addr.toNat + i)
  | buffer _ => True
  | packet _ => True

variable {descs : List Descriptor} {c : Charge}

theorem received_of_inside (h : c.Inside descs) : c.received descs = c.stored := by
  cases c with
  | wrote addr len => exact Nat.count_iff_forall.2 h
  | buffer len => rfl
  | packet len => rfl

theorem Inside.mono {descs' : List Descriptor} (hsub : descs ⊆ descs') (h : c.Inside descs) :
    c.Inside descs' := by
  cases c with
  | wrote addr len => exact fun i hi => (h i hi).mono hsub
  | buffer len => trivial
  | packet len => trivial

theorem inside_wrote {desc : Descriptor} {len : ℕ} {m : GuestMemory} (hmem : desc ∈ descs)
    (hd : desc.isWriteOnly = true) (hlen : len ≤ desc.len.toNat)
    (hmapped : m.contains desc.addr len = true) : (wrote desc.addr len).Inside descs := by
  intro i hi
  have hlt := GuestMemory.lt_of_contains hmapped
  exact ⟨desc, hmem, hd, by omega, by omega, by omega⟩

end Charge

def received (descs : List Descriptor) (cs : List Charge) : ℕ := (cs.map (Charge.received descs)).sum

def stored (cs : List Charge) : ℕ := (cs.map Charge.stored).sum

def allocated (cs : List Charge) : ℕ := (cs.map Charge.allocated).sum

@[simp] theorem stored_nil : stored [] = 0 := rfl

@[simp] theorem stored_cons (c : Charge) (cs : List Charge) :
    stored (c :: cs) = c.stored + stored cs := rfl

@[simp] theorem stored_append (cs cs' : List Charge) : stored (cs ++ cs') = stored cs + stored cs' := by
  rw [stored, List.map_append, List.sum_append]
  rfl

variable {cs : List Charge} {descs : List Descriptor} {wireOff : ℕ}

theorem stored_eq_zero (h : ∀ c ∈ cs, c.stored = 0) : stored cs = 0 := by
  induction cs with
  | nil => rfl
  | cons c cs ih =>
    obtain ⟨hc, hcs⟩ := List.forall_mem_cons.1 h
    rw [stored_cons, hc, ih hcs]

@[simp] theorem allocated_cons (c : Charge) (cs : List Charge) :
    allocated (c :: cs) = c.allocated + allocated cs := rfl

theorem received_eq_stored (h : ∀ c ∈ cs, c.Inside descs) : received descs cs = stored cs := by
  rw [received, stored, List.map_congr_left fun c hc => Charge.received_of_inside (h c hc)]

/-! ## Copies -/

def storeAudited (w : World η) (addr : GuestAddress) (buf : List UInt8) :
    Audited Charge Panic (Except Error (World η)) :=
  match w.write addr buf with
  | .ok w => do
    MonadWriter.tell [.wrote addr buf.length]
    return .ok w
  | .error e => return .error e

def gatherFromAudited (m : GuestMemory) :
    List Descriptor → (buf : List UInt8) → Audited Charge Panic (List UInt8)
  | [], buf => do
    MonadWriter.tell [.packet buf.length]
    return buf
  | desc :: descs, buf =>
    if desc.isWriteOnly then gatherFromAudited m descs buf
    else do
      MonadWriter.tell [.buffer desc.len.toNat]
      match m.read desc.addr desc.len.toNat with
      | .error _ => gatherFromAudited m descs buf
      | .ok piece => gatherFromAudited m descs (buf ++ piece)

def gatherAudited (m : GuestMemory) (descs : List Descriptor) : Audited Charge Panic (List UInt8) :=
  gatherFromAudited m descs []

def scatterAudited (wire : List UInt8) :
    List Descriptor → (wireOff : ℕ) → (written : UInt32) → World η →
      Audited Charge Panic (UInt32 × World η)
  | [], _, written, w => return (written, w)
  | desc :: descs, wireOff, written, w =>
    if !desc.isWriteOnly then scatterAudited wire descs wireOff written w
    else
      let len := min desc.len.toNat (wire.length - wireOff)
      if len = 0 then scatterAudited wire descs wireOff written w
      else do
        let piece ← liftM (slice wire wireOff (wireOff + len))
        match ← storeAudited w desc.addr piece with
        | .error _ => return (written, w)
        | .ok w =>
          let wireOff := wireOff + len
          let written := saturatingAdd written (UInt32.ofNat len)
          if wire.length ≤ wireOff then return (written, w)
          else scatterAudited wire descs wireOff written w

/-! ## What they charge -/

def readBuffers (descs : List Descriptor) : List Descriptor := descs.filter fun d => !d.isWriteOnly

def gatherCost (m : GuestMemory) (descs : List Descriptor) : List Charge :=
  (readBuffers descs).map (fun d => .buffer d.len.toNat) ++ [.packet (gather m descs).length]

def scatterCost (m : GuestMemory) : (left : ℕ) → List Descriptor → List Charge
  | _, [] => []
  | left, desc :: descs =>
    let len := min desc.len.toNat left
    if !desc.isWriteOnly || len = 0 then scatterCost m left descs
    else if m.contains desc.addr len then .wrote desc.addr len :: scatterCost m (left - len) descs
    else []

variable (m : GuestMemory)

theorem scatterCost_zero (descs : List Descriptor) : scatterCost m 0 descs = [] := by
  induction descs with
  | nil => rfl
  | cons desc descs ih => simp [scatterCost, ih]

theorem scatterCost_congr {m m' : GuestMemory} (h : m'.regions = m.regions) (left : ℕ)
    (descs : List Descriptor) : scatterCost m' left descs = scatterCost m left descs := by
  induction descs generalizing left with
  | nil => rfl
  | cons desc descs ih => simp only [scatterCost, GuestMemory.contains_congr h, ih]

theorem store_cases (w : World η) (addr : GuestAddress) {buf : List UInt8} {len : ℕ}
    (hlen : buf.length = len) :
    (∃ e, w.write addr buf = .error e ∧ ¬ w.mem.contains addr len = true ∧
      Audits (storeAudited w addr buf) (.ok (.error e)) []) ∨
    ∃ w', w.write addr buf = .ok w' ∧ w.mem.contains addr len = true ∧
      w'.mem.regions = w.mem.regions ∧ w'.host = w.host ∧
      Audits (storeAudited w addr buf) (.ok (.ok w')) [.wrote addr len] := by
  subst hlen
  rw [← w.isOk_write, storeAudited]
  cases hw : w.write addr buf with
  | error e => exact .inl ⟨e, rfl, Bool.false_ne_true, .pure _⟩
  | ok w' =>
    exact .inr ⟨w', rfl, rfl, (World.touches_write hw).mem.regions, World.host_of_write hw,
      .charge _ (.pure _)⟩

theorem audits_gatherFrom (descs : List Descriptor) (buf : List UInt8) :
    Audits (gatherFromAudited m descs buf) (.ok (buf ++ gather m descs))
      ((readBuffers descs).map (fun d => .buffer d.len.toNat) ++
        [.packet (buf ++ gather m descs).length]) := by
  induction descs generalizing buf with
  | nil =>
    rw [show gather m [] = [] from rfl, List.append_nil]
    exact .charge _ (.pure _)
  | cons desc descs ih =>
    have hgather : gather m (desc :: descs) = readable m desc ++ gather m descs := List.flatMap_cons
    rw [gatherFromAudited, hgather]
    by_cases hd : desc.isWriteOnly = true
    · rw [if_pos hd, readable, if_pos hd, List.nil_append, readBuffers,
        List.filter_cons_of_neg (by simpa using hd)]
      exact ih buf
    · rw [if_neg hd, readable, if_neg hd, readBuffers,
        List.filter_cons_of_pos (by simpa using hd)]
      refine .charge _ ?_
      cases m.read desc.addr desc.len.toNat with
      | error e => exact ih buf
      | ok piece =>
        rw [← List.append_assoc]
        exact ih (buf ++ piece)

theorem stored_gatherCost (descs : List Descriptor) : stored (gatherCost m descs) = 0 := by
  refine stored_eq_zero fun c hc => ?_
  obtain hc | hc := List.mem_append.1 hc
  · obtain ⟨desc, -, rfl⟩ := List.mem_map.1 hc
    rfl
  · obtain rfl := List.mem_singleton.1 hc
    rfl

theorem audits_gather (descs : List Descriptor) :
    Audits (gatherAudited m descs) (.ok (gather m descs)) (gatherCost m descs) :=
  audits_gatherFrom m descs []

theorem scatter_end {wire : List UInt8} (h : wire.length ≤ wireOff) {written : UInt32} {w : World η} :
    scatter wire descs wireOff written w = .ok (written, w) := by
  induction descs with
  | nil => rfl
  | cons desc descs ih =>
    rw [scatter, Nat.sub_eq_zero_of_le h, Nat.min_zero]
    simp [ih]

theorem audits_scatter (wire : List UInt8) (descs : List Descriptor) (ho : wireOff ≤ wire.length)
    (written : UInt32) (w : World η) :
    ∃ n w', scatter wire descs wireOff written w = .ok (n, w') ∧
      n.toNat = min (written.toNat + stored (scatterCost w.mem (wire.length - wireOff) descs))
        (2 ^ 32 - 1) ∧
      Audits (scatterAudited wire descs wireOff written w) (.ok (n, w'))
        (scatterCost w.mem (wire.length - wireOff) descs) := by
  induction descs generalizing wireOff written w with
  | nil =>
    have hlt := written.toNat_lt
    exact ⟨written, w, rfl, by simp [scatterCost]; omega, .pure _⟩
  | cons desc descs ih =>
    rw [scatter, scatterAudited, scatterCost]
    dsimp only
    by_cases hd : (!desc.isWriteOnly) = true
    · rw [if_pos hd, if_pos hd, if_pos (by simp [hd])]
      exact ih ho written w
    rw [if_neg hd, if_neg hd]
    generalize hlen : min desc.len.toNat (wire.length - wireOff) = len
    by_cases hzero : len = 0
    · rw [if_pos hzero, if_pos hzero, if_pos (by simp [hzero])]
      exact ih ho written w
    rw [if_neg hzero, if_neg hzero, if_neg (by simp [hd, hzero])]
    have hfits : wireOff + len ≤ wire.length := by omega
    have hslice : Returns (slice wire wireOff (wireOff + len)) fun piece => piece.length = len :=
      (returns_slice (Nat.le_add_right _ _) hfits).mono fun piece h => by
        rw [h.2, Nat.add_sub_cancel_left]
    obtain ⟨piece, hpiece, hlength⟩ := hslice
    rw [hpiece, ok_bind]
    obtain ⟨e, hw, hunmapped, hstore⟩ | ⟨w', hw, hmapped, hregions, -, hstore⟩ :=
      store_cases w desc.addr hlength
    · have hlt := written.toNat_lt
      rw [hw, if_neg hunmapped]
      refine ⟨written, w, rfl, by simp; omega, ?_⟩
      exact .silent_bind (.lift (.ok piece)) (.silent_bind hstore (.pure _))
    · rw [hw, if_pos hmapped]
      have hlenlt : len < 2 ^ 32 := by
        have := desc.len.toNat_lt
        omega
      have hcount : (saturatingAdd written (UInt32.ofNat len)).toNat =
          min (written.toNat + len) (2 ^ 32 - 1) := by
        rw [toNat_saturatingAdd_eq_min, UInt32.toNat_ofNat_of_lt' hlenlt]
      have hcost : ∀ left, scatterCost w'.mem left descs = scatterCost w.mem left descs := fun left =>
        scatterCost_congr hregions left descs
      obtain ⟨n, w'', hn, hcounted, haudits⟩ := ih hfits (saturatingAdd written (UInt32.ofNat len)) w'
      rw [hcost, Nat.sub_add_eq] at hcounted haudits
      refine ⟨n, w'', ?_, ?_, .silent_bind (.lift (.ok piece)) (.charge_bind hstore ?_)⟩
      · dsimp only
        split_ifs with hend
        · rw [← hn, scatter_end hend]
        · exact hn
      · rw [hcounted, hcount]
        simp only [stored_cons, Charge.stored]
        omega
      · dsimp only
        split_ifs with hend
        · rw [scatter_end hend] at hn
          cases hn
          rw [Nat.sub_eq_zero_of_le (by omega : wire.length - wireOff ≤ len), scatterCost_zero]
          exact .pure _
        · exact haudits

end Squib
