import Mathlib.Data.Set.Card
import Mathlib.Data.List.Nodup
import Squib.Lib.Run
import Squib.Virtio.Devices.Balloon

/-!
# The pages in the balloon
-/

namespace Squib.BalloonDevice

open Checked Bytes

variable {η : Type}

/-! ## Notifications -/

abbrev Entry := Bool × UInt32

structure Notification where
  inflate : Bool
  chains : List (GuestMemory × List Descriptor)

def Notification.queueIndex (n : Notification) : ℕ := if n.inflate then inflateQueue else deflateQueue

def readable (c : GuestMemory × List Descriptor) : List UInt32 :=
  c.2.flatMap fun desc =>
    (List.range (desc.len.toNat / 4)).filterMap fun i => (c.1.readU32Le (pfnAddr desc i)).toOption

def Notification.pfns (n : Notification) : List UInt32 := n.chains.flatMap readable

structure Balloon where
  pfns : Pfns
  history : List Entry

def Balloon.empty : Balloon := ⟨[], []⟩

def notify (b : Balloon) (n : Notification) : Option Balloon :=
  match n.chains.foldlM (fun pfns c => c.2.foldlM (drainPfns n.queueIndex c.1) pfns) b.pfns with
  | .ok pfns => some ⟨pfns, b.history ++ n.pfns.map (n.inflate, ·)⟩
  | .error _ => none

def Inflated (history : List Entry) (p : UInt32) : Prop :=
  ∃ before after, history = before ++ (true, p) :: after ∧ ∀ e ∈ after, e.2 ≠ p

structure Exact (config : BalloonConfig) (b : Balloon) : Prop where
  nodup : b.pfns.Nodup
  mem : ∀ p, p ∈ b.pfns ↔ Inflated b.history p
  actual : (readConfig config b.pfns 4 4).map leNat = .ok {p | Inflated b.history p}.ncard
  bounded : b.pfns.length ≤ {p | p ∈ b.history.map Prod.snd}.ncard

/-! ## One entry -/

def put (inflate : Bool) (pfns : Pfns) (p : UInt32) : Pfns :=
  if inflate then pfns ++ [p]
  else
    match pfns.findIdx? (· == p) with
    | some pos => (pfns.set pos (pfns.getLast?.getD 0)).dropLast
    | none => pfns

theorem swapRemove_perm {l : Pfns} {pos : ℕ} (h : pos < l.length) :
    ((l.set pos (l.getLast?.getD 0)).dropLast).Perm (l.eraseIdx pos) := by
  rcases List.eq_nil_or_concat l with rfl | ⟨l, x, rfl⟩
  · cases h
  simp only [List.concat_eq_append, List.length_append, List.length_singleton] at h
  simp only [List.concat_eq_append, List.getLast?_concat, Option.getD_some]
  rcases Nat.lt_succ_iff_lt_or_eq.1 h with hlt | rfl
  · rw [List.set_append_left _ _ hlt, List.dropLast_concat, List.eraseIdx_append_of_lt_length hlt]
    exact (List.set_perm_cons_eraseIdx hlt x).trans (List.perm_append_singleton x _).symm
  · simp [List.set_append_right, List.eraseIdx_append_of_length_le]

theorem put_deflate_perm (pfns : Pfns) (p : UInt32) : (put false pfns p).Perm (pfns.erase p) := by
  have h : pfns.idxOf? p = pfns.findIdx? (· == p) := rfl
  unfold put
  rw [if_neg Bool.false_ne_true, List.erase_eq_eraseIdx, h]
  cases hpos : pfns.findIdx? (· == p) with
  | none => exact .refl _
  | some pos => exact swapRemove_perm (List.findIdx?_eq_some_iff_getElem.1 hpos).1

variable (ps : List UInt32) (config : BalloonConfig) (n : Notification)

theorem drainPfn_eq (m : GuestMemory) (desc : Descriptor) (pfns : Pfns) (i : ℕ) :
    drainPfn n.queueIndex m desc pfns i =
      pure (match (m.readU32Le (pfnAddr desc i)).toOption with
        | some p => put n.inflate pfns p
        | none => pfns) := by
  unfold drainPfn Notification.queueIndex
  cases m.readU32Le (pfnAddr desc i) with
  | error e => rfl
  | ok p =>
    cases n.inflate with
    | true => rfl
    | false =>
      dsimp only [Except.toOption, put]
      rw [if_neg (by decide), if_neg (by decide)]
      cases hpos : pfns.findIdx? (· == p) with
      | none => rfl
      | some pos => exact if_pos (List.findIdx?_eq_some_iff_getElem.1 hpos).1

theorem foldlM_drainPfns (c : GuestMemory × List Descriptor) (pfns : Pfns) :
    c.2.foldlM (drainPfns n.queueIndex c.1) pfns = .ok ((readable c).foldl (put n.inflate) pfns) := by
  have hdesc : drainPfns n.queueIndex c.1 = fun pfns desc =>
      pure (((List.range (desc.len.toNat / 4)).filterMap fun i =>
        (c.1.readU32Le (pfnAddr desc i)).toOption).foldl (put n.inflate) pfns) := by
    funext pfns desc
    rw [List.foldl_filterMap, ← List.foldlM_pure]
    refine congrArg (fun f => List.foldlM f pfns _) (funext₂ fun pfns i => ?_)
    rw [drainPfn_eq]
    cases (c.1.readU32Le (pfnAddr desc i)).toOption <;> rfl
  rw [hdesc, List.foldlM_pure, readable, List.foldl_flatMap]
  rfl

theorem notify_eq (b : Balloon) (n : Notification) :
    notify b n =
      some ⟨n.pfns.foldl (put n.inflate) b.pfns, b.history ++ n.pfns.map (n.inflate, ·)⟩ := by
  have hchains : n.chains.foldlM (fun pfns c => c.2.foldlM (drainPfns n.queueIndex c.1) pfns) b.pfns =
      .ok (n.pfns.foldl (put n.inflate) b.pfns) := by
    simp only [foldlM_drainPfns, Notification.pfns, List.foldl_flatMap]
    exact List.foldlM_pure
  rw [notify, hchains]

theorem drainPfnQueue_notify (inflate : Bool) {fuel : ℕ} {fd fd' : Frontend Pfns} {w w' : World η}
    {returned : Bool} (history : List Entry)
    (h : drainPfnQueue fuel (Notification.queueIndex ⟨inflate, []⟩) fd w = .ok (returned, fd', w')) :
    ∃ chains, (notify ⟨fd.own, history⟩ ⟨inflate, chains⟩).map Balloon.pfns = some fd'.own := by
  simp only [notify_eq, Option.map_some, Option.some.injEq]
  refine drain_relates (fun x x' : Pfns × η => ∃ chains : List (GuestMemory × List Descriptor),
    (chains.flatMap readable).foldl (put inflate) x.1 = x'.1) (fun x => ⟨[], rfl⟩) ?_ ?_ h
  · rintro x y z ⟨cs, hcs⟩ ⟨cs', hcs'⟩
    exact ⟨cs ++ cs', by rw [List.flatMap_append, List.foldl_append, hcs, hcs']⟩
  · intro r pfns w
    cases r with
    | error e => exact returns_ok ⟨[], rfl⟩
    | ok descs =>
      refine Returns.bind (P := fun x => x = (readable (w.mem, descs)).foldl (put inflate) pfns)
        ⟨_, foldlM_drainPfns ⟨inflate, []⟩ (w.mem, descs) pfns, rfl⟩ fun x hx => returns_ok ?_
      exact ⟨[(w.mem, descs)], by simp [hx]⟩

/-! ## The list as a set -/

theorem inflated_concat (history : List Entry) (e : Entry) (p : UInt32) :
    Inflated (history ++ [e]) p ↔ if e.2 = p then e.1 = true else Inflated history p := by
  constructor
  · rintro ⟨before, after, heq, hafter⟩
    rcases List.eq_nil_or_concat after with rfl | ⟨after, e', rfl⟩
    · obtain ⟨-, he⟩ := List.append_inj' heq rfl
      cases he
      simp
    · rw [List.concat_eq_append, ← List.cons_append, ← List.append_assoc] at heq
      obtain ⟨rfl, he⟩ := List.append_inj' heq rfl
      cases he
      rw [if_neg (hafter e (by simp))]
      exact ⟨before, after, rfl, fun e' he' => hafter e' (by simp [he'])⟩
  · intro h
    split_ifs at h with hp
    · exact ⟨history, [], by rw [← hp, ← h], nofun⟩
    · obtain ⟨before, after, rfl, hafter⟩ := h
      refine ⟨before, after ++ [e], by simp, fun e' he' => ?_⟩
      rcases List.mem_append.1 he' with h' | h'
      · exact hafter e' h'
      · rwa [List.mem_singleton.1 h']

def Tracks (pfns : Pfns) (history : List Entry) : Prop :=
  pfns.Nodup ∧ ∀ p, p ∈ pfns ↔ Inflated history p

variable {pfns : Pfns} {history : List Entry} {inflate : Bool}

theorem tracks_put (h : Tracks pfns history) {p : UInt32} (hp : inflate = true → p ∉ pfns) :
    Tracks (put inflate pfns p) (history ++ [(inflate, p)]) := by
  simp only [Tracks, inflated_concat, ← h.2]
  cases inflate with
  | true =>
    have hp := hp rfl
    rw [put, if_pos rfl]
    refine ⟨List.nodup_append.2 ⟨h.1, List.nodup_singleton p, ?_⟩, fun p' => ?_⟩
    · intro a ha b hb e
      rw [List.mem_singleton.1 hb] at e
      exact hp (e ▸ ha)
    split_ifs with he <;> simp [he, eq_comm]
  | false =>
    have hperm := put_deflate_perm pfns p
    refine ⟨hperm.nodup_iff.2 (h.1.erase p), fun p' => ?_⟩
    rw [hperm.mem_iff, h.1.mem_erase_iff]
    split_ifs with he <;> simp [he, eq_comm]

theorem tracks_foldl (h : Tracks pfns history) (hps : inflate = true → (pfns ++ ps).Nodup) :
    Tracks (ps.foldl (put inflate) pfns) (history ++ ps.map (inflate, ·)) := by
  induction ps generalizing pfns history with
  | nil => simpa using h
  | cons p ps ih =>
    have hput := @tracks_put _ _ inflate h p fun hi hmem =>
      List.disjoint_of_nodup_append (hps hi) hmem List.mem_cons_self
    rw [List.map_cons, List.append_cons]
    refine ih hput fun hi => ?_
    subst hi
    simpa [put] using hps rfl

theorem readConfig_actual (pfns : Pfns) :
    readConfig config pfns 4 4 = .ok (leBytes 4 (min pfns.length (2 ^ 32 - 1))) := rfl

theorem exact_iff_tracks (b : Balloon) :
    Exact config b ↔ Tracks b.pfns b.history ∧ b.pfns.length < 2 ^ 32 := by
  have hcard (hn : b.pfns.Nodup) : {p | p ∈ b.pfns}.ncard = b.pfns.length := by
    rw [← List.coe_toFinset, Set.ncard_coe_finset, List.toFinset_card_of_nodup hn]
  have hactual : (readConfig config b.pfns 4 4).map leNat = .ok (min b.pfns.length (2 ^ 32 - 1)) := by
    rw [readConfig_actual, Except.map, leNat_leBytes, Nat.mod_eq_of_lt (by omega)]
  constructor
  · rintro ⟨hn, hmem, ha, -⟩
    simp only [hactual, ← hmem, hcard hn, Except.ok.injEq] at ha
    exact ⟨⟨hn, hmem⟩, by omega⟩
  · rintro ⟨⟨hn, hmem⟩, hlt⟩
    refine ⟨hn, hmem, ?_, ?_⟩
    · simp only [hactual, ← hmem, hcard hn, Except.ok.injEq]
      omega
    · rw [← hcard hn]
      refine Set.ncard_le_ncard (fun p hp => ?_) (List.finite_toSet _)
      obtain ⟨before, after, heq, -⟩ := (hmem p).1 hp
      simp [heq]

theorem foldl_inflate (pfns : Pfns) : ps.foldl (put true) pfns = pfns ++ ps := by
  induction ps generalizing pfns with
  | nil => simp
  | cons p ps ih => simp [ih, put]

theorem length_foldl_deflate (pfns : Pfns) : (ps.foldl (put false) pfns).length ≤ pfns.length := by
  induction ps generalizing pfns with
  | nil => exact le_rfl
  | cons p ps ih =>
    have hperm := (put_deflate_perm pfns p).length_eq
    exact (ih _).trans (hperm ▸ List.length_erase_le)

def Fresh (b : Balloon) (n : Notification) : Prop :=
  n.inflate = true → (b.pfns ++ n.pfns).Nodup ∧ (b.pfns ++ n.pfns).length < 2 ^ 32

theorem exact_notify_iff {b : Balloon} (h : Exact config b) :
    (∀ b', notify b n = some b' → Exact config b') ↔ Fresh b n := by
  obtain ⟨ht, hlt⟩ := (exact_iff_tracks config b).1 h
  simp only [notify_eq, Option.some.injEq, forall_eq', exact_iff_tracks, Fresh]
  constructor
  · rintro ⟨⟨hn, -⟩, hfit⟩ hi
    rw [hi, foldl_inflate] at hn hfit
    exact ⟨hn, hfit⟩
  · intro hfresh
    refine ⟨tracks_foldl n.pfns ht fun hi => (hfresh hi).1, ?_⟩
    cases hi : n.inflate with
    | true =>
      rw [foldl_inflate]
      exact (hfresh hi).2
    | false => exact (length_foldl_deflate n.pfns b.pfns).trans_lt hlt

/-- **What keeps the list exact.** -/
theorem balloon_exact_iff (config : BalloonConfig) (ns : List Notification) :
    Run.Along notify (fun b n => ∀ b', notify b n = some b' → Exact config b') ns .empty ↔
      Run.Along notify Fresh ns .empty :=
  Run.along_keeps_iff (fun _ n h _ => exact_notify_iff config n h)
    (C := fun _ _ => True) (Run.Along.of_forall (fun _ _ _ => trivial) _)
    ((exact_iff_tracks config _).2
      ⟨⟨List.nodup_nil, by simp [Inflated, Balloon.empty]⟩, by simp [Balloon.empty]⟩)

section Example

def twice : Notification where
  inflate := true
  chains := [(.fromBytes 0x1000 [5, 0, 0, 0, 5, 0, 0, 0] (by decide), [⟨0x1000, 8, 0, 0⟩])]

theorem twice_not_exact :
    ∃ b, notify .empty twice = some b ∧ b.pfns = [5, 5] ∧ ¬ Exact ⟨0, 0⟩ b := by
  have hp : twice.pfns = [5, 5] := by decide +kernel
  refine ⟨_, notify_eq _ _, ?_⟩
  rw [hp]
  exact ⟨rfl, fun h => absurd h.nodup (by decide)⟩

end Example

end Squib.BalloonDevice
