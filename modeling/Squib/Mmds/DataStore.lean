import Squib.Lib.MergePatch
import Squib.Lib.Run
import Squib.Mmds.Store

/-!
# Writing to the data store
-/

namespace Squib.Metadata

open Json Run

/-! ## Merge patches -/

mutual

def mergePatch : Json → Json → Json
  | .object t, .object p => .object (mergeMembers t p)
  | _, patch => patch

def mergeMembers : List (String × Json) → List (String × Json) → List (String × Json)
  | t, [] => t
  | t, (k, pv) :: p =>
    mergeMembers (if pv.isNull then remove k t else insert k (mergePatch (member t k) pv) t) p

end

def Agrees : Json → Json → Prop
  | .object t, .object p => each t p
  | _, patch => patch.NullFree
where
  each (t : List (String × Json)) : List (String × Json) → Prop
    | [] => True
    | (k, pv) :: p => Agrees (member t k) pv ∧ each t p

variable {target patch : Json} {t p : List (String × Json)}

theorem mergeMembers_eq : mergeMembers t p = updateAll mergePatch t p := by
  induction p generalizing t with
  | nil => rfl
  | cons e p ih =>
    rw [mergeMembers, ih]
    rfl

theorem agrees_object : Agrees (.object t) (.object p) ↔ ∀ e ∈ p, Agrees (member t e.1) e.2 := by
  rw [Agrees]
  induction p with
  | nil => simp [Agrees.each]
  | cons e p ih => simp [Agrees.each, ih]

theorem object_or_not (target : Json) :
    (∃ t, target = .object t) ∨ target.members = [] ∧ ∀ patch,
      mergePatch target patch = patch ∧ (Agrees target patch ↔ patch.NullFree) := by
  cases target with
  | object t => exact .inl ⟨t, rfl⟩
  | null | bool _ | number _ | string _ | array _ =>
    exact .inr ⟨rfl, fun patch => by cases patch <;> exact ⟨rfl, Iff.rfl⟩⟩

theorem mergePatch_of_not_object (target : Json) (h : ∀ p, patch ≠ .object p) :
    mergePatch target patch = patch ∧ rfc7396 target patch = patch ∧ Agrees target patch ∧
      patch.NullFree := by
  cases patch with
  | object p => exact absurd rfl (h p)
  | null | bool _ | number _ | string _ | array _ => cases target <;> exact ⟨rfl, rfl, trivial, trivial⟩

theorem agrees_of_isNull (h : patch.isNull = true) : Agrees target patch := by
  cases patch with
  | null => cases target <;> trivial
  | bool _ | number _ | string _ | array _ | object _ => cases h

theorem mergePatch_eq_rfc7396_iff (hp : patch.Sorted) :
    mergePatch target patch = rfc7396 target patch ↔ Agrees target patch := by
  induction patch using objectInduction generalizing target with
  | other patch hpatch =>
    obtain ⟨hmerge, hrfc, hagrees, -⟩ := mergePatch_of_not_object target hpatch
    simp [hmerge, hrfc, hagrees]
  | object p ih =>
    obtain ⟨hsorted, hvalues⟩ := objects_object.1 hp
    have hne := hsorted.imp fun h => ne_of_lt h
    have ih : ∀ {x}, ∀ e ∈ p, (mergePatch x e.2 = rfc7396 x e.2 ↔ Agrees x e.2) :=
      fun e he => ih e he (hvalues e he)
    rw [rfc7396, rfcMembers_eq]
    obtain ⟨t, rfl⟩ | ⟨hmembers, hother⟩ := object_or_not target
    · rw [mergePatch, mergeMembers_eq, Json.object.injEq, agrees_object]
      constructor
      · intro heq e he
        cases hnull : e.2.isNull with
        | true => exact agrees_of_isNull hnull
        | false =>
          have hlookup := congrArg (List.lookup e.1) heq
          rw [lookup_updateAll hne he, lookup_updateAll hne he, hnull] at hlookup
          exact (ih e he).1 (Option.some.inj hlookup)
      · intro h
        exact updateAll_congr hne fun e he _ => (ih e he).2 (h e he)
    · have ih : ∀ e ∈ p, (e.2 = rfc7396 .null e.2 ↔ e.2.NullFree) := fun e he => by
        have hnull := (object_or_not .null).resolve_left nofun
        rw [← (hnull.2 e.2).2, ← ih e he, (hnull.2 e.2).1]
      rw [hmembers, (hother _).1, (hother _).2, Json.object.injEq, nullFree_object]
      constructor
      · intro heq e he
        have hlookup := congrArg (List.lookup e.1) heq
        rw [lookup_of_mem hne he, lookup_updateAll hne he] at hlookup
        split_ifs at hlookup with hnull
        exact ⟨Bool.eq_false_iff.2 hnull, (ih e he).1 (Option.some.inj hlookup)⟩
      · intro h
        rw [updateAll_append hsorted (fun _ h => absurd h List.not_mem_nil) fun e he =>
          ⟨(h e he).1, ((ih e he).2 (h e he).2).symm⟩, List.nil_append]

theorem isNull_mergePatch (h : patch.isNull = false) : (mergePatch target patch).isNull = false := by
  cases patch with
  | object p => cases target <;> rfl
  | null => cases h
  | bool _ | number _ | string _ | array _ => cases target <;> rfl

theorem nullFree_mergePatch_iff (hp : patch.Sorted) (ht : target.NullFree) :
    (mergePatch target patch).NullFree ↔ Agrees target patch := by
  induction patch using objectInduction generalizing target with
  | other patch hpatch =>
    obtain ⟨hmerge, -, hagrees, hfree⟩ := mergePatch_of_not_object target hpatch
    simp [hmerge, hagrees, hfree]
  | object p ih =>
    obtain ⟨t, rfl⟩ | ⟨-, hother⟩ := object_or_not target
    · obtain ⟨hsorted, hvalues⟩ := objects_object.1 hp
      have ht := nullFree_object.1 ht
      have hne := hsorted.imp fun h => ne_of_lt h
      have ih : ∀ e ∈ p, ((mergePatch (member t e.1) e.2).NullFree ↔ Agrees (member t e.1) e.2) := by
        refine fun e he => ih e he (hvalues e he) ?_
        rw [member]
        cases h : t.lookup e.1 with
        | none => trivial
        | some v => exact (ht _ (mem_of_lookup h)).2
      rw [mergePatch, mergeMembers_eq, agrees_object, nullFree_object]
      constructor
      · intro h e he
        cases hnull : e.2.isNull with
        | true => exact agrees_of_isNull hnull
        | false =>
          have hlookup := lookup_updateAll (f := mergePatch) (t := t) hne he
          rw [hnull] at hlookup
          exact (ih e he).1 (h _ (mem_of_lookup hlookup)).2
      · intro h
        exact forall_mem_updateAll (Q := fun v => v.isNull = false ∧ v.NullFree) hne ht
          fun e he hnull => ⟨isNull_mergePatch hnull, (ih e he).2 (h e he)⟩
    · rw [(hother _).1, (hother _).2]

/-- **The patches that are merged as RFC 7396 says.** Any other leaves a null of its own behind. -/
theorem mergePatch_eq_iff (hp : patch.Sorted) :
    (mergePatch target patch = rfc7396 target patch ↔ Agrees target patch) ∧
      (target.NullFree → ((mergePatch target patch).NullFree ↔ Agrees target patch)) :=
  ⟨mergePatch_eq_rfc7396_iff hp, nullFree_mergePatch_iff hp⟩

theorem mergePatch_eq_number :
    mergePatch (.object []) (.object [("a", .bool true)]) =
      rfc7396 (.object []) (.object [("a", .bool true)]) :=
  (mergePatch_eq_iff (by simp [Objects, Objects.each])).1.2
    (by simp [Agrees, Agrees.each, member, Objects])

/-- The null in a new object stays. -/
theorem mergePatch_ne :
    mergePatch (.object []) (.object [("a", .object [("b", .null)])]) =
        .object [("a", .object [("b", .null)])] ∧
      rfc7396 (.object []) (.object [("a", .object [("b", .null)])]) =
        .object [("a", .object [])] := ⟨rfl, rfl⟩

/-! ## The size cap -/

inductive MmdsError where
  | sizeLimitExceeded (cap got : ℕ)
  | invalidJson (message : String)
  deriving DecidableEq

structure SerdeJson where
  fromStr : List UInt8 → Except String Json
  toString : Json → List UInt8
  toString_empty : toString (.object []) = Text.bytes "\x7b\x7d"

namespace Mmds

def new (sizeCap : ℕ) : Mmds Json := ⟨.v1, .object [], sizeCap⟩

variable (lib : SerdeJson) (m : Mmds Json) (body : List UInt8)

def putJson : Except MmdsError Unit × Mmds Json :=
  if body.length > m.sizeCap then (.error (.sizeLimitExceeded m.sizeCap body.length), m)
  else
    match lib.fromStr body with
    | .error e => (.error (.invalidJson e), m)
    | .ok value => (.ok (), { m with data := value })

def patchJson : Except MmdsError Unit × Mmds Json :=
  match lib.fromStr body with
  | .error e => (.error (.invalidJson e), m)
  | .ok patch =>
    let merged := mergePatch m.data patch
    let serialized := lib.toString merged
    if serialized.length > m.sizeCap then
      (.error (.sizeLimitExceeded m.sizeCap serialized.length), m)
    else (.ok (), { m with data := merged })

inductive Write where
  | put (body : List UInt8)
  | patch (body : List UInt8)

def write : Write → Except MmdsError Unit × Mmds Json
  | .put body => m.putJson lib body
  | .patch body => m.patchJson lib body

def step (m : Mmds Json) (w : Write) : Option (Mmds Json) := some (m.write lib w).2

def Capped : Prop := (lib.toString m.data).length ≤ m.sizeCap

def Fits : Write → Prop
  | .put body => body.length ≤ m.sizeCap →
    ∀ value, lib.fromStr body = .ok value → (lib.toString value).length ≤ m.sizeCap
  | .patch _ => True

theorem write_cases (w : Write) :
    (∃ e, m.write lib w = (.error e, m)) ∧ m.Fits lib w ∨
      ∃ value, m.write lib w = (.ok (), { m with data := value }) ∧
        (m.Fits lib w ↔ (lib.toString value).length ≤ m.sizeCap) := by
  cases w with
  | put body =>
    simp only [write, putJson, Fits]
    split_ifs with hlen
    · exact .inl ⟨⟨_, rfl⟩, fun h => absurd hlen (Nat.not_lt.2 h)⟩
    · cases hbody : lib.fromStr body with
      | error e => exact .inl ⟨⟨_, rfl⟩, nofun⟩
      | ok value => exact .inr ⟨value, rfl, by simp [Nat.not_lt.1 hlen]⟩
  | patch body =>
    simp only [write, patchJson, Fits]
    cases hbody : lib.fromStr body with
    | error e => exact .inl ⟨⟨_, rfl⟩, trivial⟩
    | ok patch =>
      dsimp only
      split_ifs with hlen
      · exact .inl ⟨⟨_, rfl⟩, trivial⟩
      · exact .inr ⟨_, rfl, iff_of_true trivial (Nat.not_lt.1 hlen)⟩

variable {lib m}

theorem capped_write_iff (hm : m.Capped lib) (w : Write) :
    (m.write lib w).2.Capped lib ↔ m.Fits lib w := by
  obtain ⟨⟨e, hw⟩, hfits⟩ | ⟨value, hw, hfits⟩ := write_cases lib m w
  · rw [hw]
    exact iff_of_true hm hfits
  · rw [hw, hfits]
    rfl

/-- **The tree keeps to the cap exactly if every `PUT` does**; a call that fails changes nothing. -/
theorem capped_iff {cap : ℕ} (hcap : 2 ≤ cap) (writes : List Write) :
    (Along (step lib) (fun m w => (m.write lib w).2.Capped lib) writes (new cap) ↔
      Along (step lib) (Fits lib) writes (new cap)) ∧
    ∀ m w e, (write lib m w).1 = .error e → (m.write lib w).2 = m := by
  have hnew : (new cap).Capped lib := by
    rw [Capped, new, lib.toString_empty]
    exact hcap
  refine ⟨?_, fun m w e h => ?_⟩
  · have hall : Along (step lib) (fun _ _ => True) writes (new cap) :=
      Along.of_forall (fun _ _ _ => trivial) _
    have hkeeps := along_keeps_iff (I := fun m => m.Capped lib) (D := Fits lib)
      (fun m w hm _ => by simp only [step, Option.some.injEq, forall_eq', capped_write_iff hm w])
      hall hnew
    simpa only [step, Option.some.injEq, forall_eq'] using hkeeps
  · obtain ⟨⟨e, hw⟩, -⟩ | ⟨value, hw, -⟩ := write_cases lib m w
    · rw [hw]
    · rw [hw] at h
      cases h

def minusZero : SerdeJson where
  fromStr body := if body = Text.bytes "-0" then .ok (.number (.float 0x8000000000000000)) else .error ""
  toString j := if j = .object [] then Text.bytes "\x7b\x7d" else Text.bytes "-0.0"
  toString_empty := rfl

theorem capped_iff_empty : (2 ≤ 2) ∧ Along (step minusZero)
    (fun m w => (m.write minusZero w).2.Capped minusZero) [.put []] (new 2) :=
  ⟨le_rfl, (capped_iff le_rfl [.put []]).1.2 ⟨nofun, fun _ _ => trivial⟩⟩

/-- A body of two bytes is stored as a number of four. -/
theorem not_capped_minusZero :
    (((new 2).write minusZero (.put (Text.bytes "-0"))).1 = .ok ()) ∧
      ¬ ((new 2).write minusZero (.put (Text.bytes "-0"))).2.Capped minusZero :=
  ⟨rfl, show ¬ 4 ≤ 2 by decide⟩

end Mmds

end Squib.Metadata
