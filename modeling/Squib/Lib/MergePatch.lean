import Mathlib.Data.List.Nodup
import Mathlib.Data.String.Basic
import Squib.Lib.Json

/-!
# Merge patches
-/

namespace Json

/-! ## Members -/

def isNull : Json → Bool
  | .null => true
  | _ => false

def members : Json → List (String × Json)
  | .object members => members
  | _ => []

def insert (name : String) (value : Json) : List (String × Json) → List (String × Json)
  | [] => [(name, value)]
  | e :: members =>
    if name < e.1 then (name, value) :: e :: members
    else if name = e.1 then (name, value) :: members
    else e :: insert name value members

def remove (name : String) (members : List (String × Json)) : List (String × Json) :=
  members.filter fun e => e.1 ≠ name

def member (members : List (String × Json)) (name : String) : Json :=
  (members.lookup name).getD .null

def Objects (P : List (String × Json) → Prop) : Json → Prop
  | .object members => P members ∧ each members
  | _ => True
where
  each : List (String × Json) → Prop
    | [] => True
    | (_, value) :: members => Objects P value ∧ each members

abbrev Sorted : Json → Prop := Objects fun members => members.Pairwise fun a b => a.1 < b.1

abbrev NullFree : Json → Prop := Objects fun members => ∀ e ∈ members, e.2.isNull = false

variable {name name' : String} {value : Json} {t p : List (String × Json)} {e : String × Json}

theorem objects_each {P : List (String × Json) → Prop} :
    Objects.each P p ↔ ∀ e ∈ p, Objects P e.2 := by
  induction p with
  | nil => simp [Objects.each]
  | cons e p ih => simp [Objects.each, ih]

theorem objects_object {P : List (String × Json) → Prop} :
    Objects P (.object p) ↔ P p ∧ ∀ e ∈ p, Objects P e.2 := by
  rw [Objects, objects_each]

theorem nullFree_object :
    NullFree (.object p) ↔ ∀ e ∈ p, e.2.isNull = false ∧ e.2.NullFree := by
  rw [NullFree, objects_object, ← forall₂_and]

mutual

theorem objectInduction {motive : Json → Prop} (object : ∀ p, (∀ e ∈ p, motive e.2) → motive (.object p))
    (other : ∀ j, (∀ p, j ≠ .object p) → motive j) : ∀ j, motive j
  | .object p => object p (membersInduction object other p)
  | .null | .bool _ | .number _ | .string _ | .array _ => other _ nofun

theorem membersInduction {motive : Json → Prop} (object : ∀ p, (∀ e ∈ p, motive e.2) → motive (.object p))
    (other : ∀ j, (∀ p, j ≠ .object p) → motive j) : ∀ p : List (String × Json), ∀ e ∈ p, motive e.2
  | (_, v) :: p, e, h => by
    obtain rfl | h := List.mem_cons.1 h
    · exact objectInduction object other v
    · exact membersInduction object other p e h

end

theorem lookup_insert :
    (insert name value t).lookup name' = if name' = name then some value else t.lookup name' := by
  induction t with
  | nil => grind [insert]
  | cons e t ih =>
    rw [insert]
    split_ifs <;> grind

theorem lookup_remove :
    (remove name t).lookup name' = if name' = name then none else t.lookup name' := by
  induction t with
  | nil => simp [remove]
  | cons e t ih =>
    rw [remove, List.filter_cons] at *
    grind

theorem lookup_of_mem (hp : p.Pairwise fun a b => a.1 ≠ b.1) (he : e ∈ p) :
    p.lookup e.1 = some e.2 := by
  induction hp with
  | nil => cases he
  | cons hne _ ih =>
    obtain rfl | he := List.mem_cons.1 he
    · exact List.lookup_cons_self
    · rw [List.lookup_cons, beq_false_of_ne (hne e he).symm]
      exact ih he

theorem mem_of_lookup (h : t.lookup name = some value) : (name, value) ∈ t := by
  induction t with
  | nil => cases h
  | cons e t ih => grind

theorem mem_of_mem_insert (h : e ∈ insert name value t) : e = (name, value) ∨ e ∈ t := by
  induction t with
  | nil => simpa [insert] using h
  | cons e' t ih =>
    rw [insert] at h
    split_ifs at h <;> grind

theorem insert_last (h : ∀ e ∈ t, e.1 < name) : insert name value t = t ++ [(name, value)] := by
  induction t with
  | nil => rfl
  | cons e t ih =>
    have hlt := h e List.mem_cons_self
    rw [insert, if_neg hlt.not_gt, if_neg hlt.ne', ih fun e he => h e (.tail _ he)]
    rfl

/-! ## Patching the members of an object -/

def update (f : Json → Json → Json) (t : List (String × Json)) (e : String × Json) :
    List (String × Json) :=
  if e.2.isNull then remove e.1 t else insert e.1 (f (member t e.1) e.2) t

abbrev updateAll (f : Json → Json → Json) (t p : List (String × Json)) : List (String × Json) :=
  p.foldl (update f) t

section Update

variable {f g : Json → Json → Json}

theorem lookup_update_of_ne (h : name ≠ e.1) : (update f t e).lookup name = t.lookup name := by
  unfold update
  split_ifs
  · rw [lookup_remove, if_neg h]
  · rw [lookup_insert, if_neg h]

theorem member_update_of_ne (h : name ≠ e.1) : member (update f t e) name = member t name := by
  rw [member, lookup_update_of_ne h, member]

theorem lookup_updateAll_of_ne (h : ∀ e ∈ p, name ≠ e.1) :
    (updateAll f t p).lookup name = t.lookup name := by
  induction p generalizing t with
  | nil => rfl
  | cons e p ih =>
    rw [updateAll, List.foldl_cons, ← updateAll, ih fun e he => h e (.tail _ he),
      lookup_update_of_ne (h e List.mem_cons_self)]

theorem lookup_updateAll (hp : p.Pairwise fun a b => a.1 ≠ b.1) (he : e ∈ p) :
    (updateAll f t p).lookup e.1 =
      if e.2.isNull then none else some (f (member t e.1) e.2) := by
  induction hp generalizing t with
  | nil => cases he
  | @cons e' p hne _ ih =>
    rw [updateAll, List.foldl_cons, ← updateAll]
    obtain rfl | he := List.mem_cons.1 he
    · rw [lookup_updateAll_of_ne hne, update]
      split_ifs
      · rw [lookup_remove, if_pos rfl]
      · rw [lookup_insert, if_pos rfl]
    · rw [ih he, member_update_of_ne (hne e he).symm]

theorem updateAll_congr (hp : p.Pairwise fun a b => a.1 ≠ b.1)
    (h : ∀ e ∈ p, e.2.isNull = false → f (member t e.1) e.2 = g (member t e.1) e.2) :
    updateAll f t p = updateAll g t p := by
  induction hp generalizing t with
  | nil => rfl
  | @cons e p hne _ ih =>
    have hstep : update f t e = update g t e := by
      unfold update
      split_ifs with hnull
      · rfl
      · rw [h e List.mem_cons_self (Bool.eq_false_iff.2 hnull)]
    rw [updateAll, updateAll, List.foldl_cons, List.foldl_cons, hstep]
    refine ih fun e' he' hnull => ?_
    rw [member_update_of_ne (hne e' he').symm]
    exact h e' (.tail _ he') hnull

theorem updateAll_append (hp : p.Pairwise fun a b => a.1 < b.1) (ht : ∀ a ∈ t, ∀ e ∈ p, a.1 < e.1)
    (h : ∀ e ∈ p, e.2.isNull = false ∧ f .null e.2 = e.2) : updateAll f t p = t ++ p := by
  induction hp generalizing t with
  | nil => exact (List.append_nil t).symm
  | @cons e p hlt _ ih =>
    obtain ⟨hnull, hf⟩ := h e List.mem_cons_self
    have hbelow : ∀ a ∈ t, a.1 < e.1 := fun a ha => ht a ha e List.mem_cons_self
    have habsent : t.lookup e.1 = none := by
      rw [List.lookup_eq_none_iff]
      exact fun a ha => bne_iff_ne.2 (hbelow a ha).ne'
    rw [updateAll, List.foldl_cons, update, hnull, if_neg Bool.false_ne_true, member, habsent,
      Option.getD_none, hf, insert_last hbelow, ← updateAll, List.append_cons t e p]
    refine ih (fun a ha e' he' => ?_) fun e' he' => h e' (.tail _ he')
    obtain ha | ha := List.mem_append.1 ha
    · exact ht a ha e' (.tail _ he')
    · rw [List.mem_singleton.1 ha]
      exact hlt e' he'

theorem forall_mem_updateAll {Q : Json → Prop} (hp : p.Pairwise fun a b => a.1 ≠ b.1)
    (ht : ∀ e ∈ t, Q e.2) (h : ∀ e ∈ p, e.2.isNull = false → Q (f (member t e.1) e.2)) :
    ∀ e ∈ updateAll f t p, Q e.2 := by
  induction hp generalizing t with
  | nil => exact ht
  | @cons e p hne _ ih =>
    refine ih (fun a ha => ?_) fun e' he' hnull => ?_
    · unfold update at ha
      split_ifs at ha with hnull
      · exact ht a (List.mem_filter.1 ha).1
      · obtain rfl | ha := mem_of_mem_insert ha
        · exact h e List.mem_cons_self (Bool.eq_false_iff.2 hnull)
        · exact ht a ha
    · rw [member_update_of_ne (hne e' he').symm]
      exact h e' (.tail _ he') hnull

end Update

/-! ## RFC 7396 -/

mutual

def rfc7396 (target : Json) : Json → Json
  | .object patch => .object (rfcMembers target.members patch)
  | patch => patch

def rfcMembers : List (String × Json) → List (String × Json) → List (String × Json)
  | target, [] => target
  | target, (name, value) :: patch =>
    rfcMembers
      (if value.isNull then remove name target
      else insert name (rfc7396 (member target name) value) target) patch

end

theorem rfcMembers_eq : rfcMembers t p = updateAll rfc7396 t p := by
  induction p generalizing t with
  | nil => rfl
  | cons e p ih =>
    rw [rfcMembers, ih]
    rfl

end Json
