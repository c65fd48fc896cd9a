/-!
# JSON values

Numbers are integers of 64 bits or floats, which are kept by their bits; an object is the list of its
members.
-/

inductive Json.Number where
  | posInt (n : UInt64)
  | negInt (n : Int64)
  | float (bits : UInt64)
  deriving DecidableEq

inductive Json where
  | null
  | bool (b : Bool)
  | number (n : Json.Number)
  | string (s : List UInt8)
  | array (elems : List Json)
  | object (members : List (String × Json))

namespace Json

def get (key : String) : Json → Option Json
  | .object members => members.lookup key
  | _ => none

def ofUInt64 (n : UInt64) : Json := .number (.posInt n)

def ofOption {α : Type} (f : α → Json) : Option α → Json
  | none => .null
  | some a => f a

mutual

def beq : Json → Json → Bool
  | .null, .null => true
  | .bool a, .bool b => a == b
  | .number a, .number b => a == b
  | .string a, .string b => a == b
  | .array a, .array b => beqElems a b
  | .object a, .object b => beqMembers a b
  | _, _ => false

def beqElems : List Json → List Json → Bool
  | [], [] => true
  | a :: as, b :: bs => beq a b && beqElems as bs
  | _, _ => false

def beqMembers : List (String × Json) → List (String × Json) → Bool
  | [], [] => true
  | (k, a) :: as, (l, b) :: bs => k == l && beq a b && beqMembers as bs
  | _, _ => false

end

mutual

theorem beq_iff : ∀ a b : Json, beq a b = true ↔ a = b
  | .array a, b => by cases b <;> simp [beq, beqElems_iff a]
  | .object a, b => by cases b <;> simp [beq, beqMembers_iff a]
  | .null, b | .bool _, b | .number _, b | .string _, b => by cases b <;> simp [beq]

theorem beqElems_iff : ∀ as bs : List Json, beqElems as bs = true ↔ as = bs
  | [], bs => by cases bs <;> simp [beqElems]
  | a :: as, [] => by simp [beqElems]
  | a :: as, b :: bs => by simp [beqElems, beq_iff a b, beqElems_iff as bs]

theorem beqMembers_iff : ∀ as bs : List (String × Json), beqMembers as bs = true ↔ as = bs
  | [], bs => by cases bs <;> simp [beqMembers]
  | a :: as, [] => by simp [beqMembers]
  | (k, a) :: as, (l, b) :: bs => by
    simp [beqMembers, beq_iff a b, beqMembers_iff as bs]

end

instance instDecidableEqJson : DecidableEq Json := fun a b => decidable_of_iff _ (beq_iff a b)

end Json
