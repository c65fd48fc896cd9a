import Mathlib.Algebra.Group.Nat.Defs
import Mathlib.Data.List.AList
import Mathlib.Data.List.Forall2
import Squib.Lib.Text

/-!
# The data store and the token store
-/

namespace Squib.Metadata

/-! ## What the service does not define itself -/

structure External (Value : Type) where
  encode : List UInt8 → List UInt8
  pointer : Value → List UInt8 → Option Value
  toVec : Value → Option (List UInt8)

structure Env where
  now : ℕ
  entropy : Option (Vector UInt8 32)

/-! ## The data store -/

inductive MmdsVersion where
  | v1
  | v2
  deriving DecidableEq, Repr

structure Mmds (Value : Type) where
  version : MmdsVersion
  data : Value
  sizeCap : ℕ

def Mmds.getAtPointer {Value : Type} (ext : External Value) (m : Mmds Value)
    (pointer : List UInt8) : Option Value :=
  if pointer = [] ∨ pointer = Text.bytes "/" then some m.data else ext.pointer m.data pointer

/-! ## The token store -/

def MIN_TTL_SECONDS : ℕ := 1
def MAX_TTL_SECONDS : ℕ := 21600

abbrev Token := List UInt8

def Token.constantTimeEq (token : Token) (other : List UInt8) : Bool :=
  if token.length ≠ other.length then false
  else (token.zip other).foldl (fun diff x => diff ||| (x.1 ^^^ x.2)) 0 == 0

inductive TokenStoreError where
  | ttlOutOfRange (ttl min max : ℕ)
  | entropy
  deriving DecidableEq, Repr

structure TokenStore where
  tokens : AList fun _ : Token => ℕ

namespace TokenStore

def new : TokenStore := ⟨∅⟩

variable (t : TokenStore)

def issue {Value : Type} (ext : External Value) (env : Env) (ttlSeconds : ℕ) :
    Except TokenStoreError Token × TokenStore :=
  if ¬ (MIN_TTL_SECONDS ≤ ttlSeconds ∧ ttlSeconds ≤ MAX_TTL_SECONDS) then
    (.error (.ttlOutOfRange ttlSeconds MIN_TTL_SECONDS MAX_TTL_SECONDS), t)
  else
    match env.entropy with
    | none => (.error .entropy, t)
    | some bytes =>
      let token : Token := ext.encode bytes.toList
      let expiresAt := env.now + ttlSeconds * 10 ^ 9
      (.ok token, ⟨t.tokens.insert token expiresAt⟩)

def validate (now : ℕ) (candidate : List UInt8) : Bool × TokenStore :=
  let hit := t.tokens.entries.any fun x => now < x.2 && Token.constantTimeEq x.1 candidate
  let purge := (t.tokens.entries.filter fun x => x.2 ≤ now).map Sigma.fst
  (hit, ⟨purge.foldl (fun tokens token => tokens.erase token) t.tokens⟩)

def Valid (now : ℕ) (candidate : List UInt8) : Prop :=
  ∃ expiresAt, now < expiresAt ∧ t.tokens.lookup candidate = some expiresAt

theorem issue_cases {Value : Type} (ext : External Value) (env : Env) (ttl : ℕ) :
    (∃ e, t.issue ext env ttl = (.error e, t)) ∨
      (MIN_TTL_SECONDS ≤ ttl ∧ ttl ≤ MAX_TTL_SECONDS) ∧ ∃ bytes : Vector UInt8 32,
        t.issue ext env ttl = (.ok (ext.encode bytes.toList),
          ⟨t.tokens.insert (ext.encode bytes.toList) (env.now + ttl * 10 ^ 9)⟩) := by
  unfold issue
  by_cases httl : MIN_TTL_SECONDS ≤ ttl ∧ ttl ≤ MAX_TTL_SECONDS
  · rw [if_neg (not_not.2 httl)]
    cases env.entropy with
    | none => exact .inl ⟨_, rfl⟩
    | some bytes => exact .inr ⟨httl, bytes, rfl⟩
  · rw [if_pos httl]
    exact .inl ⟨_, rfl⟩

theorem foldl_diff_eq_zero (xs : List (UInt8 × UInt8)) (diff : UInt8) :
    xs.foldl (fun diff x => diff ||| (x.1 ^^^ x.2)) diff = 0 ↔ diff = 0 ∧ ∀ x ∈ xs, x.1 = x.2 := by
  induction xs generalizing diff with
  | nil => simp
  | cons x xs ih =>
    rw [List.foldl_cons, ih, UInt8.or_eq_zero_iff, UInt8.xor_eq_zero_iff, List.forall_mem_cons,
      and_assoc]

theorem constantTimeEq_iff (token : Token) (other : List UInt8) :
    Token.constantTimeEq token other = true ↔ token = other := by
  unfold Token.constantTimeEq
  split_ifs with hlen
  · exact ⟨nofun, fun h => absurd (congrArg List.length h) hlen⟩
  · have hzip : token = other ↔
        token.length = other.length ∧ ∀ {a b}, (a, b) ∈ token.zip other → a = b := by
      rw [← List.forall₂_iff_zip, List.forall₂_eq_eq_eq]
    rw [beq_iff_eq, foldl_diff_eq_zero, hzip]
    simp [not_not.1 hlen]

theorem validate_eq_true_iff (now : ℕ) (candidate : List UInt8) :
    (t.validate now candidate).1 = true ↔ t.Valid now candidate := by
  unfold validate Valid
  simp only [List.any_eq_true, Bool.and_eq_true, decide_eq_true_eq, constantTimeEq_iff]
  constructor
  · rintro ⟨⟨token, expiresAt⟩, hmem, hnow, rfl⟩
    exact ⟨expiresAt, hnow, AList.mem_lookup_iff.2 hmem⟩
  · rintro ⟨expiresAt, hnow, hlookup⟩
    exact ⟨⟨candidate, expiresAt⟩, AList.mem_lookup_iff.1 hlookup, hnow, rfl⟩

instance (now : ℕ) (candidate : List UInt8) : Decidable (t.Valid now candidate) :=
  decidable_of_iff ((t.validate now candidate).1 = true) (t.validate_eq_true_iff now candidate)

end TokenStore

end Squib.Metadata
