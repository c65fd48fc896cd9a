import Mathlib.Data.List.Basic

/-!
# Text as UTF-8 bytes
-/

namespace Text

def bytes (s : String) : List UInt8 := s.toUTF8.data.toList

def ofBytes (t : List UInt8) : String := (String.fromUTF8? ⟨t.toArray⟩).getD ""

def decimal (n : ℕ) : List UInt8 := bytes (toString n)

/-! ## Characters -/

def isContinuation (b : UInt8) : Bool := 0x80 ≤ b && b ≤ 0xBF

def charsAux : List UInt8 → List UInt8 × List (List UInt8)
  | [] => ([], [])
  | b :: rest =>
    let (tail, cs) := charsAux rest
    if isContinuation b then (b :: tail, cs) else ([], (b :: tail) :: cs)

def chars (t : List UInt8) : List (List UInt8) := (charsAux t).2

def validChar : List UInt8 → Bool
  | [a] => a ≤ 0x7F
  | [a, _] => 0xC2 ≤ a && a ≤ 0xDF
  | [a, b, _] =>
    (a == 0xE0 && 0xA0 ≤ b) || (0xE1 ≤ a && a ≤ 0xEC) || (a == 0xED && b ≤ 0x9F) ||
      (0xEE ≤ a && a ≤ 0xEF)
  | [a, b, _, _] =>
    (a == 0xF0 && 0x90 ≤ b) || (0xF1 ≤ a && a ≤ 0xF3) || (a == 0xF4 && b ≤ 0x8F)
  | _ => false

def isUtf8 (t : List UInt8) : Bool := (charsAux t).1.isEmpty && (chars t).all validChar

def isWhitespace : List UInt8 → Bool
  | [a] => (0x09 ≤ a && a ≤ 0x0D) || a == 0x20
  | [a, b] => a == 0xC2 && (b == 0x85 || b == 0xA0)
  | [a, b, c] =>
    (a == 0xE1 && b == 0x9A && c == 0x80) ||
    (a == 0xE2 && b == 0x80 && (c ≤ 0x8A || c == 0xA8 || c == 0xA9 || c == 0xAF)) ||
    (a == 0xE2 && b == 0x81 && c == 0x9F) || (a == 0xE3 && b == 0x80 && c == 0x80)
  | _ => false

/-! ## Cutting a text -/

def trim (t : List UInt8) : List UInt8 :=
  (((chars t).dropWhile isWhitespace).reverse.dropWhile isWhitespace).reverse.flatten

def parts {α : Type} (p : α → Bool) : List α → List (List α)
  | [] => [[]]
  | a :: rest =>
    if p a then [] :: parts p rest
    else match parts p rest with
      | [] => [[a]]
      | part :: ps => (a :: part) :: ps

def words (t : List UInt8) : List (List UInt8) :=
  ((parts isWhitespace (chars t)).map List.flatten).filter fun w => !w.isEmpty

def lines : List UInt8 → List (List UInt8)
  | 0x0D :: 0x0A :: rest => [] :: lines rest
  | a :: rest =>
    match lines rest with
    | [] => [[a]]
    | line :: ls => (a :: line) :: ls
  | [] => [[]]

def cutAt (b : UInt8) (t : List UInt8) : Option (List UInt8 × List UInt8) :=
  (t.findIdx? (· == b)).map fun i => (t.take i, t.drop (i + 1))

/-! ## Comparing and reading -/

def lower (b : UInt8) : UInt8 := if 0x41 ≤ b && b ≤ 0x5A then b + 0x20 else b

def eqIgnoreAsciiCase (s t : List UInt8) : Bool := s.map lower == t.map lower

def isDigit (b : UInt8) : Bool := 0x30 ≤ b && b ≤ 0x39

def decimalValue (ds : List UInt8) : ℕ := ds.foldl (fun n d => 10 * n + (d.toNat - 0x30)) 0

def parseUint (max : ℕ) (t : List UInt8) : Option ℕ :=
  let digits := if t.head? = some 0x2B then t.tail else t
  if digits ≠ [] ∧ digits.all isDigit = true ∧ decimalValue digits ≤ max then
    some (decimalValue digits)
  else none

def hexDigit (b : UInt8) : Option ℕ :=
  if isDigit b then some (b.toNat - 0x30)
  else if 0x61 ≤ lower b && lower b ≤ 0x66 then some ((lower b).toNat - 0x57)
  else none

def parseHex (max : ℕ) (t : List UInt8) : Option ℕ := do
  let digits := if t.head? = some 0x2B then t.tail else t
  let values ← digits.mapM hexDigit
  let n := values.foldl (fun n d => 16 * n + d) 0
  if digits ≠ [] ∧ n ≤ max then some n else none

/-! ## Trimmed texts -/

variable {t s : List UInt8} {b : UInt8}

theorem charsAux_continuation (rest : List UInt8) (hb : isContinuation b = true) :
    charsAux (b :: rest) = (b :: (charsAux rest).1, chars rest) := if_pos hb

theorem charsAux_start (rest : List UInt8) (hb : ¬ isContinuation b = true) :
    charsAux (b :: rest) = ([], (b :: (charsAux rest).1) :: chars rest) := if_neg hb

theorem flatten_chars : ∀ t, (charsAux t).1 ++ (chars t).flatten = t
  | [] => rfl
  | b :: rest => by
    have ih : (charsAux rest).1 ++ (charsAux rest).2.flatten = rest := flatten_chars rest
    by_cases hb : isContinuation b = true
    · simp [chars, charsAux_continuation rest hb, ih]
    · simp [chars, charsAux_start rest hb, ih]

theorem charsAux_append (h : (charsAux s).1 = []) :
    ∀ t, charsAux (t ++ s) = ((charsAux t).1, chars t ++ chars s)
  | [] => Prod.ext h rfl
  | b :: rest => by
    have ih := charsAux_append h rest
    by_cases hb : isContinuation b = true
    · simp [chars, charsAux_continuation _ hb, ih]
    · simp [chars, charsAux_start _ hb, ih]

theorem charsAux_lead : ∀ t, charsAux (charsAux t).1 = ((charsAux t).1, [])
  | [] => rfl
  | b :: rest => by
    have ih := charsAux_lead rest
    by_cases hb : isContinuation b = true
    · simp [charsAux_continuation _ hb, ih, chars]
    · rw [charsAux_start _ hb]
      rfl

theorem charsAux_of_mem {c : List UInt8} : ∀ {t}, c ∈ chars t → charsAux c = ([], [c])
  | b :: rest, hc => by
    by_cases hb : isContinuation b = true
    · rw [chars, charsAux_continuation _ hb] at hc
      exact charsAux_of_mem hc
    rw [chars, charsAux_start _ hb] at hc
    obtain rfl | hc := List.mem_cons.1 hc
    · rw [charsAux_start _ hb, chars, charsAux_lead]
    · exact charsAux_of_mem hc

theorem charsAux_flatten : ∀ {cs : List (List UInt8)}, (∀ c ∈ cs, charsAux c = ([], [c])) →
    charsAux cs.flatten = ([], cs)
  | [], _ => rfl
  | c :: cs, h => by
    obtain ⟨hc, hcs⟩ := List.forall_mem_cons.1 h
    have ih := charsAux_flatten hcs
    rw [List.flatten_cons, charsAux_append (by rw [ih]), chars, chars, ih, hc]
    rfl

structure Trimmed (t : List UInt8) : Prop where
  lead : (charsAux t).1 = []
  first : ∀ c ∈ (chars t).head?, isWhitespace c = false
  last : ∀ c ∈ (chars t).getLast?, isWhitespace c = false

theorem dropWhile_eq_self {α : Type} {p : α → Bool} :
    ∀ {xs : List α}, (∀ x ∈ xs.head?, p x = false) → xs.dropWhile p = xs
  | [], _ => rfl
  | x :: _, h => List.dropWhile_cons_of_neg (by simp [h x rfl])

theorem Trimmed.trim_eq (h : Trimmed t) : trim t = t := by
  have hflatten := flatten_chars t
  rw [h.lead, List.nil_append] at hflatten
  have hback : (chars t).reverse.dropWhile isWhitespace = (chars t).reverse :=
    dropWhile_eq_self (by simpa using h.last)
  rw [trim, dropWhile_eq_self h.first, hback, List.reverse_reverse, hflatten]

theorem trimmed_trim (t : List UInt8) : Trimmed (trim t) := by
  have hhead : ∀ (cs : List (List UInt8)), ∀ c ∈ (cs.dropWhile isWhitespace).head?,
      isWhitespace c = false := by
    intro cs c hc
    have h := List.head?_dropWhile_not isWhitespace cs
    rw [Option.mem_def.1 hc] at h
    simpa using h
  obtain ⟨cut, hcut⟩ := List.dropWhile_suffix isWhitespace
    (l := ((chars t).dropWhile isWhitespace).reverse)
  generalize hfront : (chars t).dropWhile isWhitespace = front at hcut
  generalize hkept : front.reverse.dropWhile isWhitespace = kept at hcut
  have hsplit : front = kept.reverse ++ cut.reverse := by
    rw [← List.reverse_append, hcut, List.reverse_reverse]
  have hchars : charsAux (trim t) = ([], kept.reverse) := by
    rw [trim, hfront, hkept]
    refine charsAux_flatten fun c hc => charsAux_of_mem (t := t) ?_
    have hmem : c ∈ front := hsplit ▸ List.mem_append_left _ hc
    exact (List.dropWhile_sublist isWhitespace).mem (hfront ▸ hmem)
  refine ⟨by rw [hchars], ?_, ?_⟩
  · intro c hc
    rw [chars, hchars] at hc
    refine hhead (chars t) c ?_
    rw [hfront, hsplit]
    exact List.mem_head?_append_of_mem_head? hc
  · rw [chars, hchars, List.getLast?_reverse, ← hkept]
    exact hhead _

theorem trimmed_of_forall (hlead : (charsAux t).1 = []) (h : ∀ c ∈ chars t, isWhitespace c = false) :
    Trimmed t where
  lead := hlead
  first c hc := h c (List.mem_of_mem_head? hc)
  last c hc := h c (List.mem_of_mem_getLast? hc)

theorem Trimmed.append (h : Trimmed t) (hs : Trimmed s) (hne : t ≠ []) (hne' : s ≠ []) :
    Trimmed (t ++ 0x20 :: s) := by
  have hcons : charsAux (0x20 :: s) = ([], [0x20] :: chars s) := by
    rw [charsAux_start s (by decide), hs.lead]
  have happend := charsAux_append (by rw [hcons]) t
  have hchars : chars (t ++ 0x20 :: s) = chars t ++ [0x20] :: chars s := by
    rw [chars, happend, chars, chars, hcons]
  have hnonempty : ∀ {u}, (charsAux u).1 = [] → u ≠ [] → chars u ≠ [] := by
    intro u hlead hu hnil
    have hflatten := flatten_chars u
    rw [hlead, hnil] at hflatten
    exact hu hflatten.symm
  refine ⟨by rw [happend, h.lead], ?_, ?_⟩
  · rw [hchars, List.head?_append_of_ne_nil _ (hnonempty h.lead hne)]
    exact h.first
  · rw [hchars, List.append_cons, List.getLast?_append_of_ne_nil _ (hnonempty hs.lead hne')]
    exact hs.last

/-! ## Parts -/

section Parts

variable {α : Type} {p : α → Bool} {sep : α}

theorem parts_ne_nil : ∀ xs : List α, parts p xs ≠ []
  | [] => nofun
  | x :: xs => by
    rw [parts]
    split
    · nofun
    · split <;> nofun

theorem parts_append (hsep : p sep = true) (ys : List α) :
    ∀ xs, parts p (xs ++ sep :: ys) = parts p xs ++ parts p ys
  | [] => by simp [parts, hsep]
  | x :: xs => by
    have ih := parts_append hsep ys xs
    rw [List.cons_append, parts, ih, parts]
    split_ifs
    · rfl
    · cases hparts : parts p xs with
      | nil => exact absurd hparts (parts_ne_nil xs)
      | cons part ps => rfl

theorem parts_of_forall : ∀ {xs : List α}, (∀ x ∈ xs, p x = false) → parts p xs = [xs]
  | [], _ => rfl
  | x :: xs, h => by
    obtain ⟨hx, hxs⟩ := List.forall_mem_cons.1 h
    simp [parts, hx, parts_of_forall hxs]

end Parts

end Text
