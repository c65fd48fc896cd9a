import Mathlib.Algebra.Group.Nat.Defs
import Squib.Lib.Checked
import Squib.Lib.Text

/-!
# HTTP requests and responses
-/

namespace Squib.Metadata

open Checked

/-! ## Failures -/

inductive Crash where
  | bounds (panic : Panic)
  | overflow
  deriving DecidableEq, Repr

instance : MonadLift (Except Panic) (Except Crash) where
  monadLift x := x.mapError .bounds

theorem lift_ok {α : Type} (a : α) : (liftM (.ok a : Except Panic α) : Except Crash α) = .ok a := rfl

def addU32 (checks : Bool) (a b : UInt32) : Except Crash UInt32 :=
  if checks = true ∧ 2 ^ 32 ≤ a.toNat + b.toNat then .error .overflow else .ok (a + b)

def addUsize (checks : Bool) (a b : ℕ) : Except Crash ℕ :=
  if checks = true ∧ 2 ^ 64 ≤ a + b then .error .overflow else .ok ((a + b) % 2 ^ 64)

structure HttpResponse where
  status : UInt16
  body : List UInt8
  deriving DecidableEq, Repr

namespace HttpResponse

def reason (status : UInt16) : String :=
  match status.toNat with
  | 200 => "OK"
  | 400 => "Bad Request"
  | 401 => "Unauthorized"
  | 404 => "Not Found"
  | 405 => "Method Not Allowed"
  | 413 => "Payload Too Large"
  | 414 => "URI Too Long"
  | 500 => "Internal Server Error"
  | _ => "Unknown"

def toWire (r : HttpResponse) : List UInt8 :=
  Text.bytes "HTTP/1.1 " ++ Text.decimal r.status.toNat ++ Text.bytes " " ++
    Text.bytes (reason r.status) ++ Text.bytes "\r\nContent-Length: " ++
    Text.decimal r.body.length ++
    Text.bytes "\r\nContent-Type: application/json\r\nConnection: close\r\n\r\n" ++ r.body

end HttpResponse

/-! ## Requests -/

structure HttpRequest where
  method : List UInt8
  path : List UInt8
  tokenHeader : Option (List UInt8)
  ttlHeader : Option ℕ
  body : List UInt8
  deriving DecidableEq, Repr

def MAX_REQUEST_BYTES : ℕ := 16 * 1024

inductive HttpParseOutcome where
  | incomplete
  | complete (req : HttpRequest)
  | malformed
  | tooLarge
  deriving DecidableEq, Repr

def findSubsequence (needle : List UInt8) : List UInt8 → Option ℕ
  | [] => none
  | a :: rest =>
    if needle.isPrefixOf (a :: rest) then some 0 else (findSubsequence needle rest).map (· + 1)

def crlfCrlf : List UInt8 := [13, 10, 13, 10]

def splitHeader (line : List UInt8) : Option (List UInt8 × List UInt8) := Text.cutAt 58 line

structure Headers where
  contentLength : ℕ
  tokenHeader : Option (List UInt8)
  ttlHeader : Option ℕ
  deriving DecidableEq, Repr

def Headers.line (h : Headers) (line : List UInt8) : Headers :=
  match splitHeader line with
  | none => h
  | some (name, value) =>
    if Text.eqIgnoreAsciiCase name (Text.bytes "content-length") then
      { h with contentLength := (Text.parseUint (2 ^ 64 - 1) (Text.trim value)).getD 0 }
    else if Text.eqIgnoreAsciiCase name (Text.bytes "x-aws-ec2-metadata-token") then
      { h with tokenHeader := some (Text.trim value) }
    else if Text.eqIgnoreAsciiCase name (Text.bytes "x-aws-ec2-metadata-token-ttl-seconds") then
      { h with ttlHeader := Text.parseUint (2 ^ 32 - 1) (Text.trim value) }
    else h

def readHeaders (lines : List (List UInt8)) : Headers :=
  lines.foldl Headers.line { contentLength := 0, tokenHeader := none, ttlHeader := none }

def readHead (header : List UInt8) : Option (List UInt8 × List UInt8 × Headers) :=
  if Text.isUtf8 header then
    match Text.lines header with
    | [] => none
    | requestLine :: lines =>
      match Text.words requestLine with
      | method :: path :: _ => some (method, path, readHeaders lines)
      | _ => none
  else none

def tryParseHttp (checks : Bool) (buf : List UInt8) : Except Crash HttpParseOutcome := do
  if buf.length > MAX_REQUEST_BYTES then return .tooLarge
  match findSubsequence crlfCrlf buf with
  | none => return .incomplete
  | some headerEnd =>
    let header ← slice buf 0 headerEnd
    match readHead header with
    | none => return .malformed
    | some (method, path, headers) =>
      let bodyStart ← addUsize checks headerEnd 4
      let bodyEnd ← addUsize checks bodyStart headers.contentLength
      if bodyEnd > MAX_REQUEST_BYTES then return .tooLarge
      if buf.length < bodyEnd then return .incomplete
      let body ← slice buf bodyStart bodyEnd
      return .complete
        { method, path, tokenHeader := headers.tokenHeader, ttlHeader := headers.ttlHeader, body }

/-! ## What the parser returns -/

def requestEnd (buf : List UInt8) : Option ℕ :=
  (findSubsequence crlfCrlf buf).bind fun headerEnd =>
    (readHead (buf.take headerEnd)).map fun head => headerEnd + 4 + head.2.2.contentLength

def LengthOverflow (buf : List UInt8) : Prop :=
  buf.length ≤ MAX_REQUEST_BYTES ∧ (requestEnd buf).any (2 ^ 64 ≤ ·) = true

instance (buf : List UInt8) : Decidable (LengthOverflow buf) := by
  unfold LengthOverflow
  infer_instance

def parseHttp (buf : List UInt8) : HttpParseOutcome :=
  if buf.length > MAX_REQUEST_BYTES then .tooLarge
  else
    match findSubsequence crlfCrlf buf with
    | none => .incomplete
    | some headerEnd =>
      match readHead (buf.take headerEnd) with
      | none => .malformed
      | some (method, path, headers) =>
        let bodyEnd := headerEnd + 4 + headers.contentLength
        if bodyEnd > MAX_REQUEST_BYTES then .tooLarge
        else if buf.length < bodyEnd then .incomplete
        else .complete
          { method, path, tokenHeader := headers.tokenHeader, ttlHeader := headers.ttlHeader
            body := (buf.drop (headerEnd + 4)).take headers.contentLength }

theorem findSubsequence_add_le {needle : List UInt8} :
    ∀ {hay : List UInt8} {i : ℕ}, findSubsequence needle hay = some i →
      i + needle.length ≤ hay.length
  | [], i, h => by cases h
  | a :: rest, i, h => by
    rw [findSubsequence] at h
    split_ifs at h with hstarts
    · cases h
      rw [Nat.zero_add]
      have hneedle := List.isPrefixOf_iff_prefix.1 hstarts
      exact hneedle.length_le
    · obtain ⟨j, hj, rfl⟩ := Option.map_eq_some_iff.1 h
      have := findSubsequence_add_le hj
      rw [List.length_cons]
      omega

/-! The declared length is a number of 64 bits. -/

theorem parseUint_le {max n : ℕ} {t : List UInt8} (h : Text.parseUint max t = some n) : n ≤ max := by
  simp only [Text.parseUint] at h
  generalize (if t.head? = some 0x2B then t.tail else t) = digits at h
  split_ifs at h with hall
  cases h
  exact hall.2.2

theorem Headers.line_contentLength_lt {h : Headers} (hlt : h.contentLength < 2 ^ 64)
    (line : List UInt8) : (h.line line).contentLength < 2 ^ 64 := by
  unfold Headers.line
  split
  · exact hlt
  · next name value _ =>
    split_ifs
    · cases hparse : Text.parseUint (2 ^ 64 - 1) (Text.trim value) with
      | none => simp
      | some n =>
        have := parseUint_le hparse
        simp only [Option.getD_some]
        omega
    · exact hlt
    · exact hlt
    · exact hlt

theorem readHeaders_contentLength_lt (lines : List (List UInt8)) :
    (readHeaders lines).contentLength < 2 ^ 64 := by
  unfold readHeaders
  refine List.foldlRecOn (motive := fun h : Headers => h.contentLength < 2 ^ 64) lines Headers.line
    (Nat.two_pow_pos 64) fun h hlt line _ => ?_
  exact Headers.line_contentLength_lt hlt line

theorem readHead_contentLength_lt {header method path : List UInt8} {headers : Headers}
    (h : readHead header = some (method, path, headers)) : headers.contentLength < 2 ^ 64 := by
  unfold readHead at h
  split_ifs at h
  split at h
  · cases h
  · split at h
    · cases h
      exact readHeaders_contentLength_lt _
    · cases h

section Outcome

variable {checks : Bool} {buf : List UInt8}

theorem tryParseHttp_of_found {headerEnd : ℕ} (hlen : buf.length ≤ MAX_REQUEST_BYTES)
    (hfound : findSubsequence crlfCrlf buf = some headerEnd) :
    tryParseHttp checks buf =
      match readHead (buf.take headerEnd) with
      | none => .ok .malformed
      | some (method, path, headers) => do
        let bodyEnd ← addUsize checks (headerEnd + 4) headers.contentLength
        if bodyEnd > MAX_REQUEST_BYTES then return .tooLarge
        if buf.length < bodyEnd then return .incomplete
        let body ← slice buf (headerEnd + 4) bodyEnd
        return .complete
          { method, path, tokenHeader := headers.tokenHeader, ttlHeader := headers.ttlHeader
            body } := by
  have hle : headerEnd + 4 ≤ buf.length := findSubsequence_add_le hfound
  have hmax : MAX_REQUEST_BYTES = 16384 := rfl
  have hslice : slice buf 0 headerEnd = .ok (buf.take headerEnd) := by
    rw [slice, if_pos ⟨Nat.zero_le _, by omega⟩, List.drop_zero, Nat.sub_zero]
  have hadd : addUsize checks headerEnd 4 = .ok (headerEnd + 4) := by
    rw [addUsize, if_neg (by omega), Nat.mod_eq_of_lt (by omega)]
  rw [tryParseHttp, if_neg (by omega), hfound]
  simp only [hslice, hadd]
  rfl

theorem tryParseHttp_eq (h : ¬ LengthOverflow buf) :
    tryParseHttp checks buf = .ok (parseHttp buf) := by
  unfold parseHttp
  by_cases hlen : buf.length > MAX_REQUEST_BYTES
  · rw [tryParseHttp, if_pos hlen, if_pos hlen]
    rfl
  · rw [if_neg hlen]
    cases hfound : findSubsequence crlfCrlf buf with
    | none => rw [tryParseHttp, if_neg hlen, hfound]; rfl
    | some headerEnd =>
      rw [tryParseHttp_of_found (by omega) hfound]
      dsimp only
      cases hhead : readHead (buf.take headerEnd) with
      | none => rfl
      | some head =>
        obtain ⟨method, path, headers⟩ := head
        have hend : headerEnd + 4 + headers.contentLength < 2 ^ 64 := by
          by_contra hover
          refine h ⟨by omega, ?_⟩
          simp only [requestEnd, hfound, hhead, Option.bind_some, Option.map_some, Option.any_some,
            decide_eq_true_eq]
          omega
        have hadd : addUsize checks (headerEnd + 4) headers.contentLength =
            .ok (headerEnd + 4 + headers.contentLength) := by
          rw [addUsize, if_neg (by omega), Nat.mod_eq_of_lt hend]
        dsimp only
        rw [hadd, ok_bind]
        split_ifs with h₁ h₂
        · rfl
        · rfl
        · rw [slice, if_pos ⟨by omega, by omega⟩, Nat.add_sub_cancel_left]
          rfl

theorem tryParseHttp_error (h : LengthOverflow buf) :
    ∃ crash, tryParseHttp checks buf = .error crash := by
  obtain ⟨hlen, hover⟩ := h
  obtain ⟨n, hn, hle⟩ := (Option.any_eq_true _ _).1 hover
  obtain ⟨headerEnd, hfound, hn⟩ := Option.bind_eq_some_iff.1 hn
  obtain ⟨⟨method, path, headers⟩, hhead, rfl⟩ := Option.map_eq_some_iff.1 hn
  rw [decide_eq_true_eq] at hle
  rw [tryParseHttp_of_found hlen hfound, hhead]
  dsimp only at hle ⊢
  cases checks with
  | true => exact ⟨.overflow, by rw [addUsize, if_pos ⟨rfl, hle⟩]; rfl⟩
  | false =>
    have hfit : headerEnd + 4 ≤ buf.length := findSubsequence_add_le hfound
    have hmax : MAX_REQUEST_BYTES = 16384 := rfl
    have hcl : headers.contentLength < 2 ^ 64 := readHead_contentLength_lt hhead
    -- the end wraps to a position before the start of the body
    have hadd : addUsize false (headerEnd + 4) headers.contentLength =
        .ok (headerEnd + 4 + headers.contentLength - 2 ^ 64) := by
      rw [addUsize, if_neg (by simp), Nat.mod_eq_sub_mod hle, Nat.mod_eq_of_lt (by omega)]
    refine ⟨.bounds .sliceOutOfRange, ?_⟩
    rw [hadd, ok_bind, if_neg (by omega), if_neg (by omega), slice, if_neg (by omega)]
    rfl

end Outcome

end Squib.Metadata
