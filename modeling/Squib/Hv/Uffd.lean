import Squib.Hv.Pager
import Squib.Lib.Bytes
import Squib.Lib.Run

/-!
# Pages over a socket
-/

namespace Squib

open Bytes Snapshot

structure PageReply (req : PageRequest) where
  echoIpa : UInt64
  echoSize : UInt64
  payload : Vector UInt8 req.pageSize.toNat

namespace PageReply

variable {req : PageRequest} (reply : PageReply req)

def header : List UInt8 := leBytes 8 reply.echoIpa.toNat ++ leBytes 8 reply.echoSize.toNat

def bytes : List UInt8 := reply.header ++ reply.payload.toList

def Echoes : Prop := reply.echoIpa = req.ipa ∧ reply.echoSize = req.pageSize

end PageReply

structure UffdPageSource (σ : Type) where
  server : σ
  inbound : List UInt8

namespace UffdPageSource

variable {σ : Type} (serve : (req : PageRequest) → σ → PageReply req × σ)

def readExact (n : ℕ) (stream : List UInt8) : Except PageSourceError (List UInt8 × List UInt8) :=
  if n ≤ stream.length then .ok (stream.take n, stream.drop n)
  else .error (.io "failed to fill whole buffer")

def fetch (req : PageRequest) (s : UffdPageSource σ) :
    Except PageSourceError (List UInt8) × UffdPageSource σ :=
  let (reply, server) := serve req s.server
  let inbound := s.inbound ++ reply.bytes
  match readExact 16 inbound with
  | .error e => (.error e, { server, inbound := [] })
  | .ok (hdr, inbound) =>
    let echoIpa := UInt64.ofNat (leNat (hdr.take 8))
    let echoSize := UInt64.ofNat (leNat (hdr.drop 8))
    if echoIpa ≠ req.ipa ∨ echoSize ≠ req.pageSize then
      (.error (.open ("Uffd protocol violation: expected ipa=" ++ hex req.ipa.toNat ++ " size=" ++
        toString req.pageSize.toNat ++ " got ipa=" ++ hex echoIpa.toNat ++ " size=" ++
        toString echoSize.toNat)), { server, inbound })
    else
      match readExact req.pageSize.toNat inbound with
      | .error e => (.error e, { server, inbound := [] })
      | .ok (buf, inbound) => (.ok buf, { server, inbound })

def Sound (s : UffdPageSource σ) (req : PageRequest) : Prop :=
  s.inbound = [] ∧
    ∀ bytes, (fetch serve req s).1 = .ok bytes → bytes = (serve req s.server).1.payload.toList

def step (s : UffdPageSource σ) (req : PageRequest) : Option (UffdPageSource σ) :=
  some (fetch serve req s).2

def Orderly : List PageRequest → σ → Prop
  | req :: next :: reqs, server =>
    ((serve req server).1.Echoes ∨ req.pageSize = 0) ∧ Orderly (next :: reqs) (serve req server).2
  | _, _ => True

theorem readExact_append {n : ℕ} {first : List UInt8} (h : first.length = n) (rest : List UInt8) :
    readExact n (first ++ rest) = .ok (first, rest) := by
  rw [readExact, if_pos (by simp [h]), List.take_left' h, List.drop_left' h]

theorem fetch_of_empty (req : PageRequest) (server : σ) :
    ((serve req server).1.Echoes → fetch serve req ⟨server, []⟩ =
        (.ok (serve req server).1.payload.toList, ⟨(serve req server).2, []⟩)) ∧
      (¬ (serve req server).1.Echoes → ∃ e, fetch serve req ⟨server, []⟩ =
        (.error e, ⟨(serve req server).2, (serve req server).1.payload.toList⟩)) := by
  have hword (x : UInt64) : UInt64.ofNat (leNat (leBytes 8 x.toNat)) = x := by
    rw [leNat_leBytes, Nat.mod_eq_of_lt (by have := x.toNat_lt; omega), UInt64.ofNat_toNat]
  unfold fetch PageReply.Echoes
  cases serve req server with
  | mk reply server' =>
  dsimp only
  rw [List.nil_append, PageReply.bytes, readExact_append (by simp [PageReply.header])]
  dsimp only
  rw [PageReply.header, List.take_left' (length_leBytes 8 _), List.drop_left' (length_leBytes 8 _),
    hword, hword]
  constructor
  · rintro ⟨hipa, hsize⟩
    have hpage := readExact_append reply.payload.length_toList []
    rw [List.append_nil] at hpage
    rw [if_neg (by simp [hipa, hsize]), hpage]
  · intro h
    rw [if_pos (not_and_or.1 h)]
    exact ⟨_, rfl⟩

theorem sound_of_empty (req : PageRequest) (server : σ) : Sound serve ⟨server, []⟩ req := by
  refine ⟨rfl, fun bytes h => ?_⟩
  by_cases he : (serve req server).1.Echoes
  · rw [(fetch_of_empty serve req server).1 he] at h
    cases h
    rfl
  · obtain ⟨e, heq⟩ := (fetch_of_empty serve req server).2 he
    rw [heq] at h
    cases h

/-- **The fetches stay in step with the replies exactly if violations leave nothing behind.** -/
theorem inStep_iff (reqs : List PageRequest) (server : σ) :
    Run.Along (step serve) (Sound serve) reqs ⟨server, []⟩ ↔ Orderly serve reqs server := by
  induction reqs generalizing server with
  | nil => exact Iff.rfl
  | cons req reqs ih =>
    rw [Run.Along, and_iff_right (sound_of_empty serve req server)]
    simp only [step, Option.some.injEq, forall_eq']
    cases reqs with
    | nil => exact Iff.rfl
    | cons next reqs =>
      rw [Orderly]
      by_cases he : (serve req server).1.Echoes
      · rw [(fetch_of_empty serve req server).1 he, ih, and_iff_right (.inl he)]
      · obtain ⟨e, heq⟩ := (fetch_of_empty serve req server).2 he
        rw [heq, or_iff_right he]
        by_cases hzero : req.pageSize = 0
        · have hempty : (serve req server).1.payload.toList = [] := by
            rw [← List.length_eq_zero_iff, Vector.length_toList, hzero]
            rfl
          rw [hempty, ih, and_iff_right hzero]
        · -- the next fetch finds the page that was left behind
          refine iff_of_false (fun h => hzero ?_) fun h => hzero h.1
          have hnil := congrArg List.length h.1.1
          rw [Vector.length_toList] at hnil
          exact UInt64.toNat_inj.1 hnil

section Example

def confused (req : PageRequest) (_ : Unit) : PageReply req × Unit :=
  (if h : req.pageSize.toNat = 24 then
      if req.ipa = 0 then
        ⟨1, 24, ⟨⟨leBytes 8 24 ++ leBytes 8 24 ++ List.replicate 8 7⟩, by simp [h]⟩⟩
      else ⟨req.ipa, req.pageSize, .replicate _ 9⟩
    else ⟨req.ipa, req.pageSize, .replicate _ 0⟩, ())

/-- The second fetch returns the rest of the first page and the header of its own reply. -/
theorem fetch_leftover :
    (fetch confused ⟨24, 24⟩ (fetch confused ⟨0, 24⟩ ⟨(), []⟩).2).1.toOption =
        some (List.replicate 8 7 ++ leBytes 8 24 ++ leBytes 8 24) ∧
      (confused ⟨24, 24⟩ ()).1.payload.toList = List.replicate 24 9 ∧
      ¬ Run.Along (step confused) (Sound confused) [⟨0, 24⟩, ⟨24, 24⟩] ⟨(), []⟩ := by
  refine ⟨by decide +kernel, by decide +kernel, fun h => ?_⟩
  exact absurd (h.2 _ rfl).1.1 (by decide +kernel)

end Example

end UffdPageSource

end Squib
