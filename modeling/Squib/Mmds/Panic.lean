import Squib.Mmds.Session

/-!
# Which frames make the interceptor panic
-/

namespace Squib.Metadata

open Run

namespace Session

variable {Value : Type} {checks : Bool} {ext : External Value} {s t : Session Value} {e : Event}

def Safe (checks : Bool) (s : Session Value) (e : Event) : Prop :=
  ∀ a, s.arrival e = some a →
    (Flow.Opens a.hdr → ¬ (checks = true ∧ a.hdr.seq = 0xFFFFFFFF)) ∧
    (a.hdr.isRst = false → ¬ Flow.Opens a.hdr → ∀ c, s.endpoint.flow a.key = some c →
      c.Takes a.hdr a.payload → ¬ LengthOverflow (c.rcvBuf ++ a.payload))

def IssAligned (s : Session Value) : Prop := s.endpoint.tcp.nextIss.toNat % 65536 = 0

theorem issAligned_start (mmds : Mmds Value) (tokens : TokenStore) :
    IssAligned (start mmds tokens) := by
  change (0x40000000 : UInt32).toNat % 65536 = 0
  decide

theorem issAligned_step (hs : IssAligned s) (h : s.step checks ext e = some t) : IssAligned t := by
  unfold IssAligned at hs ⊢
  obtain ⟨-, hquiet⟩ | ⟨env, a, -, hserved⟩ := step_cases h
  · rw [hquiet.nextIss, hs]
  · rw [hserved.follows.nextIss]
    split_ifs
    · rw [UInt32.toNat_add]
      change (s.endpoint.tcp.nextIss.toNat + 65536) % 2 ^ 32 % 65536 = 0
      omega
    · exact hs

theorem not_overflows_iff {a : Arrival} (hs : IssAligned s) :
    ¬ s.endpoint.Overflows checks a ↔
      (Flow.Opens a.hdr → ¬ (checks = true ∧ a.hdr.seq = 0xFFFFFFFF)) ∧
      (a.hdr.isRst = false → ¬ Flow.Opens a.hdr → ∀ c, s.endpoint.flow a.key = some c →
        c.Takes a.hdr a.payload → ¬ LengthOverflow (c.rcvBuf ++ a.payload)) := by
  have hiss : s.endpoint.tcp.nextIss ≠ 0xFFFFFFFF := by
    intro hmax
    rw [IssAligned, hmax] at hs
    exact absurd hs (by decide)
  unfold MmdsInterceptor.Overflows Flow.Overflows
  by_cases hopen : Flow.Opens a.hdr
  · simp [hopen, hiss]
  · simp [hopen, Option.any_eq_true]

theorem step_isSome_iff (hs : IssAligned s) : (s.step checks ext e).isSome ↔ Safe checks s e := by
  cases ha : s.arrival e with
  | none =>
    obtain ⟨t, ht, -⟩ : ∃ t, s.step checks ext e = some t ∧ _ := step_of_none ha
    simp [ht, Safe, ha]
  | some a =>
    have hsafe : Safe checks s e ↔ ¬ s.endpoint.Overflows checks a := by
      rw [not_overflows_iff hs, Safe, ha]
      simp
    rw [hsafe]
    cases e with
    | drain => cases ha
    | setIpv4 ip => cases ha
    | frame env bytes =>
      by_cases hover : s.endpoint.Overflows checks a
      · simp [step_of_overflows ha hover, hover]
      · obtain ⟨t, ht, -⟩ : ∃ t, s.step checks ext (.frame env bytes) = some t ∧ _ :=
          step_of_arrival ha hover
        simp [ht, hover]

/-- **Runs without a panic.** -/
theorem run_returns_iff (checks : Bool) (ext : External Value) (mmds : Mmds Value)
    (tokens : TokenStore) (es : List Event) :
    (run (step checks ext) es (start mmds tokens)).isSome ↔
      Along (step checks ext) (Safe checks) es (start mmds tokens) :=
  run_isSome_iff (fun _ _ _ => issAligned_step) (fun _ _ => step_isSome_iff) es
    (issAligned_start mmds tokens)

end Session

/-! ## Frames that make it panic -/

section Scenario

open Session

def lastSyn : Event := .frame stillEnv (guestFrame 0xFFFFFFFF 0 TCP_SYN [])

def longRequest : List Event :=
  [.frame stillEnv (guestFrame 99 0 TCP_SYN []),
    .frame stillEnv (guestFrame 100 0x40000001 TCP_ACK []),
    .frame stillEnv (guestFrame 100 0x40000001 TCP_ACK
      (Text.bytes "GET / HTTP/1.1\r\nContent-Length: 18446744073709551615\r\n\r\n"))]

theorem frames_panic :
    ¬ (run (step true unitExternal) [lastSyn] (start unitStore .new)).isSome ∧
      ¬ (run (step true unitExternal) longRequest (start unitStore .new)).isSome ∧
      ¬ (run (step false unitExternal) longRequest (start unitStore .new)).isSome := by
  decide +kernel

end Scenario

end Squib.Metadata
