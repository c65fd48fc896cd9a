import Mathlib.Tactic.Ring
import Squib.Lib.Run

/-!
# The rate limit of a drive
-/

namespace Squib.RateLimitedBackend

def NANOS : ℕ := 1000000000

def U64_MAX : ℕ := 2 ^ 64 - 1

structure RateLimit where
  bytesPerSec : ℕ
  burstBytes : ℕ
  bytesPerSec_le : bytesPerSec ≤ U64_MAX
  burstBytes_le : burstBytes ≤ U64_MAX

structure TokenBucket where
  tokens : ℕ
  lastRefill : ℕ
  deriving DecidableEq, Repr

def new (config : RateLimit) (now : ℕ) : TokenBucket := ⟨config.burstBytes, now⟩

def earned (config : RateLimit) (elapsed : ℕ) : ℕ :=
  min (min (config.bytesPerSec * elapsed) (2 ^ 128 - 1) / NANOS) U64_MAX

def refill (config : RateLimit) (ceiling now : ℕ) (state : TokenBucket) : TokenBucket :=
  if config.bytesPerSec = U64_MAX then { state with tokens := ceiling }
  else
    { tokens := min (min (state.tokens + earned config (now - state.lastRefill)) U64_MAX) ceiling
      lastRefill := now }

structure Call where
  size : ℕ
  now : ℕ
  woke : ℕ
  deriving DecidableEq, Repr

def wait (config : RateLimit) (needed : ℕ) : ℕ :=
  min (needed * NANOS / max config.bytesPerSec 1) U64_MAX

def entered (config : RateLimit) (g : TokenBucket) (c : Call) : TokenBucket :=
  refill config (max c.size config.burstBytes) c.now g

def acquire (config : RateLimit) (g : TokenBucket) (c : Call) : TokenBucket :=
  if config.bytesPerSec = U64_MAX then g
  else
    let e := entered config g c
    if c.size ≤ e.tokens then { e with tokens := e.tokens - c.size }
    else
      let r := refill config (max c.size config.burstBytes) c.woke e
      { r with tokens := r.tokens - c.size }

def Timed (config : RateLimit) (g : TokenBucket) (c : Call) : Prop :=
  g.lastRefill ≤ c.now ∧
    ((entered config g c).tokens < c.size →
      c.now + wait config (c.size - (entered config g c).tokens) ≤ c.woke)

instance (config : RateLimit) (g : TokenBucket) (c : Call) : Decidable (Timed config g c) :=
  inferInstanceAs (Decidable (_ ∧ (_ → _)))

def step (config : RateLimit) (g : TokenBucket) (c : Call) : Option TokenBucket :=
  if Timed config g c then some (acquire config g c) else none

def granted (calls : List Call) : ℕ := (calls.map Call.size).sum

def Bounded (config : RateLimit) (start : ℕ) (earlier later : List Call) : Prop :=
  ∀ g g', Run.run (step config) earlier (new config start) = some g →
    Run.run (step config) later g = some g' →
    granted later * NANOS ≤ config.burstBytes * NANOS +
      config.bytesPerSec * (g'.lastRefill - g.lastRefill) +
      later.length * (NANOS + config.bytesPerSec)

variable {config : RateLimit} {g g' : TokenBucket} {c : Call}

/-! ## One call -/

theorem earned_le (config : RateLimit) (elapsed : ℕ) :
    earned config elapsed * NANOS ≤ config.bytesPerSec * elapsed :=
  calc earned config elapsed * NANOS
      ≤ min (config.bytesPerSec * elapsed) (2 ^ 128 - 1) / NANOS * NANOS :=
        Nat.mul_le_mul_right _ (Nat.min_le_left _ _)
    _ ≤ min (config.bytesPerSec * elapsed) (2 ^ 128 - 1) := Nat.div_mul_le_self _ _
    _ ≤ config.bytesPerSec * elapsed := Nat.min_le_left _ _

theorem refill_spec (h : config.bytesPerSec ≠ U64_MAX) (ceiling now : ℕ) (g : TokenBucket) :
    (refill config ceiling now g).lastRefill = now ∧
      (refill config ceiling now g).tokens ≤ ceiling ∧
      (refill config ceiling now g).tokens * NANOS ≤
        g.tokens * NANOS + config.bytesPerSec * (now - g.lastRefill) := by
  rw [refill, if_neg h]
  refine ⟨rfl, Nat.min_le_right _ _, ?_⟩
  calc min (min (g.tokens + earned config (now - g.lastRefill)) U64_MAX) ceiling * NANOS
      ≤ (g.tokens + earned config (now - g.lastRefill)) * NANOS :=
        Nat.mul_le_mul_right _ ((Nat.min_le_left _ _).trans (Nat.min_le_left _ _))
    _ = g.tokens * NANOS + earned config (now - g.lastRefill) * NANOS := Nat.add_mul _ _ _
    _ ≤ _ := Nat.add_le_add_left (earned_le config _) _

def Earnable (config : RateLimit) (size : ℕ) : Prop :=
  size * NANOS ≤ NANOS + config.bytesPerSec * 2 ^ 64

theorem needed_le_wait (hpos : 1 ≤ config.bytesPerSec) {needed : ℕ}
    (h : Earnable config needed) :
    needed * NANOS ≤ config.bytesPerSec * wait config needed + NANOS + config.bytesPerSec := by
  rw [wait, Nat.max_eq_left hpos]
  rcases Nat.le_total (needed * NANOS / config.bytesPerSec) U64_MAX with hle | hle
  · rw [Nat.min_eq_left hle]
    have hdiv := Nat.div_add_mod (needed * NANOS) config.bytesPerSec
    have hmod := Nat.mod_lt (needed * NANOS) hpos
    omega
  · rw [Nat.min_eq_right hle]
    have hmul : config.bytesPerSec * 2 ^ 64 = config.bytesPerSec * U64_MAX + config.bytesPerSec :=
      Nat.mul_succ _ U64_MAX
    rw [Earnable] at h
    omega

structure Draws (config : RateLimit) (g : TokenBucket) (c : Call) (g' : TokenBucket) : Prop where
  later : g.lastRefill ≤ g'.lastRefill
  tokens_le : g'.tokens ≤ config.burstBytes
  drawn : (c.size + g'.tokens) * NANOS ≤ g.tokens * NANOS +
    config.bytesPerSec * (g'.lastRefill - g.lastRefill) + (NANOS + config.bytesPerSec)

theorem acquire_spec (hpos : 1 ≤ config.bytesPerSec) (hne : config.bytesPerSec ≠ U64_MAX)
    (hc : Earnable config c.size) (ht : Timed config g c) :
    Draws config g c (acquire config g c) := by
  obtain ⟨hnow, hsleep⟩ := ht
  obtain ⟨he, hceil, htok⟩ := refill_spec hne (max c.size config.burstBytes) c.now g
  rw [← entered] at he hceil htok
  rw [acquire, if_neg hne]
  by_cases hle : c.size ≤ (entered config g c).tokens
  · simp only [if_pos hle]
    refine ⟨he.symm ▸ hnow, by show _ - _ ≤ _; omega, ?_⟩
    rw [Nat.add_sub_cancel' hle, he]
    omega
  · simp only [if_neg hle]
    obtain ⟨hr, hceil', htok'⟩ :=
      refill_spec hne (max c.size config.burstBytes) c.woke (entered config g c)
    rw [he] at htok'
    set r := refill config (max c.size config.burstBytes) c.woke (entered config g c)
    refine ⟨by show _ ≤ r.lastRefill; omega, by show _ - _ ≤ _; omega, ?_⟩
    show (c.size + (r.tokens - c.size)) * NANOS ≤
      _ + config.bytesPerSec * (r.lastRefill - g.lastRefill) + _
    have hsplit : config.bytesPerSec * (r.lastRefill - g.lastRefill) =
        config.bytesPerSec * (c.woke - c.now) + config.bytesPerSec * (c.now - g.lastRefill) := by
      rw [← Nat.mul_add]
      congr 1
      omega
    rcases Nat.le_total c.size r.tokens with hfull | hshort
    · rw [Nat.add_sub_cancel' hfull]
      omega
    · -- the sleep was short by less than a byte and a nanosecond
      set needed := c.size - (entered config g c).tokens with hneeded
      have hearn : Earnable config needed :=
        (Nat.mul_le_mul_right NANOS (Nat.sub_le _ _)).trans hc
      have hslept := needed_le_wait hpos hearn
      have hlasts : config.bytesPerSec * wait config needed ≤
          config.bytesPerSec * (c.woke - c.now) := Nat.mul_le_mul_left _ (by omega)
      have hsize : c.size * NANOS = (entered config g c).tokens * NANOS + needed * NANOS := by
        rw [← Nat.add_mul]
        congr 1
        omega
      rw [Nat.sub_eq_zero_of_le hshort, Nat.add_zero]
      omega

/-! ## Runs -/

theorem step_eq_some : step config g c = some g' ↔ Timed config g c ∧ acquire config g c = g' := by
  rw [step, Option.ite_none_right_eq_some, Option.some.injEq]

theorem granted_cons (c : Call) (calls : List Call) :
    granted (c :: calls) = c.size + granted calls := List.sum_cons

section Bound

variable (hpos : 1 ≤ config.bytesPerSec) (hne : config.bytesPerSec ≠ U64_MAX)

include hpos hne

variable {calls : List Call}

theorem run_tokens_le (hc : ∀ c ∈ calls, Earnable config c.size) :
    ∀ {g g' : TokenBucket}, g.tokens ≤ config.burstBytes →
      Run.run (step config) calls g = some g' → g'.tokens ≤ config.burstBytes := by
  intro g g' hg h
  refine Run.invariant (I := fun g => g.tokens ≤ config.burstBytes)
    ?_ (.of_forall (fun c hmem _ => hc c hmem) g) hg h
  intro g c g' _ hearn hstep
  obtain ⟨ht, rfl⟩ := step_eq_some.1 hstep
  exact (acquire_spec hpos hne hearn ht).tokens_le

theorem run_drawn (hc : ∀ c ∈ calls, Earnable config c.size) :
    ∀ {g g' : TokenBucket}, Run.run (step config) calls g = some g' →
      g.lastRefill ≤ g'.lastRefill ∧
        (granted calls + g'.tokens) * NANOS ≤ g.tokens * NANOS +
          config.bytesPerSec * (g'.lastRefill - g.lastRefill) +
          calls.length * (NANOS + config.bytesPerSec) := by
  induction calls with
  | nil =>
    intro g g' h
    cases h
    simp [granted]
  | cons c calls ih =>
    intro g g' h
    obtain ⟨g₁, h₁, h⟩ := Run.run_cons_eq_some.1 h
    obtain ⟨ht, rfl⟩ := step_eq_some.1 h₁
    have hd := acquire_spec hpos hne (hc c List.mem_cons_self) ht
    obtain ⟨hlater, hdrawn⟩ := ih (fun c' hc' => hc c' (List.mem_cons_of_mem _ hc')) h
    refine ⟨hd.later.trans hlater, ?_⟩
    have hsplit : config.bytesPerSec * (g'.lastRefill - g.lastRefill) =
        config.bytesPerSec * (g'.lastRefill - (acquire config g c).lastRefill) +
          config.bytesPerSec * ((acquire config g c).lastRefill - g.lastRefill) := by
      rw [← Nat.mul_add]
      congr 1
      have := hd.later
      omega
    have hd := hd.drawn
    rw [granted_cons, List.length_cons, Nat.succ_mul]
    rw [Nat.add_mul] at hd hdrawn ⊢
    rw [Nat.add_mul c.size]
    omega

theorem bounded_of_earnable {earlier later : List Call} (start : ℕ)
    (he : ∀ c ∈ earlier, Earnable config c.size) (hl : ∀ c ∈ later, Earnable config c.size) :
    Bounded config start earlier later := by
  intro g g' hg hg'
  have htokens := run_tokens_le hpos hne he (Nat.le_refl config.burstBytes) hg
  obtain ⟨-, hdrawn⟩ := run_drawn hpos hne hl hg'
  have := Nat.mul_le_mul_right NANOS htokens
  rw [Nat.add_mul] at hdrawn
  omega

end Bound

/-! ## Calls that are too large -/

theorem exists_prompt (hne : config.bytesPerSec ≠ U64_MAX) (size : ℕ) (g : TokenBucket) :
    ∃ c g', c.size = size ∧ step config g c = some g' ∧
      g'.lastRefill ≤ g.lastRefill + U64_MAX := by
  set e := refill config (max size config.burstBytes) g.lastRefill g with he
  set c : Call := ⟨size, g.lastRefill, g.lastRefill + wait config (size - e.tokens)⟩ with hc
  refine ⟨c, _, rfl, step_eq_some.2 ⟨⟨le_rfl, fun _ => le_rfl⟩, rfl⟩, ?_⟩
  have hlast : ∀ ceiling now g, (refill config ceiling now g).lastRefill = now :=
    fun ceiling now g => (refill_spec hne ceiling now g).1
  rw [acquire, if_neg hne]
  dsimp only
  split_ifs
  · exact (hlast _ _ _).trans_le (Nat.le_add_right _ _)
  · refine (hlast _ _ _).trans_le (Nat.add_le_add_left ?_ _)
    exact Nat.min_le_right _ _

theorem exists_prompt_run (hne : config.bytesPerSec ≠ U64_MAX) (size m : ℕ) :
    ∀ g : TokenBucket, ∃ calls g', (∀ c ∈ calls, c.size = size) ∧ calls.length = m ∧
      Run.run (step config) calls g = some g' ∧ g'.lastRefill ≤ g.lastRefill + m * U64_MAX := by
  induction m with
  | zero => exact fun g => ⟨[], g, nofun, rfl, rfl, by omega⟩
  | succ m ih =>
    intro g
    obtain ⟨c, g₁, hsize, hstep, hlast⟩ := exists_prompt hne size g
    obtain ⟨calls, g', hsizes, hlen, hrun, hlast'⟩ := ih g₁
    refine ⟨c :: calls, g', ?_, by rw [List.length_cons, hlen], ?_, ?_⟩
    · rintro c' hc'
      rcases List.mem_cons.1 hc' with rfl | hc'
      · exact hsize
      · exact hsizes c' hc'
    · rw [Run.run_cons hstep, hrun]
    · rw [Nat.succ_mul]
      omega

variable {size : ℕ}

theorem granted_eq {calls : List Call} (h : ∀ c ∈ calls, c.size = size) :
    granted calls = calls.length * size := by
  rw [granted, List.map_eq_replicate_iff.2 h, List.sum_replicate_nat]

theorem earnable_of_bounded (hne : config.bytesPerSec ≠ U64_MAX)
    (h : ∀ later, (∀ c ∈ later, c.size = size) → Bounded config 0 [] later) :
    Earnable config size := by
  by_contra hlarge
  obtain ⟨later, g', hsizes, hlen, hrun, hlast⟩ :=
    exists_prompt_run hne size (config.burstBytes * NANOS + 1) (new config 0)
  have hbound := h later hsizes _ _ rfl hrun
  rw [granted_eq hsizes, hlen] at hbound
  set m := config.burstBytes * NANOS + 1 with hm
  have hearned : config.bytesPerSec * (g'.lastRefill - (new config 0).lastRefill) ≤
      config.bytesPerSec * (m * U64_MAX) := Nat.mul_le_mul_left _ (by omega)
  have hlt : NANOS + config.bytesPerSec * 2 ^ 64 + 1 ≤ size * NANOS := Nat.lt_of_not_le hlarge
  have hall : m * (NANOS + config.bytesPerSec * 2 ^ 64 + 1) ≤ m * size * NANOS := by
    rw [Nat.mul_assoc]
    exact Nat.mul_le_mul_left m hlt
  have hsplit : m * (NANOS + config.bytesPerSec * 2 ^ 64 + 1) =
      config.bytesPerSec * (m * U64_MAX) + m * (NANOS + config.bytesPerSec) + m := by
    have : 2 ^ 64 = U64_MAX + 1 := rfl
    rw [this]
    ring
  omega

theorem earnable_mono {n : ℕ} (h : Earnable config size) (hn : n ≤ size) : Earnable config n :=
  (Nat.mul_le_mul_right NANOS hn).trans h

theorem earnable_max : Earnable config U64_MAX ↔ NANOS ≤ config.bytesPerSec := by
  rw [Earnable, U64_MAX, NANOS]
  omega

/-- **The rate is kept exactly if every call can be earned in the longest sleep**: for calls of any
size, at a byte in a nanosecond and more. -/
theorem rate_bound_iff (hpos : 1 ≤ config.bytesPerSec) (hlt : config.bytesPerSec < U64_MAX) :
    ((∀ start earlier later, (∀ c ∈ earlier ++ later, c.size ≤ U64_MAX) →
        Bounded config start earlier later) ↔ NANOS ≤ config.bytesPerSec) ∧
      ∀ size, (∀ start earlier later, (∀ c ∈ earlier ++ later, c.size ≤ size) →
        Bounded config start earlier later) ↔
          size * NANOS ≤ NANOS + config.bytesPerSec * 2 ^ 64 := by
  have hiff : ∀ size, (∀ start earlier later, (∀ c ∈ earlier ++ later, c.size ≤ size) →
      Bounded config start earlier later) ↔ Earnable config size := by
    intro size
    constructor
    · intro h
      exact earnable_of_bounded hlt.ne fun later hlater => h 0 [] later fun c hc => (hlater c hc).le
    · intro h start earlier later hsize
      refine bounded_of_earnable hpos hlt.ne start (fun c hc => ?_) (fun c hc => ?_)
      · exact earnable_mono h (hsize c (List.mem_append_left _ hc))
      · exact earnable_mono h (hsize c (List.mem_append_right _ hc))
  exact ⟨(hiff U64_MAX).trans earnable_max, hiff⟩

def gigabyte : RateLimit := ⟨NANOS, 0, by decide, by decide⟩

theorem rate_bound_gigabyte :
    1 ≤ gigabyte.bytesPerSec ∧ gigabyte.bytesPerSec < U64_MAX ∧
      Bounded gigabyte 0 [⟨1, 0, 1⟩] [⟨1, 1, 2⟩] :=
  ⟨by decide, by decide, (@rate_bound_iff gigabyte (by decide) (by decide)).1.2 le_rfl
    0 [⟨1, 0, 1⟩] [⟨1, 1, 2⟩] (by decide)⟩

def slow : RateLimit := ⟨1, 0, by decide, by decide⟩

theorem slow_exceeds :
    ¬ Bounded slow 0 [⟨0, 0, 0⟩] [⟨20000000000, 0, 2 ^ 64 - 1⟩] := by
  intro h
  exact absurd (h ⟨0, 0⟩ ⟨0, 2 ^ 64 - 1⟩ (by decide +kernel) (by decide +kernel)) (by decide +kernel)

end Squib.RateLimitedBackend
