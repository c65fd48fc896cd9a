import Squib.Loader

/-!
# Reading up to a cap
-/

namespace Squib.Loader

namespace Reads

/-- The bytes of the first `n` reads, if the reader has not ended before. -/
def produced (reads : Reads) : ℕ → Option (List UInt8)
  | 0 => some []
  | n + 1 =>
    match reads.produced n, reads n with
    | some bytes, .ok chunk => if chunk = [] then none else some (bytes ++ chunk)
    | _, _ => none

/-- The reader produces these bytes, and then it is at its end, or it fails. -/
def Ends (reads : Reads) (bytes : List UInt8) (e : Option IoError) : Prop :=
  ∃ n, reads.produced n = some bytes ∧ reads n = e.elim (.ok []) .error

/-- The readers end alike, and what one of them has produced the other one produces too. -/
structure SameStream (reads reads' : Reads) : Prop where
  ends : ∀ bytes e, reads.Ends bytes e ↔ reads'.Ends bytes e
  produced : ∀ n bytes, reads.produced n = some bytes →
    ∃ m bytes', reads'.produced m = some bytes' ∧ bytes <+: bytes'

/-- The output that the loop holds at the head of round `n`. -/
def held (reads : Reads) (cap : ℕ) : ℕ → Option (List UInt8)
  | 0 => some []
  | n + 1 =>
    match reads.held cap n, reads n with
    | some out, .ok chunk =>
      if chunk = [] ∨ cap < out.length + chunk.length then none else some (out ++ chunk)
    | _, _ => none

variable {reads reads' : Reads} {n k cap : ℕ} {bytes bytes' out : List UInt8} {e e' : Option IoError}

theorem produced_succ : reads.produced (n + 1) = some bytes ↔
    ∃ b chunk, reads.produced n = some b ∧ reads n = .ok chunk ∧ chunk ≠ [] ∧ b ++ chunk = bytes := by
  rw [produced]
  cases reads.produced n with
  | none => simp
  | some b =>
    cases reads n with
    | error e => simp
    | ok chunk => simp

theorem prefix_of_produced (h : reads.produced n = some bytes) (hk : k ≤ n) :
    ∃ b, reads.produced k = some b ∧ b <+: bytes := by
  induction n generalizing bytes with
  | zero =>
    obtain rfl := Nat.le_zero.1 hk
    exact ⟨bytes, h, List.prefix_refl _⟩
  | succ n ih =>
    obtain rfl | hlt := Nat.eq_or_lt_of_le hk
    · exact ⟨bytes, h, List.prefix_refl _⟩
    · obtain ⟨b, chunk, hb, -, -, rfl⟩ := produced_succ.1 h
      obtain ⟨a, ha, hprefix⟩ := ih hb (Nat.le_of_lt_succ hlt)
      exact ⟨a, ha, hprefix.trans (List.prefix_append _ _)⟩

theorem le_of_ends (hn : reads n = e.elim (.ok []) .error) (hk : reads.produced k = some bytes) :
    k ≤ n := by
  by_contra hlt
  obtain ⟨b, hb, -⟩ := prefix_of_produced hk (Nat.succ_le_of_lt (Nat.not_le.1 hlt))
  obtain ⟨-, chunk, -, hchunk, hne, -⟩ := produced_succ.1 hb
  rw [hn] at hchunk
  cases e with
  | none => exact hne (Except.ok.inj hchunk).symm
  | some e => cases hchunk

theorem Ends.of_produced (h : reads.Ends bytes e) (hk : reads.produced k = some bytes') :
    bytes' <+: bytes := by
  obtain ⟨n, hn, hend⟩ := h
  obtain ⟨b, hb, hprefix⟩ := prefix_of_produced hn (le_of_ends hend hk)
  rw [hk] at hb
  cases hb
  exact hprefix

theorem Ends.unique (h : reads.Ends bytes e) (h' : reads.Ends bytes' e') : bytes = bytes' ∧ e = e' := by
  obtain ⟨n, hn, hend⟩ := h
  obtain ⟨m, hm, hend'⟩ := h'
  obtain rfl : n = m := Nat.le_antisymm (le_of_ends hend' hn) (le_of_ends hend hm)
  rw [hn] at hm
  rw [hend] at hend'
  refine ⟨Option.some.inj hm, ?_⟩
  cases e <;> cases e' <;> cases hend' <;> rfl

theorem held_eq_some (h : reads.held cap n = some out) :
    reads.produced n = some out ∧ out.length ≤ cap ∧
      boundedReadToEnd reads cap 0 [] = boundedReadToEnd reads cap n out := by
  induction n generalizing out with
  | zero =>
    cases h
    exact ⟨rfl, Nat.zero_le _, rfl⟩
  | succ n ih =>
    rw [held] at h
    split at h
    · next b chunk hb hchunk =>
      obtain ⟨hproduced, -, hloop⟩ := ih hb
      split_ifs at h with hround
      rw [not_or, Nat.not_lt] at hround
      cases h
      refine ⟨produced_succ.2 ⟨b, chunk, hproduced, hchunk, hround.1, rfl⟩, ?_, ?_⟩
      · rw [List.length_append]
        exact hround.2
      · rw [hloop, boundedReadToEnd, hchunk]
        dsimp only
        rw [if_neg (mt List.length_eq_zero_iff.1 hround.1), if_neg (Nat.not_lt.2 hround.2)]
    · cases h

theorem boundedReadToEnd_cases (hout : reads.produced n = some out) (hle : out.length ≤ cap) :
    (∃ bytes e, reads.Ends bytes e ∧ bytes.length ≤ cap ∧
      boundedReadToEnd reads cap n out = e.elim (.ok bytes) (.error ∘ .io)) ∨
    ∃ m bytes, reads.produced m = some bytes ∧ cap < bytes.length ∧
      boundedReadToEnd reads cap n out = .error (.decompressedTooLarge bytes.length cap) := by
  fun_induction boundedReadToEnd reads cap n out with
  | case1 n out e he => exact .inl ⟨out, some e, ⟨n, hout, he⟩, hle, rfl⟩
  | case2 n out chunk he hempty =>
    obtain rfl := List.length_eq_zero_iff.1 hempty
    exact .inl ⟨out, none, ⟨n, hout, he⟩, hle, rfl⟩
  | case3 n out chunk he hsome hlong =>
    have hnext := produced_succ.2 ⟨out, chunk, hout, he, mt List.length_eq_zero_iff.2 hsome, rfl⟩
    rw [← List.length_append] at hlong ⊢
    exact .inr ⟨n + 1, _, hnext, hlong, rfl⟩
  | case4 n out chunk he hsome hlong ih =>
    have hnext := produced_succ.2 ⟨out, chunk, hout, he, mt List.length_eq_zero_iff.2 hsome, rfl⟩
    rw [← List.length_append] at hlong
    exact ih hnext (Nat.not_lt.1 hlong)

theorem Ends.boundedReadToEnd_eq (h : reads.Ends bytes e) (hle : bytes.length ≤ cap) :
    boundedReadToEnd reads cap 0 [] = e.elim (.ok bytes) (.error ∘ .io) := by
  obtain ⟨b, e', hend, -, hresult⟩ | ⟨m, b, hb, hlong, -⟩ :=
    @boundedReadToEnd_cases reads 0 cap [] rfl (Nat.zero_le cap)
  · obtain ⟨rfl, rfl⟩ := h.unique hend
    exact hresult
  · have := (h.of_produced hb).length_le
    omega

theorem exists_tooLarge (h : reads.produced n = some bytes) (hlong : cap < bytes.length) :
    ∃ m bytes', reads.produced m = some bytes' ∧ cap < bytes'.length ∧
      boundedReadToEnd reads cap 0 [] = .error (.decompressedTooLarge bytes'.length cap) := by
  obtain ⟨b, e', hend, hle, -⟩ | hresult :=
    @boundedReadToEnd_cases reads 0 cap [] rfl (Nat.zero_le cap)
  · have := (hend.of_produced h).length_le
    omega
  · exact hresult

end Reads

/-- Equal results, but for the number of bytes in the error for too long a stream. -/
def SameButSize (cap : ℕ) (r r' : Except LoaderError (List UInt8)) : Prop :=
  r = r' ∨ ∃ size size', r = .error (.decompressedTooLarge size cap) ∧
    r' = .error (.decompressedTooLarge size' cap)

/-- **Bounded reading**, for any reader. -/
theorem boundedReadToEnd_spec (reads : Reads) (cap : ℕ) :
    (∀ bytes, reads.Ends bytes none → bytes.length ≤ cap →
      boundedReadToEnd reads cap 0 [] = .ok bytes) ∧
    (∀ n bytes, reads.produced n = some bytes → cap < bytes.length →
      ∃ m bytes', reads.produced m = some bytes' ∧ cap < bytes'.length ∧
        boundedReadToEnd reads cap 0 [] = .error (.decompressedTooLarge bytes'.length cap)) ∧
    (∀ n out, reads.held cap n = some out → out.length ≤ cap ∧
      boundedReadToEnd reads cap 0 [] = boundedReadToEnd reads cap n out) ∧
    ∀ reads', reads.SameStream reads' → SameButSize cap (boundedReadToEnd reads cap 0 [])
      (boundedReadToEnd reads' cap 0 []) := by
  refine ⟨fun bytes h hle => h.boundedReadToEnd_eq hle, fun n bytes h hlong =>
    Reads.exists_tooLarge h hlong, fun n out h => (Reads.held_eq_some h).2, fun reads' hsame => ?_⟩
  obtain ⟨bytes, e, hend, hle, hresult⟩ | ⟨m, bytes, hbytes, hlong, hresult⟩ :=
    @Reads.boundedReadToEnd_cases reads 0 cap [] rfl (Nat.zero_le cap)
  · refine .inl ?_
    rw [hresult, ((hsame.ends bytes e).1 hend).boundedReadToEnd_eq hle]
  · obtain ⟨k, bytes', hbytes', hprefix⟩ := hsame.produced m bytes hbytes
    obtain ⟨_, _, -, -, hresult'⟩ :=
      Reads.exists_tooLarge hbytes' (hlong.trans_le hprefix.length_le)
    exact .inr ⟨_, _, hresult, hresult'⟩

/-! ## Cuts of a finite stream -/

def Reads.ofChunks (chunks : List (List UInt8)) : Reads := fun n => .ok (chunks.getD n [])

section Cuts

variable {chunks chunks' : List (List UInt8)}

theorem produced_ofChunks (h : ∀ c ∈ chunks, c ≠ []) {n : ℕ} (hn : n ≤ chunks.length) :
    (Reads.ofChunks chunks).produced n = some (chunks.take n).flatten := by
  induction n with
  | zero => rfl
  | succ n ih =>
    have hchunk : Reads.ofChunks chunks n = .ok chunks[n] := by
      rw [Reads.ofChunks, List.getD_eq_getElem _ _ hn]
    refine Reads.produced_succ.2 ⟨_, _, ih (by omega), hchunk, h _ (List.getElem_mem hn), ?_⟩
    rw [List.take_succ_eq_append_getElem hn, List.flatten_append, List.flatten_singleton]

theorem ends_ofChunks (h : ∀ c ∈ chunks, c ≠ []) :
    (Reads.ofChunks chunks).Ends chunks.flatten none := by
  refine ⟨chunks.length, ?_, ?_⟩
  · rw [produced_ofChunks h le_rfl, List.take_length]
  · rw [Reads.ofChunks, List.getD_eq_default _ _ le_rfl]
    rfl

theorem sameStream_ofChunks (h : ∀ c ∈ chunks, c ≠ []) (h' : ∀ c ∈ chunks', c ≠ [])
    (heq : chunks.flatten = chunks'.flatten) :
    (Reads.ofChunks chunks).SameStream (.ofChunks chunks') := by
  have hends := ends_ofChunks h
  have hends' := ends_ofChunks h'
  rw [← heq] at hends'
  refine ⟨fun bytes e => ⟨fun hb => ?_, fun hb => ?_⟩, fun n bytes hb => ?_⟩
  · obtain ⟨rfl, rfl⟩ := hends.unique hb
    exact hends'
  · obtain ⟨rfl, rfl⟩ := hends'.unique hb
    exact hends
  · obtain ⟨m, hm, -⟩ := hends'
    exact ⟨m, _, hm, hends.of_produced hb⟩

/-- Three bytes at once and three bytes in two reads, with a cap of one byte. -/
theorem size_depends_on_cut :
    (Reads.ofChunks [[1, 2, 3]]).SameStream (.ofChunks [[1, 2], [3]]) ∧
      boundedReadToEnd (.ofChunks [[1, 2, 3]]) 1 0 [] ≠
        boundedReadToEnd (.ofChunks [[1, 2], [3]]) 1 0 [] := by
  refine ⟨sameStream_ofChunks (by decide) (by decide) rfl, ?_⟩
  rw [boundedReadToEnd, boundedReadToEnd]
  decide

end Cuts

end Squib.Loader
