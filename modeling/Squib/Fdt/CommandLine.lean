import Squib.Fdt

/-!
# The kernel command line
-/

namespace Squib.Fdt

open Text

/-! ## Tokens and keys -/

def tokens (args : List UInt8) : List (List UInt8) :=
  (parts isAsciiWhitespace args).filter fun w => !w.isEmpty

def HasKey (key token : List UInt8) : Prop := token = key ∨ key ++ [0x3D] <+: token

instance (key token : List UInt8) : Decidable (HasKey key token) :=
  inferInstanceAs (Decidable (_ ∨ _))

variable {key arg buf : List UInt8}

theorem argKey_append (hkey : 0x3D ∉ key) (value : List UInt8) :
    argKey (key ++ [0x3D] ++ value) = key := by
  have hfind : (key ++ [0x3D] ++ value).findIdx? (· == 0x3D) = some key.length := by
    rw [List.append_assoc, List.findIdx?_append, List.findIdx?_eq_none_iff.2]
    · simp [List.findIdx?_cons]
    · intro b hb
      exact beq_false_of_ne fun h => hkey (h ▸ hb)
  rw [argKey, cutAt, hfind, List.append_assoc]
  exact List.take_left

theorem argKey_eq_iff (hkey : 0x3D ∉ key) (token : List UInt8) :
    argKey token = key ↔ HasKey key token := by
  constructor
  · intro h
    rw [argKey, cutAt] at h
    cases hfind : token.findIdx? (· == 0x3D) with
    | none =>
      rw [hfind] at h
      exact .inl h
    | some i =>
      rw [hfind] at h
      obtain ⟨hi, heq, -⟩ := List.findIdx?_eq_some_iff_getElem.1 hfind
      refine .inr ⟨token.drop (i + 1), ?_⟩
      change token.take i = key at h
      rw [← h, ← eq_of_beq heq, List.take_append_getElem, List.take_append_drop]
  · rintro (rfl | ⟨value, rfl⟩)
    · rw [argKey, cutAt, List.findIdx?_eq_none_iff.2]
      · rfl
      · intro b hb
        exact beq_false_of_ne fun h => hkey (h ▸ hb)
    · exact argKey_append hkey value

theorem keyPresent_iff (hkey : 0x3D ∉ key) (args : List UInt8) :
    keyPresent args key = true ↔ ∃ token ∈ tokens args, HasKey key token := by
  simp only [keyPresent, List.any_eq_true, beq_iff_eq, argKey_eq_iff hkey]
  rfl

theorem tokens_pushArg (hne : arg ≠ []) (harg : ∀ b ∈ arg, isAsciiWhitespace b = false) :
    tokens (pushArg buf arg) = tokens buf ++ [arg] := by
  have htokens : tokens arg = [arg] := by
    rw [tokens, parts_of_forall harg]
    simp [hne]
  rw [pushArg]
  split_ifs with hbuf
  · rw [hbuf, htokens]
    rfl
  · rw [← htokens, tokens, List.append_assoc, List.singleton_append, parts_append (by decide),
      List.filter_append]
    rfl

/-! ## The defaults -/

def NoWhitespace (t : List UInt8) : Prop :=
  (∀ b ∈ t, isAsciiWhitespace b = false) ∧ ∀ c ∈ chars t, isWhitespace c = false

def defaultArgs (rootPartuuid : Option (List UInt8)) : List (List UInt8 × List UInt8) :=
  [(bytes "console", bytes "console=ttyAMA0"), (bytes "panic", bytes "panic=1")] ++
    (rootPartuuid.map fun uuid => (bytes "root", bytes "root=PARTUUID=" ++ uuid)).toList

structure Sound (d : List UInt8 × List UInt8) : Prop where
  key : 0x3D ∉ d.1
  keyed : d.1 ++ [0x3D] <+: d.2
  ascii : ∀ b ∈ d.2, isAsciiWhitespace b = false
  trimmed : Trimmed d.2

theorem Sound.ne_nil {d : List UInt8 × List UInt8} (h : Sound d) : d.2 ≠ [] := by
  intro hnil
  have hkeyed := h.keyed
  rw [hnil] at hkeyed
  simp at hkeyed

theorem trimmed_root {uuid : List UInt8} (h : NoWhitespace uuid) :
    Trimmed (bytes "root=PARTUUID=" ++ uuid) := by
  have hchars : chars (bytes "root=PARTUUID=" ++ uuid) =
      chars (bytes "root=PARTUUID") ++ (0x3D :: (charsAux uuid).1) :: chars uuid := rfl
  refine trimmed_of_forall rfl fun c hc => ?_
  rw [hchars, List.mem_append, List.mem_cons] at hc
  obtain hc | rfl | hc := hc
  · revert c
    decide +kernel
  · rcases (charsAux uuid).1 with _ | ⟨_, _ | ⟨_, _ | _⟩⟩ <;> rfl
  · exact h.2 c hc

theorem sound_defaultArgs {rootPartuuid : Option (List UInt8)}
    (h : ∀ uuid ∈ rootPartuuid, NoWhitespace uuid) : ∀ d ∈ defaultArgs rootPartuuid, Sound d := by
  have hconsole : Sound (bytes "console", bytes "console=ttyAMA0") :=
    ⟨by decide +kernel, by decide +kernel, by decide +kernel,
      trimmed_of_forall (by decide +kernel) (by decide +kernel)⟩
  have hpanic : Sound (bytes "panic", bytes "panic=1") :=
    ⟨by decide +kernel, by decide +kernel, by decide +kernel,
      trimmed_of_forall (by decide +kernel) (by decide +kernel)⟩
  cases rootPartuuid with
  | none => simp [defaultArgs, hconsole, hpanic]
  | some uuid =>
    have huuid := h uuid rfl
    have hroot : Sound (bytes "root", bytes "root=PARTUUID=" ++ uuid) := by
      refine ⟨(by decide +kernel : 0x3D ∉ bytes "root"), ⟨bytes "PARTUUID=" ++ uuid, rfl⟩, ?_,
        trimmed_root huuid⟩
      exact List.forall_mem_append.2 ⟨by decide +kernel, huuid.1⟩
    simp [defaultArgs, hconsole, hpanic, hroot]

/-! ## Composition -/

def appendDefault (trimmed out : List UInt8) (d : List UInt8 × List UInt8) : List UInt8 :=
  if keyPresent trimmed d.1 then out else pushArg out d.2

def absent (user : List (List UInt8)) (ds : List (List UInt8 × List UInt8)) : List (List UInt8) :=
  (ds.filter fun d => user.all fun token => !HasKey d.1 token).map Prod.snd

theorem composeBootArgs_eq (userArgs : List UInt8) (rootPartuuid : Option (List UInt8)) :
    composeBootArgs userArgs rootPartuuid =
      (defaultArgs rootPartuuid).foldl (appendDefault (trim userArgs)) (trim userArgs) := by
  cases rootPartuuid <;> rfl

variable {t out : List UInt8} {d : List UInt8 × List UInt8} {ds : List (List UInt8 × List UInt8)}

theorem keyPresent_eq_false_iff (h : Sound d) :
    keyPresent t d.1 = false ↔ ((tokens t).all fun token => !HasKey d.1 token) = true := by
  rw [← Bool.not_eq_true, keyPresent_iff h.key]
  simp

theorem tokens_appendDefault (h : Sound d) :
    tokens (appendDefault t out d) = tokens out ++ absent (tokens t) [d] := by
  rw [appendDefault, absent]
  cases hkey : keyPresent t d.1 with
  | true => simp [← keyPresent_eq_false_iff h, hkey]
  | false =>
    have hall := (keyPresent_eq_false_iff h).1 hkey
    rw [List.filter_singleton, hall]
    exact tokens_pushArg h.ne_nil h.ascii

theorem trimmed_appendDefault (h : Sound d) (hout : Trimmed out) :
    Trimmed (appendDefault t out d) := by
  rw [appendDefault, pushArg]
  split_ifs with hkey hnil
  · exact hout
  · exact h.trimmed
  · rw [List.append_assoc]
    exact hout.append h.trimmed hnil h.ne_nil

theorem foldl_appendDefault : ∀ {ds : List (List UInt8 × List UInt8)} {out}, (∀ d ∈ ds, Sound d) → Trimmed out →
    tokens (ds.foldl (appendDefault t) out) = tokens out ++ absent (tokens t) ds ∧
      Trimmed (ds.foldl (appendDefault t) out)
  | [], _, _, hout => ⟨(List.append_nil _).symm, hout⟩
  | d :: ds, out, hds, hout => by
    obtain ⟨hd, hds⟩ := List.forall_mem_cons.1 hds
    have ih := foldl_appendDefault hds (trimmed_appendDefault (t := t) hd hout)
    refine ⟨?_, ih.2⟩
    rw [List.foldl_cons, ih.1, tokens_appendDefault hd, List.append_assoc]
    simp only [absent, ← List.map_append, ← List.filter_append, List.singleton_append]

theorem foldl_appendDefault_eq_self : ∀ {ds : List (List UInt8 × List UInt8)},
    (∀ d ∈ ds, keyPresent t d.1 = true) → ds.foldl (appendDefault t) out = out
  | [], _ => rfl
  | d :: ds, h => by
    obtain ⟨hd, hds⟩ := List.forall_mem_cons.1 h
    rw [List.foldl_cons, appendDefault, if_pos hd, foldl_appendDefault_eq_self hds]

theorem keyPresent_of_tokens (h : Sound d) (hd : d ∈ ds) {args : List UInt8}
    (htokens : tokens args = tokens t ++ absent (tokens t) ds) : keyPresent args d.1 = true := by
  rw [keyPresent_iff h.key, htokens]
  cases hkey : keyPresent t d.1 with
  | true =>
    obtain ⟨token, hmem, htoken⟩ := (keyPresent_iff h.key t).1 hkey
    exact ⟨token, List.mem_append_left _ hmem, htoken⟩
  | false =>
    refine ⟨d.2, List.mem_append_right _ (List.mem_map.2 ⟨d, ?_, rfl⟩), .inr h.keyed⟩
    exact List.mem_filter.2 ⟨hd, (keyPresent_eq_false_iff h).1 hkey⟩

/-- **The command line**: the user's tokens in order, then the defaults whose key no user token has;
composing once more changes nothing. -/
theorem composeBootArgs_tokens {userArgs : List UInt8} {rootPartuuid : Option (List UInt8)}
    (h : ∀ uuid ∈ rootPartuuid, NoWhitespace uuid) :
    tokens (composeBootArgs userArgs rootPartuuid) =
        tokens (trim userArgs) ++ absent (tokens (trim userArgs)) (defaultArgs rootPartuuid) ∧
      composeBootArgs (composeBootArgs userArgs rootPartuuid) rootPartuuid =
        composeBootArgs userArgs rootPartuuid := by
  have hsound := sound_defaultArgs h
  have hcompose := foldl_appendDefault (t := trim userArgs) hsound (trimmed_trim userArgs)
  rw [← composeBootArgs_eq] at hcompose
  refine ⟨hcompose.1, ?_⟩
  rw [composeBootArgs_eq (composeBootArgs userArgs rootPartuuid), hcompose.2.trim_eq]
  exact foldl_appendDefault_eq_self fun d hd => keyPresent_of_tokens (hsound d hd) hd hcompose.1

theorem composeBootArgs_tokens_console :
    tokens (composeBootArgs (bytes " quiet\t console=hvc0 ") (some (bytes "ab-12"))) =
        [bytes "quiet", bytes "console=hvc0", bytes "panic=1", bytes "root=PARTUUID=ab-12"] ∧
      composeBootArgs (composeBootArgs (bytes " quiet\t console=hvc0 ") (some (bytes "ab-12")))
          (some (bytes "ab-12")) =
        composeBootArgs (bytes " quiet\t console=hvc0 ") (some (bytes "ab-12")) := by
  have h := @composeBootArgs_tokens (bytes " quiet\t console=hvc0 ") (some (bytes "ab-12")) (by
    rintro _ ⟨⟩
    exact ⟨by decide +kernel, by decide +kernel⟩)
  exact ⟨h.1.trans (by decide +kernel), h.2⟩

/-- The command line is trimmed of all white space, but cut at ASCII white space, to which the
vertical tab does not belong: a leading one leaves the first token, and a key behind one is not seen.
-/
theorem vertical_tab_tokens :
    ∃ userArgs, tokens (composeBootArgs userArgs none) ≠
        tokens userArgs ++ absent (tokens userArgs) (defaultArgs none) ∧
      words (composeBootArgs userArgs none) ≠
        words userArgs ++ absent (words userArgs) (defaultArgs none) :=
  ⟨[0x0B, 0x61, 0x0B] ++ bytes "console=hvc0", by decide +kernel, by decide +kernel⟩

end Squib.Fdt
