import Squib.Lib.Internet
import Squib.Net.Liveness

/-!
# Frames over the gvproxy socket
-/

namespace Squib.NetDevice

open Internet

def clampU32 (n : ℕ) : UInt32 := .ofNat (min n 0xFFFFFFFF)

def wire (frame : Frame) : List UInt8 := toBe32 (clampU32 frame.length) ++ frame

def newest (frames : List Frame) : List Frame := frames.drop (frames.length - rxQueueCap)

inductive Phase where
  | header
  | body (len : ℕ)
  | returned

def Phase.need : Phase → ℕ
  | .header => 4
  | .body len => len
  | .returned => 0

structure Reader where
  backend : GvproxyBackend := {}
  phase : Phase := .header
  got : List UInt8 := []
  stream : List UInt8
  batches : List (List Frame × List Frame) := []
  since : List Frame := []

namespace Reader

def parsed (r : Reader) : List Frame := (r.batches.map Prod.fst).flatten ++ r.since

def declared : List UInt8 → ℕ
  | [a, b, c, d] => (be32 a b c d).toNat
  | _ => 0

variable (maxFrameBytes : ℕ)

def complete (r : Reader) : Reader :=
  match r.phase with
  | .header =>
    if maxFrameBytes < declared r.got then
      { r with phase := .returned, backend.reading := false, got := [] }
    else if declared r.got = 0 then { r with got := [] }
    else { r with phase := .body (declared r.got), got := [] }
  | .body _ =>
    { r with phase := .header, backend := r.backend.runReader maxFrameBytes r.got, got := []
             since := r.since ++ [r.got] }
  | .returned => r

inductive Event where
  | read (n : ℕ)
  | recv

def step (r : Reader) : Event → Option Reader
  | .read n =>
    if 0 < n ∧ n ≤ r.stream.length ∧ r.got.length + n ≤ r.phase.need then
      let r' := { r with got := r.got ++ r.stream.take n, stream := r.stream.drop n }
      some (if r'.got.length = r.phase.need then r'.complete maxFrameBytes else r')
    else none
  | .recv => some { r with backend := r.backend.recv.2, since := []
                           batches := r.batches ++ [(r.since, r.backend.recv.1)] }

def Ends (tail : List UInt8) : Prop :=
  tail = [] ∨ ∃ (len : UInt32) (junk : List UInt8),
    maxFrameBytes < len.toNat ∧ tail = toBe32 len ++ junk

structure Faithful (frames : List Frame) (r : Reader) : Prop where
  parsed : r.parsed <+: frames
  complete : (∀ n, r.step maxFrameBytes (.read n) = none) → r.parsed = frames
  recv : ∀ b ∈ r.batches, b.2 = newest b.1

variable {maxFrameBytes} {frames : List Frame} {tail : List UInt8} {r r' : Reader}

def Place (frames : List Frame) (tail : List UInt8) (r : Reader) : Prop :=
  match r.phase with
  | .header => ∃ rest, frames = r.parsed ++ rest ∧ r.got ++ r.stream = rest.flatMap wire ++ tail
  | .body len => ∃ frame rest, frames = r.parsed ++ frame :: rest ∧ frame.length = len ∧
      r.got ++ r.stream = frame ++ (rest.flatMap wire ++ tail)
  | .returned => r.parsed = frames

structure Located (frames : List Frame) (tail : List UInt8) (r : Reader) : Prop where
  place : r.Place frames tail
  reading : r.phase ≠ .returned → r.backend.reading = true
  buffer : r.backend.rxBuffer = newest r.since
  recv : ∀ b ∈ r.batches, b.2 = newest b.1

structure Sound (frames : List Frame) (tail : List UInt8) (r : Reader) : Prop
    extends r.Located frames tail where
  short : r.phase ≠ .returned → r.got.length < r.phase.need

theorem newest_concat (frames : List Frame) (frame : Frame) :
    newest (frames ++ [frame]) =
      (if rxQueueCap ≤ (newest frames).length then (newest frames).drop 1 else newest frames) ++
        [frame] := by
  have hcap : 0 < rxQueueCap := by decide
  unfold newest
  rw [List.length_append, List.length_singleton, List.length_drop,
    List.drop_append_of_le_length (by omega)]
  split_ifs with h
  · rw [List.drop_drop, Nat.sub_add_comm (by omega)]
  · rw [Nat.sub_eq_zero_of_le (by omega), Nat.sub_eq_zero_of_le (by omega)]

theorem declared_toBe32 (x : UInt32) : declared (toBe32 x) = x.toNat :=
  congrArg UInt32.toNat (be32_toBe32 x)

theorem toNat_clampU32 {n : ℕ} (h : n < 2 ^ 32) : (clampU32 n).toNat = n := by
  rw [clampU32, UInt32.toNat_ofNat', Nat.min_eq_left (by omega), Nat.mod_eq_of_lt h]

def Fits (maxFrameBytes : ℕ) (frame : Frame) : Prop :=
  0 < frame.length ∧ frame.length ≤ maxFrameBytes

theorem rxBuffer_runReader {b : GvproxyBackend} {frame : Frame} (hreading : b.reading = true)
    (hfits : Fits maxFrameBytes frame) (hbuffer : b.rxBuffer = newest frames) :
    (b.runReader maxFrameBytes frame).rxBuffer = newest (frames ++ [frame]) ∧
      (b.runReader maxFrameBytes frame).reading = true := by
  obtain ⟨hpos, hle⟩ := hfits
  rw [newest_concat, ← hbuffer, GvproxyBackend.runReader, hreading, if_neg (by simp),
    if_neg (by omega), if_neg (by omega), GvproxyBackend.full]
  by_cases hfull : rxQueueCap ≤ b.rxBuffer.length
  · rw [if_pos hfull, if_pos (decide_eq_true hfull)]
    exact ⟨rfl, rfl⟩
  · rw [if_neg hfull, if_neg (by simpa using hfull)]
    exact ⟨rfl, rfl⟩

theorem Located.complete (h : r.Located frames tail) (hneed : 0 < r.phase.need)
    (hgot : r.got.length = r.phase.need)
    (hfits : ∀ frame ∈ frames, Fits maxFrameBytes frame)
    (hsmall : ∀ frame ∈ frames, frame.length < 2 ^ 32) (htail : Ends maxFrameBytes tail) :
    (r.complete maxFrameBytes).Sound frames tail := by
  obtain ⟨hplace, hreading, hbuffer, hrecv⟩ := h
  unfold Place at hplace
  unfold Reader.complete
  cases hphase : r.phase with
  | returned => simp [hphase, Phase.need] at hneed
  | header =>
    rw [hphase] at hplace hgot hreading
    obtain ⟨rest, hrest, hbytes⟩ := hplace
    have hlen : ∀ x, (toBe32 x).length = 4 := fun _ => rfl
    cases rest with
    | nil =>
      rw [List.flatMap_nil, List.nil_append] at hbytes
      obtain rfl | ⟨len, junk, hmax, rfl⟩ := htail
      · simp [List.append_eq_nil_iff.1 hbytes, Phase.need] at hgot
      · obtain ⟨hhdr, -⟩ := List.append_inj hbytes (hgot.trans (hlen len).symm)
        rw [hhdr, declared_toBe32, if_pos hmax]
        rw [List.append_nil] at hrest
        exact ⟨⟨hrest.symm, fun hne => absurd rfl hne, hbuffer, hrecv⟩, fun hne => absurd rfl hne⟩
    | cons frame rest =>
      have hmem : frame ∈ frames := by simp [hrest]
      rw [List.flatMap_cons, wire, List.append_assoc, List.append_assoc] at hbytes
      obtain ⟨hhdr, hstream⟩ := List.append_inj hbytes (hgot.trans (hlen _).symm)
      have hpos := (hfits frame hmem).1
      rw [hhdr, declared_toBe32, toNat_clampU32 (hsmall frame hmem),
        if_neg (Nat.not_lt.2 (hfits frame hmem).2), if_neg (by omega)]
      exact ⟨⟨⟨frame, rest, hrest, rfl, hstream⟩, fun _ => hreading nofun, hbuffer, hrecv⟩,
        fun _ => hpos⟩
  | body len =>
    rw [hphase] at hplace hgot hreading
    obtain ⟨frame, rest, hrest, hlen, hbytes⟩ := hplace
    obtain ⟨hframe, hstream⟩ := List.append_inj hbytes (hgot.trans hlen.symm)
    have hmem : frame ∈ frames := by simp [hrest]
    obtain ⟨hbuffer', hreading'⟩ := rxBuffer_runReader (hreading nofun) (hfits frame hmem) hbuffer
    rw [hframe]
    refine ⟨⟨⟨rest, ?_, hstream⟩, fun _ => hreading', hbuffer', hrecv⟩, fun _ => Nat.zero_lt_succ 3⟩
    exact hrest.trans (by simp [Reader.parsed])

theorem sound_step {e : Event} (h : r.Sound frames tail)
    (hfits : ∀ frame ∈ frames, Fits maxFrameBytes frame)
    (hsmall : ∀ frame ∈ frames, frame.length < 2 ^ 32) (htail : Ends maxFrameBytes tail)
    (hstep : r.step maxFrameBytes e = some r') : r'.Sound frames tail := by
  cases e with
  | recv =>
    cases hstep
    refine ⟨⟨?_, h.reading, List.drop_nil.symm, fun b hb => ?_⟩, h.short⟩
    · have hplace := h.place
      simpa [Place, Reader.parsed] using hplace
    · obtain hb | hb := List.mem_append.1 hb
      · exact h.recv b hb
      · rw [List.mem_singleton.1 hb]
        exact h.buffer
  | read n =>
    simp only [step] at hstep
    have hlocated : Located frames tail
        { r with got := r.got ++ r.stream.take n, stream := r.stream.drop n } := by
      refine ⟨?_, h.reading, h.buffer, h.recv⟩
      have hplace := h.place
      simpa [Place, Reader.parsed] using hplace
    split_ifs at hstep with hn hfull
    · cases hstep
      exact hlocated.complete (by dsimp only; omega) hfull hfits hsmall htail
    · cases hstep
      refine ⟨hlocated, fun _ => ?_⟩
      simp only [List.length_append, List.length_take] at hfull ⊢
      omega

theorem Sound.faithful (h : r.Sound frames tail) :
    Faithful maxFrameBytes frames r := by
  have hplace := h.place
  have hshort := h.short
  unfold Place at hplace
  have hempty : r.phase ≠ .returned → (∀ n, r.step maxFrameBytes (.read n) = none) → r.stream = [] := by
    intro hne hstuck
    have hone := hstuck 1
    simp only [step] at hone
    split_ifs at hone with hn
    have := hshort hne
    by_contra hstream
    have := List.length_pos_iff.2 hstream
    omega
  cases hphase : r.phase with
  | returned =>
    rw [hphase] at hplace
    exact ⟨hplace ▸ List.prefix_refl _, fun _ => hplace, h.recv⟩
  | header =>
    rw [hphase] at hplace hshort hempty
    obtain ⟨rest, hrest, hbytes⟩ := hplace
    refine ⟨⟨rest, hrest.symm⟩, fun hstuck => ?_, h.recv⟩
    have hlen := hshort nofun
    rw [hempty nofun hstuck, List.append_nil] at hbytes
    cases rest with
    | nil => exact (hrest.trans (List.append_nil _)).symm
    | cons frame rest => simp [hbytes, wire, Phase.need] at hlen
  | body len =>
    rw [hphase] at hplace hshort hempty
    obtain ⟨frame, rest, hrest, hlen, hbytes⟩ := hplace
    refine ⟨⟨_, hrest.symm⟩, fun hstuck => ?_, h.recv⟩
    have hgot := hshort nofun
    rw [hempty nofun hstuck, List.append_nil] at hbytes
    rw [hbytes, List.length_append, Phase.need] at hgot
    omega

/-! ## Long frames -/

theorem clampU32_le (n : ℕ) : (clampU32 n).toNat ≤ n ∧ (0 < n → 0 < (clampU32 n).toNat) := by
  rw [clampU32, UInt32.toNat_ofNat']
  omega

theorem run_frame {frame : Frame} {rest : List UInt8} (hphase : r.phase = .header) (hgot : r.got = [])
    (hstream : r.stream = wire frame ++ rest) (hfits : Fits maxFrameBytes frame) :
    ∃ r', Run.run (step maxFrameBytes) [.read 4, .read (clampU32 frame.length).toNat] r = some r' ∧
      r'.phase = .header ∧ r'.got = [] ∧
      r'.stream = frame.drop (clampU32 frame.length).toNat ++ rest ∧
      r'.parsed = r.parsed ++ [frame.take (clampU32 frame.length).toNat] := by
  obtain ⟨hle, hpos⟩ := clampU32_le frame.length
  have hmax := hfits.2
  have hdeclared := declared_toBe32 (clampU32 frame.length)
  have htake : (wire frame ++ rest).take 4 = toBe32 (clampU32 frame.length) := rfl
  have hdrop : (wire frame ++ rest).drop 4 = frame ++ rest := rfl
  generalize (clampU32 frame.length).toNat = m at *
  have hread : r.step maxFrameBytes (.read 4) =
      some { r with phase := .body m, got := [], stream := frame ++ rest } := by
    simp only [step]
    rw [if_pos (by simp [hstream, wire, hgot, hphase, Phase.need]), hgot, hstream, htake, hdrop,
      if_pos (by rw [hphase]; rfl)]
    simp only [complete, hphase, List.nil_append, hdeclared]
    rw [if_neg (by omega), if_neg (by have := hpos hfits.1; omega)]
  refine ⟨complete maxFrameBytes { r with phase := .body m, got := [] ++ (frame ++ rest).take m
                                          stream := (frame ++ rest).drop m }, ?_, rfl, rfl, ?_, ?_⟩
  · rw [Run.run_cons hread]
    simp only [Run.run, step]
    rw [if_pos ⟨hpos hfits.1, by simp; omega, by simp [Phase.need]⟩,
      if_pos (by simp [Phase.need]; omega)]
    rfl
  · exact List.drop_append_of_le_length hle
  · rw [List.take_append_of_le_length hle]
    exact (List.append_assoc ..).symm

theorem exists_not_prefix (hfits : ∀ frame ∈ frames, Fits maxFrameBytes frame)
    (hlong : ∃ frame ∈ frames, 2 ^ 32 ≤ frame.length) : ∀ r : Reader, r.phase = .header → r.got = [] →
      r.stream = frames.flatMap wire → ∃ es r', Run.run (step maxFrameBytes) es r = some r' ∧
        ¬ r'.parsed <+: r.parsed ++ frames := by
  induction frames with
  | nil => simp at hlong
  | cons frame frames ih =>
    intro r hphase hgot hstream
    obtain ⟨r₁, hrun, hphase₁, hgot₁, hstream₁, hparsed₁⟩ := run_frame hphase hgot hstream
      (hfits frame List.mem_cons_self)
    by_cases hsmall : frame.length < 2 ^ 32
    · rw [toNat_clampU32 hsmall, List.drop_length] at hstream₁
      rw [toNat_clampU32 hsmall, List.take_length] at hparsed₁
      have hlong' : ∃ frame ∈ frames, 2 ^ 32 ≤ frame.length := by
        obtain ⟨frame', hmem, hle⟩ := hlong
        obtain rfl | hmem := List.mem_cons.1 hmem
        · omega
        · exact ⟨frame', hmem, hle⟩
      obtain ⟨es, r', hrun', hnot⟩ := ih (fun f hf => hfits f (List.mem_cons_of_mem _ hf)) hlong' r₁
        hphase₁ hgot₁ hstream₁
      refine ⟨_, r', (Run.run_append _ es r).trans (by rw [hrun]; exact hrun'), ?_⟩
      rwa [hparsed₁, List.append_assoc] at hnot
    · refine ⟨_, r₁, hrun, fun hprefix => ?_⟩
      rw [hparsed₁, List.prefix_append_right_inj, List.cons_prefix_cons] at hprefix
      have hlen := congrArg List.length hprefix.1
      have hlt := (clampU32 frame.length).toNat_lt
      rw [List.length_take] at hlen
      omega

/-- **Which frames are read back.** -/
theorem faithful_iff (hfits : ∀ frame ∈ frames, Fits maxFrameBytes frame) :
    (∀ tail, Ends maxFrameBytes tail → ∀ es r, Run.run (step maxFrameBytes) es
      { stream := frames.flatMap wire ++ tail } = some r → Faithful maxFrameBytes frames r) ↔
    ∀ frame ∈ frames, frame.length < 2 ^ 32 := by
  constructor
  · intro h
    by_contra hlong
    push Not at hlong
    obtain ⟨es, r, hrun, hnot⟩ := exists_not_prefix hfits hlong
      { stream := frames.flatMap wire } rfl rfl rfl
    rw [← List.append_nil (frames.flatMap wire)] at hrun
    exact hnot (h [] (.inl rfl) es r hrun).parsed
  · intro hsmall tail htail es r hrun
    have hstart : Sound frames tail { stream := frames.flatMap wire ++ tail } :=
      ⟨⟨⟨frames, rfl, rfl⟩, fun _ => rfl, List.drop_nil.symm, nofun⟩, fun _ => Nat.zero_lt_succ 3⟩
    exact (Run.invariant_of_step (fun _ _ _ h => sound_step h hfits hsmall htail) hstart hrun).faithful

theorem faithful_iff_one_byte :
    (∀ frame ∈ [[7]], Fits 1 frame) ∧ ∀ es r, Run.run (step 1) es { stream := wire [7] } = some r →
      Faithful 1 [[7]] r :=
  have hfits : ∀ frame ∈ [[7]], Fits 1 frame := by simp [Fits]
  ⟨hfits, (faithful_iff hfits).2 (by decide) [] (.inl rfl)⟩

/-- A frame of 4 GiB is read without its last byte. -/
theorem long_frame_cut : ∃ es r, Run.run (step (2 ^ 32)) es
    { stream := wire (List.replicate (2 ^ 32) 0) } = some r ∧
      ¬ r.parsed <+: [List.replicate (2 ^ 32) 0] := by
  have hlen : (List.replicate (2 ^ 32) (0 : UInt8)).length = 2 ^ 32 := List.length_replicate
  generalize List.replicate (2 ^ 32) (0 : UInt8) = frame at hlen ⊢
  have hfits : ∀ f ∈ [frame], Fits (2 ^ 32) f := by simp [Fits, hlen]
  exact exists_not_prefix hfits ⟨frame, List.mem_singleton_self _, hlen.ge⟩ { stream := wire frame } rfl
    rfl (List.append_nil _).symm

end Reader

end Squib.NetDevice
