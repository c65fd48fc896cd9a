import Squib.Snapshot.Envelope

/-!
# What the CRC of a state file guards

The polynomial of the CRC-64 has a constant term, which is the highest bit of the reflected form.
-/

namespace Squib.Snapshot

open Bytes Fs

variable {Data : Type}

def Envelope.saveVec (codec : Codec Data) (s : Envelope Data) : Except SnapshotError (List UInt8) :=
  match codec.serialize s with
  | .error message => .error (.bitcode message)
  | .ok encoded => .ok (Envelope.withCrc codec encoded)

structure Holds (codec : Codec Data) (buf : List UInt8) (s : Envelope Data) : Prop where
  long : 8 ≤ buf.length
  short : buf.length ≤ SNAPSHOT_DESERIALIZATION_BYTES_LIMIT
  trailer : buf.drop (buf.length - 8) =
    leBytes 8 (Crc.crc codec.poly 0#64 (buf.take (buf.length - 8))).toNat
  decoded : codec.deserialize (buf.take (buf.length - 8)) = .ok s
  magic : s.header.magic = SNAPSHOT_MAGIC_AARCH64
  major : s.header.version.major = SNAPSHOT_VERSION.major
  minor : s.header.version.minor ≤ SNAPSHOT_VERSION.minor

section Load

variable {codec : Codec Data} {buf : List UInt8} {s : Envelope Data}

theorem crc_eq_zero_iff_trailer (hpoly : codec.poly.getLsbD 63 = true) (hlen : 8 ≤ buf.length) :
    Crc.crc codec.poly 0#64 buf = 0#64 ↔ buf.drop (buf.length - 8) =
      leBytes 8 (Crc.crc codec.poly 0#64 (buf.take (buf.length - 8))).toNat := by
  have height : (buf.drop (buf.length - 8)).length = 8 := by
    rw [List.length_drop]
    omega
  conv_lhs => rw [← List.take_append_drop (buf.length - 8) buf, Crc.crc_append]
  rw [Crc.crc_eq_zero_iff hpoly (by rw [height]), height]

theorem loadWithoutCrcCheck_eq_ok_iff {dataBuf : List UInt8} :
    Envelope.loadWithoutCrcCheck codec dataBuf = .ok s ↔
      dataBuf.length ≤ SNAPSHOT_DESERIALIZATION_BYTES_LIMIT ∧ codec.deserialize dataBuf = .ok s ∧
        s.header.magic = SNAPSHOT_MAGIC_AARCH64 ∧
        s.header.version.major = SNAPSHOT_VERSION.major ∧
        s.header.version.minor ≤ SNAPSHOT_VERSION.minor := by
  unfold Envelope.loadWithoutCrcCheck
  by_cases hlen : SNAPSHOT_DESERIALIZATION_BYTES_LIMIT < dataBuf.length
  · rw [if_pos hlen]
    exact iff_of_false (fun h => by cases h) fun h => absurd h.1 (Nat.not_le.2 hlen)
  rw [if_neg hlen]
  cases hdecoded : codec.deserialize dataBuf with
  | error message => exact iff_of_false (fun h => by cases h) fun h => by cases h.2.1
  | ok snapshot =>
    dsimp only
    split_ifs with hmagic hversion
    · refine iff_of_false (fun h => by cases h) fun ⟨_, h, hm, _⟩ => ?_
      cases h
      exact hmagic hm
    · refine iff_of_false (fun h => by cases h) fun ⟨_, h, _, hmajor, hminor⟩ => ?_
      cases h
      rcases hversion with h | h
      · exact h hmajor
      · exact absurd hminor (Nat.not_le.2 h)
    · obtain ⟨hmajor, hminor⟩ := not_or.1 hversion
      constructor
      · rintro h
        cases h
        exact ⟨Nat.not_lt.1 hlen, rfl, not_not.1 hmagic, not_not.1 hmajor, Nat.not_lt.1 hminor⟩
      · rintro ⟨-, h, -⟩
        cases h
        rfl

theorem loadFromSlice_eq_ok_iff (hpoly : codec.poly.getLsbD 63 = true) :
    Envelope.loadFromSlice codec buf = .ok s ↔ Holds codec buf s := by
  unfold Envelope.loadFromSlice
  by_cases hlong : SNAPSHOT_DESERIALIZATION_BYTES_LIMIT < buf.length
  · rw [if_pos hlong]
    exact iff_of_false (fun h => by cases h) fun h => absurd h.short (Nat.not_le.2 hlong)
  rw [if_neg hlong]
  by_cases hshort : buf.length < 8
  · rw [if_pos hshort]
    exact iff_of_false (fun h => by cases h) fun h => absurd h.long (Nat.not_le.2 hshort)
  rw [if_neg hshort]
  have htrailer := @crc_eq_zero_iff_trailer _ codec buf hpoly (Nat.not_lt.1 hshort)
  split_ifs with hcrc
  · exact iff_of_false (fun h => by cases h) fun h => hcrc (htrailer.2 h.trailer)
  · rw [loadWithoutCrcCheck_eq_ok_iff]
    constructor
    · rintro ⟨-, hdecoded, hmagic, hmajor, hminor⟩
      exact ⟨Nat.not_lt.1 hshort, Nat.not_lt.1 hlong, htrailer.1 (not_not.1 hcrc), hdecoded,
        hmagic, hmajor, hminor⟩
    · intro h
      refine ⟨?_, h.decoded, h.magic, h.major, h.minor⟩
      rw [List.length_take]
      exact Nat.le_trans (Nat.min_le_right ..) h.short

theorem crc_ne_of_changed (hpoly : codec.poly.getLsbD 63 = true) {buf' : List UInt8} (i : ℕ)
    (hlen : buf'.length = buf.length) (hbefore : buf'.take i = buf.take i)
    (hafter : buf'.drop (i + 8) = buf.drop (i + 8)) (hne : buf' ≠ buf) :
    Crc.crc codec.poly 0#64 buf' ≠ Crc.crc codec.poly 0#64 buf := by
  have hsplit (l : List UInt8) : l = l.take i ++ (l.drop i).take 8 ++ l.drop (i + 8) := by
    rw [List.append_assoc, ← List.drop_drop, List.take_append_drop, List.take_append_drop]
  have hwindow : (buf'.drop i).take 8 ≠ (buf.drop i).take 8 := by
    intro h
    exact hne (by rw [hsplit buf', hsplit buf, hbefore, hafter, h])
  rw [hsplit buf', hsplit buf, hbefore, hafter]
  refine Crc.crc_burst hpoly _ _ ?_ ?_ hwindow
  · rw [List.length_take, List.length_take, List.length_drop, List.length_drop, hlen]
  · rw [List.length_take]
    omega

end Load

/-- **Exactly the buffers that hold a snapshot load, and a saved buffer that loads does not load after
any change within eight consecutive bytes.** -/
theorem load_exact (codec : Codec Data) (hpoly : codec.poly.getLsbD 63 = true) :
    (∀ buf s, Envelope.loadFromSlice codec buf = .ok s ↔ Holds codec buf s) ∧
      ∀ (s : Envelope Data) buf s', s.saveVec codec = .ok buf → Envelope.loadFromSlice codec buf = .ok s' →
        ∀ buf' i, buf'.length = buf.length → buf'.take i = buf.take i →
          buf'.drop (i + 8) = buf.drop (i + 8) → buf' ≠ buf →
          ∀ s'', Envelope.loadFromSlice codec buf' ≠ .ok s'' := by
  refine ⟨fun buf s => loadFromSlice_eq_ok_iff hpoly, ?_⟩
  intro s buf s' _ hload buf' i hlen hbefore hafter hne s'' hload'
  have hholds := (loadFromSlice_eq_ok_iff hpoly).1 hload
  have hholds' := (loadFromSlice_eq_ok_iff hpoly).1 hload'
  refine crc_ne_of_changed hpoly i hlen hbefore hafter hne ?_
  rw [(crc_eq_zero_iff_trailer hpoly hholds.long).2 hholds.trailer,
    (crc_eq_zero_iff_trailer hpoly hholds'.long).2 hholds'.trailer]

section Scenario

def unitSerialize (s : Envelope Unit) : Except String (List UInt8) :=
  if s = Envelope.new () then .ok [1, 2, 3, 4, 5, 6, 7, 8] else .error "unsupported"

def unitDeserialize (bs : List UInt8) : Except String (Envelope Unit) :=
  if bs = [1, 2, 3, 4, 5, 6, 7, 8] then .ok (Envelope.new ()) else .error "unexpected"

theorem unitDeserialize_unitSerialize {s : Envelope Unit} {bs : List UInt8}
    (h : unitSerialize s = .ok bs) : unitDeserialize bs = .ok s := by
  unfold unitSerialize at h
  split_ifs at h with hs
  cases h
  rw [hs]
  rfl

def ecma182 : BitVec 64 := 0xC96C5795D7870F42#64

def unitCodec : Codec Unit where
  serialize := unitSerialize
  deserialize := unitDeserialize
  deserialize_serialize := unitDeserialize_unitSerialize
  poly := ecma182

def unitBuffer : List UInt8 := Envelope.withCrc unitCodec [1, 2, 3, 4, 5, 6, 7, 8]

/-- The saved buffer loads, and with its fifth byte changed it does not. -/
theorem load_exact_unitBuffer :
    Envelope.loadFromSlice unitCodec unitBuffer = .ok (Envelope.new ()) ∧
      ∀ s, Envelope.loadFromSlice unitCodec (unitBuffer.set 4 0xff) ≠ .ok s := by
  have hpoly : unitCodec.poly.getLsbD 63 = true := by decide
  have hload : Envelope.loadFromSlice unitCodec unitBuffer = .ok (Envelope.new ()) := by
    decide +kernel
  exact ⟨hload, (load_exact unitCodec hpoly).2 (Envelope.new ()) unitBuffer _ rfl hload _ 4
    (by decide +kernel) (by decide +kernel) (by decide +kernel) (by decide +kernel)⟩

end Scenario

end Squib.Snapshot
