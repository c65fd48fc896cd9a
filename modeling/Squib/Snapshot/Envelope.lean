import Squib.Lib.Crc
import Squib.Snapshot.Atomic

/-!
# The envelope of a state file
-/

namespace Squib.Snapshot

open Fs Bytes

def SNAPSHOT_MAGIC_AARCH64 : ℕ := 0x07101984AAAA0000

def SNAPSHOT_VERSION : Version := { major := 5, minor := 0, patch := 0 }

def SNAPSHOT_DESERIALIZATION_BYTES_LIMIT : ℕ := 10000000

def archMagic : ℕ := SNAPSHOT_MAGIC_AARCH64

structure SnapshotHdr where
  magic : ℕ
  version : Version
  deriving DecidableEq, Repr

structure Envelope (Data : Type) where
  header : SnapshotHdr
  data : Data
  deriving DecidableEq, Repr

structure Codec (Data : Type) where
  serialize : Envelope Data → Except String (List UInt8)
  deserialize : List UInt8 → Except String (Envelope Data)
  deserialize_serialize : ∀ {s bs}, serialize s = .ok bs → deserialize bs = .ok s
  poly : BitVec 64

namespace Envelope

variable {Data : Type} (codec : Codec Data)

def new (data : Data) : Envelope Data where
  header := { magic := archMagic, version := SNAPSHOT_VERSION }
  data := data

def withCrc (encoded : List UInt8) : List UInt8 :=
  encoded ++ leBytes 8 (Crc.crc codec.poly 0#64 encoded).toNat

def save (s : Envelope Data) (file : File Path) : Io (File Path) :=
  match codec.serialize s with
  | .error message => throw (.err (.bitcode message))
  | .ok encoded => do
    let file ← writeAll .io file encoded
    writeAll .io file (leBytes 8 (Crc.crc codec.poly 0#64 encoded).toNat)

def loadWithoutCrcCheck (dataBuf : List UInt8) : Except SnapshotError (Envelope Data) :=
  if SNAPSHOT_DESERIALIZATION_BYTES_LIMIT < dataBuf.length then
    .error (.sizeLimitExceeded SNAPSHOT_DESERIALIZATION_BYTES_LIMIT)
  else
    match codec.deserialize dataBuf with
    | .error message => .error (.bitcode message)
    | .ok snapshot =>
      if snapshot.header.magic ≠ archMagic then
        .error (.magicMismatch snapshot.header.magic archMagic)
      else if snapshot.header.version.major ≠ SNAPSHOT_VERSION.major ∨
          SNAPSHOT_VERSION.minor < snapshot.header.version.minor then
        .error (.versionMismatch snapshot.header.version SNAPSHOT_VERSION)
      else .ok snapshot

def loadFromSlice (buf : List UInt8) : Except SnapshotError (Envelope Data) :=
  if SNAPSHOT_DESERIALIZATION_BYTES_LIMIT < buf.length then
    .error (.sizeLimitExceeded SNAPSHOT_DESERIALIZATION_BYTES_LIMIT)
  else if buf.length < 8 then .error .tooShort
  else if Crc.crc codec.poly 0#64 buf ≠ 0#64 then .error .crcMismatch
  else loadWithoutCrcCheck codec (buf.take (buf.length - 8))

def readWithLimit (content : List UInt8) (limit : ℕ) : Except SnapshotError (List UInt8) :=
  let buf := content.take (limit + 1)
  if limit < buf.length then .error (.sizeLimitExceeded limit) else .ok buf

def load (content : List UInt8) : Except SnapshotError (Envelope Data) :=
  match readWithLimit content SNAPSHOT_DESERIALIZATION_BYTES_LIMIT with
  | .error e => .error e
  | .ok buf => loadFromSlice codec buf

end Envelope

section Load

variable {Data : Type} {codec : Codec Data} {data : Data} {encoded : List UInt8}

theorem readWithLimit_eq {content : List UInt8} {limit : ℕ} :
    Envelope.readWithLimit content limit =
      if content.length ≤ limit then .ok content else .error (.sizeLimitExceeded limit) := by
  rw [Envelope.readWithLimit]
  by_cases h : content.length ≤ limit
  · rw [if_pos h, List.take_of_length_le (by omega), if_neg (by omega)]
  · rw [if_neg h, if_pos (by rw [List.length_take]; omega)]

theorem length_withCrc : (Envelope.withCrc codec encoded).length = encoded.length + 8 := by
  rw [Envelope.withCrc, List.length_append, length_leBytes]

theorem crc_withCrc : Crc.crc codec.poly 0#64 (Envelope.withCrc codec encoded) = 0#64 := by
  rw [Envelope.withCrc, Crc.crc_append]
  exact Crc.crc_leBytes codec.poly (BitVec.isLt _)

theorem load_withCrc (h : codec.serialize (Envelope.new data) = .ok encoded) :
    Envelope.load codec (Envelope.withCrc codec encoded) =
      if encoded.length + 8 ≤ SNAPSHOT_DESERIALIZATION_BYTES_LIMIT then .ok (Envelope.new data)
      else .error (.sizeLimitExceeded SNAPSHOT_DESERIALIZATION_BYTES_LIMIT) := by
  rw [Envelope.load, readWithLimit_eq, length_withCrc]
  split_ifs with hlen
  · have hcut : (Envelope.withCrc codec encoded).take (encoded.length + 8 - 8) = encoded := by
      rw [Nat.add_sub_cancel, Envelope.withCrc, List.take_left]
    have hsize : ¬ SNAPSHOT_DESERIALIZATION_BYTES_LIMIT < encoded.length := by omega
    have hheader :
        (Envelope.new data).header = { magic := archMagic, version := SNAPSHOT_VERSION } :=
      rfl
    simp only [Envelope.loadFromSlice, length_withCrc, crc_withCrc, hcut, Nat.not_lt.2 hlen,
      Envelope.loadWithoutCrcCheck, hsize, codec.deserialize_serialize h, hheader]
    simp
  · rfl

end Load

section Save

variable {Data : Type} {codec : Codec Data} {s : Envelope Data} {file file' : File Path}
  {w w' : World}

theorem Envelope.save_eq {encoded : List UInt8} (h : codec.serialize s = .ok encoded) :
    s.save codec file = (do
      let file ← writeAll .io file encoded
      writeAll .io file (leBytes 8 (Crc.crc codec.poly 0#64 encoded).toNat) : Io (File Path)) := by
  rw [Envelope.save, h]

theorem Envelope.writes_save (hfile : w.disk.entry file.name = some file.inode) :
    Writes file.name w (endWorld (s.save codec file w)) := by
  cases hser : codec.serialize s with
  | error message =>
    rw [Envelope.save, hser]
    exact .refl _ w
  | ok encoded =>
    rw [Envelope.save_eq hser]
    have hw := writes_writeAll (e := SnapshotError.io) hfile encoded
    refine endWorld_bind (R := Writes file.name) Writes.trans hw fun file₁ w₁ hwrite => ?_
    rw [hwrite] at hw
    obtain ⟨hname, hinode⟩ := writeAll_file hwrite
    rw [← hname, ← hinode] at hfile
    rw [← hname]
    exact writes_writeAll (by rw [← hfile, ← hw.entry]; rfl) _

theorem Envelope.save_ok {a : AtomicWriter} (hst : a.Staged w []) (hpos : a.file.pos = 0)
    (h : s.save codec a.file w = .ok file' w') :
    ∃ encoded, codec.serialize s = .ok encoded ∧
      { a with file := file' }.Staged w' (Envelope.withCrc codec encoded) := by
  have hw := @Envelope.writes_save _ codec s a.file w hst.file_entry
  rw [h] at hw
  cases hser : codec.serialize s with
  | error message =>
    rw [Envelope.save, hser] at h
    cases h
  | ok encoded =>
    rw [Envelope.save_eq hser] at h
    obtain ⟨file₁, w₁, hwrite, hwrite'⟩ := bind_eq_ok.1 h
    obtain ⟨hname, hinode⟩ := writeAll_file hwrite
    obtain ⟨hname', hinode'⟩ := writeAll_file hwrite'
    obtain ⟨hpos₁, hdata⟩ := writeAll_data (by rw [hst.data, hpos]; exact Nat.le_refl _) hwrite
    rw [hst.data, hpos, show overwrite [] 0 encoded = encoded by simp [overwrite]] at hdata
    rw [← hinode] at hdata
    have hend : file₁.pos = (w₁.disk.data file₁.inode).length := by
      rw [hpos₁, hpos, hdata, Nat.zero_add]
    obtain ⟨-, hdata'⟩ := writeAll_data (Nat.le_of_eq hend) hwrite'
    rw [hend, overwrite_length, hdata] at hdata'
    refine ⟨encoded, rfl, hst.temp, (hname'.trans hname).trans hst.name, ?_, ?_⟩
    · have hsame := hinode'.trans hinode
      exact (congrFun hw.entry _).trans (hst.entry.trans (congrArg some hsame.symm))
    · exact (congrArg w'.disk.data hinode').trans hdata'

theorem Envelope.save_written (h : s.save codec file w = .ok file' w') :
    ∃ es, w'.written = w.written ++ es ∧ ∀ x ∈ es, x.1 = file.name := by
  cases hser : codec.serialize s with
  | error message =>
    rw [Envelope.save, hser] at h
    cases h
  | ok encoded =>
    rw [Envelope.save_eq hser] at h
    obtain ⟨file₁, w₁, hwrite, hwrite'⟩ := bind_eq_ok.1 h
    obtain ⟨es, hes, hname⟩ := writeAll_written hwrite
    obtain ⟨es', hes', hname'⟩ := writeAll_written hwrite'
    refine ⟨es ++ es', by rw [hes', hes, List.append_assoc], fun x hx => ?_⟩
    rcases List.mem_append.1 hx with hx | hx
    · exact hname x hx
    · rw [hname' x hx, (writeAll_file hwrite).1]

end Save

end Squib.Snapshot
