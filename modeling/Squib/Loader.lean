import Squib.Arch.Layout
import Squib.Lib.Bytes
import Squib.Lib.Checked
import Squib.Lib.Text

/-!
# Kernel image loader
-/

namespace Squib.Loader

open Bytes Checked Layout

/-! ## Formats and errors -/

def MAGIC_PE : List UInt8 := [0x4D, 0x5A]
def MAGIC_GZ : List UInt8 := [0x1F, 0x8B]
def MAGIC_ZST : List UInt8 := [0x28, 0xB5, 0x2F, 0xFD]

def MAGIC_AARCH64_IMAGE : List UInt8 := [0x41, 0x52, 0x4D, 0x64]

def AARCH64_MAGIC_OFFSET : ℕ := 0x38

def MIN_IMAGE_SIZE : ℕ := 64

def DEFAULT_MAX_COMPRESSED : ℕ := 1024 * 1024 * 1024
def DEFAULT_MAX_DECOMPRESSED : ℕ := 4 * 1024 * 1024 * 1024
def PATH_MAX : ℕ := 1024

structure IoError where
  errno : ℕ
  deriving DecidableEq, Repr

inductive LoaderError where
  | io (e : IoError)
  | imageTooSmall (size : ℕ)
  | unknownFormat
  | missingAarch64Magic
  | compressedTooLarge (size cap : ℕ)
  | decompressedTooLarge (size cap : ℕ)
  | doesNotFitInRam (loadAddr imageSize ramEnd : UInt64)
  | invalidTextOffset (textOffset : UInt64)
  | pathRejected (reason : String)
  deriving DecidableEq, Repr

inductive ImageFormat where
  | aarch64Image
  | pe
  | gzip
  | zstd
  deriving DecidableEq, Repr

structure MaxSizes where
  compressed : ℕ := DEFAULT_MAX_COMPRESSED
  decompressed : ℕ := DEFAULT_MAX_DECOMPRESSED

abbrev Path := List UInt8

structure FileSystem where
  metadata : Path → Except IoError UInt64
  read : Path → Except IoError (List UInt8)

abbrev Reads := ℕ → Except IoError (List UInt8)

structure Decoders where
  gzip : List UInt8 → Reads
  zstd : List UInt8 → Except IoError Reads

/-! ## Reading an image -/

def hasAarch64Magic (bytes : List UInt8) : Bool :=
  (bytes.drop AARCH64_MAGIC_OFFSET).take 4 == MAGIC_AARCH64_IMAGE

def detectFormat (bytes : List UInt8) : Option ImageFormat :=
  if bytes.take 4 = MAGIC_ZST then some .zstd
  else if bytes.take 2 = MAGIC_GZ then some .gzip
  else if bytes.take 2 = MAGIC_PE then some .pe
  else if hasAarch64Magic bytes then some .aarch64Image
  else none

def boundedReadToEnd (reads : Reads) (cap i : ℕ) (out : List UInt8) :
    Except LoaderError (List UInt8) :=
  match reads i with
  | .error e => .error (.io e)
  | .ok chunk =>
    if chunk.length = 0 then .ok out
    else if cap < out.length + chunk.length then
      .error (.decompressedTooLarge (out.length + chunk.length) cap)
    else boundedReadToEnd reads cap (i + 1) (out ++ chunk)
  termination_by cap - out.length
  decreasing_by rw [List.length_append]; omega

def decompressGzip (decoders : Decoders) (bytes : List UInt8) (cap : ℕ) :
    Except LoaderError (List UInt8) :=
  boundedReadToEnd (decoders.gzip bytes) cap 0 []

def decompressZstd (decoders : Decoders) (bytes : List UInt8) (cap : ℕ) :
    Except LoaderError (List UInt8) :=
  match decoders.zstd bytes with
  | .error e => .error (.io e)
  | .ok reads => boundedReadToEnd reads cap 0 []

def readLeU64At (bytes : List UInt8) (offset : ℕ) : Except LoaderError UInt64 :=
  if offset + 8 ≤ bytes.length then .ok (.ofNat (leNat ((bytes.drop offset).take 8)))
  else .error (.imageTooSmall bytes.length)

structure LoadedKernel where
  bytes : List UInt8
  format : ImageFormat
  textOffset : UInt64
  imageSize : UInt64
  deriving DecidableEq, Repr

def decompress (decoders : Decoders) (format : ImageFormat) (bytes : List UInt8) (caps : MaxSizes) :
    Except LoaderError (List UInt8) :=
  match format with
  | .aarch64Image | .pe => .ok bytes
  | .gzip => decompressGzip decoders bytes caps.decompressed
  | .zstd => decompressZstd decoders bytes caps.decompressed

def loadFromBytesWithCaps (decoders : Decoders) (bytes : List UInt8) (caps : MaxSizes) :
    Except LoaderError LoadedKernel := do
  rejectIf (caps.compressed < bytes.length) (.compressedTooLarge bytes.length caps.compressed)
  let format ← okOr (detectFormat bytes) .unknownFormat
  let payload ← decompress decoders format bytes caps
  rejectIf (payload.length < MIN_IMAGE_SIZE) (.imageTooSmall payload.length)
  rejectIf (¬ hasAarch64Magic payload) .missingAarch64Magic
  let textOffset ← readLeU64At payload 8
  let imageSize ← readLeU64At payload 16
  return { bytes := payload, format, textOffset, imageSize }

def enforcePathBounds (path : Path) : Except LoaderError Unit := do
  rejectIf (¬ Text.isUtf8 path) (.pathRejected "path is not valid UTF-8")
  rejectIf (path = []) (.pathRejected "path must not be empty")
  rejectIf (PATH_MAX < path.length) (.pathRejected "path exceeds PATH_MAX bytes")
  rejectIf (0 ∈ path) (.pathRejected "path contains a NUL byte")

def loadFromPathWithCaps (fs : FileSystem) (decoders : Decoders) (path : Path) (caps : MaxSizes) :
    Except LoaderError LoadedKernel := do
  enforcePathBounds path
  let len ← (fs.metadata path).mapError .io
  rejectIf (caps.compressed < len.toNat) (.compressedTooLarge len.toNat caps.compressed)
  let bytes ← (fs.read path).mapError .io
  loadFromBytesWithCaps decoders bytes caps

/-! ## Where it goes -/

namespace LoadedKernel

variable (k : LoadedKernel)

def loadAddress : Except LoaderError UInt64 := do
  let raw ← okOr (checkedAdd DRAM_BASE k.textOffset) (.invalidTextOffset k.textOffset)
  return max raw (DRAM_BASE + KERNEL_LOAD_OFFSET)

def imageBytes : UInt64 := if k.imageSize = 0 then .ofNat k.bytes.length else k.imageSize

def checkFitsInRam (ramSizeBytes : UInt64) : Except LoaderError UInt64 := do
  let loadAddr ← k.loadAddress
  let ramEnd ← okOr ((checkedAdd DRAM_BASE ramSizeBytes).filter (· ≤ DRAM_MAX_END))
    (.doesNotFitInRam loadAddr k.imageBytes DRAM_MAX_END)
  let needed := k.imageBytes
  let endAddr ← okOr (checkedAdd loadAddr needed) (.doesNotFitInRam loadAddr needed ramEnd)
  rejectIf (ramEnd < endAddr) (.doesNotFitInRam loadAddr needed ramEnd)
  return loadAddr

end LoadedKernel

section Success

variable {decoders : Decoders} {caps : MaxSizes} {bytes : List UInt8}

theorem boundedReadToEnd_length_le {reads : Reads} {cap i : ℕ} {out : List UInt8}
    (hout : out.length ≤ cap) (h : boundedReadToEnd reads cap i out = .ok bytes) :
    bytes.length ≤ cap := by
  fun_induction boundedReadToEnd reads cap i out with
  | case1 => cases h
  | case2 => cases h; exact hout
  | case3 => cases h
  | case4 i out chunk _ _ hle ih => exact ih (by rw [List.length_append]; omega) h

theorem decompress_length_le {format : ImageFormat} {payload : List UInt8}
    (hlen : bytes.length ≤ caps.compressed)
    (h : decompress decoders format bytes caps = .ok payload) :
    payload.length ≤ max caps.compressed caps.decompressed := by
  have hraw : ∀ {reads : Reads}, boundedReadToEnd reads caps.decompressed 0 [] = .ok payload →
      payload.length ≤ max caps.compressed caps.decompressed := fun h =>
    (boundedReadToEnd_length_le (Nat.zero_le _) h).trans (Nat.le_max_right _ _)
  cases format with
  | aarch64Image | pe => cases h; exact hlen.trans (Nat.le_max_left _ _)
  | gzip => exact hraw h
  | zstd =>
    simp only [decompress, decompressZstd] at h
    split at h
    · cases h
    · exact hraw h

variable {k : LoadedKernel}

theorem loadFromBytesWithCaps_eq_ok (h : loadFromBytesWithCaps decoders bytes caps = .ok k) :
    MIN_IMAGE_SIZE ≤ k.bytes.length ∧ k.bytes.length ≤ max caps.compressed caps.decompressed := by
  simp only [loadFromBytesWithCaps, bind_eq_ok, rejectIf_eq_ok, okOr_eq_ok, pure_eq_ok] at h
  obtain ⟨-, hlen, format, -, payload, hpayload, -, hmin, -, -, -, -, -, -, rfl⟩ := h
  exact ⟨not_lt.1 hmin, decompress_length_le (not_lt.1 hlen) hpayload⟩

theorem loadFromPathWithCaps_eq_ok {fs : FileSystem} {path : Path}
    (h : loadFromPathWithCaps fs decoders path caps = .ok k) :
    MIN_IMAGE_SIZE ≤ k.bytes.length ∧ k.bytes.length ≤ max caps.compressed caps.decompressed := by
  simp only [loadFromPathWithCaps, bind_eq_ok] at h
  obtain ⟨-, -, len, -, -, -, bytes, -, hload⟩ := h
  exact loadFromBytesWithCaps_eq_ok hload

end Success

namespace LoadedKernel

variable {k : LoadedKernel}

def loadAddr (k : LoadedKernel) : ℕ :=
  max (DRAM_BASE.toNat + k.textOffset.toNat) (DRAM_BASE.toNat + KERNEL_LOAD_OFFSET.toNat)

variable {a : UInt64}

theorem loadAddress_eq_ok (h : k.loadAddress = .ok a) : a.toNat = k.loadAddr := by
  simp only [loadAddress, bind_eq_ok, okOr_eq_ok, checkedAdd_eq_some, pure_eq_ok] at h
  obtain ⟨raw, ⟨hlt, rfl⟩, rfl⟩ := h
  rw [loadAddr, ← toNat_add_of_lt hlt]
  exact UInt64.toNat_max _ _

theorem checkFitsInRam_eq_ok {ram : UInt64} (h : k.checkFitsInRam ram = .ok a) :
    a.toNat = k.loadAddr ∧ DRAM_BASE.toNat + ram.toNat ≤ DRAM_MAX_END.toNat ∧
      k.loadAddr + k.imageBytes.toNat ≤ DRAM_BASE.toNat + ram.toNat := by
  simp only [checkFitsInRam, bind_eq_ok, okOr_eq_ok, Option.filter_eq_some_iff, rejectIf_eq_ok,
    checkedAdd_eq_some, pure_eq_ok, decide_eq_true_eq] at h
  obtain ⟨a, ha, ramEnd, ⟨⟨hram, rfl⟩, hmax⟩, endAddr, ⟨hend, rfl⟩, -, hfits, rfl⟩ := h
  have haddr := loadAddress_eq_ok ha
  rw [UInt64.le_iff_toNat_le, toNat_add_of_lt hram] at hmax
  rw [UInt64.lt_iff_toNat_lt, toNat_add_of_lt hram, toNat_add_of_lt hend, haddr] at hfits
  exact ⟨haddr, hmax, not_lt.1 hfits⟩

end LoadedKernel

end Squib.Loader
