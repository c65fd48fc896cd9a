import Mathlib.Order.Lattice
import Squib.Core.Memory
import Squib.Fdt
import Squib.Lib.Bits
import Squib.Loader

/-!
# Planning a boot
-/

namespace Squib.Boot

open Checked Fdt Layout Loader

/-! ## Resources -/

structure VmResources where
  vcpuCount : UInt32
  memSizeMib : UInt64
  kernel : Path
  initrd : Option Path
  bootArgs : List UInt8
  rootPartuuid : Option (List UInt8)
  virtioDevices : List VirtioSlot

def VmResources.memSizeBytes (res : VmResources) : UInt64 :=
  saturatingMul64 res.memSizeMib (1024 * 1024)

inductive BootError where
  | invalidVcpuCount (n : UInt32)
  | ramTooSmall (neededMib actualMib : UInt64)
  | loader (e : LoaderError)
  | fdt (e : FdtError)
  | fdtTooLarge (len : ℕ)
  | hvf (msg : String)
  | layoutOverlap (vcpuCount : UInt32) (liveGicrEnd boundary : UInt64)
  | initrdNoFit (size kernelEnd fdtBase : UInt64)
  | io (e : IoError)
  deriving DecidableEq, Repr

/-! ## The hypervisor -/

structure GicSizes where
  distributor : UInt64
  redistributorPerVcpu : UInt64
  deriving DecidableEq, Repr

structure GicConfig where
  distributorBase : UInt64
  redistributorBase : UInt64
  msiRegionBase : UInt64
  msiInterruptRange : UInt32 × UInt32
  deriving DecidableEq, Repr

structure Hvf where
  gicSizes : Except String GicSizes
  spiInterruptRange : Except String (UInt32 × UInt32)
  initWithGic : GicConfig → Except String Unit
  memoryCreate : ℕ → Except String Unit
  map : UInt64 → ℕ → Except String Unit

structure HvfVm where
  vcpuCount : UInt32
  gic : GicConfig
  mappings : List (UInt64 × ℕ)

def MSI_INTID_RESERVE : UInt32 := 64

def initVm (hvf : Hvf) (vcpuCount : UInt32) (redistributorSizePerVcpu : UInt64) :
    Except BootError HvfVm := do
  match overlapCheck vcpuCount redistributorSizePerVcpu with
  | .gicrOverlapsMmio n liveEnd boundary => .error (.layoutOverlap n liveEnd boundary)
  | .ok => do
    let (spiBase, spiCount) ← hvf.spiInterruptRange.mapError .hvf
    let msiCount := min spiCount MSI_INTID_RESERVE
    let gic := {
      distributorBase := GICD_BASE
      redistributorBase := GICR_BASE
      msiRegionBase := MSI_REGION_BASE
      msiInterruptRange := (spiBase + spiCount - msiCount, msiCount) }
    (hvf.initWithGic gic).mapError .hvf
    return { vcpuCount, gic, mappings := [] }

def HvfVm.mapMemory (vm : HvfVm) (hvf : Hvf) (guestAddr : UInt64) (size : ℕ) :
    Except BootError HvfVm := do
  (hvf.memoryCreate size).mapError .hvf
  (hvf.map guestAddr size).mapError .hvf
  return { vm with mappings := vm.mappings ++ [(guestAddr, size)] }

def initHvfPath (hvf : Hvf) (res : VmResources) (memBytes : UInt64) : Except BootError HvfVm := do
  let sizes ← hvf.gicSizes.mapError .hvf
  let vm ← initVm hvf res.vcpuCount sizes.redistributorPerVcpu
  vm.mapMemory hvf DRAM_BASE memBytes.toNat

/-! ## The plan -/

structure Host where
  fs : FileSystem
  decoders : Decoders
  writer : FdtWriter
  hvf : Option Hvf

def alignUp2mib (addr : UInt64) : UInt64 :=
  saturatingAdd64 addr (2 * 1024 * 1024 - 1) &&& ~~~(2 * 1024 * 1024 - 1)

def planInitrdRange (fs : FileSystem) (path : Path) (memBytes kernelEnd : UInt64) :
    Except BootError InitrdRange := do
  let size ← (fs.metadata path).mapError .io
  let fallback := saturatingAdd64 DRAM_BASE INITRD_FALLBACK_OFFSET
  let alignedAfterKernel := alignUp2mib (saturatingAdd64 kernelEnd (16 * 1024 * 1024))
  let start := max fallback alignedAfterKernel
  let «end» := saturatingAdd64 start size
  let ramEnd := saturatingAdd64 DRAM_BASE memBytes
  let fdtBase := ramEnd - FDT_MAX_SIZE
  rejectIf (fdtBase < «end») (.initrdNoFit size kernelEnd fdtBase)
  return { start, «end» }

structure BootRegs where
  kernelLoadAddr : UInt64
  fdtAddr : UInt64
  deriving DecidableEq, Repr

structure BootArtifacts where
  kernel : LoadedKernel
  kernelLoadAddr : UInt64
  fdt : Blob
  fdtBase : UInt64
  initrdRange : Option InitrdRange
  bootRegs : BootRegs
  effectiveBootArgs : List UInt8
  hvfVm : Option HvfVm

def buildMicrovmForBoot (host : Host) (res : VmResources) : Except BootError BootArtifacts := do
  rejectIf (res.vcpuCount = 0 ∨ MAX_SUPPORTED_VCPUS < res.vcpuCount)
    (.invalidVcpuCount res.vcpuCount)
  let kernel ← (loadFromPathWithCaps host.fs host.decoders res.kernel {}).mapError .loader
  let memBytes := res.memSizeBytes
  let kernelLoadAddr ← (kernel.checkFitsInRam memBytes).mapError .loader
  let kernelEnd := saturatingAdd64 kernelLoadAddr kernel.imageBytes
  let initrdRange ← res.initrd.mapM fun path => planInitrdRange host.fs path memBytes kernelEnd
  let ramEnd := saturatingAdd64 DRAM_BASE memBytes
  let fdtBase := ramEnd - FDT_MAX_SIZE
  initrdRange.forM fun range =>
    rejectIf (fdtBase < range.end) (.initrdNoFit (range.end - range.start) kernelEnd fdtBase)
  let effectiveBootArgs := composeBootArgs res.bootArgs res.rootPartuuid
  let fdt ← (Fdt.build host.writer (.new res.vcpuCount (.dram memBytes) effectiveBootArgs
    initrdRange res.virtioDevices)).mapError .fdt
  rejectIf (FDT_MAX_SIZE.toNat < fdt.bytes.length) (.fdtTooLarge fdt.bytes.length)
  let bootRegs := { kernelLoadAddr, fdtAddr := fdtBase }
  let hvfVm ← host.hvf.mapM fun hvf => initHvfPath hvf res memBytes
  return { kernel, kernelLoadAddr, fdt, fdtBase, initrdRange, bootRegs, effectiveBootArgs, hvfVm }

/-! ## The plan in numbers -/

theorem toNat_alignUp2mib {a : UInt64} (h : a.toNat + 2097151 < 2 ^ 64) :
    (alignUp2mib a).toNat = (a.toNat + 2097151) / 2097152 * 2097152 := by
  have hlow : (2 * 1024 * 1024 - 1 : UInt64).toNat = 2097151 := rfl
  have hmask : (~~~(2 * 1024 * 1024 - 1) : UInt64).toNat = (2 ^ 43 - 1) * 2 ^ 21 := rfl
  rw [alignUp2mib, UInt64.toNat_and, toNat_saturatingAdd64, hmask,
    Nat.min_eq_left (by omega)]
  exact Bits.and_highMask h

def initrdStart (kernelEnd : ℕ) : ℕ :=
  max (DRAM_BASE.toNat + INITRD_FALLBACK_OFFSET.toNat)
    ((kernelEnd + 16 * 1024 * 1024 + 2097151) / 2097152 * 2097152)

theorem le_initrdStart (kernelEnd : ℕ) : kernelEnd ≤ initrdStart kernelEnd := by
  unfold initrdStart
  omega

variable {mem : UInt64}

theorem toNat_ramEnd (h : DRAM_BASE.toNat + mem.toNat ≤ DRAM_MAX_END.toNat) :
    (saturatingAdd64 DRAM_BASE mem).toNat = DRAM_BASE.toNat + mem.toNat := by
  have hmax : DRAM_MAX_END.toNat < 2 ^ 64 := by decide
  rw [toNat_saturatingAdd64, Nat.min_eq_left (by omega)]

theorem toNat_fdtBase (h : DRAM_BASE.toNat + mem.toNat ≤ DRAM_MAX_END.toNat)
    (hmem : FDT_MAX_SIZE.toNat ≤ mem.toNat) :
    (saturatingAdd64 DRAM_BASE mem - FDT_MAX_SIZE).toNat =
      DRAM_BASE.toNat + mem.toNat - FDT_MAX_SIZE.toNat := by
  rw [UInt64.toNat_sub_of_le _ _ (UInt64.le_iff_toNat_le.2 (by rw [toNat_ramEnd h]; omega)),
    toNat_ramEnd h]

theorem planInitrdRange_eq_ok {fs : FileSystem} {path : Path} {kernelEnd : UInt64} {r : InitrdRange}
    (hram : DRAM_BASE.toNat + mem.toNat ≤ DRAM_MAX_END.toNat)
    (hmem : FDT_MAX_SIZE.toNat ≤ mem.toNat) (hend : kernelEnd.toNat ≤ DRAM_MAX_END.toNat)
    (h : planInitrdRange fs path mem kernelEnd = .ok r) :
    ∃ size, fs.metadata path = .ok size ∧ r.start.toNat = initrdStart kernelEnd.toNat ∧
      r.end.toNat = r.start.toNat + size.toNat ∧
      r.end.toNat + FDT_MAX_SIZE.toNat ≤ DRAM_BASE.toNat + mem.toNat := by
  simp only [planInitrdRange, bind_eq_ok, mapError_eq_ok, rejectIf_eq_ok, pure_eq_ok] at h
  obtain ⟨size, hsize, -, hfits, rfl⟩ := h
  have hmax : DRAM_MAX_END.toNat < 2 ^ 63 := by decide
  have hgap : (16 * 1024 * 1024 : UInt64).toNat = 16 * 1024 * 1024 := rfl
  have hafter : (saturatingAdd64 kernelEnd (16 * 1024 * 1024)).toNat =
      kernelEnd.toNat + 16 * 1024 * 1024 := by
    rw [toNat_saturatingAdd64, hgap, Nat.min_eq_left (by omega)]
  have hfallback : (saturatingAdd64 DRAM_BASE INITRD_FALLBACK_OFFSET).toNat =
      DRAM_BASE.toNat + INITRD_FALLBACK_OFFSET.toNat := rfl
  rw [UInt64.not_lt, UInt64.le_iff_toNat_le, toNat_fdtBase hram hmem, toNat_saturatingAdd64]
    at hfits
  refine ⟨size, hsize, ?_, ?_, ?_⟩
  · rw [UInt64.toNat_max, toNat_alignUp2mib (by omega), hafter, hfallback, initrdStart]
  · dsimp only
    rw [toNat_saturatingAdd64]
    omega
  · rw [toNat_saturatingAdd64]
    omega

structure Planned (host : Host) (res : VmResources) (boot : BootArtifacts) : Prop where
  vcpus : res.vcpuCount ≠ 0 ∧ res.vcpuCount ≤ MAX_SUPPORTED_VCPUS
  kernel : loadFromPathWithCaps host.fs host.decoders res.kernel {} = .ok boot.kernel
  loadAddr : boot.kernelLoadAddr.toNat = boot.kernel.loadAddr
  ram : DRAM_BASE.toNat + res.memSizeBytes.toNat ≤ DRAM_MAX_END.toNat
  fits : boot.kernel.loadAddr + boot.kernel.imageBytes.toNat ≤
    DRAM_BASE.toNat + res.memSizeBytes.toNat
  fdtBase : boot.fdtBase.toNat + FDT_MAX_SIZE.toNat = DRAM_BASE.toNat + res.memSizeBytes.toNat
  noInitrd : res.initrd = none → boot.initrdRange = none
  initrd : ∀ path, res.initrd = some path → ∃ r size, boot.initrdRange = some r ∧
    host.fs.metadata path = .ok size ∧
    r.start.toNat = initrdStart (boot.kernel.loadAddr + boot.kernel.imageBytes.toNat) ∧
    r.end.toNat = r.start.toNat + size.toNat ∧ r.end.toNat ≤ boot.fdtBase.toNat
  fdt : Fdt.build host.writer (.new res.vcpuCount (.dram res.memSizeBytes) boot.effectiveBootArgs
    boot.initrdRange res.virtioDevices) = .ok boot.fdt
  fdtLength : boot.fdt.bytes.length ≤ FDT_MAX_SIZE.toNat
  hvf : ∀ hvf, host.hvf = some hvf → ∃ vm, boot.hvfVm = some vm ∧
    initHvfPath hvf res res.memSizeBytes = .ok vm

theorem build_eq_ok {host : Host} {res : VmResources} {boot : BootArtifacts}
    (h : buildMicrovmForBoot host res = .ok boot) : Planned host res boot := by
  simp only [buildMicrovmForBoot, bind_eq_ok, mapError_eq_ok, rejectIf_eq_ok, pure_eq_ok] at h
  obtain ⟨-, hvcpus, k, hk, addr, haddr, range, hrange, -, -, fdt, hfdt, -, hlen, vm, hvm, rfl⟩ := h
  obtain ⟨hload, hram, hfits⟩ := LoadedKernel.checkFitsInRam_eq_ok haddr
  have hmem : FDT_MAX_SIZE.toNat ≤ res.memSizeBytes.toNat := by
    have hband : FDT_MAX_SIZE.toNat = KERNEL_LOAD_OFFSET.toNat := rfl
    have hle : DRAM_BASE.toNat + KERNEL_LOAD_OFFSET.toNat ≤ k.loadAddr := Nat.le_max_right _ _
    omega
  have hbase := toNat_fdtBase hram hmem
  have hend : (saturatingAdd64 addr k.imageBytes).toNat = k.loadAddr + k.imageBytes.toNat := by
    have hmax : DRAM_MAX_END.toNat < 2 ^ 64 := by decide
    rw [toNat_saturatingAdd64, hload, Nat.min_eq_left (by omega)]
  refine
    { vcpus := ?_, kernel := hk, loadAddr := hload, ram := hram, fits := hfits, fdtBase := ?_,
      noInitrd := ?_, initrd := ?_, fdt := hfdt, fdtLength := not_lt.1 hlen, hvf := ?_ }
  · rw [not_or, UInt32.not_lt] at hvcpus
    exact hvcpus
  · dsimp only
    omega
  · intro hnone
    rw [hnone] at hrange
    cases hrange
    rfl
  · intro path hpath
    rw [hpath, mapM_some_eq_ok] at hrange
    obtain ⟨r, hr, rfl⟩ := hrange
    obtain ⟨size, hsize, hstart, hstop, hbelow⟩ :=
      planInitrdRange_eq_ok hram hmem (by omega) hr
    refine ⟨r, size, rfl, hsize, hstart.trans (congrArg _ hend), hstop, ?_⟩
    dsimp only
    omega
  · intro hvf hsome
    rw [hsome, mapM_some_eq_ok] at hvm
    obtain ⟨vm', hvm', rfl⟩ := hvm
    exact ⟨vm', rfl, hvm'⟩

/-! ## What is written -/

namespace BootArtifacts

variable (boot : BootArtifacts)

def kernelWrite : UInt64 × ℕ := (boot.kernelLoadAddr, boot.kernel.bytes.length)

def fdtWrite : UInt64 × ℕ := (boot.fdtBase, FDT_MAX_SIZE.toNat)

def laterWrites : List (UInt64 × ℕ) :=
  (boot.initrdRange.toList.map fun r => (r.start, (r.end - r.start).toNat)) ++ [boot.fdtWrite]

def writes : List (UInt64 × ℕ) := boot.kernelWrite :: boot.laterWrites

end BootArtifacts

def Apart (x y : UInt64 × ℕ) : Prop :=
  ∀ a, GuestMemory.Span x.1 x.2 a → ¬ GuestMemory.Span y.1 y.2 a

structure WritesApart (res : VmResources) (boot : BootArtifacts) : Prop where
  inRam : ∀ x ∈ boot.writes, ∀ a, GuestMemory.Span x.1 x.2 a →
    GuestMemory.Span DRAM_BASE res.memSizeBytes.toNat a
  apart : boot.writes.Pairwise Apart

def initrdSize (host : Host) (res : VmResources) : ℕ :=
  (res.initrd.bind fun path => (host.fs.metadata path).toOption).elim 0 UInt64.toNat

def LoadsApart (host : Host) (res : VmResources) (k : LoadedKernel) : Prop :=
  k.loadAddr + k.bytes.length + FDT_MAX_SIZE.toNat ≤
      DRAM_BASE.toNat + res.memSizeBytes.toNat ∧
    (0 < initrdSize host res →
      k.loadAddr + k.bytes.length ≤ initrdStart (k.loadAddr + k.imageBytes.toNat))

instance (host : Host) (res : VmResources) (k : LoadedKernel) :
    Decidable (LoadsApart host res k) := by
  unfold LoadsApart
  infer_instance

section Ranges

variable {x y : UInt64 × ℕ}

theorem apart_of_le (h : x.1.toNat + x.2 ≤ y.1.toNat) : Apart x y := by
  intro a hx hy
  have := hx.2.1
  have := hy.1
  omega

theorem apart_iff (hx : 0 < x.2) (hy : 0 < y.2) (hlt : x.1.toNat < y.1.toNat + y.2) :
    Apart x y ↔ x.1.toNat + x.2 ≤ y.1.toNat := by
  refine ⟨fun h => ?_, apart_of_le⟩
  by_contra hle
  -- The larger of the two starts is in both ranges.
  have hx64 := x.1.toNat_lt
  have hy64 := y.1.toNat_lt
  refine h (max x.1.toNat y.1.toNat) ⟨?_, ?_, ?_⟩ ⟨?_, ?_, ?_⟩ <;> omega

theorem apart_empty_right (h : y.2 = 0) : Apart x y := by
  intro a _ hy
  have := hy.1
  have := hy.2.1
  omega

end Ranges

namespace Planned

variable {host : Host} {res : VmResources} {boot : BootArtifacts}

theorem length_pos (h : Planned host res boot) : 0 < boot.kernel.bytes.length :=
  (by decide : 0 < MIN_IMAGE_SIZE).trans_le (loadFromPathWithCaps_eq_ok h.kernel).1

theorem imageBytes_pos (h : Planned host res boot) : 0 < boot.kernel.imageBytes.toNat := by
  obtain ⟨hmin, hmax⟩ := loadFromPathWithCaps_eq_ok h.kernel
  have hcaps : max (MaxSizes.compressed {}) (MaxSizes.decompressed {}) < 2 ^ 64 := by decide
  unfold LoadedKernel.imageBytes
  split_ifs with hzero
  · have hpos := h.length_pos
    rw [UInt64.toNat_ofNat', Nat.mod_eq_of_lt (hmax.trans_lt hcaps)]
    exact hpos
  · exact Nat.pos_of_ne_zero fun h0 => hzero (UInt64.toNat_inj.1 h0)

theorem initrdRange (h : Planned host res boot) : boot.initrdRange = none ∧ initrdSize host res = 0 ∨
    ∃ r, boot.initrdRange = some r ∧
      r.start.toNat = initrdStart (boot.kernel.loadAddr + boot.kernel.imageBytes.toNat) ∧
      (r.end - r.start).toNat = initrdSize host res ∧
      r.start.toNat + initrdSize host res ≤ boot.fdtBase.toNat := by
  cases hpath : res.initrd with
  | none => exact .inl ⟨h.noInitrd hpath, by simp [initrdSize, hpath]⟩
  | some path =>
    obtain ⟨r, size, hr, hsize, hstart, hstop, hbelow⟩ := h.initrd path hpath
    have hsize' : initrdSize host res = size.toNat := by
      simp [initrdSize, hpath, hsize, Except.toOption]
    have hsub : (r.end - r.start).toNat = size.toNat := by
      rw [UInt64.toNat_sub_of_le _ _ (UInt64.le_iff_toNat_le.2 (by omega))]
      omega
    exact .inr ⟨r, hr, hstart, hsub.trans hsize'.symm, by omega⟩

theorem apart_fdt_iff (h : Planned host res boot) : Apart boot.kernelWrite boot.fdtWrite ↔
    boot.kernel.loadAddr + boot.kernel.bytes.length + FDT_MAX_SIZE.toNat ≤
      DRAM_BASE.toNat + res.memSizeBytes.toNat := by
  have hpos := h.imageBytes_pos
  have hfits := h.fits
  have hbase := h.fdtBase
  have hload := h.loadAddr
  have hband : 0 < FDT_MAX_SIZE.toNat := by decide
  have hlt : boot.kernelWrite.1.toNat < boot.fdtWrite.1.toNat + boot.fdtWrite.2 := by
    dsimp only [BootArtifacts.kernelWrite, BootArtifacts.fdtWrite]
    omega
  rw [apart_iff h.length_pos hband hlt]
  dsimp only [BootArtifacts.kernelWrite, BootArtifacts.fdtWrite]
  omega

theorem apart_initrd_iff {r : InitrdRange} {size : ℕ} (h : Planned host res boot)
    (hstart : r.start.toNat = initrdStart (boot.kernel.loadAddr + boot.kernel.imageBytes.toNat)) :
    Apart boot.kernelWrite (r.start, size) ↔
      (0 < size → boot.kernel.loadAddr + boot.kernel.bytes.length ≤
        initrdStart (boot.kernel.loadAddr + boot.kernel.imageBytes.toNat)) := by
  have hload := h.loadAddr
  have hle := le_initrdStart (boot.kernel.loadAddr + boot.kernel.imageBytes.toNat)
  by_cases hsize : 0 < size
  · rw [apart_iff h.length_pos hsize (by dsimp only [BootArtifacts.kernelWrite]; omega)]
    dsimp only [BootArtifacts.kernelWrite]
    rw [hload, hstart]
    exact ⟨fun hend _ => hend, fun hend => hend hsize⟩
  · exact ⟨fun _ hpos => absurd hpos hsize, fun _ => apart_empty_right (by omega)⟩

theorem kernel_apart_iff (h : Planned host res boot) :
    (∀ y ∈ boot.laterWrites, Apart boot.kernelWrite y) ↔ LoadsApart host res boot.kernel := by
  unfold LoadsApart
  rw [← h.apart_fdt_iff]
  rcases h.initrdRange with ⟨hnone, hsize⟩ | ⟨r, hr, hstart, hlen, -⟩
  · simp [BootArtifacts.laterWrites, hnone, hsize]
  · rw [← h.apart_initrd_iff hstart]
    simp [BootArtifacts.laterWrites, hr, hlen, and_comm]

theorem le_loadAddr (k : LoadedKernel) :
    DRAM_BASE.toNat + FDT_MAX_SIZE.toNat ≤ k.loadAddr := Nat.le_max_right _ _

theorem laterWrites_apart (h : Planned host res boot) : boot.laterWrites.Pairwise Apart := by
  rcases h.initrdRange with ⟨hnone, -⟩ | ⟨r, hr, -, hlen, hbelow⟩
  · simp [BootArtifacts.laterWrites, hnone]
  · have hapart : Apart (r.start, initrdSize host res) boot.fdtWrite := apart_of_le hbelow
    simpa [BootArtifacts.laterWrites, hr, hlen] using hapart

theorem laterWrites_inRam (h : Planned host res boot) : ∀ y ∈ boot.laterWrites,
    DRAM_BASE.toNat ≤ y.1.toNat ∧ y.1.toNat + y.2 ≤ DRAM_BASE.toNat + res.memSizeBytes.toNat := by
  have hload := le_loadAddr boot.kernel
  have hfits := h.fits
  have hbase := h.fdtBase
  have hfdt : DRAM_BASE.toNat ≤ boot.fdtBase.toNat ∧ boot.fdtBase.toNat + FDT_MAX_SIZE.toNat ≤
      DRAM_BASE.toNat + res.memSizeBytes.toNat := by omega
  rcases h.initrdRange with ⟨hnone, -⟩ | ⟨r, hr, hstart, hlen, hbelow⟩
  · simpa [BootArtifacts.laterWrites, BootArtifacts.fdtWrite, hnone] using hfdt
  · have hle := le_initrdStart (boot.kernel.loadAddr + boot.kernel.imageBytes.toNat)
    have hinitrd : DRAM_BASE.toNat ≤ r.start.toNat ∧ r.start.toNat + initrdSize host res ≤
        DRAM_BASE.toNat + res.memSizeBytes.toNat := by omega
    simpa [BootArtifacts.laterWrites, hr, hlen] using ⟨hinitrd, hfdt⟩

theorem writesApart_iff (h : Planned host res boot) :
    WritesApart res boot ↔ LoadsApart host res boot.kernel := by
  rw [← h.kernel_apart_iff]
  refine ⟨fun hw => (List.pairwise_cons.1 hw.apart).1, fun hapart => ⟨?_, ?_⟩⟩
  · have hend := (h.kernel_apart_iff.1 hapart).1
    have hload := h.loadAddr
    have hlow := le_loadAddr boot.kernel
    have hbounds : ∀ x ∈ boot.writes, DRAM_BASE.toNat ≤ x.1.toNat ∧
        x.1.toNat + x.2 ≤ DRAM_BASE.toNat + res.memSizeBytes.toNat := by
      refine List.forall_mem_cons.2 ⟨?_, h.laterWrites_inRam⟩
      dsimp only [BootArtifacts.kernelWrite]
      omega
    intro x hx a ha
    obtain ⟨hlo, hhi⟩ := hbounds x hx
    exact ⟨hlo.trans ha.1, ha.2.1.trans_le hhi, ha.2.2⟩
  · exact List.pairwise_cons.2 ⟨hapart, h.laterWrites_apart⟩

end Planned

/-- **What is written lies in RAM and is disjoint exactly if the bytes of the image end below the
device tree and the initrd.** -/
theorem writes_apart_iff {host : Host} {res : VmResources} {boot : BootArtifacts} {k : LoadedKernel}
    (hk : loadFromPathWithCaps host.fs host.decoders res.kernel {} = .ok k)
    (h : buildMicrovmForBoot host res = .ok boot) :
    WritesApart res boot ↔ LoadsApart host res k := by
  have hplan := build_eq_ok h
  have hkernel : boot.kernel = k := Except.ok.inj (hplan.kernel.symm.trans hk)
  rw [← hkernel]
  exact hplan.writesApart_iff

section Scenario

def headerOnly : List UInt8 := List.replicate 56 0 ++ MAGIC_AARCH64_IMAGE ++ List.replicate 4 0

def appleSilicon : Hvf where
  gicSizes := .ok ⟨0x10000, 0x20000⟩
  spiInterruptRange := .ok (32, 988)
  initWithGic _ := .ok ()
  memoryCreate _ := .ok ()
  map _ _ := .ok ()

def headerHost : Host where
  fs := { metadata _ := .ok 64, read _ := .ok headerOnly }
  decoders := { gzip _ _ := .error ⟨5⟩, zstd _ := .error ⟨5⟩ }
  writer := { finish _ := .ok [0xD0, 0x0D, 0xFE, 0xED] }
  hvf := some appleSilicon

def plainResources (memSizeMib : UInt64) : VmResources where
  vcpuCount := 1
  memSizeMib := memSizeMib
  kernel := Text.bytes "/boot/Image"
  initrd := none
  bootArgs := []
  rootPartuuid := none
  virtioDevices := []

theorem headerOnly_loads : loadFromPathWithCaps headerHost.fs headerHost.decoders
    (Text.bytes "/boot/Image") {} = .ok ⟨headerOnly, .aarch64Image, 0, 0⟩ := by
  decide +kernel

/-- In 8 MiB of RAM the image and the device tree have room. -/
theorem writes_apart_in_8_mib : ∃ boot, buildMicrovmForBoot headerHost (plainResources 8) = .ok boot ∧
    WritesApart (plainResources 8) boot := by
  have hbuild : Returns (buildMicrovmForBoot headerHost (plainResources 8)) fun _ => True := by
    decide +kernel
  obtain ⟨boot, hboot, -⟩ := hbuild
  exact ⟨boot, hboot, (writes_apart_iff headerOnly_loads hboot).2 (by decide +kernel)⟩

/-- **In 4 MiB of RAM the device tree is written over the image.** -/
theorem writes_overlap_in_4_mib :
    ∃ boot, buildMicrovmForBoot headerHost (plainResources 4) = .ok boot ∧
      ¬ WritesApart (plainResources 4) boot := by
  have hbuild : Returns (buildMicrovmForBoot headerHost (plainResources 4)) fun _ => True := by
    decide +kernel
  obtain ⟨boot, hboot, -⟩ := hbuild
  have hplan := build_eq_ok hboot
  have hkernel := Except.ok.inj (hplan.kernel.symm.trans headerOnly_loads)
  refine ⟨boot, hboot, fun hapart => ?_⟩
  have hloads := hplan.writesApart_iff.1 hapart
  rw [hkernel] at hloads
  exact absurd hloads (by decide +kernel)

end Scenario

/-! ## What the guest finds -/

def writeToFirstRegion (mem : GuestMemory) (offset : UInt64) (bytes : List UInt8) :
    Except String GuestMemory :=
  (mem.write (DRAM_BASE + offset) bytes).mapError fun _ => "write escapes the region"

def stage (what place : String) (addr : UInt64) (bytes : List UInt8) (mem : GuestMemory) :
    Except String GuestMemory := do
  let offset ← okOr (checkedSub addr DRAM_BASE) (place ++ " below DRAM_BASE")
  (writeToFirstRegion mem offset bytes).mapError (("write " ++ what ++ ": ") ++ ·)

def stageInitrd (range : Option InitrdRange) (initrdBytes : Option (List UInt8))
    (mem : GuestMemory) : Except String GuestMemory :=
  match range, initrdBytes with
  | some range, some bytes => stage "initrd" "initrd start" range.start bytes mem
  | _, _ => .ok mem

def writeKernelToGuest (mem : GuestMemory) (boot : BootArtifacts)
    (initrdBytes : Option (List UInt8)) : Except String GuestMemory := do
  let mem ← stage "kernel" "kernel_load_addr" boot.kernelLoadAddr boot.kernel.bytes mem
  let mem ← stageInitrd boot.initrdRange initrdBytes mem
  stage "fdt" "fdt_base" boot.fdtBase boot.fdt.bytes mem

def MapsRam (mem : GuestMemory) (size : ℕ) : Prop :=
  ∀ (addr : UInt64) (len : ℕ), DRAM_BASE.toNat ≤ addr.toNat →
    addr.toNat + len ≤ DRAM_BASE.toNat + size → mem.contains addr len = true

section Staging

variable {mem mem' : GuestMemory} {size : ℕ}

theorem MapsRam.congr (h : MapsRam mem size) (hr : mem'.regions = mem.regions) :
    MapsRam mem' size := fun addr len hlo hhi =>
  (GuestMemory.contains_congr hr addr len).trans (h addr len hlo hhi)

theorem stage_eq_ok (h : MapsRam mem size) (what place : String) {addr : UInt64}
    (bytes : List UInt8) (hlo : DRAM_BASE.toNat ≤ addr.toNat)
    (hhi : addr.toNat + bytes.length ≤ DRAM_BASE.toNat + size) :
    ∃ mem', stage what place addr bytes mem = .ok mem' ∧
      GuestMemory.SameOutside (GuestMemory.Span addr bytes.length) mem mem' ∧
      mem'.read addr bytes.length = .ok bytes := by
  have hsub : checkedSub addr DRAM_BASE = some (addr - DRAM_BASE) :=
    if_pos (UInt64.le_iff_toNat_le.2 hlo)
  have haddr : DRAM_BASE + (addr - DRAM_BASE) = addr := by
    rw [UInt64.add_comm, UInt64.sub_add_cancel]
  have hwrite : mem.write addr bytes =
      .ok { mem with byte := Bytes.store mem.byte addr.toNat bytes } :=
    if_pos (h addr bytes.length hlo hhi)
  refine ⟨_, ?_, GuestMemory.sameOutside_write hwrite, GuestMemory.read_of_write hwrite⟩
  simp only [stage, writeToFirstRegion, bind_eq_ok, okOr_eq_ok, mapError_eq_ok]
  exact ⟨_, hsub, by rw [haddr]; exact hwrite⟩

theorem read_kept {x y : UInt64 × ℕ} {n : ℕ} (hapart : Apart x y) (hn : n ≤ y.2)
    (hs : GuestMemory.SameOutside (GuestMemory.Span y.1 n) mem mem') :
    mem'.read x.1 x.2 = mem.read x.1 x.2 :=
  GuestMemory.read_congr hs.regions fun a hx => hs.byte a fun hy =>
    hapart a hx ⟨hy.1, hy.2.1.trans_le (Nat.add_le_add_left hn _), hy.2.2⟩

variable {host : Host} {res : VmResources} {boot : BootArtifacts}
  {initrdBytes : Option (List UInt8)}

theorem stageInitrd_eq_ok (h : Planned host res boot) (hw : WritesApart res boot)
    (hram : MapsRam mem res.memSizeBytes.toNat)
    (hkernel : mem.read boot.kernelLoadAddr boot.kernel.bytes.length = .ok boot.kernel.bytes)
    (hinitrd : ∀ bytes, initrdBytes = some bytes → bytes.length = initrdSize host res) :
    ∃ mem', stageInitrd boot.initrdRange initrdBytes mem = .ok mem' ∧
      mem'.regions = mem.regions ∧
      mem'.read boot.kernelLoadAddr boot.kernel.bytes.length = .ok boot.kernel.bytes ∧
      ∀ r bytes, boot.initrdRange = some r → initrdBytes = some bytes →
        mem'.read r.start bytes.length = .ok bytes ∧
          Apart (r.start, bytes.length) boot.fdtWrite := by
  obtain ⟨hkernelApart, hlaterApart⟩ := List.pairwise_cons.1 hw.apart
  cases hbytes : initrdBytes with
  | none => exact ⟨mem, by cases boot.initrdRange <;> rfl, rfl, hkernel, by simp⟩
  | some bytes =>
    rcases h.initrdRange with ⟨hnone, -⟩ | ⟨r, hr, -, hlen, -⟩
    · rw [hnone]
      exact ⟨mem, rfl, rfl, hkernel, by simp⟩
    have hwrites : boot.laterWrites = [(r.start, bytes.length), boot.fdtWrite] := by
      simp [BootArtifacts.laterWrites, hr, hlen, hinitrd bytes hbytes]
    have hlater := h.laterWrites_inRam
    rw [hwrites] at hlater hkernelApart hlaterApart
    obtain ⟨hlo, hhi⟩ := hlater _ List.mem_cons_self
    obtain ⟨mem', hstage, hsame, hread⟩ := stage_eq_ok hram "initrd" "initrd start" bytes hlo hhi
    refine ⟨mem', by rw [hr]; exact hstage, hsame.regions, ?_, ?_⟩
    · rw [← hkernel]
      exact read_kept (hkernelApart _ List.mem_cons_self) le_rfl hsame
    · intro r' bytes' hr' hbytes'
      cases hr.symm.trans hr'
      cases hbytes'
      exact ⟨hread, (List.pairwise_cons.1 hlaterApart).1 _ List.mem_cons_self⟩

/-- **The guest finds the kernel, the initrd and the device tree where the plan puts them.** -/
theorem staged (hboot : buildMicrovmForBoot host res = .ok boot)
    (hloads : LoadsApart host res boot.kernel) (hram : MapsRam mem res.memSizeBytes.toNat)
    (hinitrd : ∀ bytes, initrdBytes = some bytes → bytes.length = initrdSize host res) :
    ∃ mem', writeKernelToGuest mem boot initrdBytes = .ok mem' ∧
      mem'.read boot.kernelLoadAddr boot.kernel.bytes.length = .ok boot.kernel.bytes ∧
      mem'.read boot.fdtBase boot.fdt.bytes.length = .ok boot.fdt.bytes ∧
      ∀ r bytes, boot.initrdRange = some r → initrdBytes = some bytes →
        mem'.read r.start bytes.length = .ok bytes := by
  have h := build_eq_ok hboot
  have hw := h.writesApart_iff.2 hloads
  have hload := h.loadAddr
  have hlow := Planned.le_loadAddr boot.kernel
  have hend := hloads.1
  have hlen := h.fdtLength
  have hfdt : boot.fdtWrite ∈ boot.laterWrites := List.mem_append_right _ List.mem_cons_self
  obtain ⟨hlo, hhi⟩ := h.laterWrites_inRam _ hfdt
  obtain ⟨mem₁, hstage₁, hsame₁, hread₁⟩ := stage_eq_ok hram "kernel" "kernel_load_addr"
    boot.kernel.bytes (show DRAM_BASE.toNat ≤ boot.kernelLoadAddr.toNat by omega) (by omega)
  obtain ⟨mem₂, hstage₂, hregions, hkernel, hinitrd₂⟩ :=
    stageInitrd_eq_ok h hw (hram.congr hsame₁.regions) hread₁ hinitrd
  obtain ⟨mem₃, hstage₃, hsame₃, hread₃⟩ := stage_eq_ok
    ((hram.congr hsame₁.regions).congr hregions) "fdt" "fdt_base" boot.fdt.bytes hlo
    ((Nat.add_le_add_left hlen _).trans hhi)
  refine ⟨mem₃, ?_, ?_, hread₃, fun r bytes hr hbytes => ?_⟩
  · simp only [writeKernelToGuest, bind_eq_ok]
    exact ⟨mem₁, hstage₁, mem₂, hstage₂, hstage₃⟩
  · rw [← hkernel]
    exact read_kept (x := boot.kernelWrite) ((List.pairwise_cons.1 hw.apart).1 _ hfdt) hlen hsame₃
  · obtain ⟨hread, hapart⟩ := hinitrd₂ r bytes hr hbytes
    rw [← hread]
    exact read_kept hapart hlen hsame₃

end Staging

theorem staged_in_8_mib : ∃ boot mem', buildMicrovmForBoot headerHost (plainResources 8) = .ok boot ∧
    GuestMemory.read mem' boot.kernelLoadAddr boot.kernel.bytes.length = .ok boot.kernel.bytes := by
  have hbuild : Returns (buildMicrovmForBoot headerHost (plainResources 8)) fun boot =>
      LoadsApart headerHost (plainResources 8) boot.kernel := by decide +kernel
  obtain ⟨boot, hboot, hloads⟩ := hbuild
  have hram : MapsRam ⟨[⟨DRAM_BASE, 0x800000, by decide⟩], fun _ => 0⟩ 0x800000 :=
    fun addr len hlo hhi => by simpa [GuestMemory.contains] using ⟨hlo, hhi⟩
  obtain ⟨mem', -, hread, -⟩ := @staged _ _ _ boot none hboot hloads hram (by simp)
  exact ⟨boot, mem', hboot, hread⟩

end Squib.Boot
