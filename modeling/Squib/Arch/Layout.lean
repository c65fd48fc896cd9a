import Squib.Core.Arith

/-!
# The guest-physical address map
-/

namespace Squib.Layout

def MAX_SUPPORTED_VCPUS : UInt32 := 32

/-! ## Devices -/

def MSI_REGION_BASE : UInt64 := 0x05000000
def GICD_BASE : UInt64 := 0x08000000
def GICR_BASE : UInt64 := 0x080A0000
def PL011_BASE : UInt64 := 0x0E0A0000
def PL011_SIZE : UInt64 := 0x1000
def VIRTIO_MMIO_BASE : UInt64 := 0x0F000000
def VIRTIO_MMIO_STRIDE : UInt64 := 0x1000
def VIRTIO_MMIO_SLOTS : UInt32 := 32

def GICR_REDISTRIBUTOR_SIZE_PER_VCPU : UInt64 := 0x00020000

/-! ## RAM -/

def DRAM_BASE : UInt64 := 0x80000000
def DRAM_MAX_END : UInt64 := 0x00FF80000000 + DRAM_BASE

def KERNEL_LOAD_OFFSET : UInt64 := 0x00200000

def INITRD_FALLBACK_OFFSET : UInt64 := 0x10000000

def FDT_MAX_SIZE : UInt64 := 0x00200000

/-! ## The redistributors -/

inductive LayoutOverlap where
  | ok
  | gicrOverlapsMmio (vcpuCount : UInt32) (liveGicrEnd boundary : UInt64)
  deriving DecidableEq, Repr

def overlapCheck (vcpuCount : UInt32) (redistributorSizePerVcpu : UInt64) : LayoutOverlap :=
  let liveEnd := saturatingAdd64 GICR_BASE
    (saturatingMul64 vcpuCount.toUInt64 redistributorSizePerVcpu)
  if PL011_BASE < liveEnd then .gicrOverlapsMmio vcpuCount liveEnd PL011_BASE else .ok

end Squib.Layout
