import Squib.Arch.Gic
import Squib.Arch.Layout
import Squib.Arch.Psci
import Squib.Lib.Text

/-!
# The device tree
-/

namespace Squib.Fdt

open Checked Layout

/-! ## The command line -/

def isAsciiWhitespace (b : UInt8) : Bool :=
  b == 0x20 || b == 0x09 || b == 0x0A || b == 0x0C || b == 0x0D

def argKey (token : List UInt8) : List UInt8 := (Text.cutAt 0x3D token).elim token Prod.fst

def keyPresent (args key : List UInt8) : Bool :=
  ((Text.parts isAsciiWhitespace args).filter fun w => !w.isEmpty).any fun w => argKey w == key

def pushArg (buf arg : List UInt8) : List UInt8 := if buf = [] then arg else buf ++ [0x20] ++ arg

def composeBootArgs (userArgs : List UInt8) (rootPartuuid : Option (List UInt8)) : List UInt8 :=
  let trimmed := Text.trim userArgs
  let out := if keyPresent trimmed (Text.bytes "console") then trimmed
    else pushArg trimmed (Text.bytes "console=ttyAMA0")
  let out := if keyPresent trimmed (Text.bytes "panic") then out
    else pushArg out (Text.bytes "panic=1")
  match rootPartuuid with
  | some uuid =>
    if keyPresent trimmed (Text.bytes "root") then out
    else pushArg out (Text.bytes "root=PARTUUID=" ++ uuid)
  | none => out

/-! ## Trees -/

inductive FdtValue where
  | null
  | u32 (v : UInt32)
  | u64 (v : UInt64)
  | string (s : List UInt8)
  | stringList (l : List (List UInt8))
  | arrayU32 (l : List UInt32)
  | arrayU64 (l : List UInt64)
  deriving DecidableEq, Repr

structure FdtNode where
  name : String
  props : List (String × FdtValue)
  children : List FdtNode := []

namespace FdtNode

def prop? (n : FdtNode) (key : String) : Option FdtValue := n.props.lookup key

def interruptController (root : FdtNode) : Option FdtNode :=
  root.children.find? fun n => (n.prop? "interrupt-controller").isSome

end FdtNode

structure FdtWriter where
  finish : FdtNode → Except String (List UInt8)

structure Blob where
  root : FdtNode
  bytes : List UInt8

inductive FdtError where
  | builder (msg : String)
  | noVcpus
  | tooManyVirtioSlots (requested : ℕ)
  | nulInBootArgs
  deriving DecidableEq, Repr

/-! ## Inputs -/

structure InitrdRange where
  start : UInt64
  «end» : UInt64
  deriving DecidableEq, Repr

structure MemoryRegion where
  base : UInt64
  size : UInt64
  deriving DecidableEq, Repr

def MemoryRegion.dram (size : UInt64) : MemoryRegion := ⟨DRAM_BASE, size⟩

structure VirtioSlot where
  slot : UInt32
  deriving DecidableEq, Repr

structure FdtBuildArgs where
  vcpuCount : UInt32
  memory : MemoryRegion
  bootArgs : List UInt8
  initrd : Option InitrdRange
  virtioDevices : List VirtioSlot
  gicrSizePerVcpu : UInt64
  gicdSize : UInt64

def FdtBuildArgs.new (vcpuCount : UInt32) (memory : MemoryRegion) (bootArgs : List UInt8)
    (initrd : Option InitrdRange) (virtioDevices : List VirtioSlot) : FdtBuildArgs where
  vcpuCount := vcpuCount
  memory := memory
  bootArgs := bootArgs
  initrd := initrd
  virtioDevices := virtioDevices
  gicrSizePerVcpu := GICR_REDISTRIBUTOR_SIZE_PER_VCPU
  gicdSize := 0x00010000

def PHANDLE_GIC : UInt32 := 1
def PHANDLE_APB_CLK : UInt32 := 2

/-! ## Nodes -/

def hex (n : UInt64) : String := String.ofList (Nat.toDigits 16 n.toNat)

def str (s : String) : FdtValue := .string (Text.bytes s)

def strs (l : List String) : FdtValue := .stringList (l.map Text.bytes)

variable (args : FdtBuildArgs)

def chosenNode : FdtNode where
  name := "chosen"
  props := [("bootargs", .string args.bootArgs), ("stdout-path", str "/pl011@e0a0000"),
    ("linux,earlycon", .null)] ++
    args.initrd.elim [] fun rd =>
      [("linux,initrd-start", .u64 rd.start), ("linux,initrd-end", .u64 rd.end)]

def memoryNode : FdtNode where
  name := "memory@" ++ hex args.memory.base
  props := [("device_type", str "memory"), ("reg", .arrayU64 [args.memory.base, args.memory.size])]

def mpidrForIndex (index : UInt32) : UInt64 :=
  (((index >>> 4) &&& 0xFF).toUInt64 <<< 8) ||| (index &&& 0xF).toUInt64

def cpuNode (index : UInt32) : FdtNode :=
  let mpidr := mpidrForIndex index &&& 0x00FFFFFF
  { name := "cpu@" ++ hex mpidr
    props := [("device_type", str "cpu"), ("compatible", str "arm,armv8"),
      ("enable-method", str "psci"), ("reg", .u32 mpidr.toUInt32)] }

def cpusNode : FdtNode where
  name := "cpus"
  props := [("#address-cells", .u32 1), ("#size-cells", .u32 0)]
  children := (List.range args.vcpuCount.toNat).map fun i => cpuNode (.ofNat i)

def psciNode : FdtNode where
  name := "psci"
  props := [("compatible", strs ["arm,psci-1.0", "arm,psci-0.2", "arm,psci"]),
    ("method", str "hvc"), ("cpu_on", .u32 Psci.CPU_ON), ("cpu_off", .u32 Psci.CPU_OFF),
    ("cpu_suspend", .u32 0xC4000001), ("migrate", .u32 0xC4000005)]

def ipiCell (intid : IntId) (flags : UInt32) : List UInt32 :=
  [intid.fdtCellType, intid.fdtCellOffset, flags]

def irqCell (intid : IntId) (trigger : Trigger) : List UInt32 :=
  [intid.fdtCellType, intid.fdtCellOffset, trigger.fdtFlags]

def timerNode : FdtNode where
  name := "timer"
  props :=
    let levelHighShareable := ((0xF : UInt32) <<< 8) ||| Trigger.levelHigh.fdtFlags
    [("compatible", str "arm,armv8-timer"), ("always-on", .null),
      ("interrupts", .arrayU32
        ([IntId.CNTPS, IntId.CNTP, IntId.CNTV, IntId.CNTHP].flatMap (ipiCell · levelHighShareable)))]

def gicNode : FdtNode where
  name := "intc@" ++ hex GICD_BASE
  props := [("compatible", str "arm,gic-v3"), ("#interrupt-cells", .u32 3),
    ("interrupt-controller", .null), ("#redistributor-regions", .u32 1),
    ("redistributor-stride", .u64 args.gicrSizePerVcpu),
    ("reg", .arrayU64 [GICD_BASE, args.gicdSize, GICR_BASE,
      args.vcpuCount.toUInt64 * args.gicrSizePerVcpu]),
    ("phandle", .u32 PHANDLE_GIC)]

def pl011Node : FdtNode where
  name := "pl011@" ++ hex PL011_BASE
  props := [("compatible", strs ["arm,pl011", "arm,primecell"]),
    ("reg", .arrayU64 [PL011_BASE, PL011_SIZE]),
    ("interrupts", .arrayU32 (irqCell IntId.PL011 .levelHigh)), ("clocks", .u32 PHANDLE_APB_CLK),
    ("clock-names", str "apb_pclk")]

def virtioNode (dev : VirtioSlot) : Except FdtError FdtNode := do
  let base := VIRTIO_MMIO_BASE + dev.slot.toUInt64 * VIRTIO_MMIO_STRIDE
  let intid ← (IntId.fromSpiCell (16 + dev.slot)).mapError fun _ =>
    .builder "invalid SPI cell offset"
  return {
    name := "virtio_mmio@" ++ hex base
    props := [("compatible", str "virtio,mmio"), ("reg", .arrayU64 [base, VIRTIO_MMIO_STRIDE]),
      ("interrupts", .arrayU32 (irqCell intid .edgeRising))] }

def apbClkNode : FdtNode where
  name := "apb_clk"
  props := [("compatible", str "fixed-clock"), ("#clock-cells", .u32 0),
    ("clock-frequency", .u32 24000000), ("clock-output-names", str "clk24mhz"),
    ("phandle", .u32 PHANDLE_APB_CLK)]

def rootNode (virtio : List FdtNode) : FdtNode where
  name := ""
  props := [("model", str "squib,microvm"),
    ("compatible", strs ["linux,squib-microvm", "linux,dummy-virt"]),
    ("#address-cells", .u32 2), ("#size-cells", .u32 2), ("interrupt-parent", .u32 PHANDLE_GIC)]
  children := [chosenNode args, memoryNode args, cpusNode args, psciNode, timerNode, gicNode args,
    pl011Node] ++ virtio ++ [apbClkNode]

def checkSlots (requested : ℕ) : List UInt32 → List VirtioSlot → Except FdtError Unit
  | _, [] => .ok ()
  | seen, dev :: rest =>
    if VIRTIO_MMIO_SLOTS ≤ dev.slot ∨ dev.slot ∈ seen then .error (.tooManyVirtioSlots requested)
    else checkSlots requested (dev.slot :: seen) rest

def build (writer : FdtWriter) (args : FdtBuildArgs) : Except FdtError Blob := do
  let requested := args.virtioDevices.length
  rejectIf (args.vcpuCount = 0) .noVcpus
  rejectIf (VIRTIO_MMIO_SLOTS.toNat < requested) (.tooManyVirtioSlots requested)
  rejectIf (0 ∈ args.bootArgs) .nulInBootArgs
  checkSlots requested [] args.virtioDevices
  let virtio ← args.virtioDevices.mapM virtioNode
  let root := rootNode args virtio
  let bytes ← (writer.finish root).mapError .builder
  return { root, bytes }

section Built

variable {args} {writer : FdtWriter} {blob : Blob}

theorem checkSlots_eq_ok {requested : ℕ} {u : Unit} :
    ∀ {seen : List UInt32} {devs : List VirtioSlot}, checkSlots requested seen devs = .ok u ↔
      (∀ d ∈ devs, d.slot < VIRTIO_MMIO_SLOTS ∧ d.slot ∉ seen) ∧ (devs.map VirtioSlot.slot).Nodup
  | seen, [] => by simp [checkSlots]
  | seen, dev :: rest => by
    simp only [checkSlots, List.forall_mem_cons, List.map_cons, List.nodup_cons, List.mem_map]
    split_ifs with h
    · simp only [false_iff]
      rintro ⟨⟨⟨hlt, hnew⟩, -⟩, -⟩
      exact h.elim (fun hle => absurd hlt (UInt32.not_lt.2 hle)) hnew
    · rw [not_or, UInt32.not_le] at h
      rw [checkSlots_eq_ok]
      simp only [List.mem_cons, not_or]
      constructor
      · rintro ⟨hrest, hnodup⟩
        exact ⟨⟨h, fun d hd => ⟨(hrest d hd).1, (hrest d hd).2.2⟩⟩,
          fun ⟨d, hd, heq⟩ => (hrest d hd).2.1 heq, hnodup⟩
      · rintro ⟨⟨-, hrest⟩, hnew, hnodup⟩
        exact ⟨fun d hd => ⟨(hrest d hd).1, fun heq => hnew ⟨d, hd, heq⟩, (hrest d hd).2⟩, hnodup⟩

theorem build_eq_ok (h : build writer args = .ok blob) :
    ∃ virtio, blob.root = rootNode args virtio ∧ writer.finish blob.root = .ok blob.bytes := by
  simp only [build, bind_eq_ok, mapError_eq_ok, pure_eq_ok] at h
  obtain ⟨-, -, -, -, -, -, -, -, virtio, -, bytes, hbytes, rfl⟩ := h
  exact ⟨virtio, rfl, hbytes⟩

theorem interruptController_build (h : build writer args = .ok blob) :
    blob.root.interruptController = some (gicNode args) := by
  obtain ⟨virtio, hroot, -⟩ := build_eq_ok h
  have hchosen : (chosenNode args).prop? "interrupt-controller" = none := by
    unfold chosenNode
    cases args.initrd <;> rfl
  have hmemory : (memoryNode args).prop? "interrupt-controller" = none := rfl
  have hcpus : (cpusNode args).prop? "interrupt-controller" = none := rfl
  have hpsci : psciNode.prop? "interrupt-controller" = none := rfl
  have htimer : timerNode.prop? "interrupt-controller" = none := rfl
  have hgic : (gicNode args).prop? "interrupt-controller" = some .null := rfl
  rw [hroot]
  simp [FdtNode.interruptController, rootNode, hchosen, hmemory, hcpus, hpsci, htimer, hgic]

end Built

end Squib.Fdt
