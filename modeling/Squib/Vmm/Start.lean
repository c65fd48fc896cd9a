import Squib.Api.Schemas
import Squib.Vmm.Boot
import Squib.Vmm.DeviceManager

/-!
# Starting a machine
-/

namespace Squib.VmmLoop

open Api Boot Checked DeviceManager Fdt Layout Loader

/-! ## The configuration -/

structure BootState where
  bootSource : Option BootSourceConfig := none
  machineConfig : Option MachineConfig := none
  drive : Option DriveConfig := none
  net : Option NetworkInterfaceConfig := none
  vsock : Option VsockConfig := none
  deriving DecidableEq

inductive StartError where
  | noBootSource
  | noMachineConfig
  | build (e : BootError)
  | noHvfVm
  | gicSizes (msg : String)
  | noRegion
  | hostDevName (msg : String)
  | network (msg : String)
  | vsock (msg : String)
  | layout (e : DeviceError)
  | rebuildFdt (e : FdtError)
  | readingInitrd (e : IoError)
  | spawn (msg : String)
  deriving DecidableEq

structure StartHost extends Host where
  startNetwork : NetworkInterfaceConfig → Except String Unit
  spawnMuxer : VsockConfig → Except String Unit
  backends : Backends
  spawnDriver : Except String Unit

variable {β : Type}

structure RunningVm (β : Type) where
  boot : BootArtifacts
  vm : HvfVm
  layout : DeviceLayout β
  initrdBytes : Option (List UInt8)

/-! ## The start -/

def resources (src : BootSourceConfig) (machine : MachineConfig) : VmResources where
  vcpuCount := machine.vcpuCount.get
  memSizeMib := machine.memSizeMib.get
  kernel := src.kernelImagePath.text
  initrd := src.initrdPath.map CappedPath.text
  bootArgs := src.bootArgs.getD []
  rootPartuuid := none
  virtioDevices := []

def blockSpec (d : DriveConfig) : BlockConfigSpec where
  id := d.driveId.text
  path := d.pathOnHost.text
  readOnly := d.isReadOnly

def buildNetSpec (host : StartHost) (cfg : NetworkInterfaceConfig) :
    Except StartError (List UInt8) := do
  let _ ← (HostDevName.new cfg.hostDevName.text).mapError .hostDevName
  (host.startNetwork cfg).mapError .network
  return cfg.ifaceId.text

def buildVsockSpec (host : StartHost) (v : VsockConfig) : Except StartError VsockSpec := do
  (host.spawnMuxer v).mapError .vsock
  return {
    vsockId := (v.vsockId.map Identifier.text).getD []
    guestCid := v.guestCid.toUInt64
    udsPath := v.udsPath.text }

def startMicrovm (host : StartHost) (device : Kind → BusDevice β) (state : BootState) :
    Except StartError (RunningVm β) := do
  let src ← okOr state.bootSource .noBootSource
  let machine ← okOr state.machineConfig .noMachineConfig
  let res := resources src machine
  let boot ← (buildMicrovmForBoot host.toHost res).mapError .build
  let vm ← okOr boot.hvfVm .noHvfVm
  let hvf ← okOr host.hvf .noHvfVm
  let _ ← hvf.gicSizes.mapError .gicSizes
  rejectIf (vm.mappings = []) .noRegion
  let net ← state.net.mapM (buildNetSpec host)
  let vsock ← state.vsock.mapM (buildVsockSpec host)
  let layout ← (buildDeviceLayout device host.backends
    { block := state.drive.map blockSpec, net, enableConsole := false, vsock }).mapError .layout
  let memBytes := machine.memSizeMib.get * 1024 * 1024
  let effectiveArgs := composeBootArgs res.bootArgs res.rootPartuuid
  let fdt ← (Fdt.build host.writer (.new res.vcpuCount (.dram memBytes) effectiveArgs
    boot.initrdRange layout.virtioSlots)).mapError .rebuildFdt
  let fdtBase := saturatingAdd64 DRAM_BASE memBytes - FDT_MAX_SIZE
  let initrdBytes ← res.initrd.mapM fun path => (host.fs.read path).mapError .readingInitrd
  host.spawnDriver.mapError .spawn
  return {
    boot := { boot with
      fdt
      fdtBase
      bootRegs := { kernelLoadAddr := boot.kernelLoadAddr, fdtAddr := fdtBase }
      hvfVm := none }
    vm
    layout
    initrdBytes }

theorem exists_initWithGic {hvf : Hvf} {res : VmResources} {memBytes : UInt64} {vm : HvfVm}
    (h : initHvfPath hvf res memBytes = .ok vm) : ∃ cfg, hvf.initWithGic cfg = .ok () := by
  simp only [initHvfPath, initVm, bind_eq_ok, mapError_eq_ok] at h
  obtain ⟨sizes, -, vm', hvm, -⟩ := h
  split at hvm
  · cases hvm
  · simp only [bind_eq_ok, mapError_eq_ok] at hvm
    obtain ⟨range, -, u, hinit, -⟩ := hvm
    exact ⟨_, hinit⟩

structure Started (host : StartHost) (device : Kind → BusDevice β) (state : BootState)
    (r : RunningVm β) (src : BootSourceConfig) (machine : MachineConfig) : Prop where
  bootSource : state.bootSource = some src
  machineConfig : state.machineConfig = some machine
  plan : ∃ boot, buildMicrovmForBoot host.toHost (resources src machine) = .ok boot ∧
    boot.hvfVm = some r.vm ∧ r.boot.kernel = boot.kernel ∧ r.boot.initrdRange = boot.initrdRange
  created : ∃ hvf cfg, host.hvf = some hvf ∧ hvf.initWithGic cfg = .ok ()
  fdt : Fdt.build host.writer (.new machine.vcpuCount.get
    (.dram (machine.memSizeMib.get * 1024 * 1024)) (composeBootArgs (src.bootArgs.getD []) none)
    r.boot.initrdRange r.layout.virtioSlots) = .ok r.boot.fdt

theorem startMicrovm_eq_ok {host : StartHost} {device : Kind → BusDevice β} {state : BootState}
    {r : RunningVm β} (h : startMicrovm host device state = .ok r) :
    ∃ src machine, Started host device state r src machine := by
  simp only [startMicrovm, bind_eq_ok, okOr_eq_ok, mapError_eq_ok, rejectIf_eq_ok, pure_eq_ok] at h
  obtain ⟨src, hsrc, machine, hmachine, boot, hboot, vm, hvm, hvf, hhvf, -, -, -, -, -, -, -, -,
    layout, -, fdt, hfdt, -, -, -, -, rfl⟩ := h
  obtain ⟨vm', -, hpath⟩ := (Boot.build_eq_ok hboot).hvf hvf hhvf
  obtain ⟨cfg, hcfg⟩ := exists_initWithGic hpath
  exact ⟨src, machine, hsrc, hmachine, ⟨boot, hboot, hvm, rfl, rfl⟩, ⟨hvf, cfg, hhvf, hcfg⟩, hfdt⟩

/-! ## The interrupt controller in the device tree -/

structure DescribesGic (sizes : GicSizes) (vcpuCount : UInt32) (node : FdtNode) : Prop where
  stride : node.prop? "redistributor-stride" = some (.u64 sizes.redistributorPerVcpu)
  reg : ∃ live : UInt64,
    node.prop? "reg" = some (.arrayU64 [GICD_BASE, sizes.distributor, GICR_BASE, live]) ∧
      live.toNat = vcpuCount.toNat * sizes.redistributorPerVcpu.toNat

def assumedGicSizes : GicSizes := ⟨0x00010000, GICR_REDISTRIBUTOR_SIZE_PER_VCPU⟩

theorem describesGic_gicNode {sizes : GicSizes} {n : VcpuCount} {memory : MemoryRegion}
    {bootArgs : List UInt8} {initrd : Option InitrdRange} {slots : List VirtioSlot} :
    DescribesGic sizes n.get (gicNode (.new n.get memory bootArgs initrd slots)) ↔
      sizes = assumedGicSizes := by
  constructor
  · rintro ⟨hstride, live, hreg, -⟩
    have hr : GICR_REDISTRIBUTOR_SIZE_PER_VCPU = sizes.redistributorPerVcpu :=
      FdtValue.u64.inj (Option.some.inj hstride)
    have hd : (0x00010000 : UInt64) = sizes.distributor :=
      (List.cons.inj (List.cons.inj (FdtValue.arrayU64.inj (Option.some.inj hreg))).2).1
    cases sizes
    rw [assumedGicSizes, hr, hd]
  · rintro rfl
    refine ⟨rfl, _, rfl, ?_⟩
    have hle := UInt32.le_iff_toNat_le.1 n.valid.2
    have hmax : MAX_VCPU_COUNT.toNat = 32 := rfl
    have hsize : GICR_REDISTRIBUTOR_SIZE_PER_VCPU.toNat = 0x20000 := rfl
    rw [UInt64.toNat_mul, UInt32.toNat_toUInt64]
    refine Nat.mod_eq_of_lt ?_
    change n.get.toNat * 0x20000 < _
    omega

def StartHost.reportedGicSizes (host : StartHost) : Option GicSizes :=
  host.hvf.bind fun hvf => hvf.gicSizes.toOption

def DescribesLiveGic (host : StartHost) (state : BootState) (r : RunningVm β) : Prop :=
  ∃ sizes machine node, host.reportedGicSizes = some sizes ∧ state.machineConfig = some machine ∧
    r.boot.fdt.root.interruptController = some node ∧
    DescribesGic sizes machine.vcpuCount.get node

/-- **The guest is told of the interrupt controller that it has** exactly if the host reports the
sizes that are written in the program. -/
theorem describesGic_iff {host : StartHost} {device : Kind → BusDevice β} {state : BootState}
    {r : RunningVm β} (h : startMicrovm host device state = .ok r) :
    DescribesLiveGic host state r ↔ host.reportedGicSizes = some ⟨0x10000, 0x20000⟩ := by
  obtain ⟨src, machine, hstart⟩ := startMicrovm_eq_ok h
  have hnode := interruptController_build hstart.fdt
  constructor
  · rintro ⟨sizes, machine', node, hsizes, hmachine, hnode', hdescribes⟩
    cases Option.some.inj (hmachine.symm.trans hstart.machineConfig)
    cases Option.some.inj (hnode'.symm.trans hnode)
    rw [hsizes, describesGic_gicNode.1 hdescribes]
    rfl
  · intro hsizes
    exact ⟨_, machine, _, hsizes, hstart.machineConfig, hnode, describesGic_gicNode.2 rfl⟩

section Scenario

def quietHost (sizes : GicSizes) : StartHost where
  toHost := { headerHost with hvf := some { appleSilicon with gicSizes := .ok sizes } }
  startNetwork _ := .ok ()
  spawnMuxer _ := .ok ()
  backends := { entropy := .ok (), openFile _ _ := .ok () }
  spawnDriver := .ok ()

def deafDevice : BusDevice Unit where
  read _ data s := (data, s)
  write _ _ s := s
  length_read _ _ _ := rfl

def someBootSource : BootSourceConfig where
  kernelImagePath := ⟨Text.bytes "/boot/Image", by decide, by decide, by decide⟩
  initrdPath := none
  bootArgs := none

def someMachine (mib : MemSizeMib) : MachineConfig where
  vcpuCount := ⟨2, by decide⟩
  memSizeMib := mib
  trackDirtyPages := false
  cpuTemplate := none
  hugePages := none

def mib64 : MemSizeMib := ⟨64, by decide⟩

def smallMachine : BootState where
  bootSource := some someBootSource
  machineConfig := some (someMachine mib64)

/-- **A start on a host with the sizes of macOS 15.** -/
theorem describesGic_with_128_kib : ∃ r, startMicrovm (quietHost ⟨0x10000, 0x20000⟩)
    (fun _ => deafDevice) smallMachine = .ok r ∧
      DescribesLiveGic (quietHost ⟨0x10000, 0x20000⟩) smallMachine r := by
  have hstart : Returns (startMicrovm (quietHost ⟨0x10000, 0x20000⟩) (fun _ => deafDevice)
      smallMachine) fun _ => True := by
    decide +kernel
  obtain ⟨r, hr, -⟩ := hstart
  exact ⟨r, hr, (describesGic_iff hr).2 rfl⟩

theorem not_describesGic_with_256_kib : ∃ r, startMicrovm (quietHost ⟨0x10000, 0x40000⟩)
    (fun _ => deafDevice) smallMachine = .ok r ∧
      ¬ DescribesLiveGic (quietHost ⟨0x10000, 0x40000⟩) smallMachine r := by
  have hstart : Returns (startMicrovm (quietHost ⟨0x10000, 0x40000⟩) (fun _ => deafDevice)
      smallMachine) fun _ => True := by
    decide +kernel
  obtain ⟨r, hr, -⟩ := hstart
  refine ⟨r, hr, ?_⟩
  rintro ⟨sizes, machine, node, hsizes, hmachine, hnode, hdescribes⟩
  obtain ⟨src, machine', hrunning⟩ := startMicrovm_eq_ok hr
  cases Option.some.inj (hnode.symm.trans (interruptController_build hrunning.fdt))
  have hwrong : (⟨0x10000, 0x40000⟩ : GicSizes) = sizes := Option.some.inj hsizes
  have hstride : (0x20000 : UInt64) = sizes.redistributorPerVcpu :=
    FdtValue.u64.inj (Option.some.inj hdescribes.stride)
  rw [← hwrong] at hstride
  exact absurd hstride (by decide)

end Scenario

end Squib.VmmLoop
