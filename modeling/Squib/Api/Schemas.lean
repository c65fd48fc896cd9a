import Squib.Lib.Checked
import Squib.Lib.Json
import Squib.Lib.Text

/-!
# Request bodies
-/

namespace Squib.Api

open Checked

def MAX_DRIVES : ℕ := 8
def MAX_NICS : ℕ := 8
def MAX_PMEM : ℕ := 4
def PATH_MAX : ℕ := 1024
def UDS_PATH_MAX : ℕ := 103
def MAX_VCPU_COUNT : UInt32 := 32
def BOOT_ARGS_MAX : ℕ := 4096
def HOST_DEV_NAME_MAX_BYTES : ℕ := 64
def MIN_GUEST_CID : UInt32 := 3

/-! ## Names and paths -/

def isAsciiAlphanumeric (b : UInt8) : Bool :=
  Text.isDigit b || (0x41 ≤ b && b ≤ 0x5A) || (0x61 ≤ b && b ≤ 0x7A)

def isValidIdentifier (s : List UInt8) : Bool :=
  !s.isEmpty && s.length ≤ 64 && s.all fun b => isAsciiAlphanumeric b || b == 0x5F

structure Identifier where
  text : List UInt8
  valid : isValidIdentifier text = true
  deriving DecidableEq

def Identifier.new (field : String) (s : List UInt8) : Except String Identifier :=
  if h : isValidIdentifier s = true then .ok ⟨s, h⟩
  else .error ("Invalid " ++ field ++ ": must match ^[A-Za-z0-9_]\x7b1,64\x7d$")

abbrev DriveId := Identifier
abbrev IfaceId := Identifier
abbrev VsockId := Identifier

def DriveId.new (s : List UInt8) : Except String DriveId := Identifier.new "drive_id" s
def IfaceId.new (s : List UInt8) : Except String IfaceId := Identifier.new "iface_id" s
def VsockId.new (s : List UInt8) : Except String VsockId := Identifier.new "vsock_id" s

structure CappedPath (cap : ℕ) where
  text : List UInt8
  nonempty : text ≠ []
  short : text.length ≤ cap
  noNul : 0 ∉ text
  deriving DecidableEq

def bytesGot (s : List UInt8) : String := " (got " ++ toString s.length ++ " bytes)"

def CappedPath.new (what host : String) (cap : ℕ) (s : List UInt8) :
    Except String (CappedPath cap) :=
  if hempty : s = [] then .error (what ++ " must not be empty")
  else if hlong : cap < s.length then
    .error (what ++ " exceeds " ++ toString cap ++ " bytes" ++ host ++ bytesGot s)
  else if hnul : 0 ∈ s then .error (what ++ " must not contain NUL bytes")
  else .ok ⟨s, hempty, Nat.not_lt.1 hlong, hnul⟩

abbrev SafePath := CappedPath PATH_MAX
abbrev UdsPath := CappedPath UDS_PATH_MAX

def SafePath.new (s : List UInt8) : Except String SafePath := CappedPath.new "path" "" PATH_MAX s

def UdsPath.new (s : List UInt8) : Except String UdsPath :=
  CappedPath.new "uds path" " on Darwin" UDS_PATH_MAX s

def safePathIn (field : String) (s : List UInt8) : Except String SafePath :=
  (SafePath.new s).mapError (("Invalid " ++ field ++ ": ") ++ ·)

structure HostDevName where
  text : List UInt8
  nonempty : text ≠ []
  short : text.length ≤ HOST_DEV_NAME_MAX_BYTES
  noNul : 0 ∉ text
  deriving DecidableEq

def HostDevName.new (s : List UInt8) : Except String HostDevName :=
  if hempty : s = [] then .error "host_dev_name: must not be empty"
  else if hlong : HOST_DEV_NAME_MAX_BYTES < s.length then
    .error ("host_dev_name: exceeds " ++ toString HOST_DEV_NAME_MAX_BYTES ++ " bytes" ++ bytesGot s)
  else if hnul : 0 ∈ s then .error "host_dev_name: contains a NUL byte"
  else .ok ⟨s, hempty, Nat.not_lt.1 hlong, hnul⟩

structure MacAddr where
  bytes : List UInt8
  length_bytes : bytes.length = 6
  deriving DecidableEq

def MacAddr.octets (i : ℕ) : List (List UInt8) → Except String (List UInt8)
  | [] => .ok []
  | part :: rest => do
    rejectIf (6 ≤ i) ("Invalid MAC: expected 6 octets (saw at least " ++ toString (i + 1) ++ ")")
    rejectIf (part.length ≠ 2)
      ("Invalid MAC: octet " ++ toString i ++ " must be exactly 2 hex digits")
    let octet ← okOr (Text.parseHex 255 part) ("Invalid MAC: octet " ++ toString i ++ " (" ++
      Text.ofBytes part ++ ") is not valid hexadecimal")
    let octets ← MacAddr.octets (i + 1) rest
    return .ofNat octet :: octets

def MacAddr.parse (s : List UInt8) : Except String MacAddr := do
  let octets ← MacAddr.octets 0 (Text.parts (· == 0x3A) s)
  if h : octets.length = 6 then .ok ⟨octets, h⟩
  else .error ("Invalid MAC: expected 6 colon-separated octets (got " ++ toString octets.length ++
    ")")

/-! ## Sizes -/

def validVcpuCount (n : UInt32) : Prop := n ≠ 0 ∧ n ≤ MAX_VCPU_COUNT

instance (n : UInt32) : Decidable (validVcpuCount n) :=
  inferInstanceAs (Decidable (n ≠ 0 ∧ n ≤ MAX_VCPU_COUNT))

structure VcpuCount where
  get : UInt32
  valid : validVcpuCount get
  deriving DecidableEq

def VcpuCount.new (n : UInt32) : Except String VcpuCount :=
  if h : validVcpuCount n then .ok ⟨n, h⟩
  else .error ("Invalid vcpu_count: must be in 1..=" ++ toString MAX_VCPU_COUNT ++ ", got " ++
    toString n)

structure MemSizeMib where
  get : UInt64
  pos : get ≠ 0
  deriving DecidableEq

def MemSizeMib.new (value : UInt64) : Except String MemSizeMib :=
  if h : value ≠ 0 then .ok ⟨value, h⟩ else .error "mem_size_mib must be >= 1"

def checkSmt (smt : Bool) : Except String Unit :=
  rejectIf (smt = true) "Invalid arch field for SMT: SMT not supported on Apple Silicon"

/-! ## The machine configuration -/

structure RawMachineConfig where
  vcpuCount : UInt32
  memSizeMib : UInt64
  smt : Bool := false
  trackDirtyPages : Bool := false
  cpuTemplate : Option (List UInt8) := none
  hugePages : Option (List UInt8) := none
  deriving DecidableEq

structure MachineConfig where
  vcpuCount : VcpuCount
  memSizeMib : MemSizeMib
  trackDirtyPages : Bool
  cpuTemplate : Option (List UInt8)
  hugePages : Option (List UInt8)
  deriving DecidableEq

def checkCpuTemplate (t : List UInt8) : Except String Unit := do
  rejectIf (t = []) "Invalid cpu_template: must not be empty"
  rejectIf (64 < t.length) "Invalid cpu_template: exceeds 64 bytes"

def checkHugePages (h : List UInt8) : Except String Unit :=
  rejectIf (h = [] ∨ 16 < h.length) "Invalid huge_pages: empty or exceeds 16 bytes"

def MachineConfig.tryFrom (raw : RawMachineConfig) : Except String MachineConfig := do
  let vcpuCount ← VcpuCount.new raw.vcpuCount
  checkSmt raw.smt
  let memSizeMib ← MemSizeMib.new raw.memSizeMib
  raw.cpuTemplate.forM checkCpuTemplate
  raw.hugePages.forM checkHugePages
  return {
    vcpuCount
    memSizeMib
    trackDirtyPages := raw.trackDirtyPages
    cpuTemplate := raw.cpuTemplate
    hugePages := raw.hugePages }

structure RawMachineConfigPatch where
  vcpuCount : Option UInt32 := none
  memSizeMib : Option UInt64 := none
  smt : Option Bool := none
  trackDirtyPages : Option Bool := none
  cpuTemplate : Option (List UInt8) := none
  hugePages : Option (List UInt8) := none
  deriving DecidableEq

structure MachineConfigPatch where
  vcpuCount : Option VcpuCount
  memSizeMib : Option MemSizeMib
  trackDirtyPages : Option Bool
  cpuTemplate : Option (List UInt8)
  hugePages : Option (List UInt8)
  deriving DecidableEq

def MachineConfigPatch.tryFrom (raw : RawMachineConfigPatch) :
    Except String MachineConfigPatch := do
  let vcpuCount ← raw.vcpuCount.mapM VcpuCount.new
  raw.smt.forM checkSmt
  let memSizeMib ← raw.memSizeMib.mapM MemSizeMib.new
  return {
    vcpuCount
    memSizeMib
    trackDirtyPages := raw.trackDirtyPages
    cpuTemplate := raw.cpuTemplate
    hugePages := raw.hugePages }

/-! ## The other bodies -/

structure RawBootSourceConfig where
  kernelImagePath : List UInt8
  initrdPath : Option (List UInt8) := none
  bootArgs : Option (List UInt8) := none

structure BootSourceConfig where
  kernelImagePath : SafePath
  initrdPath : Option SafePath
  bootArgs : Option (List UInt8)
  deriving DecidableEq

def checkBootArgs (args : List UInt8) : Except String Unit := do
  rejectIf (BOOT_ARGS_MAX < args.length)
    ("Invalid boot_args: exceeds " ++ toString BOOT_ARGS_MAX ++ " bytes" ++ bytesGot args)
  rejectIf (0 ∈ args) "Invalid boot_args: must not contain NUL bytes"

def BootSourceConfig.tryFrom (raw : RawBootSourceConfig) : Except String BootSourceConfig := do
  let kernelImagePath ← safePathIn "kernel_image_path" raw.kernelImagePath
  let initrdPath ← raw.initrdPath.mapM (safePathIn "initrd_path")
  raw.bootArgs.forM checkBootArgs
  return { kernelImagePath, initrdPath, bootArgs := raw.bootArgs }

def validatePartuuid (got : List UInt8 → String) (uuid : List UInt8) : Except String Unit := do
  rejectIf (uuid = [] ∨ 64 < uuid.length)
    ("Invalid partuuid: must be 1..=64 bytes" ++ got uuid)
  rejectIf (uuid.all (fun b => isAsciiAlphanumeric b || b == 0x2D) = false)
    "Invalid partuuid: only [A-Za-z0-9-] permitted"

inductive CacheType where
  | unsafe_
  | writeback
  deriving DecidableEq, Repr

inductive IoEngine where
  | sync
  | async
  deriving DecidableEq, Repr

structure RawDriveConfig where
  driveId : List UInt8
  pathOnHost : List UInt8
  isRootDevice : Bool := false
  isReadOnly : Bool := false
  cacheType : CacheType := .unsafe_
  ioEngine : IoEngine := .sync
  partuuid : Option (List UInt8) := none
  rateLimiter : Option Json := none
  socket : Option (List UInt8) := none

structure DriveConfig where
  driveId : DriveId
  pathOnHost : SafePath
  isRootDevice : Bool
  isReadOnly : Bool
  cacheType : CacheType
  ioEngine : IoEngine
  partuuid : Option (List UInt8)
  rateLimiter : Option Json
  vhostUserSocket : Option (List UInt8)
  deriving DecidableEq

def checkSocket (s : List UInt8) : Except String Unit := do
  rejectIf (s = []) "Invalid socket: must not be empty"
  rejectIf (1024 < s.length) "Invalid socket: exceeds 1024 bytes"

def DriveConfig.tryFrom (raw : RawDriveConfig) : Except String DriveConfig := do
  let driveId ← DriveId.new raw.driveId
  let pathOnHost ← safePathIn "path_on_host" raw.pathOnHost
  raw.partuuid.forM (validatePartuuid bytesGot)
  raw.socket.forM checkSocket
  return {
    driveId
    pathOnHost
    isRootDevice := raw.isRootDevice
    isReadOnly := raw.isReadOnly
    cacheType := raw.cacheType
    ioEngine := raw.ioEngine
    partuuid := raw.partuuid
    rateLimiter := raw.rateLimiter
    vhostUserSocket := raw.socket }

structure RawNetworkInterfaceConfig where
  ifaceId : List UInt8
  hostDevName : List UInt8
  guestMac : Option (List UInt8) := none
  rxRateLimiter : Option Json := none
  txRateLimiter : Option Json := none

structure NetworkInterfaceConfig where
  ifaceId : IfaceId
  hostDevName : HostDevName
  guestMac : Option MacAddr
  rxRateLimiter : Option Json
  txRateLimiter : Option Json
  deriving DecidableEq

def NetworkInterfaceConfig.tryFrom (raw : RawNetworkInterfaceConfig) :
    Except String NetworkInterfaceConfig := do
  let ifaceId ← IfaceId.new raw.ifaceId
  let hostDevName ← HostDevName.new raw.hostDevName
  let guestMac ← raw.guestMac.mapM MacAddr.parse
  return {
    ifaceId
    hostDevName
    guestMac
    rxRateLimiter := raw.rxRateLimiter
    txRateLimiter := raw.txRateLimiter }

structure RawPmemConfig where
  pmemId : List UInt8
  pathOnHost : List UInt8
  isReadOnly : Bool := false
  isRootDevice : Bool := false
  partuuid : Option (List UInt8) := none
  rateLimiter : Option Json := none

structure PmemConfig where
  pmemId : DriveId
  pathOnHost : SafePath
  isReadOnly : Bool
  isRootDevice : Bool
  partuuid : Option (List UInt8)
  rateLimiter : Option Json
  deriving DecidableEq

def PmemConfig.tryFrom (raw : RawPmemConfig) : Except String PmemConfig := do
  let pmemId ← DriveId.new raw.pmemId
  let pathOnHost ← safePathIn "path_on_host" raw.pathOnHost
  raw.partuuid.forM (validatePartuuid fun _ => "")
  return {
    pmemId
    pathOnHost
    isReadOnly := raw.isReadOnly
    isRootDevice := raw.isRootDevice
    partuuid := raw.partuuid
    rateLimiter := raw.rateLimiter }

structure RawVsockConfig where
  vsockId : Option (List UInt8) := none
  guestCid : UInt32
  udsPath : List UInt8
  tsi : Bool := false

structure VsockConfig where
  vsockId : Option VsockId
  guestCid : UInt32
  udsPath : UdsPath
  tsi : Bool
  deriving DecidableEq

def VsockConfig.tryFrom (raw : RawVsockConfig) : Except String VsockConfig := do
  rejectIf (raw.guestCid < MIN_GUEST_CID) ("Invalid guest_cid: must be >= " ++
    toString MIN_GUEST_CID ++ ", got " ++ toString raw.guestCid)
  let vsockId ← raw.vsockId.mapM VsockId.new
  let udsPath ← (UdsPath.new raw.udsPath).mapError ("Invalid uds_path: " ++ ·)
  return { vsockId, guestCid := raw.guestCid, udsPath, tsi := raw.tsi }

structure RawBalloonConfig where
  amountMib : UInt64
  deflateOnOom : Bool := false
  statsPollingIntervalS : UInt8 := 0
  freePageHinting : Bool := false
  freePageReporting : Bool := false

structure BalloonConfig where
  amountMib : UInt64
  deflateOnOom : Bool
  statsPollingIntervalS : UInt8
  freePageHinting : Bool
  freePageReporting : Bool
  deriving DecidableEq

def BalloonConfig.tryFrom (raw : RawBalloonConfig) : Except String BalloonConfig :=
  .ok {
    amountMib := raw.amountMib
    deflateOnOom := raw.deflateOnOom
    statsPollingIntervalS := raw.statsPollingIntervalS
    freePageHinting := raw.freePageHinting
    freePageReporting := raw.freePageReporting }

structure BalloonUpdate where
  amountMib : UInt64
  deriving DecidableEq

section Accepted

variable {ε α β : Type}

theorem VcpuCount.new_eq_ok {n : UInt32} {c : VcpuCount} : VcpuCount.new n = .ok c ↔ c.get = n := by
  unfold VcpuCount.new
  split_ifs with h
  · rw [Except.ok.injEq]
    exact ⟨fun he => he ▸ rfl, fun he => by cases c; cases he; rfl⟩
  · simp only [false_iff]
    exact fun he => h (he ▸ c.valid)

theorem MemSizeMib.new_eq_ok {n : UInt64} {m : MemSizeMib} :
    MemSizeMib.new n = .ok m ↔ m.get = n := by
  unfold MemSizeMib.new
  split_ifs with h
  · rw [Except.ok.injEq]
    exact ⟨fun he => he ▸ rfl, fun he => by cases m; cases he; rfl⟩
  · simp only [false_iff]
    exact fun he => h (he ▸ m.pos)

variable {x : Option α}

theorem forM_eq_ok {f : α → Except ε Unit} {u : Unit} :
    x.forM f = .ok u ↔ ∀ a ∈ x, f a = .ok () := by
  cases x <;> simp [pure_eq_ok]

theorem mapM_eq_ok_iff {f : α → Except ε β} {g : β → α} (h : ∀ {a b}, f a = .ok b ↔ g b = a)
    {r : Option β} : x.mapM f = .ok r ↔ x = r.map g := by
  cases x with
  | none => cases r <;> simp [pure_eq_ok]
  | some a =>
    rw [mapM_some_eq_ok]
    constructor
    · rintro ⟨b, hb, rfl⟩
      exact congrArg some (h.1 hb).symm
    · intro hr
      obtain ⟨b, rfl, hb⟩ := Option.map_eq_some_iff.1 hr.symm
      exact ⟨b, h.2 hb, rfl⟩

end Accepted

def validCpuTemplate (t : List UInt8) : Prop := t ≠ [] ∧ t.length ≤ 64

def validHugePages (h : List UInt8) : Prop := h ≠ [] ∧ h.length ≤ 16

instance (t : List UInt8) : Decidable (validCpuTemplate t) :=
  inferInstanceAs (Decidable (t ≠ [] ∧ t.length ≤ 64))

instance (h : List UInt8) : Decidable (validHugePages h) :=
  inferInstanceAs (Decidable (h ≠ [] ∧ h.length ≤ 16))

variable {u : Unit}

theorem checkCpuTemplate_eq_ok {t : List UInt8} :
    checkCpuTemplate t = .ok u ↔ validCpuTemplate t := by
  simp [checkCpuTemplate, bind_eq_ok, rejectIf_eq_ok, validCpuTemplate]

theorem checkHugePages_eq_ok {h : List UInt8} : checkHugePages h = .ok u ↔ validHugePages h := by
  simp [checkHugePages, rejectIf_eq_ok, validHugePages]

namespace MachineConfig

def toRaw (c : MachineConfig) : RawMachineConfig where
  vcpuCount := c.vcpuCount.get
  memSizeMib := c.memSizeMib.get
  trackDirtyPages := c.trackDirtyPages
  cpuTemplate := c.cpuTemplate
  hugePages := c.hugePages

theorem tryFrom_eq_ok {raw : RawMachineConfig} {c : MachineConfig} :
    tryFrom raw = .ok c ↔ raw = c.toRaw ∧ (∀ t ∈ c.cpuTemplate, validCpuTemplate t) ∧
      ∀ h ∈ c.hugePages, validHugePages h := by
  simp only [tryFrom, bind_eq_ok, pure_eq_ok, VcpuCount.new_eq_ok, MemSizeMib.new_eq_ok, checkSmt,
    rejectIf_eq_ok, forM_eq_ok, checkCpuTemplate_eq_ok, checkHugePages_eq_ok]
  constructor
  · rintro ⟨v, hv, -, hsmt, m, hm, -, htemplate, -, hpages, rfl⟩
    cases raw
    simp_all [toRaw]
  · rintro ⟨rfl, htemplate, hpages⟩
    exact ⟨_, rfl, (), by simp [toRaw], _, rfl, (), htemplate, (), hpages, rfl⟩

end MachineConfig

namespace MachineConfigPatch

theorem tryFrom_eq_ok {raw : RawMachineConfigPatch} {p : MachineConfigPatch} :
    tryFrom raw = .ok p ↔ raw.vcpuCount = p.vcpuCount.map VcpuCount.get ∧
      raw.memSizeMib = p.memSizeMib.map MemSizeMib.get ∧ raw.smt ≠ some true ∧
      raw.trackDirtyPages = p.trackDirtyPages ∧ raw.cpuTemplate = p.cpuTemplate ∧
      raw.hugePages = p.hugePages := by
  simp only [tryFrom, bind_eq_ok, pure_eq_ok, mapM_eq_ok_iff VcpuCount.new_eq_ok,
    mapM_eq_ok_iff MemSizeMib.new_eq_ok, forM_eq_ok, checkSmt, rejectIf_eq_ok]
  constructor
  · rintro ⟨v, hv, -, hsmt, m, hm, rfl⟩
    exact ⟨hv, hm, fun h => hsmt true h rfl, rfl, rfl, rfl⟩
  · rintro ⟨hv, hm, hsmt, htrack, htemplate, hpages⟩
    refine ⟨_, hv, (), ?_, _, hm, by rw [htrack, htemplate, hpages]⟩
    rintro smt h rfl
    exact hsmt h

end MachineConfigPatch

end Squib.Api
