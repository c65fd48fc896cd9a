import Squib.Api.Schemas
import Squib.Mmds.Pdu

/-!
# Request bodies that only the event loop's default branch takes
-/

namespace Squib.Api

open Checked Metadata

def MAX_REG_MODIFIERS : ℕ := 256
def DEFAULT_BLOCK_SIZE_MIB : UInt64 := 2
def DEFAULT_SLOT_SIZE_MIB : UInt64 := 128
def MAX_TOTAL_SIZE_MIB : UInt64 := 1048576
def MAX_TOKEN_TTL_SECONDS : UInt64 := 21600

/-! ## The CPU -/

structure RawCpuConfig where
  regModifiers : Option (List Json) := none
  vcpuFeatures : Option (List Json) := none
  cpuidModifiers : Option (List Json) := none
  msrModifiers : Option (List Json) := none
  kvmCapabilities : Option (List Json) := none

structure CpuConfig where
  regModifiers : List Json
  vcpuFeatures : List Json
  cpuidModifiers : List Json
  msrModifiers : List Json
  kvmCapabilities : List Json
  deriving DecidableEq

def capCheck (field : String) (v : List Json) : Except String Unit :=
  rejectIf (MAX_REG_MODIFIERS < v.length)
    ("Invalid cpu-config: " ++ field ++ " exceeds " ++ toString MAX_REG_MODIFIERS ++ " entries")

def CpuConfig.tryFrom (raw : RawCpuConfig) : Except String CpuConfig := do
  let regModifiers := raw.regModifiers.getD []
  let vcpuFeatures := raw.vcpuFeatures.getD []
  let cpuidModifiers := raw.cpuidModifiers.getD []
  let msrModifiers := raw.msrModifiers.getD []
  let kvmCapabilities := raw.kvmCapabilities.getD []
  capCheck "reg_modifiers" regModifiers
  capCheck "vcpu_features" vcpuFeatures
  capCheck "cpuid_modifiers" cpuidModifiers
  capCheck "msr_modifiers" msrModifiers
  capCheck "kvm_capabilities" kvmCapabilities
  return { regModifiers, vcpuFeatures, cpuidModifiers, msrModifiers, kvmCapabilities }

/-! ## Devices -/

structure RawEntropyConfig where
  rateLimiter : Option Json := none

structure EntropyConfig where
  rateLimiter : Option Json
  deriving DecidableEq

def EntropyConfig.tryFrom (raw : RawEntropyConfig) : Except String EntropyConfig :=
  .ok { rateLimiter := raw.rateLimiter }

structure RawSerialConfig where
  logPath : List UInt8

structure SerialConfig where
  logPath : SafePath
  deriving DecidableEq

def SerialConfig.tryFrom (raw : RawSerialConfig) : Except String SerialConfig := do
  let logPath ← safePathIn "log_path" raw.logPath
  return { logPath }

structure RawHotplugMemoryConfig where
  totalSizeMib : UInt64
  blockSizeMib : UInt64 := DEFAULT_BLOCK_SIZE_MIB
  slotSizeMib : UInt64 := DEFAULT_SLOT_SIZE_MIB

structure HotplugMemoryConfig where
  totalSizeMib : UInt64
  blockSizeMib : UInt64
  slotSizeMib : UInt64
  deriving DecidableEq

def HotplugMemoryConfig.tryFrom (raw : RawHotplugMemoryConfig) :
    Except String HotplugMemoryConfig := do
  rejectIf (raw.totalSizeMib = 0 ∨ MAX_TOTAL_SIZE_MIB < raw.totalSizeMib)
    ("Invalid total_size_mib: must be 1..=" ++ toString MAX_TOTAL_SIZE_MIB)
  rejectIf (raw.blockSizeMib = 0) "Invalid block_size_mib: must be >= 1"
  rejectIf (raw.slotSizeMib = 0) "Invalid slot_size_mib: must be >= 1"
  rejectIf (raw.slotSizeMib < raw.blockSizeMib)
    "Invalid hotplug-memory: slot_size_mib must be >= block_size_mib"
  rejectIf (raw.totalSizeMib % raw.slotSizeMib ≠ 0)
    "Invalid total_size_mib: must be a multiple of slot_size_mib"
  return {
    totalSizeMib := raw.totalSizeMib
    blockSizeMib := raw.blockSizeMib
    slotSizeMib := raw.slotSizeMib }

/-! ## Logs -/

inductive LogLevel where
  | off
  | error
  | warning
  | info
  | debug
  | trace
  deriving DecidableEq, Repr

structure RawLoggerConfig where
  logPath : List UInt8
  level : LogLevel := .info
  showLevel : Bool := false
  showLogOrigin : Bool := false
  module : Option (List UInt8) := none

structure LoggerConfig where
  logPath : SafePath
  level : LogLevel
  showLevel : Bool
  showLogOrigin : Bool
  module : Option (List UInt8)
  deriving DecidableEq

def checkModule (m : List UInt8) : Except String Unit :=
  rejectIf (m = [] ∨ 128 < m.length) "Invalid module: must be 1..=128 bytes"

def LoggerConfig.tryFrom (raw : RawLoggerConfig) : Except String LoggerConfig := do
  let logPath ← safePathIn "log_path" raw.logPath
  raw.module.forM checkModule
  return {
    logPath
    level := raw.level
    showLevel := raw.showLevel
    showLogOrigin := raw.showLogOrigin
    module := raw.module }

structure RawMetricsConfig where
  metricsPath : List UInt8

structure MetricsConfig where
  metricsPath : SafePath
  deriving DecidableEq

def MetricsConfig.tryFrom (raw : RawMetricsConfig) : Except String MetricsConfig := do
  let metricsPath ← safePathIn "metrics_path" raw.metricsPath
  return { metricsPath }

/-! ## The metadata service -/

inductive MmdsVersion where
  | v1
  | v2
  deriving DecidableEq, Repr

structure RawMmdsConfig where
  version : MmdsVersion := .v2
  networkInterfaces : List (List UInt8)
  ipv4Address : Option Ipv4Addr := none
  imdsCompat : Bool := false
  tokenTtlSeconds : Option UInt64 := none

structure MmdsConfig where
  version : MmdsVersion
  networkInterfaces : List IfaceId
  ipv4Address : Ipv4Addr
  imdsCompat : Bool
  tokenTtlSeconds : UInt64
  deriving DecidableEq

def isLinkLocal (ip : Ipv4Addr) : Bool := ip.a == 169 && ip.b == 254

def dotted (ip : Ipv4Addr) : String :=
  toString ip.a ++ "." ++ toString ip.b ++ "." ++ toString ip.c ++ "." ++ toString ip.d

def MmdsConfig.tryFrom (raw : RawMmdsConfig) : Except String MmdsConfig := do
  rejectIf (raw.networkInterfaces = [])
    "Invalid mmds-config: network_interfaces must not be empty"
  rejectIf (MAX_NICS < raw.networkInterfaces.length)
    ("Invalid mmds-config: network_interfaces exceeds " ++ toString MAX_NICS ++ " entries")
  let networkInterfaces ← raw.networkInterfaces.mapM IfaceId.new
  let ipv4Address := raw.ipv4Address.getD ⟨169, 254, 169, 254⟩
  rejectIf (isLinkLocal ipv4Address = false)
    ("Invalid ipv4_address: " ++ dotted ipv4Address ++ " is not in 169.254.0.0/16")
  let tokenTtlSeconds := raw.tokenTtlSeconds.getD MAX_TOKEN_TTL_SECONDS
  rejectIf (tokenTtlSeconds = 0 ∨ MAX_TOKEN_TTL_SECONDS < tokenTtlSeconds)
    ("Invalid token_ttl_seconds: must be 1..=" ++ toString MAX_TOKEN_TTL_SECONDS)
  return {
    version := raw.version
    networkInterfaces
    ipv4Address
    imdsCompat := raw.imdsCompat
    tokenTtlSeconds }

structure MmdsContents where
  tree : Json
  deriving DecidableEq

end Squib.Api
