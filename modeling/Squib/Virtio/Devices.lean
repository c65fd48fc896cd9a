import Squib.Virtio.Devices.Balloon
import Squib.Virtio.Devices.Block
import Squib.Virtio.Devices.BootTimer
import Squib.Virtio.Devices.Console
import Squib.Virtio.Devices.Mem
import Squib.Virtio.Devices.Net
import Squib.Virtio.Devices.Pmem
import Squib.Virtio.Devices.Rng
import Squib.Virtio.Devices.Vsock

/-!
# The nine frontends

`DeviceKind` is one of squib's device frontends with its configuration and its host backend.
-/

namespace Squib

open Checked

inductive DeviceKind (η : Type) where
  | block (config : BlockDevice.BlockConfig) (backend : BlockDevice.BlockBackend η)
  | net (config : NetDevice.NetConfig) (backend : NetDevice.NetBackend η)
      (interceptor : NetDevice.FrameInterceptor η)
  | vsock (config : VsockDevice.VsockConfig) (muxer : VsockDevice.VsockMuxer η)
      (hcid : VsockDevice.minGuestCid ≤ config.guestCid)
  | mem (config : MemDevice.MemConfig) (backend : MemDevice.MemHotplugBackend η)
  | balloon (config : BalloonDevice.BalloonConfig)
  | rng (source : RngDevice.EntropySource η)
  | console (sink : ConsoleDevice.ConsoleSink η)
  | pmem (config : PmemDevice.PmemConfig)
  | bootTimer (timer : BootTimerDevice.Timer η)

namespace DeviceKind

variable {η : Type}

abbrev Own : DeviceKind η → Type
  | .vsock _ _ _ => VsockDevice.RxBuffer
  | .mem _ _ => MemDevice.Plugged
  | .balloon _ => BalloonDevice.Pfns
  | _ => Unit

def model : (k : DeviceKind η) → DeviceModel k.Own η
  | .block config backend => BlockDevice.new config backend
  | .net config backend interceptor => NetDevice.new config backend interceptor
  | .vsock config muxer _ => VsockDevice.model config muxer
  | .mem config backend => MemDevice.new config backend
  | .balloon config => BalloonDevice.new config
  | .rng source => RngDevice.withSource source
  | .console sink => ConsoleDevice.new sink
  | .pmem config => PmemDevice.new config
  | .bootTimer timer => BootTimerDevice.new timer

def vtable (k : DeviceKind η) (fuel : ℕ) : VirtioDevice (Frontend k.Own) η := k.model.vtable fuel

def new (k : DeviceKind η) : Frontend k.Own := k.model.new

def queueCount (k : DeviceKind η) : ℕ := k.model.queueMaxSizes.length

def lacksStatsQueue : DeviceKind η → Bool
  | .balloon config => config.statsPollingIntervalS == 0
  | _ => false

def contract : DeviceKind η → Contract
  | .block _ _ => .buffers
  | .net _ _ _ => NetDevice.contract
  | .vsock _ _ _ => VsockDevice.contract
  | .mem _ _ => MemDevice.contract
  | .balloon _ => BalloonDevice.contract
  | .rng _ => .buffers
  | .console _ => ConsoleDevice.contract
  | .pmem _ => PmemDevice.contract
  | .bootTimer _ => .buffers

def drained : DeviceKind η → (queueIndex : UInt16) → List ℕ
  | .net _ _ _, _ => [1, 0]
  | .vsock _ _ _, _ => [1, 0]
  | .balloon _, queueIndex => [queueIndex.toNat]
  | .console _, _ => [1]
  | .bootTimer _, _ => []
  | _, _ => [0]

variable (k : DeviceKind η)

theorem keeps (fuel : ℕ) (queueIndex : UInt16) :
    Keeps k.contract fuel (k.drained queueIndex) (k.model.processQueue fuel queueIndex) := by
  cases k with
  | block config backend => exact (BlockDevice.processQueue_meets backend config fuel _).keeps
  | net config backend interceptor => exact (NetDevice.processQueue_meets backend _ fuel _).keeps
  | vsock config muxer hcid => exact (VsockDevice.processQueue_meets muxer fuel _).keeps
  | mem config backend => exact (MemDevice.processQueue_meets backend config fuel _).keeps
  | balloon config => exact BalloonDevice.processQueue_keeps fuel _
  | rng source => exact (RngDevice.processQueue_meets source fuel _).keeps
  | console sink => exact (ConsoleDevice.processQueue_meets sink fuel _).keeps
  | pmem config => exact (PmemDevice.processQueue_meets fuel _).keeps
  | bootTimer timer => exact skip_keeps

theorem safe (fuel : ℕ) (queueIndex : UInt16)
    (hk : k.lacksStatsQueue = true → queueIndex.toNat ≠ BalloonDevice.statsQueue)
    (fd : Frontend k.Own) (w : World η) (hn : k.queueCount ≤ fd.queues.length) :
    ∃ r, k.model.processQueue fuel queueIndex fd w = .ok r := by
  cases k with
  | block config backend =>
    exact (BlockDevice.processQueue_meets backend config fuel _).safe fd w hn
  | net config backend interceptor =>
    exact (NetDevice.processQueue_meets backend interceptor fuel _).safe fd w hn
  | vsock config muxer hcid => exact (VsockDevice.processQueue_meets muxer fuel _).safe fd w hn
  | mem config backend => exact (MemDevice.processQueue_meets backend config fuel _).safe fd w hn
  | balloon config =>
    refine (BalloonDevice.processQueue_meets fuel queueIndex ?_ fun hs => ?_).safe fd w hn
    · simp only [queueCount, model, BalloonDevice.new]
      split_ifs <;> simp
    · have hpos : 0 < config.statsPollingIntervalS := by
        by_contra h0
        have hlacks : (balloon config : DeviceKind η).lacksStatsQueue = true := by
          simpa [lacksStatsQueue, UInt16.lt_iff_toNat_lt, ← UInt16.toNat_inj] using h0
        exact hk hlacks hs
      simp [queueCount, model, BalloonDevice.new, hpos]
  | rng source => exact (RngDevice.processQueue_meets source fuel _).safe fd w hn
  | console sink => exact (ConsoleDevice.processQueue_meets sink fuel _).safe fd w hn
  | pmem config => exact (PmemDevice.processQueue_meets fuel _).safe fd w hn
  | bootTimer timer => exact ⟨_, rfl⟩

theorem fuelMono (queueIndex : UInt16) :
    FuelMono fun fuel => k.model.processQueue fuel queueIndex := by
  cases k with
  | block config backend => exact BlockDevice.processQueue_fuelMono backend config queueIndex
  | net config backend interceptor =>
    exact NetDevice.processQueue_fuelMono backend interceptor queueIndex
  | vsock config muxer hcid => exact VsockDevice.processQueue_fuelMono muxer queueIndex
  | mem config backend => exact MemDevice.processQueue_fuelMono backend config queueIndex
  | balloon config => exact BalloonDevice.processQueue_fuelMono queueIndex
  | rng source => exact RngDevice.processQueue_fuelMono source queueIndex
  | console sink => exact ConsoleDevice.processQueue_fuelMono sink queueIndex
  | pmem config => exact PmemDevice.processQueue_fuelMono queueIndex
  | bootTimer timer => exact fuelMono_const _

theorem readConfig_returns (own : k.Own) (w : World η) (offset : UInt64) (len : ℕ) :
    Returns (k.model.readConfig own w offset len) fun _ => True := by
  cases k with
  | block config backend => exact BlockDevice.readConfig_returns backend w offset len
  | net config backend interceptor => exact NetDevice.readConfig_returns config offset len
  | vsock config muxer hcid | rng source | console sink => exact returns_pure trivial
  | mem config backend => exact MemDevice.readConfig_returns config own offset len
  | balloon config => exact BalloonDevice.readConfig_returns config own offset len
  | pmem config => exact PmemDevice.readConfig_returns config offset len
  | bootTimer timer => exact BootTimerDevice.readConfig_returns timer w offset len

end DeviceKind

end Squib
