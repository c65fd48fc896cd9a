import Squib.Virtio.Device

/-!
# Boot timer

A device without queues: its only register tells the microseconds since the kernel was loaded. The
host clock is a parameter.
-/

namespace Squib.BootTimerDevice

open Checked Bytes

variable {η : Type}

structure Timer (η : Type) where
  bootStart : ℕ
  now : η → ℕ

def elapsedUs (timer : Timer η) (host : η) : UInt32 :=
  UInt32.ofNat (min (timer.now host - timer.bootStart) (2 ^ 32 - 1))

def readConfig (timer : Timer η) (w : World η) (offset : UInt64) (len : ℕ) :
    Except Panic (List UInt8) :=
  if offset = 0 ∧ len = 4 then
    copyFromSlice (List.replicate len 0) 0 len (leBytes 4 (elapsedUs timer w.host).toNat)
  else return List.replicate len 0

def processQueue (_fuel : ℕ) (_queueIndex : UInt16) : Prog Unit η := .skip

def new (timer : Timer η) : DeviceModel Unit η where
  deviceType := .bootTimer
  avail := 0
  queueMaxSizes := []
  own := ()
  -- The boot timer keeps no handles.
  activeState := { mem := false, irq := false, activated := true }
  readConfig _ w offset len := readConfig timer w offset len
  processQueue := processQueue

theorem readConfig_returns (timer : Timer η) (w : World η) (offset : UInt64) (len : ℕ) :
    Returns (readConfig timer w offset len) fun _ => True := by
  unfold readConfig
  split_ifs with h
  · exact (returns_copyFromSlice (Nat.zero_le _) (by simp) (by simp [h.2])).mono fun _ _ => trivial
  · exact returns_pure trivial

end Squib.BootTimerDevice
