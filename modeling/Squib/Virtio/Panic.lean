import Squib.Virtio.Termination

/-!
# Panics
-/

namespace Squib

open Checked VirtioMmioTransport

variable {η : Type} {k : DeviceKind η} {fuel : ℕ}

theorem exec_returns (fuel : ℕ) (hk : k.lacksStatsQueue = false) {s : Sys (Frontend k.Own) η}
    (hn : s.transport.device.queues.length = k.queueCount) (op : Op η) :
    ∃ r, exec (k.vtable fuel) op s = .ok r := by
  cases op with
  | read offset len =>
    have hread : ∃ bytes, s.transport.read (k.vtable fuel) s.world offset len = .ok bytes := by
      unfold VirtioMmioTransport.read
      split_ifs
      · exact ⟨_, rfl⟩
      · obtain ⟨bytes, hb, -⟩ :=
          k.readConfig_returns s.transport.device.own s.world (offset - 0x100) len
        exact ⟨bytes, hb⟩
      · exact ⟨_, rfl⟩
    obtain ⟨bytes, hb⟩ := hread
    exact ⟨(true, bytes, s), by simp only [exec, hb]; rfl⟩
  | guest byte => exact ⟨_, rfl⟩
  | host f => exact ⟨_, rfl⟩
  | write offset data =>
    have hwrite : ∃ r, (decode offset data).apply (k.vtable fuel) s.transport s.world = .ok r := by
      generalize decode offset data = c
      cases c with
      | queueNotify queueIndex =>
        obtain ⟨r, hr⟩ := k.safe fuel queueIndex (by simp [hk]) s.transport.device s.world hn.ge
        have hr' : (k.vtable fuel).processQueue queueIndex s.transport.device s.world = .ok r := hr
        simp only [Command.apply, handleQueueNotify, hr']
        split_ifs <;> exact ⟨_, rfl⟩
      | config offset data =>
        simp only [Command.apply]
        split_ifs <;> exact ⟨_, rfl⟩
      | deviceFeaturesSel | driverFeatures | driverFeaturesSel | queueSel | queueField
      | interruptAck | status | ignored => exact ⟨_, rfl⟩
    obtain ⟨r, hr⟩ := hwrite
    exact ⟨(r.1, [], { transport := r.2.1, world := r.2.2 }), by
      simp only [exec, write_eq_apply, hr]; rfl⟩

theorem run_returns (hk : k.lacksStatsQueue = false) :
    ∀ (ops : List (Op η)) {s : Sys (Frontend k.Own) η},
      s.transport.device.queues.length = k.queueCount → ∃ r, run (k.vtable fuel) ops s = .ok r
  | [], s, _ => ⟨_, rfl⟩
  | op :: ops, s, hn => by
    obtain ⟨⟨b, bytes, s₁⟩, hx⟩ := exec_returns fuel hk hn op
    cases b with
    | false => exact ⟨_, run_cons_stop ops hx⟩
    | true =>
      obtain ⟨⟨b, out, s₂⟩, hr⟩ := run_returns hk ops ((exec_length_queues hx).trans hn)
      exact ⟨_, run_cons_next hx hr⟩

def bringUp : List (Op η) :=
  [.writeReg 0x70 1, .writeReg 0x70 3, .writeReg 0x70 11, .writeReg 0x70 15]

theorem notify_stats_panics {config : BalloonDevice.BalloonConfig}
    (h : config.statsPollingIntervalS = 0) (w : World η) :
    run ((DeviceKind.balloon config).vtable fuel) (bringUp ++ [.notify 2])
      (.fresh (DeviceKind.balloon config).new w) = .error .indexOutOfRange := by
  obtain ⟨targetMib, interval⟩ := config
  subst h
  obtain ⟨out, s, hrun, hup, hstate, hlen⟩ : ∃ out s,
      run ((DeviceKind.balloon ⟨targetMib, 0⟩).vtable fuel) bringUp (.fresh
        (DeviceKind.balloon ⟨targetMib, 0⟩).new w) = .ok (true, out, s) ∧
      s.transport.status = 15 ∧ s.transport.device.state = .full ∧
      s.transport.device.queues.length = 2 := ⟨_, _, rfl, rfl, rfl, rfl⟩
  have hp : ((DeviceKind.balloon ⟨targetMib, 0⟩).vtable fuel).processQueue 2 s.transport.device
      s.world = .error .indexOutOfRange :=
    drain_eq_error BalloonDevice.statsQueue s.world (by rw [hstate]; rfl) hlen.le
  rw [run_append _ hrun, run, exec_notify, handleQueueNotify, if_neg (by rw [hup]; decide)]
  rw [show (2 : UInt32).toUInt16 = 2 from rfl, hp]
  rfl

/-- **No bus access panics**, whatever the driver, the memory and the host do, if and only if the
device is not a balloon without statistics queue. -/
theorem no_panic_iff (k : DeviceKind η) (host : η) :
    (∀ w fuel ops, ∃ r, run (k.vtable fuel) ops (.fresh k.new w) = .ok r) ↔
      k.lacksStatsQueue = false := by
  constructor
  · intro h
    by_contra hk
    cases k with
    | balloon config =>
      have hzero : config.statsPollingIntervalS = 0 := by
        simpa [DeviceKind.lacksStatsQueue] using hk
      obtain ⟨r, hr⟩ := h (.start (ringMemory [] 0) host) 0 (bringUp ++ [.notify 2])
      rw [notify_stats_panics hzero] at hr
      cases hr
    | block | net | vsock | mem | rng | console | pmem | bootTimer => exact hk rfl
  · exact fun hk w fuel ops => run_returns hk ops (List.length_map _)

/-- **A guest can panic a balloon without statistics queue.** -/
theorem balloon_panics :
    run ((DeviceKind.balloon { targetMib := 0, statsPollingIntervalS := 0 }).vtable 1)
        (bringUp ++ [.notify 2])
        (.fresh (DeviceKind.balloon { targetMib := 0, statsPollingIntervalS := 0 }).new
          (.start (ringMemory [] 0) ())) = .error .indexOutOfRange :=
  notify_stats_panics rfl _

end Squib
