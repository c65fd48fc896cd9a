import Squib.Virtio.Devices
import Squib.Virtio.Transport

/-!
# Runs of a device behind its transport
-/

namespace Squib

open Checked VirtioMmioTransport

variable {δ η : Type}

structure Sys (δ η : Type) where
  transport : VirtioMmioTransport δ
  world : World η

inductive Op (η : Type) where
  | read (offset : UInt64) (len : ℕ)
  | write (offset : UInt64) (data : List UInt8)
  | guest (byte : ℕ → UInt8)
  | host (f : η → η)

def Op.writeReg (offset : UInt64) (value : UInt32) : Op η :=
  .write offset (Bytes.leBytes 4 value.toNat)

def Sys.fresh (device : δ) (w : World η) : Sys δ η where
  transport := .new device
  world := { w with irq := { w.irq with status := 0 } }

variable (dev : VirtioDevice δ η)

def exec : Op η → Sys δ η → Except Panic (Bool × List UInt8 × Sys δ η)
  | .read offset len, s => do
    let bytes ← s.transport.read dev s.world offset len
    .ok (true, bytes, s)
  | .write offset data, s => do
    let (returned, transport, world) ← s.transport.write dev s.world offset data
    .ok (returned, [], { transport, world })
  | .guest byte, s => .ok (true, [], { s with world := { s.world with
      mem := { s.world.mem with byte } } })
  | .host f, s => .ok (true, [], { s with world := { s.world with host := f s.world.host } })

def run : List (Op η) → Sys δ η → Except Panic (Bool × List (List UInt8) × Sys δ η)
  | [], s => .ok (true, [], s)
  | op :: ops, s =>
    match exec dev op s with
    | .error e => .error e
    | .ok (false, bytes, s) => .ok (false, [bytes], s)
    | .ok (true, bytes, s) =>
      match run ops s with
      | .error e => .error e
      | .ok (returned, out, s) => .ok (returned, bytes :: out, s)

def traces : List (Op η) → Sys δ η → List (List Event)
  | [], _ => []
  | op :: ops, s =>
    match exec dev op s with
    | .error _ => []
    | .ok (returned, _, s') =>
      s'.world.log.drop s.world.log.length :: if returned then traces ops s' else []

variable {dev}

theorem run_invariant {P : Sys δ η → Prop}
    (hstep : ∀ op s b bytes s', P s → exec dev op s = .ok (b, bytes, s') → P s') :
    ∀ {ops : List (Op η)} {s s' : Sys δ η} {b : Bool} {out : List (List UInt8)},
      P s → run dev ops s = .ok (b, out, s') → P s'
  | [], s, s', b, out, hs, h => by
    cases h
    exact hs
  | op :: ops, s, s', b, out, hs, h => by
    rw [run] at h
    split at h
    · cases h
    · next h₁ =>
      cases h
      exact hstep _ _ _ _ _ hs h₁
    · next s₁ h₁ =>
      split at h
      · cases h
      · next h₂ =>
        cases h
        exact run_invariant hstep (hstep _ _ _ _ _ hs h₁) h₂

theorem run_history {H : Type} {R : H → Sys δ η → Prop} {next : H → Op η → H}
    (hstep : ∀ h op s bytes s', R h s → exec dev op s = .ok (true, bytes, s') → R (next h op) s') :
    ∀ {ops : List (Op η)} {h : H} {s s' : Sys δ η} {out : List (List UInt8)},
      R h s → run dev ops s = .ok (true, out, s') → R (ops.foldl next h) s'
  | [], h, s, s', out, hs, hr => by
    cases hr
    exact hs
  | op :: ops, h, s, s', out, hs, hr => by
    rw [run] at hr
    split at hr
    · cases hr
    · cases hr
    · next hx =>
      split at hr
      · cases hr
      · next hr' =>
        cases hr
        rw [List.foldl_cons]
        exact run_history hstep (hstep _ _ _ _ _ hs hx) hr'

section Steps

variable {s s' : Sys δ η} {b : Bool} {bytes : List UInt8} {op : Op η}

theorem exec_write {offset : UInt64} {data : List UInt8}
    (h : exec dev (.write offset data) s = .ok (b, bytes, s')) :
    (decode offset data).apply dev s.transport s.world = .ok (b, s'.transport, s'.world) := by
  simp only [exec, write_eq_apply] at h
  cases hx : (decode offset data).apply dev s.transport s.world with
  | error e => rw [hx] at h; cases h
  | ok r =>
    rw [hx] at h
    cases h
    rfl

def Op.IsReset (op : Op η) : Prop :=
  ∃ offset data, op = .write offset data ∧ decode offset data = .status DeviceStatus.init

theorem exec_reset (hop : op.IsReset) (h : exec dev op s = .ok (b, bytes, s')) :
    s' = { s with transport := s.transport.reset dev } := by
  obtain ⟨offset, data, rfl, hd⟩ := hop
  have hc := exec_write h
  rw [hd, Command.apply, setStatus, if_pos rfl] at hc
  obtain ⟨t', w'⟩ := s'
  cases hc
  rfl

theorem exec_moves (hop : ¬ op.IsReset) (h : exec dev op s = .ok (b, bytes, s')) :
    Moves dev s.transport s'.transport := by
  cases op with
  | read offset len =>
    simp only [exec] at h
    cases hr : s.transport.read dev s.world offset len <;> rw [hr] at h <;> cases h
    exact .refl _ _
  | guest byte | host f =>
    cases h
    exact .refl _ _
  | write offset data =>
    exact Command.apply_moves dev (fun hd => hop ⟨offset, data, rfl, hd⟩) (exec_write h)

theorem exec_cases (h : exec dev op s = .ok (b, bytes, s')) :
    (b = true ∧ s'.world.log = s.world.log) ∨
      ∃ queueIndex, s.transport.status &&& DeviceStatus.driverOk ≠ 0 ∧
        dev.processQueue queueIndex s.transport.device s.world =
          .ok (b, s'.transport.device, s'.world) := by
  cases op with
  | read offset len =>
    simp only [exec] at h
    cases hr : s.transport.read dev s.world offset len <;> rw [hr] at h <;> cases h
    exact .inl ⟨rfl, rfl⟩
  | guest byte | host f =>
    cases h
    exact .inl ⟨rfl, rfl⟩
  | write offset data =>
    obtain ⟨t', w'⟩ := s'
    have hc := exec_write h
    generalize decode offset data = c at hc
    cases c with
    | queueNotify queueIndex =>
      simp only [Command.apply, handleQueueNotify] at hc
      split at hc
      · cases hc
        exact .inl ⟨rfl, rfl⟩
      · next hup =>
        split at hc
        · cases hc
        · next hp =>
          cases hc
          exact .inr ⟨queueIndex, by simpa using hup, hp⟩
    | config offset data =>
      simp only [Command.apply] at hc
      split at hc <;> cases hc <;> exact .inl ⟨rfl, rfl⟩
    | deviceFeaturesSel | driverFeatures | driverFeaturesSel | queueSel | queueField | interruptAck
    | status | ignored =>
      cases hc
      exact .inl ⟨rfl, rfl⟩

variable {ops : List (Op η)} {s₁ : Sys δ η}

theorem mem_traces_head {new : List Event} (h : exec dev op s = .ok (b, bytes, s'))
    (hlog : s'.world.log = s.world.log ++ new) : new ∈ traces dev (op :: ops) s := by
  rw [traces, h]
  simp only [hlog, List.drop_left]
  exact List.mem_cons_self

theorem run_cons_stop (ops : List (Op η)) (h : exec dev op s = .ok (false, bytes, s')) :
    run dev (op :: ops) s = .ok (false, [bytes], s') := by
  rw [run, h]

theorem run_cons_map (ops : List (Op η)) (h : exec dev op s = .ok (true, bytes, s₁)) :
    run dev (op :: ops) s = (run dev ops s₁).map fun r => (r.1, bytes :: r.2.1, r.2.2) := by
  rw [run, h]
  dsimp only
  cases run dev ops s₁ <;> rfl

theorem run_cons_next {s₂ : Sys δ η} {out : List (List UInt8)}
    (h : exec dev op s = .ok (true, bytes, s₁)) (h' : run dev ops s₁ = .ok (b, out, s₂)) :
    run dev (op :: ops) s = .ok (b, bytes :: out, s₂) := by
  rw [run_cons_map ops h, h']
  rfl

theorem run_append (ops' : List (Op η)) : ∀ {ops : List (Op η)} {s s₁ : Sys δ η}
    {out : List (List UInt8)}, run dev ops s = .ok (true, out, s₁) →
      run dev (ops ++ ops') s = (run dev ops' s₁).map fun r => (r.1, out ++ r.2.1, r.2.2)
  | [], s, s₁, out, h => by
    cases h
    cases hr : run dev ops' s <;> exact hr
  | op :: ops, s, s₁, out, h => by
    rw [run] at h
    split at h
    · cases h
    · cases h
    · next hx =>
      split at h
      · cases h
      · next hr =>
        cases h
        rw [List.cons_append, run_cons_map _ hx, run_append ops' hr]
        cases run dev ops' s₁ <;> rfl

end Steps

section Scenario

def driverInit (queue size desc avail used : UInt32) : List (Op η) :=
  [.writeReg 0x70 1, .writeReg 0x70 3, .writeReg 0x70 11, .writeReg 0x30 queue,
    .writeReg 0x38 size, .writeReg 0x80 desc, .writeReg 0x90 avail, .writeReg 0xA0 used,
    .writeReg 0x44 1, .writeReg 0x70 15]

def Descriptor.bytes (d : Descriptor) : List UInt8 :=
  Bytes.leBytes 8 d.addr.toNat ++ Bytes.leBytes 4 d.len.toNat ++ Bytes.leBytes 2 d.flags.toNat ++
    Bytes.leBytes 2 d.next.toNat

def ringMemory (descs : List Descriptor) (idx : UInt16) : GuestMemory :=
  .fromBytes 0x1000 ((descs.flatMap Descriptor.bytes ++ List.replicate 64 0).take 64 ++
    ([0, 0] ++ Bytes.leBytes 2 idx.toNat ++ List.replicate 188 0)) (by simp)

def World.start (mem : GuestMemory) (host : η) : World η where
  mem := mem
  irq := { intid := 32, status := 0 }
  host := host
  log := []

end Scenario

/-! ## Runs of the nine frontends -/

section Frontends

variable {k : DeviceKind η} {fuel : ℕ} {op : Op η} {s s' : Sys (Frontend k.Own) η}
  {bytes : List UInt8} {b : Bool}

theorem exec_served (h : exec (k.vtable fuel) op s = .ok (b, bytes, s')) :
    ∃ new, s'.world.log = s.world.log ++ new ∧ Served k.contract new := by
  rcases exec_cases h with ⟨-, hlog⟩ | ⟨queueIndex, -, hp⟩
  · exact ⟨[], by simpa using hlog, .nil⟩
  · obtain ⟨new, he, -⟩ := k.keeps fuel queueIndex _ _ _ hp
    exact ⟨new, he.log, he.served⟩

theorem served_of_mem_traces : ∀ {ops : List (Op η)} {s : Sys (Frontend k.Own) η}
    {new : List Event}, new ∈ traces (k.vtable fuel) ops s → Served k.contract new
  | [], s, new, h => by cases h
  | op :: ops, s, new, h => by
    rw [traces] at h
    split at h
    · cases h
    · next returned bytes s' hx =>
      obtain ⟨new', hlog, hs⟩ := exec_served hx
      rw [hlog, List.drop_left] at h
      rcases List.mem_cons.1 h with rfl | h
      · exact hs
      · split_ifs at h
        · exact served_of_mem_traces h
        · cases h

theorem exec_length_queues (h : exec (k.vtable fuel) op s = .ok (b, bytes, s')) :
    s'.transport.device.queues.length = s.transport.device.queues.length := by
  by_cases hop : op.IsReset
  · rw [exec_reset hop h]
    exact List.length_map _
  have hm := exec_moves hop h
  generalize s'.transport = t at hm
  cases hm with
  | queueField => exact List.length_set
  | notified queueIndex hup hp =>
    obtain ⟨new, he, -⟩ := k.keeps fuel queueIndex _ _ _ hp
    exact he.length_queues
  | activated hv hdown h =>
    cases h
    rfl
  | refused hv hdown h => cases h
  | selectors | features | config | failed | stepped => rfl

theorem exec_mono {n m : ℕ} (hnm : n ≤ m) (h : exec (k.vtable n) op s = .ok (true, bytes, s')) :
    exec (k.vtable m) op s = .ok (true, bytes, s') := by
  cases op with
  | read offset len | guest byte | host f => exact h
  | write offset data =>
    simp only [exec, write_eq_apply] at h ⊢
    generalize decode offset data = c at h ⊢
    cases c with
    | queueNotify queueIndex =>
      simp only [Command.apply, handleQueueNotify] at h ⊢
      split
      · next hdown =>
        rw [if_pos hdown] at h
        exact h
      · next hup =>
        rw [if_neg hup] at h
        rcases hp : (k.vtable n).processQueue queueIndex s.transport.device s.world with
          _ | ⟨b, fd, w⟩ <;> rw [hp] at h <;> cases h
        have hp' : (k.vtable m).processQueue queueIndex s.transport.device s.world =
          .ok (true, fd, w) := k.fuelMono queueIndex hnm hp
        rw [hp']
        rfl
    | deviceFeaturesSel | driverFeatures | driverFeaturesSel | queueSel | queueField | interruptAck
    | status | config | ignored => exact h

theorem run_mono {n m : ℕ} (hnm : n ≤ m) : ∀ {ops : List (Op η)} {s s' : Sys (Frontend k.Own) η}
    {out : List (List UInt8)}, run (k.vtable n) ops s = .ok (true, out, s') →
      run (k.vtable m) ops s = .ok (true, out, s')
  | [], _, _, _, h => h
  | op :: ops, s, s', out, h => by
    rw [run] at h ⊢
    split at h
    · cases h
    · cases h
    · next hx =>
      split at h
      · cases h
      · next hr =>
        cases h
        exact run_cons_next (exec_mono hnm hx) (run_mono hnm hr)

end Frontends

end Squib
