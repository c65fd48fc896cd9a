import Squib.Virtio.System

/-!
# Notifications return
-/

namespace Squib

open Checked Loop VirtioMmioTransport

variable {η : Type}

def Op.notify (value : UInt32) : Op η := .writeReg 0x50 value

variable {δ : Type} {b : Bool} {w : World η}

theorem exec_notify (dev : VirtioDevice δ η) (value : UInt32) (s : Sys δ η) :
    exec dev (.notify value) s =
      (handleQueueNotify dev s.transport s.world value.toUInt16).map
        fun r => (r.1, [], { transport := r.2.1, world := r.2.2 }) := by
  have hdecode : decode 0x50 (Bytes.leBytes 4 value.toNat) = .queueNotify value.toUInt16 :=
    decode_leBytes (by decide) value
  simp only [Op.notify, Op.writeReg, exec, write_eq_apply, hdecode, Command.apply]
  cases handleQueueNotify dev s.transport s.world value.toUInt16 <;> rfl

theorem exec_notify_up (dev : VirtioDevice δ η) (value : UInt32) {s : Sys δ η} {device : δ}
    (hup : s.transport.status &&& DeviceStatus.driverOk ≠ 0)
    (hp : dev.processQueue value.toUInt16 s.transport.device s.world = .ok (b, device, w)) :
    exec dev (.notify value) s = .ok (b, [], {
      transport := { s.transport with
        device, calls := s.transport.calls ++ [.processQueue value.toUInt16 s.transport.status] }
      world := w }) := by
  rw [exec_notify, handleQueueNotify, if_neg (by simpa using hup), hp]
  rfl

theorem Event.calm_popped_iff {K : Contract} {i : ℕ} {q : Queue} {m : GuestMemory}
    {c : DescriptorChain} :
    (Event.popped i q m c).Calm K ↔ ∀ j < 2, q.availIdxAddr.toNat + j < 2 ^ 64 →
      ¬ (Event.popped i q m c).Writes K (q.availIdxAddr.toNat + j) := by
  refine ⟨fun h j hj hlt hw => h _ hw ⟨by omega, by omega, hlt⟩, fun h a hw ha => ?_⟩
  obtain ⟨j, rfl⟩ := Nat.exists_eq_add_of_le ha.1
  exact h j (by have := ha.2.1; omega) ha.2.2 hw

instance {K : Contract} [∀ i r a, Decidable (K.Writes i r a)] (e : Event) : Decidable (e.Calm K) :=
  match e with
  | .popped i q m c =>
    haveI : ∀ a, Decidable ((Event.popped i q m c).Writes K a) := fun a => by
      unfold Event.Writes
      infer_instance
    decidable_of_iff _ Event.calm_popped_iff.symm
  | .pushed _ _ _ => .isTrue trivial
  | .pushFailed _ _ => .isTrue trivial
  | .pulsed _ => .isTrue trivial

/-! ## The loops end -/

theorem length_queues_of_run {k : DeviceKind η} {fuel : ℕ} {ops : List (Op η)}
    {out : List (List UInt8)} {s : Sys (Frontend k.Own) η}
    (h : run (k.vtable fuel) ops (.fresh k.new w) = .ok (b, out, s)) :
    s.transport.device.queues.length = k.queueCount :=
  run_invariant
    (fun _ _ _ _ _ hs hx => (exec_length_queues hx).trans hs) (List.length_map _) h

/-- **A notification returns**, after at most 65535 pops from each queue that it drains, if the
queue exists and no popped chain makes the device write `avail.idx`. -/
theorem notify_returns (k : DeviceKind η) {fuel : ℕ} (hfuel : 65536 ≤ fuel) {w : World η}
    {ops : List (Op η)} {out : List (List UInt8)} {s : Sys (Frontend k.Own) η}
    (hrun : run (k.vtable fuel) ops (.fresh k.new w) = .ok (true, out, s)) (value : UInt32)
    (hqueue : k.lacksStatsQueue = true → value.toUInt16.toNat ≠ BalloonDevice.statsQueue)
    (hcalm : ∀ new ∈ traces (k.vtable fuel) [.notify value] s, ∀ e ∈ new, e.Calm k.contract) :
    ∃ s' new, exec (k.vtable fuel) (.notify value) s = .ok (true, [], s') ∧
      s'.world.log = s.world.log ++ new ∧
      ∀ i, (poppedHeads i new).length ≤ if i ∈ k.drained value.toUInt16 then 65535 else 0 := by
  have hn := length_queues_of_run hrun
  by_cases hup : s.transport.status &&& DeviceStatus.driverOk = 0
  · refine ⟨s, [], ?_, (List.append_nil _).symm, fun i => Nat.zero_le _⟩
    rw [exec_notify, handleQueueNotify, if_pos (by simpa using hup)]
    rfl
  · obtain ⟨⟨b, fd', w'⟩, hp⟩ := k.safe fuel value.toUInt16 hqueue s.transport.device s.world hn.ge
    have hx := exec_notify_up (k.vtable fuel) value hup hp
    obtain ⟨new, he, hret⟩ := k.keeps fuel value.toUInt16 _ _ _ hp
    obtain ⟨rfl, hpops⟩ := hret hfuel (hcalm new (mem_traces_head hx he.log))
    exact ⟨_, new, hx, he.log, hpops⟩

section Scenario

def zeroRng : DeviceKind Unit := .rng { fill := fun len host => (Vector.replicate len 0, host) }

instance : ∀ i r a, Decidable (zeroRng.contract.Writes i r a) := fun _ r a =>
  match r with
  | .ok descs => decidable_of_iff (WriteOnlySpan descs a)
      ⟨fun h => ⟨descs, rfl, h⟩, fun ⟨_, h, hw⟩ => by cases h; exact hw⟩
  | .error _ => .isFalse fun ⟨_, h, _⟩ => by cases h

def askWorld : World Unit :=
  .start (ringMemory [{ addr := 0x1080, len := 8, flags := 2, next := 0 }] 1) ()

/-- A notification of well-separated rings, from a reachable state: one chain is popped. -/
theorem notify_returns_eight_bytes :
    Returns (run (zeroRng.vtable 65536) (driverInit 0 4 0x1000 0x1040 0x1050)
        (.fresh zeroRng.new askWorld)) fun r => r.1 = true ∧
      (∀ new ∈ traces (zeroRng.vtable 65536) [.notify 0] r.2.2, ∀ e ∈ new,
        e.Calm zeroRng.contract) ∧
      ∃ s' new, exec (zeroRng.vtable 65536) (.notify 0) r.2.2 = .ok (true, [], s') ∧
        s'.world.log = r.2.2.world.log ++ new ∧ ∀ i, (poppedHeads i new).length ≤
          if i ∈ zeroRng.drained (0 : UInt32).toUInt16 then 65535 else 0 := by
  have h : Returns (run (zeroRng.vtable 65536) (driverInit 0 4 0x1000 0x1040 0x1050)
      (.fresh zeroRng.new askWorld)) fun r => r.1 = true ∧
        ∀ new ∈ traces (zeroRng.vtable 65536) [.notify 0] r.2.2, ∀ e ∈ new,
          e.Calm zeroRng.contract := by
    decide +kernel
  obtain ⟨⟨b, out, s⟩, hrun, rfl, hcalm⟩ := h
  exact ⟨_, hrun, rfl, hcalm, notify_returns zeroRng (le_refl _) hrun 0 (by decide) hcalm⟩

/-! ### A notification that does not return -/

def overlap (nextAvailIdx nextUsedIdx : UInt16) : Queue :=
  { Queue.new 256 with
    size := 1, ready := true, descTableAddr := 0x1000, availRingAddr := 0x1040,
    usedRingAddr := 0x1040, nextAvailIdx, nextUsedIdx }

def InOverlap (a : ℕ) : Prop := Bytes.InRange 0x1000 16 a ∨ Bytes.InRange 0x1044 2 a

structure Stuck (availIdx usedIdx : UInt16) (m : GuestMemory) : Prop where
  cursors : availIdx ≠ usedIdx
  idx : Returns (m.readU16Le 0x1042) fun idx => idx ≠ availIdx
  regions : m.regions = (ringMemory [] 0).regions
  zero : ∀ a, InOverlap a → m.byte a = (ringMemory [] 0).byte a

variable {availIdx usedIdx : UInt16} {m : GuestMemory}

def afterPush (m : GuestMemory) (usedIdx : UInt16) : GuestMemory :=
  { m with
    byte := Bytes.store (Bytes.store (Bytes.store m.byte 0x1044 (Bytes.leBytes 4 0)) 0x1048
      (Bytes.leBytes 4 0)) 0x1042 (Bytes.leBytes 2 usedIdx.toNat) }

theorem zero_entry : (ringMemory [] 0).readU16Le 0x1044 = .ok 0 := by decide +kernel

theorem zero_descriptor : ((overlap 0 0).chainAt 0).readDescriptor (ringMemory [] 0) =
    .ok { addr := 0, len := 0, flags := 0, next := 0 } := by decide +kernel

theorem mod_one_eq_zero (i : UInt16) : i % 1 = 0 := by
  rw [← UInt16.toNat_inj, UInt16.toNat_mod, UInt16.toNat_one, Nat.mod_one, UInt16.toNat_zero]

namespace Stuck

theorem readU16Le (h : Stuck availIdx usedIdx m) (addr : GuestAddress)
    (ha : ∀ a, GuestMemory.Span addr 2 a → InOverlap a) :
    m.readU16Le addr = (ringMemory [] 0).readU16Le addr := by
  unfold GuestMemory.readU16Le
  rw [GuestMemory.read_congr h.regions fun a hs => h.zero a (ha a hs)]

theorem popAvail (h : Stuck availIdx usedIdx m) :
    (overlap availIdx usedIdx).popAvail m =
      (.ok (some ((overlap 0 0).chainAt 0)), overlap (availIdx + 1) usedIdx) := by
  obtain ⟨idx, hidx, hne⟩ := h.idx
  have hidx' : (overlap availIdx usedIdx).availIdx m = .ok idx :=
    congrArg (Except.mapError QueueError.memory) hidx
  have haddr : (overlap availIdx usedIdx).availRingEntryAddr availIdx = 0x1044 := by
    rw [Queue.availRingEntryAddr, show (overlap availIdx usedIdx).size = 1 from rfl,
      mod_one_eq_zero]
    rfl
  have hentry : (overlap availIdx usedIdx).availRingEntry m availIdx = .ok 0 := by
    rw [Queue.availRingEntry, haddr, h.readU16Le 0x1044 fun a ha => .inr ⟨ha.1, ha.2.1⟩, zero_entry]
    rfl
  have hnext : (overlap availIdx usedIdx).nextAvailIdx = availIdx := rfl
  rw [Queue.popAvail, if_neg (by simp [Queue.isValid, overlap, Queue.new]), hidx', hnext]
  dsimp only
  rw [if_neg (by simpa using hne), hentry]
  rfl

theorem collect (h : Stuck availIdx usedIdx m) :
    ((overlap 0 0).chainAt 0).collect m =
      .ok [{ addr := 0, len := 0, flags := 0, next := 0 }] := by
  have hread : ∀ (o : ℕ) (addr : GuestAddress) (len : ℕ), addr.toNat = 0x1000 + o → o + len ≤ 16 →
      m.read addr len = (ringMemory [] 0).read addr len := fun o addr len ho hlen =>
    GuestMemory.read_congr h.regions fun a hs =>
      h.zero a (.inl ⟨by have := hs.1; omega, by have := hs.2.1; omega⟩)
  have hdesc : ((overlap 0 0).chainAt 0).readDescriptor m =
      .ok { addr := 0, len := 0, flags := 0, next := 0 } := by
    rw [← zero_descriptor]
    simp only [DescriptorChain.readDescriptor, GuestMemory.readU64Le, GuestMemory.readU32Le,
      GuestMemory.readU16Le]
    rw [hread 0 _ 8 rfl (by decide), hread 8 _ 4 rfl (by decide), hread 12 _ 2 rfl (by decide),
      hread 14 _ 2 rfl (by decide)]
  change DescriptorChain.collectFrom m 2 _ = _
  rw [DescriptorChain.collectFrom, DescriptorChain.nextDescriptor, hdesc]
  rfl

theorem write (h : Stuck availIdx usedIdx m) (byte : ℕ → UInt8) (addr : GuestAddress)
    (buf : List UInt8) (hc : (ringMemory [] 0).contains addr buf.length = true) :
    GuestMemory.write { m with byte } addr buf =
      .ok { m with byte := Bytes.store byte addr.toNat buf } :=
  if_pos ((GuestMemory.contains_congr h.regions _ _).trans hc)

theorem writeU16Le (h : Stuck availIdx usedIdx m) (byte : ℕ → UInt8) (value : UInt16) :
    GuestMemory.writeU16Le { m with byte } 0x1042 value =
      .ok { m with byte := Bytes.store byte 0x1042 (Bytes.leBytes 2 value.toNat) } :=
  h.write byte 0x1042 _ (by rw [Bytes.length_leBytes]; decide +kernel)

theorem pushUsed (h : Stuck availIdx usedIdx m) :
    (overlap (availIdx + 1) usedIdx).pushUsed m 0 0 =
      (.ok (), overlap (availIdx + 1) (usedIdx + 1), afterPush m (usedIdx + 1)) := by
  have helem : (overlap (availIdx + 1) usedIdx).usedElemAddr = 0x1044 := by
    rw [Queue.usedElemAddr, show (overlap (availIdx + 1) usedIdx).size = 1 from rfl,
      mod_one_eq_zero]
    rfl
  have hvalid : (overlap (availIdx + 1) usedIdx).isValid = true := by
    simp [Queue.isValid, overlap, Queue.new]
  have h₁ := h.write m.byte 0x1044 (Bytes.leBytes 4 0) (by decide +kernel)
  have h₂ := h.write (Bytes.store m.byte 0x1044 (Bytes.leBytes 4 0)) 0x1048 (Bytes.leBytes 4 0)
    (by decide +kernel)
  exact Queue.pushUsed_ok hvalid (by rw [helem]; exact h₁)
    (by rw [Queue.usedElemLenAddr, helem]; exact h₂) (h.writeU16Le _ (usedIdx + 1))

theorem step (h : Stuck availIdx usedIdx m) :
    Stuck (availIdx + 1) (usedIdx + 1) (afterPush m (usedIdx + 1)) where
  cursors := fun heq => h.cursors (by simpa using heq)
  idx := by
    refine ⟨usedIdx + 1, GuestMemory.readU16Le_of_writeU16Le (h.writeU16Le _ _), fun heq => ?_⟩
    exact h.cursors (by simpa using heq.symm)
  regions := h.regions
  zero a ha := by
    have hidx : ¬ Bytes.InRange 0x1042 (Bytes.leBytes 2 (usedIdx + 1).toNat).length a := by
      rw [Bytes.length_leBytes]
      unfold InOverlap Bytes.InRange at *
      omega
    have hlen : ¬ Bytes.InRange 0x1048 (Bytes.leBytes 4 0).length a := by
      unfold InOverlap Bytes.InRange at *
      omega
    change Bytes.store _ _ _ a = _
    rw [Bytes.store_of_notMem hidx, Bytes.store_of_notMem hlen]
    rcases ha with ha | ha
    · rw [Bytes.store_of_notMem, h.zero a (.inl ha)]
      unfold Bytes.InRange at *
      omega
    · obtain rfl | rfl : a = 0x1044 ∨ a = 0x1045 := by unfold Bytes.InRange at ha; omega
      · rfl
      · rfl

end Stuck

variable {h : Handler Unit Unit}

theorem serve_stuck {d : Drain Unit Unit}
    (hh : ∀ w, h (.ok [{ addr := 0, len := 0, flags := 0, next := 0 }]) () w =
      .ok (.complete 0, (), w)) (hq : d.queue = overlap availIdx usedIdx)
    (hs : Stuck availIdx usedIdx d.world.mem) :
    ∃ d', serve 0 h id d = .ok (.next d') ∧ d'.queue = overlap (availIdx + 1) (usedIdx + 1) ∧
      Stuck (availIdx + 1) (usedIdx + 1) d'.world.mem := by
  have hhead : ((overlap 0 0).chainAt 0).headIndex = 0 := rfl
  simp only [serve, hq, hs.popAvail, World.emit, hs.collect, hh, Drain.settle, Drain.push, hhead,
    hs.pushUsed]
  exact ⟨_, rfl, rfl, hs.step⟩

theorem drain_stuck {fd : Frontend Unit} {w : World Unit}
    (hh : ∀ w, h (.ok [{ addr := 0, len := 0, flags := 0, next := 0 }]) () w =
      .ok (.complete 0, (), w)) (hstate : fd.state = .full)
    (hq : fd.queues = [overlap availIdx usedIdx]) (hs : Stuck availIdx usedIdx w.mem) (fuel : ℕ) :
    ∃ fd' w', drain fuel 0 h fd w = .ok (false, fd', w') := by
  have hstep : ∀ d : Drain Unit Unit,
      (∃ a u, d.queue = overlap a u ∧ Stuck a u d.world.mem) →
      ∃ d', serve 0 h id d = .ok (.next d') ∧
        ∃ a u, d'.queue = overlap a u ∧ Stuck a u d'.world.mem :=
    fun d ⟨_, _, hq, hs⟩ => by
      obtain ⟨d', hd, hq', hs'⟩ := serve_stuck hh hq hs
      exact ⟨d', hd, _, _, hq', hs'⟩
  obtain ⟨d', hl⟩ := loop_forever _ hstep fuel
    (s := { queue := overlap availIdx usedIdx, own := fd.own, world := w, completed := false })
    ⟨_, _, rfl, hs⟩
  have hi : index fd.queues 0 = .ok (overlap availIdx usedIdx) := by
    rw [hq]
    rfl
  refine ⟨(d'.suspend 0 fd).1, (d'.suspend 0 fd).2, ?_⟩
  rw [drain, hstate, hi]
  simp only [hl]
  rfl

def partCursors : List (Op Unit) := driverInit 0 1 0x1000 0x1040 0x1040 ++ [.notify 0]

def brokenChain : World Unit :=
  .start (ringMemory [{ addr := 0, len := 0, flags := 1, next := 1 }] 1) ()

def repairChain : Op Unit := .guest (ringMemory [] 2).byte

theorem stuck_repaired (h : m.regions = (ringMemory [] 0).regions) :
    Stuck 1 0 { m with byte := (ringMemory [] 2).byte } where
  cursors := by decide
  idx := by
    rw [h]
    decide +kernel
  regions := h
  zero a ha := by
    have hdesc : ∀ j < 16,
        (ringMemory [] 2).byte (0x1000 + j) = (ringMemory [] 0).byte (0x1000 + j) := by
      decide +kernel
    have hentry : ∀ j < 2,
        (ringMemory [] 2).byte (0x1044 + j) = (ringMemory [] 0).byte (0x1044 + j) := by
      decide +kernel
    obtain ⟨h1, h2⟩ | ⟨h1, h2⟩ := ha <;> obtain ⟨j, rfl⟩ := Nat.exists_eq_add_of_le h1
    · exact hdesc j (by omega)
    · exact hentry j (by omega)

def Endless (k : DeviceKind η) (ops : List (Op η)) (w : World η) : Prop :=
  ∀ fuel, ∃ out s, run (k.vtable fuel) ops (.fresh k.new w) = .ok (false, out, s)

/-- **A notification that does not return**: each push writes `used.idx` on `avail.idx`, and the
cursors never meet. -/
theorem endless_notification :
    Endless zeroRng (partCursors ++ [repairChain, .notify 0]) brokenChain := by
  intro fuel
  cases fuel with
  | zero =>
    have h : Returns (run (zeroRng.vtable 0) (partCursors ++ [repairChain, .notify 0])
        (.fresh zeroRng.new brokenChain)) fun r => r.1 = false := by
      decide +kernel
    obtain ⟨⟨b, out, s⟩, hrun, rfl⟩ := h
    exact ⟨out, s, hrun⟩
  | succ fuel =>
    have h : Returns (run (zeroRng.vtable 1) partCursors (.fresh zeroRng.new brokenChain)) fun r =>
        r.1 = true ∧ r.2.2.transport.status &&& DeviceStatus.driverOk ≠ 0 ∧
        r.2.2.transport.device.state = .full ∧ r.2.2.transport.device.queues = [overlap 1 0] ∧
        r.2.2.world.mem.regions = (ringMemory [] 0).regions := by
      decide +kernel
    obtain ⟨⟨b, out, s⟩, hrun, rfl, hup, hstate, hq, hregions⟩ := h
    obtain ⟨s₁, hx, ht, hm⟩ : ∃ s₁, exec (zeroRng.vtable (fuel + 1)) repairChain s =
        .ok (true, [], s₁) ∧ s₁.transport = s.transport ∧
        s₁.world.mem = { s.world.mem with byte := (ringMemory [] 2).byte } := ⟨_, rfl, rfl, rfl⟩
    rw [← ht] at hup hstate hq
    obtain ⟨fd', w', hp⟩ : ∃ fd' w', (zeroRng.vtable (fuel + 1)).processQueue 0 s₁.transport.device
        s₁.world = .ok (false, fd', w') :=
      drain_stuck (fun _ => rfl) hstate hq (hm ▸ stuck_repaired hregions) (fuel + 1)
    have hlast := run_cons_stop [] (exec_notify_up (zeroRng.vtable (fuel + 1)) 0 hup hp)
    rw [run_append _ (run_mono (by omega) hrun), run_cons_next hx hlast]
    exact ⟨_, _, rfl⟩

end Scenario

end Squib
