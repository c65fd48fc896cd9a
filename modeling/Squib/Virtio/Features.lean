import Squib.Virtio.Panic

/-!
# Feature negotiation
-/

namespace Squib

open Checked VirtioMmioTransport DeviceStatus

variable {δ η : Type}

/-! ## What the driver wrote -/

structure Ledger where
  selected : UInt32
  writes : List (UInt32 × UInt32)

namespace Ledger

def empty : Ledger := { selected := 0, writes := [] }

def record (l : Ledger) : Command → Ledger
  | .driverFeaturesSel value => { l with selected := value }
  | .driverFeatures value => { l with writes := l.writes ++ [(l.selected, value)] }
  | .status value => if value = init then empty else l
  | _ => l

def next (l : Ledger) : Op η → Ledger
  | .write offset data => l.record (decode offset data)
  | _ => l

def union (l : Ledger) (page : UInt32) : UInt32 :=
  l.writes.foldl (fun acc w => if w.1 = page then acc ||| w.2 else acc) 0

def last (l : Ledger) (page : UInt32) : UInt32 :=
  l.writes.foldl (fun acc w => if w.1 = page then w.2 else acc) 0

end Ledger

def ofPages (page : UInt32 → UInt32) : UInt64 :=
  (page 0).toUInt64 ||| (page 1).toUInt64 <<< (32 : UInt64)

/-! ## What the device sees -/

def SameFeatures (dev : VirtioDevice δ η) (d d' : δ) : Prop :=
  dev.ackedFeatures d' = dev.ackedFeatures d ∧ dev.availFeatures d' = dev.availFeatures d

structure FeatureLens (dev : VirtioDevice δ η) : Prop where
  setAckedFeatures : ∀ value d, dev.ackedFeatures (dev.setAckedFeatures value d) = value ∧
    dev.availFeatures (dev.setAckedFeatures value d) = dev.availFeatures d
  setQueues : ∀ queues d, SameFeatures dev d (dev.setQueues queues d)
  writeConfig : ∀ offset data d, SameFeatures dev d (dev.writeConfig offset data d)
  activate : ∀ d r d', dev.activate d = (r, d') → SameFeatures dev d d'
  processQueue : ∀ queueIndex d w b d' w', dev.processQueue queueIndex d w = .ok (b, d', w') →
    SameFeatures dev d d'

theorem DeviceKind.featureLens (k : DeviceKind η) (fuel : ℕ) : FeatureLens (k.vtable fuel) where
  setAckedFeatures _ _ := ⟨rfl, rfl⟩
  setQueues _ _ := ⟨rfl, rfl⟩
  writeConfig _ _ _ := ⟨rfl, rfl⟩
  activate d r d' h := by
    cases h
    exact ⟨rfl, rfl⟩
  processQueue queueIndex d w b d' w' hp := by
    obtain ⟨new, he, -⟩ := k.keeps fuel queueIndex d w _ hp
    exact ⟨he.acked, rfl⟩

structure Negotiated (dev : VirtioDevice δ η) (offered : UInt64) (l : Ledger)
    (t : VirtioMmioTransport δ) : Prop where
  selected : t.driverFeaturesSel = l.selected
  driverFeatures : t.driverFeatures = ofPages l.union &&& offered
  acked : dev.ackedFeatures t.device = t.driverFeatures
  offered : offeredFeatures dev t = offered

section Step

variable {dev : VirtioDevice δ η} {offered : UInt64} {l : Ledger} {t t' : VirtioMmioTransport δ}

theorem Ledger.union_append (l : Ledger) (selected value page : UInt32) :
    union { l with writes := l.writes ++ [(selected, value)] } page =
      if selected = page then l.union page ||| value else l.union page := by
  simp [union]

theorem or_and_distrib (a b c : UInt64) : (a ||| b) &&& c = (a &&& c) ||| (b &&& c) :=
  UInt64.toBitVec_inj.1 BitVec.and_or_distrib_right

theorem Negotiated.of_same (h : Negotiated dev offered l t)
    (hsel : t'.driverFeaturesSel = t.driverFeaturesSel) (hdf : t'.driverFeatures = t.driverFeatures)
    (hd : SameFeatures dev t.device t'.device) : Negotiated dev offered l t' where
  selected := hsel.trans h.selected
  driverFeatures := hdf.trans h.driverFeatures
  acked := hd.1.trans (h.acked.trans hdf.symm)
  offered := by
    rw [← h.offered, offeredFeatures, offeredFeatures, hd.2]

def shifted (selected value : UInt32) : UInt64 :=
  if selected = 0 then value.toUInt64
  else if selected = 1 then value.toUInt64 <<< (32 : UInt64)
  else 0

theorem ofPages_union_append (l : Ledger) (selected value : UInt32) :
    ofPages (Ledger.union { l with writes := l.writes ++ [(selected, value)] }) =
      ofPages l.union ||| shifted selected value := by
  rw [ofPages, Ledger.union_append, Ledger.union_append, shifted, ofPages]
  split_ifs with h0 h1 h1
  · exact absurd (h0.symm.trans h1) (by decide)
  · rw [UInt32.toUInt64_or, UInt64.or_assoc, UInt64.or_assoc, UInt64.or_comm value.toUInt64]
  · rw [UInt32.toUInt64_or, UInt64.shiftLeft_or, UInt64.or_assoc]
  · rw [UInt64.or_zero]

theorem Negotiated.accept (hdev : FeatureLens dev) (h : Negotiated dev offered l t) {value : UInt32}
    {bits : UInt64} (hbits : bits = shifted l.selected value) :
    Negotiated dev offered (l.record (.driverFeatures value)) { t with
      driverFeatures := t.driverFeatures ||| (bits &&& offeredFeatures dev t)
      device := dev.setAckedFeatures (t.driverFeatures ||| (bits &&& offeredFeatures dev t))
        t.device } where
  selected := h.selected
  driverFeatures := by
    dsimp only [Ledger.record]
    rw [ofPages_union_append, or_and_distrib, ← hbits, h.driverFeatures, h.offered]
  acked := (hdev.setAckedFeatures _ _).1
  offered := by
    rw [← h.offered, offeredFeatures, offeredFeatures, (hdev.setAckedFeatures _ _).2]

theorem Negotiated.reset (hdev : FeatureLens dev) (h : Negotiated dev offered l t) :
    Negotiated dev offered .empty (t.reset dev) where
  selected := rfl
  driverFeatures := by
    have hzero : ofPages Ledger.empty.union = 0 := by decide
    rw [hzero, UInt64.zero_and]
    rfl
  acked := (hdev.setAckedFeatures _ _).1
  offered := by
    rw [← h.offered, offeredFeatures, offeredFeatures, VirtioMmioTransport.reset,
      (hdev.setAckedFeatures _ _).2, (hdev.setQueues _ _).2]

theorem Negotiated.setStatus (hdev : FeatureLens dev) (h : Negotiated dev offered l t)
    (value : UInt32) :
    Negotiated dev offered (l.record (.status value)) (t.setStatus dev value) := by
  unfold VirtioMmioTransport.setStatus
  dsimp only [Ledger.record]
  split_ifs
  · exact h.reset hdev
  · exact h.of_same rfl rfl ⟨rfl, rfl⟩
  · exact h
  · unfold activateDevice
    split
    · exact h.of_same rfl rfl ⟨rfl, rfl⟩
    · split
      · next hact => exact h.of_same rfl rfl (hdev.activate _ _ _ hact)
      · next hact => exact h.of_same rfl rfl (hdev.activate _ _ _ hact)
  · exact h.of_same rfl rfl ⟨rfl, rfl⟩

theorem Negotiated.driverFeaturesWrite (hdev : FeatureLens dev) (h : Negotiated dev offered l t)
    (value : UInt32) :
    Negotiated dev offered (l.record (.driverFeatures value))
      (handleDriverFeaturesWrite dev t value) := by
  have hsel := h.selected
  unfold handleDriverFeaturesWrite
  split
  · next h0 =>
    have h0' : l.selected = 0 := hsel.symm.trans (UInt32.toNat_inj.1 h0)
    exact h.accept hdev (by rw [h0']; rfl)
  · next h1 =>
    have h1' : l.selected = 1 := hsel.symm.trans (UInt32.toNat_inj.1 h1)
    exact h.accept hdev (by rw [h1']; rfl)
  · next h0 h1 =>
    have hzero : shifted l.selected value = 0 := by
      rw [shifted, if_neg fun hz => h0 (by rw [hsel, hz]; rfl),
        if_neg fun hz => h1 (by rw [hsel, hz]; rfl)]
    refine ⟨h.selected, ?_, h.acked, h.offered⟩
    dsimp only [Ledger.record]
    rw [ofPages_union_append, hzero, UInt64.or_zero, h.driverFeatures]

theorem Negotiated.apply (hdev : FeatureLens dev) (h : Negotiated dev offered l t) {w w' : World η}
    {b : Bool} (c : Command) (hc : c.apply dev t w = .ok (b, t', w')) :
    Negotiated dev offered (l.record c) t' := by
  cases c with
  | driverFeatures value =>
    cases hc
    exact h.driverFeaturesWrite hdev value
  | driverFeaturesSel value =>
    cases hc
    exact ⟨rfl, h.driverFeatures, h.acked, h.offered⟩
  | status value =>
    obtain ⟨-, rfl, -⟩ := hc
    exact h.setStatus hdev value
  | queueField field value =>
    cases hc
    unfold updateQueueField
    split
    · exact h
    · split
      · exact h.of_same rfl rfl (hdev.setQueues _ _)
      · exact h
  | queueNotify queueIndex =>
    simp only [Command.apply, handleQueueNotify] at hc
    split at hc
    · cases hc
      exact h
    · split at hc
      · cases hc
      · next hp =>
        cases hc
        exact h.of_same rfl rfl (hdev.processQueue _ _ _ _ _ _ hp)
  | config offset data =>
    simp only [Command.apply] at hc
    split at hc
    · cases hc
      exact h.of_same rfl rfl (hdev.writeConfig _ _ _)
    · cases hc
      exact h
  | deviceFeaturesSel | queueSel | interruptAck | ignored =>
    cases hc
    exact h.of_same rfl rfl ⟨rfl, rfl⟩

end Step

/-! ## Whole runs -/

variable {dev : VirtioDevice δ η}

def Op.WritesFeatures (op : Op η) : Prop :=
  ∃ offset data value, op = .write offset data ∧ decode offset data = .driverFeatures value

theorem Negotiated.exec (hdev : FeatureLens dev) {offered : UInt64} {l : Ledger} {op : Op η}
    {s s' : Sys δ η} {b : Bool} {bytes : List UInt8} (h : Negotiated dev offered l s.transport)
    (hx : exec dev op s = .ok (b, bytes, s')) :
    Negotiated dev offered (l.next op) s'.transport := by
  cases op with
  | read offset len =>
    simp only [Squib.exec] at hx
    cases hr : s.transport.read dev s.world offset len <;> rw [hr] at hx <;> cases hx
    exact h
  | guest byte | host f =>
    cases hx
    exact h
  | write offset data => exact h.apply hdev _ (exec_write hx)

theorem negotiated_of_run (hdev : FeatureLens dev) {d : δ} (hd : dev.ackedFeatures d = 0)
    {w : World η} {ops : List (Op η)} {out : List (List UInt8)} {s : Sys δ η}
    (hrun : run dev ops (.fresh d w) = .ok (true, out, s)) :
    Negotiated dev (dev.availFeatures d ||| version1) (ops.foldl Ledger.next .empty)
      s.transport := by
  refine run_history
    (R := fun l s => Negotiated dev (dev.availFeatures d ||| version1) l s.transport)
    (fun l op s bytes s' hs hx => hs.exec hdev hx) ⟨rfl, ?_, hd, rfl⟩ hrun
  have hzero : ofPages Ledger.empty.union = 0 := by decide
  rw [hzero, UInt64.zero_and]
  rfl

section Scenario

def statsBalloon : DeviceKind Unit := .balloon { targetMib := 0, statsPollingIntervalS := 1 }

def changeOfMind : List (Op Unit) :=
  [.writeReg 0x70 1, .writeReg 0x70 3, .writeReg 0x20 2, .writeReg 0x20 4, .writeReg 0x70 11]

end Scenario

end Squib
