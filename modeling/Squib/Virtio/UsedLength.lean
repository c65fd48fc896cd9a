import Squib.Virtio.Services
import Squib.Virtio.System

/-!
# Used lengths
-/

namespace Squib

open Audit Checked

variable {η : Type}

def Event.pushedLen (i : ℕ) : Event → Option UInt32
  | pushed j _ bytesWritten => if j = i then some bytesWritten else none
  | _ => none

def pushedLens (i : ℕ) (log : List Event) : List UInt32 := log.filterMap (Event.pushedLen i)

theorem exists_of_mem_pushedLens {i : ℕ} {log : List Event} {n : UInt32} (h : n ∈ pushedLens i log) :
    ∃ head, Event.pushed i head n ∈ log := by
  obtain ⟨e, he, hn⟩ := List.mem_filterMap.1 h
  cases e with
  | pushed j head bytesWritten =>
    rw [Event.pushedLen] at hn
    split_ifs at hn with hj
    cases hn
    exact ⟨head, hj ▸ he⟩
  | _ => cases hn

/-! ## Where the bytes go -/

theorem Charge.received_le_stored (descs : List Descriptor) (c : Charge) :
    c.received descs ≤ c.stored := by
  cases c with
  | wrote addr len => exact Nat.count_le _
  | buffer len | packet len => exact le_rfl

variable {descs : List Descriptor}

theorem received_eq_zero {cs : List Charge} (h : stored cs = 0) : received descs cs = 0 := by
  induction cs with
  | nil => rfl
  | cons c cs ih =>
    have hc := c.received_le_stored descs
    rw [stored_cons] at h
    have hcs := ih (by omega)
    rw [received] at hcs ⊢
    rw [List.map_cons, List.sum_cons]
    omega

variable {m : GuestMemory}

theorem inside_scatterCost {left : ℕ} : ∀ c ∈ scatterCost m left descs, c.Inside descs := by
  induction descs generalizing left with
  | nil => simp [scatterCost]
  | cons desc descs ih =>
    have hrest : ∀ left, ∀ c ∈ scatterCost m left descs, c.Inside (desc :: descs) :=
      fun left c hc => (ih c hc).mono (List.subset_cons_self desc descs)
    rw [scatterCost]
    split_ifs with hskip hmapped
    · exact hrest left
    · have hd : desc.isWriteOnly = true := by
        by_contra hd
        exact hskip (by simp [hd])
      exact List.forall_mem_cons.2
        ⟨Charge.inside_wrote List.mem_cons_self hd (min_le_left _ _) hmapped, hrest _⟩
    · simp

theorem RngDevice.inside_fillCost : ∀ c ∈ fillCost m descs, c.Inside descs := by
  induction descs with
  | nil => simp [fillCost]
  | cons desc descs ih =>
    have hrest : ∀ c ∈ fillCost m descs, c.Inside (desc :: descs) :=
      fun c hc => (ih c hc).mono (List.subset_cons_self desc descs)
    rw [fillCost]
    split_ifs with hd hmapped
    · exact hrest
    · have hwrite : desc.isWriteOnly = true := by simpa using hd
      exact List.forall_mem_cons.2 ⟨trivial, List.forall_mem_cons.2
        ⟨Charge.inside_wrote List.mem_cons_self hwrite le_rfl hmapped, hrest⟩⟩
    · exact List.forall_mem_cons.2 ⟨trivial, by simp⟩

namespace BlockDevice

variable {m : GuestMemory} {backend : BlockBackend η} {payload : List Descriptor} {host : η}

theorem inside_readCost {byteOff : UInt64} :
    ∀ c ∈ readCost backend m payload byteOff host, c.Inside payload := by
  induction payload generalizing byteOff host with
  | nil => simp [readCost]
  | cons desc payload ih =>
    have hrest : ∀ byteOff host, ∀ c ∈ readCost backend m payload byteOff host,
        c.Inside (desc :: payload) :=
      fun byteOff host c hc => (ih c hc).mono (List.subset_cons_self desc payload)
    rw [readCost]
    by_cases hd : (!desc.isWriteOnly) = true
    · rw [if_pos hd]
      exact hrest byteOff host
    rw [if_neg hd]
    refine List.forall_mem_cons.2 ⟨trivial, ?_⟩
    rcases backend.readAt byteOff desc.len.toNat host with ⟨e | buf, host'⟩
    · simp
    split_ifs with hmapped
    · have hwrite : desc.isWriteOnly = true := by simpa using hd
      refine List.forall_mem_cons.2
        ⟨Charge.inside_wrote List.mem_cons_self hwrite le_rfl hmapped, ?_⟩
      cases checkedAdd byteOff desc.len.toUInt64 with
      | none => simp
      | some off => exact hrest off host'
    · simp

theorem inside_idCost : ∀ c ∈ idCost m payload, c.Inside payload := by
  cases payload with
  | nil => simp [idCost]
  | cons desc payload =>
    rw [idCost]
    split_ifs with h
    · rw [Bool.and_eq_true] at h
      intro c hc
      obtain rfl := List.mem_singleton.1 hc
      exact Charge.inside_wrote List.mem_cons_self h.1 (min_le_left _ _) h.2
    · simp

theorem decode_eq_some {c : Command} (h : decode m descs = some c) :
    c.payload ⊆ descs ∧ c.status ∈ descs ∧ c.status.isWriteOnly = true ∧ 1 ≤ c.status.len.toNat := by
  rcases descs with - | ⟨header, - | ⟨second, rest⟩⟩
  · cases h
  · cases h
  rw [decode] at h
  by_cases hheader : (header.isWriteOnly || decide (header.len < 16)) = true
  · rw [if_pos hheader] at h
    cases h
  rw [if_neg hheader] at h
  cases h32 : m.readU32Le header.addr with
  | error e =>
    rw [h32] at h
    cases h
  | ok reqType =>
    cases h64 : m.readU64Le (sectorAddr header) with
    | error e =>
      rw [h32, h64] at h
      cases h
    | ok sector =>
      rw [h32, h64] at h
      dsimp only at h
      split_ifs at h with hstatus
      cases h
      have hlast : (second :: rest).getLast?.getD header ∈ second :: rest := by
        exact List.getLast_mem _
      simp only [Bool.or_eq_true, Bool.not_eq_true', decide_eq_true_eq, not_or,
        Bool.not_eq_false] at hstatus
      refine ⟨fun d hd => List.mem_cons_of_mem _ (List.dropLast_subset _ hd),
        List.mem_cons_of_mem _ hlast, hstatus.1, ?_⟩
      exact UInt32.le_iff_toNat_le.1 (UInt32.not_lt.1 hstatus.2)

theorem stored_statusCost_le (m : GuestMemory) (status : Descriptor) :
    stored (statusCost m status) ≤ 1 := by
  rw [statusCost]
  split_ifs <;> simp

theorem inside_requestCost : ∀ charge ∈ requestCost backend m descs host, charge.Inside descs := by
  rw [requestCost]
  cases hdecode : decode m descs with
  | none => simp
  | some c =>
    obtain ⟨hpayload, hstatus, hwrite, hlen⟩ := decode_eq_some hdecode
    have hcommand : ∀ charge ∈ performCost backend m c host, charge.Inside descs := by
      intro charge hcharge
      rw [performCost] at hcharge
      split_ifs at hcharge with hin hout hid
      · cases hmul : checkedMul c.sector sectorSize with
        | none =>
          rw [hmul] at hcharge
          cases hcharge
        | some off =>
          rw [hmul] at hcharge
          exact (inside_readCost charge hcharge).mono hpayload
      · cases hmul : checkedMul c.sector sectorSize with
        | none =>
          rw [hmul] at hcharge
          cases hcharge
        | some off =>
          rw [hmul] at hcharge
          obtain ⟨len, rfl⟩ := mem_writeCost charge hcharge
          trivial
      · exact (inside_idCost charge hcharge).mono hpayload
      · cases hcharge
    have hlast : ∀ charge ∈ statusCost m c.status, charge.Inside descs := by
      intro charge hcharge
      rw [statusCost] at hcharge
      split_ifs at hcharge with hmapped
      · obtain rfl := List.mem_singleton.1 hcharge
        exact Charge.inside_wrote hstatus hwrite hlen hmapped
      · cases hcharge
    exact List.forall_mem_append.2 ⟨hcommand, hlast⟩

end BlockDevice

/-! ## When a handler counts right -/

namespace Service

def CountsOn (s : Service η) (descs : List Descriptor) (w : World η) : Prop :=
  match s with
  | .block backend _ => ∀ c, BlockDevice.decode w.mem descs = some c →
    if BlockDevice.ReadFails backend c w then
      -- What a failed read has filled is not counted.
      stored (BlockDevice.performCost backend w.mem c w.host) = 0
    else
      stored (BlockDevice.performCost backend w.mem c w.host) +
        stored (BlockDevice.statusCost w.mem c.status) < 2 ^ 32
  | .netRx frame =>
    stored (scatterCost w.mem (NetDevice.virtioNetHdrLen + frame.length) descs) < 2 ^ 32
  | .vsockRx pkt =>
    stored (scatterCost w.mem (VsockDevice.hdrSize + pkt.payload.length) descs) < 2 ^ 32
  | .rng _ => stored (RngDevice.fillCost w.mem descs) < 2 ^ 32
  -- What the console counts is what it reads.
  | .console _ => ∀ d ∈ descs, d.isWriteOnly = false → w.mem.contains d.addr d.len.toNat = true →
    d.len = 0
  -- The response may be longer than its buffer.
  | .mem _ _ => ∀ charge ∈ respCost 2 w.mem descs, charge.Inside descs
  | .pmem => ∀ charge ∈ respCost 4 w.mem descs, charge.Inside descs
  | _ => True

end Service

theorem received_respCost_iff (n : ℕ) (m : GuestMemory) (descs : List Descriptor) :
    stored (respCost n m descs) = received descs (respCost n m descs) ↔
      ∀ charge ∈ respCost n m descs, charge.Inside descs := by
  refine ⟨fun h => ?_, fun h => (received_eq_stored h).symm⟩
  rw [respCost] at h ⊢
  generalize reqResp descs = parts at h ⊢
  rcases parts with - | ⟨req, resp⟩
  · simp
  dsimp only at h ⊢
  split_ifs at h ⊢ with hmapped
  · intro charge hcharge
    obtain rfl := List.mem_singleton.1 hcharge
    exact Nat.count_iff_forall.1 h.symm
  · simp

theorem stored_respCost_le (n : ℕ) (m : GuestMemory) (descs : List Descriptor) :
    stored (respCost n m descs) ≤ n := by
  rw [respCost]
  rcases reqResp descs with - | ⟨req, resp⟩
  · exact Nat.zero_le n
  dsimp only
  split_ifs <;> simp

theorem ConsoleDevice.sent_eq_zero_iff (m : GuestMemory) (descs : List Descriptor) :
    sent m descs = 0 ↔ ∀ d ∈ descs, d.isWriteOnly = false →
      m.contains d.addr d.len.toNat = true → d.len = 0 := by
  rw [sent, List.sum_eq_zero_iff_forall_eq_nat]
  simp only [List.forall_mem_map, List.mem_filter, readBuffers, Bool.not_eq_true', and_imp,
    ← UInt32.toNat_inj]
  rfl

namespace Service

variable {cs : List Charge}

theorem saturated_iff (h : ∀ c ∈ cs, c.Inside descs) :
    min (stored cs) (2 ^ 32 - 1) = received descs cs ↔ stored cs < 2 ^ 32 := by
  rw [received_eq_stored h]
  omega

theorem packet_iff (len : ℕ) (m : GuestMemory) (left : ℕ) (descs : List Descriptor) :
    min (stored (.packet len :: scatterCost m left descs)) (2 ^ 32 - 1) =
        received descs (.packet len :: scatterCost m left descs) ↔
      stored (scatterCost m left descs) < 2 ^ 32 := by
  have hinside : ∀ c ∈ Charge.packet len :: scatterCost m left descs, c.Inside descs :=
    List.forall_mem_cons.2 ⟨trivial, inside_scatterCost⟩
  rw [saturated_iff hinside, stored_cons, Charge.stored, Nat.zero_add]

theorem silent_iff (h : stored cs = 0) :
    min (stored cs) (2 ^ 32 - 1) = received descs cs ↔ True := by
  rw [received_eq_zero h, h]
  simp

theorem response_iff {n : ℕ} (hn : n < 2 ^ 32) (m : GuestMemory) (descs : List Descriptor) :
    min (stored (respCost n m descs)) (2 ^ 32 - 1) = received descs (respCost n m descs) ↔
      ∀ charge ∈ respCost n m descs, charge.Inside descs := by
  have hle := stored_respCost_le n m descs
  rw [← received_respCost_iff, Nat.min_eq_left (by omega)]

theorem block_iff (backend : BlockDevice.BlockBackend η) (driveId : String)
    (descs : List Descriptor) (w : World η) :
    min (BlockDevice.counted backend w descs) (2 ^ 32 - 1) =
        received descs (BlockDevice.requestCost backend w.mem descs w.host) ↔
      (block backend driveId).CountsOn descs w := by
  rw [received_eq_stored BlockDevice.inside_requestCost, BlockDevice.counted,
    BlockDevice.requestCost, CountsOn]
  cases hdecode : BlockDevice.decode w.mem descs with
  | none => simp
  | some c =>
    have hstatus := BlockDevice.stored_statusCost_le w.mem c.status
    have hone : (∀ c', some c = some c' → if BlockDevice.ReadFails backend c' w then
        stored (BlockDevice.performCost backend w.mem c' w.host) = 0
      else stored (BlockDevice.performCost backend w.mem c' w.host) +
        stored (BlockDevice.statusCost w.mem c'.status) < 2 ^ 32) ↔
        if BlockDevice.ReadFails backend c w then
          stored (BlockDevice.performCost backend w.mem c w.host) = 0
        else stored (BlockDevice.performCost backend w.mem c w.host) +
          stored (BlockDevice.statusCost w.mem c.status) < 2 ^ 32 := by
      simp
    rw [hone]
    dsimp only
    rw [stored_append]
    split_ifs <;> omega

theorem counted_iff (s : Service η) (descs : List Descriptor) (w : World η) :
    min (s.counted descs w) (2 ^ 32 - 1) = received descs (s.costOn descs w) ↔
      s.CountsOn descs w := by
  cases s with
  | block backend driveId => exact block_iff backend driveId descs w
  | netTx backend interceptor =>
    refine silent_iff ?_
    simp only [costOn, NetDevice.transmitCost, stored_append, stored_gatherCost]
    split_ifs <;> rfl
  | netRx frame | vsockRx pkt => exact packet_iff _ w.mem _ descs
  | vsockTx muxer =>
    refine silent_iff ?_
    simp only [costOn, VsockDevice.transmitCost, stored_append, stored_gatherCost]
    split_ifs <;> rfl
  | mem backend config | pmem => exact response_iff (by decide) w.mem descs
  | balloon queueIndex => exact silent_iff (BalloonDevice.stored_pfnsCost queueIndex w.mem descs)
  | balloonStats => exact silent_iff rfl
  | rng source => exact saturated_iff RngDevice.inside_fillCost
  | console sink =>
    have hcost : stored ((console sink).costOn descs w) = 0 := stored_eq_zero fun c hc => by
      obtain ⟨d, -, rfl⟩ := List.mem_map.1 hc
      rfl
    rw [received_eq_zero hcost, CountsOn, ← ConsoleDevice.sent_eq_zero_iff, counted]
    omega

def filled (s : Service η) (d : Drain s.Own η) : ℕ :=
  match s.next d with
  | some (.ok descs, _) => received descs (s.spent d)
  | _ => 0

def Counts (s : Service η) (d : Drain s.Own η) : Prop :=
  ∀ descs w, s.next d = some (.ok descs, w) → s.CountsOn descs w

/-- **Used lengths.** The length pushed is that of the bytes written into the write-only buffers
exactly if the handler counts right. -/
theorem used_length_iff (s : Service η) (onEmpty : s.Own → s.Own) (d : Drain s.Own η) :
    ∃ c new, serve s.queue s.handler onEmpty d = .ok c ∧
      c.state.world.log = d.world.log ++ new ∧
      ∀ n ∈ pushedLens s.queue new, n.toNat = s.filled d ↔ s.Counts d := by
  obtain ⟨c, new, hserve, hlog, hpushed⟩ := s.serve_pushes onEmpty d
  refine ⟨c, new, hserve, hlog, fun n hn => ?_⟩
  obtain ⟨head, hn⟩ := exists_of_mem_pushedLens hn
  obtain ⟨r, w, hnext, hok, herror⟩ := hpushed head n hn
  cases r with
  | error e =>
    rw [filled, Counts, hnext, herror e rfl]
    simp
  | ok descs =>
    have hone : s.Counts d ↔ s.CountsOn descs w := by
      rw [Counts, hnext]
      simp
    rw [hone, ← counted_iff, ← hok descs rfl, filled, hnext, spent_eq_costOn hnext]

end Service

section Scenario

def fourDescriptors : Queue where
  maxSize := 64
  size := 4
  ready := true
  descTableAddr := 0x1000
  availRingAddr := 0x1040
  usedRingAddr := 0x1050
  nextAvailIdx := 0
  nextUsedIdx := 0

def brokenRead : Drain Unit HostFile.File where
  queue := fourDescriptors
  own := ()
  world := .start (ringMemory [⟨0x1080, 16, virtqDescFNext, 1⟩,
    ⟨0x1090, 4, virtqDescFNext ||| virtqDescFWrite, 2⟩,
    ⟨0x9000, 4, virtqDescFNext ||| virtqDescFWrite, 3⟩, ⟨0x1094, 1, virtqDescFWrite, 0⟩] 1)
    { data := List.replicate 16 0 }
  completed := false

def fourBytes : Drain Unit Unit where
  queue := fourDescriptors
  own := ()
  world := .start (ringMemory [⟨0x1080, 4, 0, 0⟩] 1) ()
  completed := false

/-- A drive that has filled five bytes says one; a console that has written nothing says four. -/
theorem used_length_wrong :
    (∃ c, serve 0 (Service.block (BlockDevice.ofEngine .sync false 16).toBlockBackend "rootfs").handler
        id brokenRead = .ok c ∧ pushedLens 0 c.state.world.log = [1] ∧
      (Service.block (BlockDevice.ofEngine .sync false 16).toBlockBackend "rootfs").filled
        brokenRead = 5) ∧
    ∃ c, serve 1 (Service.console .discard).handler id fourBytes = .ok c ∧
      pushedLens 1 c.state.world.log = [4] ∧ (Service.console .discard).filled fourBytes = 0 := by
  have hread : Returns (serve 0
      (Service.block (BlockDevice.ofEngine .sync false 16).toBlockBackend "rootfs").handler id
      brokenRead) fun c => pushedLens 0 c.state.world.log = [1] := by decide +kernel
  have houtput : Returns (serve 1 (Service.console .discard).handler id fourBytes) fun c =>
      pushedLens 1 c.state.world.log = [4] := by decide +kernel
  obtain ⟨c, hc, hone⟩ := hread
  obtain ⟨c', hc', hfour⟩ := houtput
  exact ⟨⟨c, hc, hone, by decide +kernel⟩, c', hc', hfour, by decide +kernel⟩

end Scenario

end Squib
