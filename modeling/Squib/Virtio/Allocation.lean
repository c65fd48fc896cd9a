import Squib.Virtio.Services
import Squib.Virtio.System

/-!
# Host memory for a chain
-/

namespace Squib

open Audit Checked

variable {η : Type}

def GuestMemory.size (m : GuestMemory) : ℕ := (m.regions.map fun r => r.size.toNat).sum

structure Modest (C : ℕ) (m : GuestMemory) (cs : List Charge) : Prop where
  refused : ∀ n, Charge.buffer n ∈ cs → n ≤ m.size
  total : allocated cs ≤ m.size + C

/-! ## Buffers and packets -/

def Charge.bufferLen : Charge → Option ℕ
  | wrote _ _ => none
  | buffer len => some len
  | packet _ => none

def Charge.packetLen : Charge → ℕ
  | wrote _ _ => 0
  | buffer _ => 0
  | packet len => len

def bufferLens (cs : List Charge) : List ℕ := cs.filterMap Charge.bufferLen

def packetBytes (cs : List Charge) : ℕ := (cs.map Charge.packetLen).sum

section Charges

variable (cs cs' : List Charge) (len : ℕ) (addr : GuestAddress)

@[simp] theorem bufferLens_nil : bufferLens [] = [] := rfl

@[simp] theorem bufferLens_wrote : bufferLens (.wrote addr len :: cs) = bufferLens cs := rfl

@[simp] theorem bufferLens_buffer : bufferLens (.buffer len :: cs) = len :: bufferLens cs := rfl

@[simp] theorem bufferLens_packet : bufferLens (.packet len :: cs) = bufferLens cs := rfl

@[simp] theorem bufferLens_append : bufferLens (cs ++ cs') = bufferLens cs ++ bufferLens cs' :=
  List.filterMap_append

@[simp] theorem packetBytes_nil : packetBytes [] = 0 := rfl

@[simp] theorem packetBytes_cons (c : Charge) :
    packetBytes (c :: cs) = c.packetLen + packetBytes cs := rfl

@[simp] theorem packetBytes_append : packetBytes (cs ++ cs') = packetBytes cs + packetBytes cs' := by
  rw [packetBytes, List.map_append, List.sum_append]
  rfl

theorem allocated_eq : allocated cs = (bufferLens cs).sum + packetBytes cs := by
  induction cs with
  | nil => rfl
  | cons c cs ih =>
    rw [allocated_cons, ih]
    cases c with
    | wrote addr len => simp [Charge.packetLen]
    | buffer len | packet len => simp [Charge.packetLen]; omega

theorem mem_bufferLens : len ∈ bufferLens cs ↔ .buffer len ∈ cs := by
  rw [bufferLens, List.mem_filterMap]
  constructor
  · rintro ⟨c, hc, hlen⟩
    cases c with
    | buffer n => cases hlen; exact hc
    | wrote addr n | packet n => cases hlen
  · exact fun h => ⟨_, h, rfl⟩

theorem modest_iff (C : ℕ) (m : GuestMemory) :
    Modest C m cs ↔
      (∀ n ∈ bufferLens cs, n ≤ m.size) ∧ (bufferLens cs).sum + packetBytes cs ≤ m.size + C := by
  simp only [mem_bufferLens, ← allocated_eq]
  exact ⟨fun h => ⟨h.refused, h.total⟩, fun h => ⟨h.1, h.2⟩⟩

end Charges

theorem packetBytes_eq_zero {cs : List Charge} (h : ∀ c ∈ cs, c.packetLen = 0) :
    packetBytes cs = 0 := by
  induction cs with
  | nil => rfl
  | cons c cs ih =>
    obtain ⟨hc, hcs⟩ := List.forall_mem_cons.1 h
    rw [packetBytes_cons, hc, ih hcs]

structure Allocates (cs : List Charge) (lens : List ℕ) (k : ℕ) : Prop where
  buffers : bufferLens cs = lens
  packets : packetBytes cs = k

namespace Allocates

variable {cs : List Charge} {lens : List ℕ} {k : ℕ} {cs' : List Charge} {k' : ℕ}

theorem append {lens' : List ℕ} (h : Allocates cs lens k) (h' : Allocates cs' lens' k') :
    Allocates (cs ++ cs') (lens ++ lens') (k + k') :=
  ⟨by rw [bufferLens_append, h.buffers, h'.buffers], by
    rw [packetBytes_append, h.packets, h'.packets]⟩

theorem append_packets (h : Allocates cs lens k) (h' : Allocates cs' [] k') :
    Allocates (cs ++ cs') lens (k + k') :=
  List.append_nil lens ▸ h.append h'

theorem nil : Allocates [] [] 0 := ⟨rfl, rfl⟩

theorem wrote (addr : GuestAddress) (len : ℕ) (h : Allocates cs lens k) :
    Allocates (.wrote addr len :: cs) lens k :=
  ⟨h.buffers, by rw [packetBytes_cons, h.packets, Charge.packetLen, Nat.zero_add]⟩

theorem buffer (len : ℕ) (h : Allocates cs lens k) :
    Allocates (.buffer len :: cs) (len :: lens) k :=
  ⟨by rw [bufferLens_buffer, h.buffers], by
    rw [packetBytes_cons, h.packets, Charge.packetLen, Nat.zero_add]⟩

theorem packet (len : ℕ) (h : Allocates cs lens k) : Allocates (.packet len :: cs) lens (len + k) :=
  ⟨h.buffers, by rw [packetBytes_cons, h.packets, Charge.packetLen]⟩

theorem map (descs : List Descriptor) :
    Allocates (descs.map fun d => .buffer d.len.toNat) (descs.map fun d => d.len.toNat) 0 := by
  induction descs with
  | nil => exact nil
  | cons desc descs ih => exact ih.buffer _

end Allocates

def attempted (m : GuestMemory) : List Descriptor → List Descriptor
  | [] => []
  | desc :: descs =>
    if m.contains desc.addr desc.len.toNat then desc :: attempted m descs else [desc]

def BalloonDevice.pfnCount (m : GuestMemory) (descs : List Descriptor) : ℕ :=
  (descs.map fun desc =>
    (List.range (desc.len.toNat / 4)).countP fun i => m.contains (pfnAddr desc i) 4).sum

variable (backend : BlockDevice.BlockBackend η) (m : GuestMemory) (descs : List Descriptor)

theorem allocates_gatherCost :
    Allocates (gatherCost m descs) ((readBuffers descs).map fun d => d.len.toNat)
      (gather m descs).length := by
  have h := (Allocates.map (readBuffers descs)).append_packets
    (Allocates.nil.packet (gather m descs).length)
  rwa [Nat.zero_add] at h

theorem allocates_scatterCost (left : ℕ) (descs : List Descriptor) :
    Allocates (scatterCost m left descs) [] 0 := by
  induction descs generalizing left with
  | nil => exact .nil
  | cons desc descs ih =>
    rw [scatterCost]
    split_ifs
    · exact ih left
    · exact (ih _).wrote _ _
    · exact .nil

theorem allocates_respCost (n : ℕ) (m : GuestMemory) (descs : List Descriptor) :
    Allocates (respCost n m descs) [] 0 := by
  rw [respCost]
  rcases reqResp descs with - | ⟨req, resp⟩
  · exact .nil
  dsimp only
  split_ifs
  · exact Allocates.nil.wrote _ _
  · exact .nil

theorem allocates_fillCost :
    Allocates (RngDevice.fillCost m descs)
      ((attempted m (descs.filter fun d => d.isWriteOnly)).map fun d => d.len.toNat) 0 := by
  induction descs with
  | nil => exact .nil
  | cons desc descs ih =>
    rw [RngDevice.fillCost]
    by_cases hd : desc.isWriteOnly = true
    · rw [if_neg (by simp [hd]), List.filter_cons_of_pos (by simp [hd]), attempted]
      split_ifs
      · exact (ih.wrote _ _).buffer _
      · exact Allocates.nil.buffer _
    · rw [if_pos (by simp [hd]), List.filter_cons_of_neg (by simp [hd])]
      exact ih

theorem allocates_pfnCost (queueIndex : ℕ) (m : GuestMemory) (desc : Descriptor) (is : List ℕ) :
    Allocates (is.flatMap (BalloonDevice.pfnCost queueIndex m desc)) []
      (if queueIndex = BalloonDevice.inflateQueue then
        4 * is.countP fun i => m.contains (BalloonDevice.pfnAddr desc i) 4
      else 0) := by
  induction is with
  | nil =>
    rw [List.countP_nil, ite_self]
    exact .nil
  | cons i is ih =>
    have hhead : Allocates (BalloonDevice.pfnCost queueIndex m desc i) []
        (if queueIndex = BalloonDevice.inflateQueue then
          4 * if m.contains (BalloonDevice.pfnAddr desc i) 4 = true then 1 else 0
        else 0) := by
      rw [BalloonDevice.pfnCost]
      by_cases hq : queueIndex = BalloonDevice.inflateQueue
      · by_cases hmapped : m.contains (BalloonDevice.pfnAddr desc i) 4 = true
        · rw [if_pos ⟨hq, hmapped⟩, if_pos hq, if_pos hmapped]
          exact Allocates.nil.packet 4
        · rw [if_neg fun h => hmapped h.2, if_pos hq, if_neg hmapped]
          exact .nil
      · rw [if_neg fun h => hq h.1, if_neg hq]
        exact .nil
    have happend := hhead.append_packets ih
    rw [List.countP_cons]
    split_ifs at happend ⊢ with hq
    · rwa [Nat.add_comm] at happend
    · rwa [Nat.add_comm] at happend
    · exact happend

theorem allocates_pfnsCost (queueIndex : ℕ) (m : GuestMemory) (descs : List Descriptor) :
    Allocates (BalloonDevice.pfnsCost queueIndex m descs) []
      (if queueIndex = BalloonDevice.inflateQueue then 4 * BalloonDevice.pfnCount m descs else 0) := by
  induction descs with
  | nil => exact (ite_self 0).symm ▸ Allocates.nil
  | cons desc descs ih =>
    have happend := (allocates_pfnCost queueIndex m desc
      (List.range (desc.len.toNat / 4))).append_packets ih
    split_ifs at happend ⊢ with hq
    · rwa [← Nat.mul_add] at happend
    · exact happend

theorem packetBytes_readCost (payload : List Descriptor) (byteOff : UInt64) (host : η) :
    packetBytes (BlockDevice.readCost backend m payload byteOff host) = 0 := by
  induction payload generalizing byteOff host with
  | nil => rfl
  | cons desc payload ih =>
    rw [BlockDevice.readCost]
    by_cases hd : (!desc.isWriteOnly) = true
    · rw [if_pos hd]
      exact ih byteOff host
    rw [if_neg hd, packetBytes_cons, Charge.packetLen, Nat.zero_add]
    rcases backend.readAt byteOff desc.len.toNat host with ⟨e | buf, host'⟩
    · rfl
    split_ifs
    · rw [packetBytes_cons, Charge.packetLen, Nat.zero_add]
      cases checkedAdd byteOff desc.len.toUInt64 with
      | none => rfl
      | some off => exact ih off host'
    · rfl

theorem packetBytes_performCost (c : BlockDevice.Command) (host : η) :
    packetBytes (BlockDevice.performCost backend m c host) = 0 := by
  rw [BlockDevice.performCost]
  split_ifs
  · cases checkedMul c.sector BlockDevice.sectorSize with
    | none => rfl
    | some off => exact packetBytes_readCost backend m c.payload off host
  · cases checkedMul c.sector BlockDevice.sectorSize with
    | none => rfl
    | some off =>
      refine packetBytes_eq_zero fun charge hcharge => ?_
      obtain ⟨len, rfl⟩ := BlockDevice.mem_writeCost charge hcharge
      rfl
  · cases c.payload with
    | nil => rfl
    | cons desc payload =>
      rw [BlockDevice.idCost]
      split_ifs <;> rfl
  · rfl

theorem allocates_requestCost (host : η) :
    Allocates (BlockDevice.requestCost backend m descs host)
      (match BlockDevice.decode m descs with
      | none => []
      | some c => bufferLens (BlockDevice.performCost backend m c host)) 0 := by
  rw [BlockDevice.requestCost]
  cases BlockDevice.decode m descs with
  | none => exact .nil
  | some c =>
    have hstatus : Allocates (BlockDevice.statusCost m c.status) [] 0 := by
      rw [BlockDevice.statusCost]
      split_ifs
      · exact Allocates.nil.wrote _ _
      · exact .nil
    exact Allocates.append_packets ⟨rfl, packetBytes_performCost backend m c host⟩ hstatus

namespace Service

def wanted (s : Service η) (descs : List Descriptor) (w : World η) : List ℕ :=
  match s with
  | .block backend _ =>
    match BlockDevice.decode w.mem descs with
    | none => []
    -- The payload descriptors that a read or a write gets to.
    | some c => bufferLens (BlockDevice.performCost backend w.mem c w.host)
  | .netTx _ _ => (readBuffers descs).map fun d => d.len.toNat
  | .vsockTx _ => (readBuffers descs).map fun d => d.len.toNat
  | .rng _ => (attempted w.mem (descs.filter fun d => d.isWriteOnly)).map fun d => d.len.toNat
  | .console _ => ((readBuffers descs).filter fun d => d.len ≠ 0).map fun d => d.len.toNat
  | _ => []

def packets (s : Service η) (descs : List Descriptor) (w : World η) : ℕ :=
  match s with
  | .netTx _ _ =>
    (gather w.mem descs).length + ((gather w.mem descs).length - NetDevice.virtioNetHdrLen)
  | .netRx frame => NetDevice.virtioNetHdrLen + frame.length
  | .vsockTx _ =>
    (gather w.mem descs).length + min (VsockDevice.lenField (gather w.mem descs))
      ((gather w.mem descs).length - VsockDevice.hdrSize)
  | .vsockRx pkt => VsockDevice.hdrSize + pkt.payload.length
  | .balloon queueIndex =>
    if queueIndex = BalloonDevice.inflateQueue then 4 * BalloonDevice.pfnCount w.mem descs else 0
  | _ => 0

def Fits (C : ℕ) (s : Service η) (d : Drain s.Own η) : Prop :=
  ∀ descs w, s.next d = some (.ok descs, w) →
    (∀ n ∈ s.wanted descs w, n ≤ d.world.mem.size) ∧
      (s.wanted descs w).sum + s.packets descs w ≤ d.world.mem.size + C

theorem allocates_costOn (s : Service η) (descs : List Descriptor) (w : World η) :
    Allocates (s.costOn descs w) (s.wanted descs w) (s.packets descs w) := by
  cases s with
  | block backend driveId => exact allocates_requestCost backend w.mem descs w.host
  | netTx backend interceptor =>
    refine (allocates_gatherCost w.mem descs).append_packets ?_
    split_ifs with hlen
    · exact Allocates.nil.packet _
    · rw [Nat.sub_eq_zero_of_le (not_lt.1 hlen)]
      exact .nil
  | netRx frame | vsockRx pkt => exact (allocates_scatterCost w.mem _ descs).packet _
  | vsockTx muxer =>
    refine (allocates_gatherCost w.mem descs).append_packets ?_
    split_ifs with hlen
    · rw [Nat.sub_eq_zero_of_le hlen.le, Nat.min_zero]
      exact .nil
    · exact Allocates.nil.packet _
  | mem backend config => exact allocates_respCost 2 w.mem descs
  | balloon queueIndex => exact allocates_pfnsCost queueIndex w.mem descs
  | balloonStats => exact .nil
  | rng source => exact allocates_fillCost w.mem descs
  | console sink => exact .map _
  | pmem => exact allocates_respCost 4 w.mem descs

/-- **Host memory for a chain**: the buffers that an iteration allocates are modest exactly if what
the chain asks for fits into guest memory. -/
theorem allocation_iff (C : ℕ) (s : Service η) (onEmpty : s.Own → s.Own) (d : Drain s.Own η) :
    (∃ c, serve s.queue s.handler onEmpty d = .ok c) ∧
      (Modest C d.world.mem (s.spent d) ↔ s.Fits C d) := by
  obtain ⟨c, -, hserve, -⟩ := s.serve_pushes onEmpty d
  refine ⟨⟨c, hserve⟩, ?_⟩
  rw [modest_iff, Fits]
  cases hnext : s.next d with
  | none => simp [spent, hnext]
  | some p =>
    obtain ⟨r, w⟩ := p
    cases r with
    | error e => simp [spent_eq_nil hnext]
    | ok descs =>
      have hallocates := s.allocates_costOn descs w
      rw [spent_eq_costOn hnext, hallocates.buffers, hallocates.packets]
      constructor
      · rintro h _ _ ⟨⟩
        exact h
      · exact fun h => h descs w rfl

end Service

section Scenario

def zeros : RngDevice.EntropySource Unit := ⟨fun len host => (Vector.replicate len 0, host)⟩

def greedy : Drain Unit Unit where
  queue := {
    maxSize := RngDevice.queueMaxSize, size := 4, ready := true, descTableAddr := 0x1000
    availRingAddr := 0x1040, usedRingAddr := 0x1050, nextAvailIdx := 0, nextUsedIdx := 0 }
  own := ()
  world := .start (ringMemory [⟨0x9000, 0xFFFFFFFF, virtqDescFWrite, 0⟩] 1) ()
  completed := false

/-- A buffer of 4 GiB is allocated for a descriptor that does not fit into guest memory. -/
theorem allocation_unbounded :
    greedy.world.mem.size = 256 ∧ (Service.rng zeros).spent greedy = [.buffer 0xFFFFFFFF] ∧
      ¬ ∃ C, Modest C greedy.world.mem ((Service.rng zeros).spent greedy) := by
  have hsize : greedy.world.mem.size = 256 := by decide +kernel
  have hnext : ∃ w, (Service.rng zeros).next greedy =
      some (.ok [⟨0x9000, 0xFFFFFFFF, virtqDescFWrite, 0⟩], w) ∧
      RngDevice.fillCost w.mem [⟨0x9000, 0xFFFFFFFF, virtqDescFWrite, 0⟩] = [.buffer 0xFFFFFFFF] := by
    have hran : (((Service.rng zeros).next greedy).any fun p =>
        p.1.toOption = some [⟨0x9000, 0xFFFFFFFF, virtqDescFWrite, 0⟩] ∧
          RngDevice.fillCost p.2.mem [⟨0x9000, 0xFFFFFFFF, virtqDescFWrite, 0⟩] =
            [.buffer 0xFFFFFFFF]) = true := by
      decide +kernel
    obtain ⟨⟨r, w⟩, hsome, hp⟩ := (Option.any_eq_true _ _).1 hran
    obtain ⟨hwalk, hcost⟩ := of_decide_eq_true hp
    cases r with
    | error e => cases hwalk
    | ok descs =>
      cases hwalk
      exact ⟨w, hsome, hcost⟩
  obtain ⟨w, hnext, hcost⟩ := hnext
  have hspent : (Service.rng zeros).spent greedy = [.buffer 0xFFFFFFFF] :=
    (Service.spent_eq_costOn hnext).trans hcost
  refine ⟨hsize, hspent, ?_⟩
  rintro ⟨C, h⟩
  have hle := h.refused 0xFFFFFFFF (by rw [hspent]; exact List.mem_singleton_self _)
  omega

end Scenario

end Squib
