import Squib.Virtio.System

/-!
# Transmission of whole frames
-/

namespace Squib.NetDevice

open Checked Loop

variable {η : Type}

/-! ## The record -/

inductive Egress where
  | offered (frame : Frame) (consumed : Bool)
  | sent (frame : Frame)
  deriving DecidableEq, Repr

def NetBackend.logging (backend : NetBackend η) : NetBackend (η × List Egress) where
  send frame host := (backend.send frame host.1, host.2 ++ [.sent frame])
  recv host := ((backend.recv host.1).1, (backend.recv host.1).2, host.2)

def FrameInterceptor.logging (interceptor : FrameInterceptor η) :
    FrameInterceptor (η × List Egress) where
  interceptTx frame host :=
    let (consumed, host') := interceptor.interceptTx frame host.1
    (consumed, host', host.2 ++ [.offered frame consumed])
  drainRx host := ((interceptor.drainRx host.1).1, (interceptor.drainRx host.1).2, host.2)

def transmitChain (backend : NetBackend η) (interceptor : FrameInterceptor η) : Handler Unit η :=
  onChain fun descs own w =>
    let frameBytes := gather w.mem descs
    if virtioNetHdrLen < frameBytes.length then do
      let payload ← slice frameBytes virtioNetHdrLen frameBytes.length
      .ok (.complete 0, own, { w with host := transmit backend interceptor payload w.host })
    else .ok (.skip, own, w)

theorem drainTx_eq (backend : NetBackend η) (interceptor : FrameInterceptor η) (fuel : ℕ) :
    drainTx backend interceptor fuel = drain fuel txQueue (transmitChain backend interceptor) := rfl

/-! ## Whole frames -/

def bufferBytes (m : GuestMemory) (desc : Descriptor) : Option (List UInt8) :=
  if desc.len = 0 then some [] else (m.read desc.addr desc.len.toNat).toOption

def wholeBytes (m : GuestMemory) : List Descriptor → Option (List UInt8)
  | [] => some []
  | desc :: descs =>
    if desc.isWriteOnly then wholeBytes m descs
    else (bufferBytes m desc).bind fun buf => (wholeBytes m descs).map (buf ++ ·)

def Readable (m : GuestMemory) (desc : Descriptor) : Prop :=
  desc.isWriteOnly = false → desc.len ≠ 0 → m.contains desc.addr desc.len.toNat = true

variable {m : GuestMemory} {desc : Descriptor} {descs : List Descriptor}

theorem bufferBytes_eq_readable (hr : desc.isWriteOnly = false) (h : Readable m desc) :
    bufferBytes m desc = some (readable m desc) := by
  have hread : ¬ desc.isWriteOnly = true := by simp [hr]
  rw [bufferBytes, readable, if_neg hread]
  by_cases hlen : desc.len = 0
  · rw [if_pos hlen, hlen, GuestMemory.read]
    split_ifs <;> rfl
  · rw [if_neg hlen, GuestMemory.read, if_pos (h hr hlen)]
    rfl

theorem bufferBytes_eq_none (h : ¬ Readable m desc) : bufferBytes m desc = none := by
  simp only [Readable, Classical.not_imp] at h
  obtain ⟨-, hlen, hmapped⟩ := h
  rw [bufferBytes, if_neg hlen, GuestMemory.read, if_neg hmapped]
  rfl

theorem wholeBytes_of_readable (h : ∀ desc ∈ descs, Readable m desc) :
    wholeBytes m descs = some (gather m descs) := by
  induction descs with
  | nil => rfl
  | cons desc descs ih =>
    obtain ⟨hd, hdescs⟩ := List.forall_mem_cons.1 h
    rw [wholeBytes, ih hdescs, show gather m (desc :: descs) = readable m desc ++ gather m descs
      from List.flatMap_cons]
    split_ifs with hr
    · rw [readable, if_pos hr, List.nil_append]
    · rw [bufferBytes_eq_readable (by simpa using hr) hd]
      rfl

theorem readable_of_wholeBytes {whole : List UInt8} (h : wholeBytes m descs = some whole) :
    ∀ desc ∈ descs, Readable m desc := by
  induction descs generalizing whole with
  | nil => simp
  | cons desc descs ih =>
    rw [wholeBytes] at h
    split_ifs at h with hr
    · exact List.forall_mem_cons.2 ⟨fun hro => absurd (hr.symm.trans hro) (by simp), ih h⟩
    · obtain ⟨buf, hbuf, h⟩ := Option.bind_eq_some_iff.1 h
      obtain ⟨rest, hrest, -⟩ := Option.map_eq_some_iff.1 h
      refine List.forall_mem_cons.2 ⟨?_, ih hrest⟩
      by_contra hd
      rw [bufferBytes_eq_none hd] at hbuf
      cases hbuf

/-! ## One chain -/

def nextChain (d : Drain Unit η) : Option (List Descriptor) :=
  match (d.queue.popAvail d.world.mem).1 with
  | .ok (some chain) => (chain.collect d.world.mem).toOption
  | _ => none

def Handed (frame : Frame) (new : List Egress) : Prop :=
  new = [.offered frame true] ∨ new = [.offered frame false, .sent frame]

def WholeOrNone (d d' : Drain Unit (η × List Egress)) : Prop :=
  d'.world.host.2 = d.world.host.2 ∨
    ∃ descs whole new, nextChain d = some descs ∧ wholeBytes d.world.mem descs = some whole ∧
      d'.world.host.2 = d.world.host.2 ++ new ∧ Handed (whole.drop virtioNetHdrLen) new

def Uncut (d : Drain Unit η) : Prop :=
  ∀ descs, nextChain d = some descs →
    (gather d.world.mem descs).length ≤ virtioNetHdrLen ∨ ∀ desc ∈ descs, Readable d.world.mem desc

variable {backend : NetBackend η} {interceptor : FrameInterceptor η}

theorem transmit_handed (frame : Frame) (host : η × List Egress) :
    ∃ new, (transmit backend.logging interceptor.logging frame host).2 = host.2 ++ new ∧
      Handed frame new := by
  simp only [transmit, FrameInterceptor.logging]
  cases (interceptor.interceptTx frame host.1).1 with
  | true => exact ⟨_, rfl, .inl rfl⟩
  | false => exact ⟨_, List.append_assoc _ _ _, .inr rfl⟩

theorem serve_transmitChain (backend : NetBackend η) (interceptor : FrameInterceptor η)
    (d : Drain Unit (η × List Egress)) :
    Returns (serve txQueue (transmitChain backend.logging interceptor.logging) id d) fun c =>
      match nextChain d with
      | none => c.state.world.host.2 = d.world.host.2
      | some descs =>
        if virtioNetHdrLen < (gather d.world.mem descs).length then
          ∃ new, c.state.world.host.2 = d.world.host.2 ++ new ∧
            Handed ((gather d.world.mem descs).drop virtioNetHdrLen) new
        else c.state.world.host.2 = d.world.host.2 := by
  rw [serve, nextChain]
  rcases d.queue.popAvail d.world.mem with ⟨_ | _ | chain, q⟩
  · exact returns_ok rfl
  · exact returns_ok rfl
  · dsimp only
    rw [show (d.world.emit (.popped txQueue d.queue d.world.mem chain)).mem = d.world.mem from rfl]
    cases chain.collect d.world.mem with
    | error e => exact returns_ok rfl
    | ok descs =>
      simp only [transmitChain, onChain, Except.toOption]
      rw [show (d.world.emit (.popped txQueue d.queue d.world.mem chain)).mem = d.world.mem from rfl]
      by_cases hlen : virtioNetHdrLen < (gather d.world.mem descs).length
      · obtain ⟨payload, hslice, hpayload, -⟩ := returns_slice hlen.le (le_refl _)
        rw [List.take_of_length_le (by rw [List.length_drop])] at hpayload
        rw [if_pos hlen, hslice, hpayload]
        refine returns_ok ?_
        rw [if_pos hlen, (settle_keeps _ _ _ _).2]
        exact transmit_handed _ d.world.host
      · rw [if_neg hlen]
        refine returns_ok ?_
        rw [if_neg hlen, (settle_keeps _ _ _ _).2]
        rfl

theorem transmit_whole_iff (backend : NetBackend η) (interceptor : FrameInterceptor η)
    (d : Drain Unit (η × List Egress)) :
    ∃ c, serve txQueue (transmitChain backend.logging interceptor.logging) id d = .ok c ∧
      (WholeOrNone d c.state ↔ Uncut d) := by
  obtain ⟨c, hc, hpost⟩ := serve_transmitChain backend interceptor d
  refine ⟨c, hc, ?_⟩
  rw [WholeOrNone, Uncut]
  cases hchain : nextChain d with
  | none =>
    rw [hchain] at hpost
    exact iff_of_true (.inl hpost) (by simp)
  | some descs =>
    rw [hchain] at hpost
    dsimp only at hpost
    split_ifs at hpost with hlen
    · obtain ⟨new, hnew, hhanded⟩ := hpost
      have hsome : new ≠ [] := by
        obtain rfl | rfl := hhanded <;> simp
      constructor
      · rintro (hnone | ⟨descs', whole, new', hdescs, hwhole, -⟩) descs'' hdescs''
        · exact absurd (List.append_right_eq_self.1 (hnew.symm.trans hnone)) hsome
        · cases hdescs
          cases hdescs''
          exact .inr (readable_of_wholeBytes hwhole)
      · intro huncut
        obtain hshort | hall := huncut descs rfl
        · omega
        · exact .inr ⟨descs, _, new, rfl, wholeBytes_of_readable hall, hnew, hhanded⟩
    · refine iff_of_true (.inl hpost) fun descs' hdescs' => ?_
      cases hdescs'
      exact .inl (not_lt.1 hlen)

section Scenario

def holedChain : List Descriptor :=
  [⟨0x1080, 12, virtqDescFNext, 1⟩, ⟨0x9000, 100, virtqDescFNext, 2⟩, ⟨0x1090, 4, 0, 0⟩]

def holedDrain : Drain Unit (Unit × List Egress) where
  queue := {
    maxSize := queueMaxSize, size := 4, ready := true, descTableAddr := 0x1000
    availRingAddr := 0x1040, usedRingAddr := 0x1050, nextAvailIdx := 0, nextUsedIdx := 0 }
  own := ()
  world := .start (ringMemory holedChain 1) ((), [])
  completed := false

def passing : FrameInterceptor Unit := ⟨fun _ host => (false, host), fun host => ([], host)⟩
def absorbing : NetBackend Unit := ⟨fun _ host => host, fun host => ([], host)⟩

/-- Of a frame of 104 bytes, the four that can be read are sent. -/
theorem transmit_cut :
    ∃ c, serve txQueue (transmitChain absorbing.logging passing.logging) id holedDrain = .ok c ∧
      c.state.world.host.2 = [.offered [0, 0, 0, 0] false, .sent [0, 0, 0, 0]] ∧
      ¬ WholeOrNone holedDrain c.state := by
  have hran : ((serve txQueue (transmitChain absorbing.logging passing.logging) id
      holedDrain).toOption.any fun c =>
        c.state.world.host.2 = [.offered [0, 0, 0, 0] false, .sent [0, 0, 0, 0]]) = true := by
    decide +kernel
  have hchain : nextChain holedDrain = some holedChain := by decide +kernel
  have hwhole : wholeBytes holedDrain.world.mem holedChain = none := by decide +kernel
  obtain ⟨c, hc, -⟩ := serve_transmitChain absorbing passing holedDrain
  rw [hc] at hran
  have hhost := of_decide_eq_true hran
  refine ⟨c, hc, hhost, ?_⟩
  rintro (hnone | ⟨descs, whole, new, hdescs, hsome, -⟩)
  · rw [hhost] at hnone
    cases hnone
  · cases hchain.symm.trans hdescs
    cases hwhole.symm.trans hsome

end Scenario

end Squib.NetDevice
