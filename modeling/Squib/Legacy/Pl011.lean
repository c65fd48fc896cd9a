import Squib.Arch.Gic
import Squib.Bus
import Squib.Lib.Bytes

/-!
# The PL011 UART
-/

namespace Squib.Legacy

open Bytes

/-! ## Registers -/

def FR_TX_EMPTY : UInt32 := 0x80
def FR_RX_EMPTY : UInt32 := 0x10
def IMSC_RX : UInt32 := 0x10
def INT_RX : UInt32 := 0x10

def PERIPH_PCELL_ID : List (UInt64 × UInt32) :=
  [(0xFE0, 0x11), (0xFE4, 0x10), (0xFE8, 0x14), (0xFEC, 0x00), (0xFF0, 0x0D), (0xFF4, 0xF0),
    (0xFF8, 0x05), (0xFFC, 0xB1)]

inductive GicError where
  | hvf (msg : String)
  | unsupportedHost
  deriving DecidableEq, Repr

structure Wiring (κ γ : Type) where
  writeByte : UInt8 → κ → κ
  setSpiLevel : IntId → Bool → γ → Except GicError Unit × γ
  level : IntId → γ → Bool

def Wiring.Reliable {κ γ : Type} (wiring : Wiring κ γ) : Prop :=
  ∀ intid asserted gic, (wiring.setSpiLevel intid asserted gic).1 = .ok () ∧
    wiring.level intid (wiring.setSpiLevel intid asserted gic).2 = asserted

structure Pl011 (κ γ : Type) where
  sink : κ
  rxQueue : List UInt8 := []
  imsc : UInt32 := 0
  ris : UInt32 := 0
  ibrd : UInt32 := 0
  fbrd : UInt32 := 0
  lcrh : UInt32 := 0
  cr : UInt32 := 0
  iflss : UInt32 := 0
  dmacr : UInt32 := 0
  ilpr : UInt32 := 0
  gic : γ
  intid : IntId

namespace Pl011

variable {κ γ : Type} (wiring : Wiring κ γ)

def drive (asserted : Bool) (u : Pl011 κ γ) : Pl011 κ γ :=
  { u with gic := (wiring.setSpiLevel u.intid asserted u.gic).2 }

def pushRx (byte : UInt8) (u : Pl011 κ γ) : ℕ × Pl011 κ γ :=
  let u := { u with rxQueue := u.rxQueue ++ [byte], ris := u.ris ||| INT_RX }
  let u := if u.imsc &&& IMSC_RX ≠ 0 then u.drive wiring true else u
  (u.rxQueue.length, u)

def frValue (u : Pl011 κ γ) : UInt32 :=
  if u.rxQueue.isEmpty then FR_TX_EMPTY ||| FR_RX_EMPTY else FR_TX_EMPTY

def readDr (u : Pl011 κ γ) : UInt32 × Pl011 κ γ :=
  match u.rxQueue with
  | [] => (0, u)
  | b :: rest =>
    let u := { u with rxQueue := rest }
    let u := if rest.isEmpty then ({ u with ris := u.ris &&& ~~~INT_RX } : Pl011 κ γ).drive wiring false
      else u
    (b.toUInt32, u)

def writeDr (value : UInt32) (u : Pl011 κ γ) : Pl011 κ γ :=
  { u with sink := wiring.writeByte value.toUInt8 u.sink }

def readRegister (offset : UInt64) (u : Pl011 κ γ) : UInt32 × Pl011 κ γ :=
  match PERIPH_PCELL_ID.lookup offset with
  | some value => (value, u)
  | none =>
    if offset = 0x000 then u.readDr wiring
    else if offset = 0x004 then (0, u)
    else if offset = 0x018 then (u.frValue, u)
    else if offset = 0x020 then (u.ilpr, u)
    else if offset = 0x024 then (u.ibrd, u)
    else if offset = 0x028 then (u.fbrd, u)
    else if offset = 0x02C then (u.lcrh, u)
    else if offset = 0x030 then (u.cr, u)
    else if offset = 0x034 then (u.iflss, u)
    else if offset = 0x038 then (u.imsc, u)
    else if offset = 0x03C then (u.ris, u)
    else if offset = 0x040 then (u.ris &&& u.imsc, u)
    else if offset = 0x048 then (u.dmacr, u)
    else (0, u)

def reevaluate (u : Pl011 κ γ) : Pl011 κ γ := u.drive wiring (u.imsc &&& u.ris &&& INT_RX != 0)

def writeRegister (offset : UInt64) (value : UInt32) (u : Pl011 κ γ) : Pl011 κ γ :=
  if offset = 0x000 then u.writeDr wiring value
  else if offset = 0x004 then u
  else if offset = 0x020 then { u with ilpr := value }
  else if offset = 0x024 then { u with ibrd := value }
  else if offset = 0x028 then { u with fbrd := value }
  else if offset = 0x02C then { u with lcrh := value }
  else if offset = 0x030 then { u with cr := value }
  else if offset = 0x034 then { u with iflss := value }
  else if offset = 0x038 then ({ u with imsc := value } : Pl011 κ γ).reevaluate wiring
  else if offset = 0x044 then ({ u with ris := u.ris &&& ~~~value } : Pl011 κ γ).reevaluate wiring
  else if offset = 0x048 then { u with dmacr := value }
  else u

def busDevice : BusDevice (Pl011 κ γ) where
  read offset data u :=
    let (v, u) := u.readRegister wiring offset
    (data.mapIdx fun i _ => (leBytes 4 v.toNat).getD i 0, u)
  write offset data u :=
    u.writeRegister wiring offset (.ofNat (leNat ((data ++ List.replicate 4 0).take 4)))
  length_read _ _ _ := List.length_mapIdx

/-! ## Operations -/

structure Settled (u : Pl011 κ γ) : Prop where
  line : wiring.level u.intid u.gic = (u.imsc &&& u.ris &&& INT_RX != 0)
  clear : u.rxQueue = [] → u.ris &&& INT_RX = 0

variable {wiring} {u : Pl011 κ γ}

theorem level_drive (hwiring : wiring.Reliable) (asserted : Bool) :
    wiring.level (u.drive wiring asserted).intid (u.drive wiring asserted).gic = asserted :=
  (hwiring u.intid asserted u.gic).2

theorem settled_drive (hwiring : wiring.Reliable) {asserted : Bool}
    (hline : asserted = (u.imsc &&& u.ris &&& INT_RX != 0))
    (hclear : u.rxQueue = [] → u.ris &&& INT_RX = 0) : Settled wiring (u.drive wiring asserted) :=
  ⟨(level_drive hwiring asserted).trans hline, hclear⟩

theorem or_and_self (x m : UInt32) : (x ||| m) &&& m = m := by
  refine UInt32.toBitVec_inj.1 ?_
  ext i
  simp only [UInt32.toBitVec_and, UInt32.toBitVec_or, BitVec.getElem_and]
  grind

theorem rxQueue_pushRx (byte : UInt8) : (u.pushRx wiring byte).2.rxQueue = u.rxQueue ++ [byte] := by
  simp only [pushRx]
  split_ifs <;> rfl

theorem settled_pushRx (hwiring : wiring.Reliable) (hu : Settled wiring u) (byte : UInt8) :
    Settled wiring (u.pushRx wiring byte).2 := by
  -- With a byte in the queue the line follows the mask.
  have hmasked : u.imsc &&& (u.ris ||| INT_RX) &&& INT_RX = u.imsc &&& IMSC_RX := by
    rw [UInt32.and_assoc, or_and_self]
    rfl
  simp only [pushRx]
  split_ifs with hmask
  · refine settled_drive hwiring ?_ (by simp)
    simpa [hmasked] using hmask
  · refine ⟨?_, by simp⟩
    have hzero : u.imsc &&& IMSC_RX = 0 := not_not.1 hmask
    have hidle : u.imsc &&& u.ris &&& INT_RX = 0 := by
      rw [UInt32.and_assoc, UInt32.and_comm u.ris, ← UInt32.and_assoc]
      exact (congrArg (· &&& u.ris) hzero).trans UInt32.zero_and
    exact hu.line.trans (by rw [hidle, hmasked, hzero])

theorem rxQueue_readDr : (u.readDr wiring).2.rxQueue = u.rxQueue.tail := by
  rw [readDr]
  split
  · next h => rw [h, List.tail_nil]
  · next h =>
    rw [h]
    split_ifs <;> rfl

theorem settled_readDr (hwiring : wiring.Reliable) (hu : Settled wiring u) :
    Settled wiring (u.readDr wiring).2 := by
  rw [readDr]
  split
  · exact hu
  · next b rest hqueue =>
    split_ifs with hlast
    · -- The status is cleared with the last byte.
      have hclear : u.ris &&& ~~~INT_RX &&& INT_RX = 0 := by
        rw [UInt32.and_assoc, UInt32.not_and_self, UInt32.and_zero]
      refine settled_drive hwiring ?_ fun _ => hclear
      rw [UInt32.and_assoc]
      simp [hclear]
    · exact ⟨hu.line, fun hempty => absurd hempty (by simpa using hlast)⟩

theorem readRegister_zero : u.readRegister wiring 0 = u.readDr wiring := rfl

theorem readRegister_of_ne {offset : UInt64} (h : offset ≠ 0) :
    (u.readRegister wiring offset).2 = u := by
  rw [readRegister]
  split
  · rfl
  · simp only [if_neg h, apply_ite Prod.snd, ite_self]

theorem settled_readRegister (hwiring : wiring.Reliable) (hu : Settled wiring u) (offset : UInt64) :
    Settled wiring (u.readRegister wiring offset).2 := by
  by_cases h : offset = 0
  · subst h
    exact settled_readDr hwiring hu
  · rw [readRegister_of_ne h]
    exact hu

structure Quiet (u u' : Pl011 κ γ) : Prop where
  rxQueue : u'.rxQueue = u.rxQueue
  imsc : u'.imsc = u.imsc
  ris : u'.ris = u.ris
  gic : u'.gic = u.gic
  intid : u'.intid = u.intid

theorem quiet_writeRegister {offset : UInt64} (himsc : offset ≠ 0x038) (hicr : offset ≠ 0x044)
    (value : UInt32) : Quiet u (u.writeRegister wiring offset value) := by
  rw [writeRegister, if_neg himsc, if_neg hicr]
  repeat' refine iteInduction (fun _ => ?_) (fun _ => ?_)
  all_goals exact ⟨rfl, rfl, rfl, rfl, rfl⟩

theorem writeRegister_cases (offset : UInt64) (value : UInt32) :
    u.writeRegister wiring offset value = ({ u with imsc := value } : Pl011 κ γ).reevaluate wiring ∨
      u.writeRegister wiring offset value =
        ({ u with ris := u.ris &&& ~~~value } : Pl011 κ γ).reevaluate wiring ∨
      Quiet u (u.writeRegister wiring offset value) := by
  by_cases himsc : offset = 0x038
  · subst himsc
    exact .inl rfl
  by_cases hicr : offset = 0x044
  · subst hicr
    exact .inr (.inl rfl)
  · exact .inr (.inr (quiet_writeRegister himsc hicr value))

theorem rxQueue_writeRegister (offset : UInt64) (value : UInt32) :
    (u.writeRegister wiring offset value).rxQueue = u.rxQueue := by
  obtain h | h | h := @writeRegister_cases _ _ wiring u offset value
  · rw [h]
    rfl
  · rw [h]
    rfl
  · exact h.rxQueue

theorem settled_writeRegister (hwiring : wiring.Reliable) (hu : Settled wiring u) (offset : UInt64)
    (value : UInt32) : Settled wiring (u.writeRegister wiring offset value) := by
  obtain h | h | h := @writeRegister_cases _ _ wiring u offset value
  · rw [h]
    exact settled_drive hwiring rfl hu.clear
  · rw [h]
    refine settled_drive hwiring rfl fun hempty => ?_
    -- A status bit that is clear stays clear.
    rw [UInt32.and_assoc, UInt32.and_comm (~~~value), ← UInt32.and_assoc, hu.clear hempty,
      UInt32.zero_and]
  · constructor
    · rw [h.imsc, h.ris, h.gic, h.intid]
      exact hu.line
    · rw [h.rxQueue, h.ris]
      exact hu.clear

/-! ## Runs -/

inductive Op where
  | pushRx (byte : UInt8)
  | read (offset : UInt64)
  | write (offset : UInt64) (value : UInt32)

structure History (κ γ : Type) where
  uart : Pl011 κ γ
  pushed : List UInt8 := []
  received : List UInt32 := []

def History.step (wiring : Wiring κ γ) (h : History κ γ) : Op → History κ γ
  | .pushRx byte =>
    { h with uart := (h.uart.pushRx wiring byte).2, pushed := h.pushed ++ [byte] }
  | .read offset =>
    let (value, uart) := h.uart.readRegister wiring offset
    let taken := if offset = 0x000 ∧ h.uart.rxQueue ≠ [] then [value] else []
    { h with uart, received := h.received ++ taken }
  | .write offset value => { h with uart := h.uart.writeRegister wiring offset value }

def History.run (wiring : Wiring κ γ) (sink : κ) (gic : γ) (intid : IntId) (ops : List Op) :
    History κ γ :=
  ops.foldl (History.step wiring) { uart := { sink, gic, intid } }

def History.Ordered (h : History κ γ) : Prop :=
  h.pushed.map UInt8.toUInt32 = h.received ++ h.uart.rxQueue.map UInt8.toUInt32

theorem fst_readDr {b : UInt8} {rest : List UInt8} (h : u.rxQueue = b :: rest) :
    (u.readDr wiring).1 = b.toUInt32 := by
  rw [readDr]
  split
  · next h' => rw [h'] at h; cases h
  · next h' =>
    rw [h'] at h
    cases h
    rfl

theorem History.ordered_step {h : History κ γ} (hh : h.Ordered) (op : Op) :
    (h.step wiring op).Ordered := by
  cases op with
  | pushRx byte =>
    have hpush : (h.pushed ++ [byte]).map UInt8.toUInt32 =
        h.received ++ (h.uart.rxQueue ++ [byte]).map UInt8.toUInt32 := by
      rw [List.map_append, List.map_append, ← List.append_assoc, hh]
    simpa only [Ordered, step, rxQueue_pushRx] using hpush
  | write offset value => simpa [Ordered, step, rxQueue_writeRegister] using hh
  | read offset =>
    by_cases h0 : offset = 0
    · subst h0
      simp only [Ordered, step, readRegister_zero, rxQueue_readDr]
      cases hqueue : h.uart.rxQueue with
      | nil => simpa [Ordered, hqueue] using hh
      | cons b rest => simpa [Ordered, hqueue, fst_readDr hqueue] using hh
    · simpa [step, h0, readRegister_of_ne] using hh

theorem History.settled_step (hwiring : wiring.Reliable) {h : History κ γ}
    (hh : Settled wiring h.uart) (op : Op) : Settled wiring (h.step wiring op).uart := by
  cases op with
  | pushRx byte => exact settled_pushRx hwiring hh byte
  | read offset => exact settled_readRegister hwiring hh offset
  | write offset value => exact settled_writeRegister hwiring hh offset value

theorem History.run_settled_ordered (hwiring : wiring.Reliable) (sink : κ) {gic : γ} {intid : IntId}
    (hlow : wiring.level intid gic = false) (ops : List Op) :
    Settled wiring (run wiring sink gic intid ops).uart ∧ (run wiring sink gic intid ops).Ordered := by
  refine List.foldlRecOn (motive := fun h : History κ γ => Settled wiring h.uart ∧ h.Ordered) ops _
    ⟨⟨?_, fun _ => UInt32.zero_and⟩, rfl⟩ fun h hh op _ => ?_
  · simpa using hlow
  · exact ⟨settled_step hwiring hh.1 op, ordered_step hh.2 op⟩

theorem fr_rx_empty : (u.readRegister wiring 0x018).1 &&& FR_RX_EMPTY ≠ 0 ↔ u.rxQueue = [] := by
  change u.frValue &&& FR_RX_EMPTY ≠ 0 ↔ _
  rw [frValue, ← List.isEmpty_iff]
  split_ifs with h
  · exact iff_of_true (by decide) h
  · exact iff_of_false (by decide) h

/-- **The UART is consistent after every sequence of operations**: line, status, `DR` and `FR`. -/
theorem uart_consistent (hwiring : wiring.Reliable) (sink : κ) {gic : γ} {intid : IntId}
    (hlow : wiring.level intid gic = false) (ops : List Op) :
    let h := History.run wiring sink gic intid ops
    wiring.level h.uart.intid h.uart.gic = (h.uart.imsc &&& h.uart.ris &&& INT_RX != 0) ∧
      h.received <+: h.pushed.map UInt8.toUInt32 ∧
      ((h.uart.readRegister wiring 0x018).1 &&& FR_RX_EMPTY ≠ 0 ↔
        h.received = h.pushed.map UInt8.toUInt32) ∧
      (h.uart.rxQueue = [] → h.uart.ris &&& INT_RX = 0) := by
  intro h
  obtain ⟨hsettled, hordered⟩ := History.run_settled_ordered hwiring sink hlow ops
  refine ⟨hsettled.line, ⟨_, hordered.symm⟩, ?_, hsettled.clear⟩
  rw [fr_rx_empty, show h.pushed.map UInt8.toUInt32 = _ from hordered, List.self_eq_append_right,
    List.map_eq_nil_iff]

section Scenario

def oneLine : Wiring (List UInt8) Bool where
  writeByte byte sink := sink ++ [byte]
  setSpiLevel _ asserted _ := (.ok (), asserted)
  level _ line := line

theorem oneLine_reliable : oneLine.Reliable := fun _ _ _ => ⟨rfl, rfl⟩

/-- Two bytes with the interrupt unmasked between them, one read: the line is still high. -/
theorem uart_consistent_two_bytes :
    let h := History.run oneLine [] false ⟨33, by decide⟩
      [.pushRx 0x61, .write 0x038 0x10, .pushRx 0x62, .read 0x000]
    h.received = [0x61] ∧ h.uart.gic = true ∧
      ((h.uart.readRegister oneLine 0x018).1 &&& FR_RX_EMPTY ≠ 0 ↔
        h.received = h.pushed.map UInt8.toUInt32) :=
  ⟨by decide, by decide, (uart_consistent oneLine_reliable [] rfl _).2.2.1⟩

end Scenario

end Pl011

end Squib.Legacy
