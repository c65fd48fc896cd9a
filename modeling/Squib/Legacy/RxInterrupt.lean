import Mathlib.Data.List.Induction
import Squib.Legacy.Pl011
import Squib.Lib.Bits

/-!
# The receive interrupt of the PL011
-/

namespace Squib.Legacy.Pl011

variable {κ γ : Type} (wiring : Wiring κ γ)

def Announced (u : Pl011 κ γ) : Prop :=
  u.imsc &&& IMSC_RX ≠ 0 → u.rxQueue ≠ [] → wiring.level u.intid u.gic = true

def Undisturbed (u : Pl011 κ γ) : Op → Prop
  | .write offset value =>
    u.rxQueue ≠ [] →
      (offset = 0x044 → u.imsc &&& IMSC_RX ≠ 0 → value &&& INT_RX = 0) ∧
      (offset = 0x038 → value &&& IMSC_RX ≠ 0 → u.ris &&& INT_RX ≠ 0)
  | _ => True

def step (u : Pl011 κ γ) : Op → Pl011 κ γ
  | .pushRx byte => (u.pushRx wiring byte).2
  | .read offset => (u.readRegister wiring offset).2
  | .write offset value => u.writeRegister wiring offset value

variable {wiring} {u : Pl011 κ γ}

theorem and_rx_ne_zero (x : UInt32) : x &&& INT_RX ≠ 0 ↔ x.toBitVec.getLsbD 4 = true := by
  rw [← Bits.and_shiftLeft_ne_zero x.toBitVec (by decide : 4 < 32), bne_iff_ne, ne_eq, ne_eq,
    ← UInt32.toBitVec_inj]
  rfl

theorem level_reevaluate (hwiring : wiring.Reliable) :
    wiring.level (u.reevaluate wiring).intid (u.reevaluate wiring).gic = true ↔
      u.imsc &&& INT_RX ≠ 0 ∧ u.ris &&& INT_RX ≠ 0 := by
  rw [reevaluate, level_drive hwiring, bne_iff_ne, and_rx_ne_zero, and_rx_ne_zero, and_rx_ne_zero,
    UInt32.toBitVec_and, BitVec.getLsbD_and, Bool.and_eq_true]

theorem announced_pushRx (hwiring : wiring.Reliable) (byte : UInt8) :
    Announced wiring (u.pushRx wiring byte).2 := by
  intro hmask _
  simp only [pushRx] at hmask ⊢
  split_ifs at hmask ⊢ with h
  · exact level_drive hwiring true
  · exact absurd hmask h

theorem announced_readDr (hu : Announced wiring u) : Announced wiring (u.readDr wiring).2 := by
  rw [readDr]
  split
  · exact hu
  · next b rest hqueue =>
    dsimp only
    split_ifs with hlast
    · exact fun _ hne => absurd (List.isEmpty_iff.1 hlast) hne
    · exact fun hmask _ => hu hmask (by simp [hqueue])

theorem announced_readRegister (hu : Announced wiring u) (offset : UInt64) :
    Announced wiring (u.readRegister wiring offset).2 := by
  by_cases h : offset = 0
  · subst h
    exact announced_readDr hu
  · rw [readRegister_of_ne h]
    exact hu

theorem announced_imsc_iff (hwiring : wiring.Reliable) (value : UInt32) :
    Announced wiring (({ u with imsc := value } : Pl011 κ γ).reevaluate wiring) ↔
      (u.rxQueue ≠ [] → value &&& IMSC_RX ≠ 0 → u.ris &&& INT_RX ≠ 0) := by
  rw [Announced, level_reevaluate hwiring]
  exact ⟨fun h hqueue hmask => (h hmask hqueue).2, fun h hmask hqueue => ⟨hmask, h hqueue hmask⟩⟩

theorem and_not_rx (ris value : UInt32) :
    ris &&& ~~~value &&& INT_RX ≠ 0 ↔ ris &&& INT_RX ≠ 0 ∧ value &&& INT_RX = 0 := by
  have hvalue : value &&& INT_RX = 0 ↔ value.toBitVec.getLsbD 4 = false := by
    rw [← not_iff_not, Bool.not_eq_false]
    exact and_rx_ne_zero value
  rw [and_rx_ne_zero, and_rx_ne_zero, hvalue, UInt32.toBitVec_and, BitVec.getLsbD_and,
    Bool.and_eq_true, UInt32.toBitVec_not, BitVec.getLsbD_not]
  simp

theorem announced_icr_iff (hwiring : wiring.Reliable) (hline : Settled wiring u)
    (hu : Announced wiring u) (value : UInt32) :
    Announced wiring (({ u with ris := u.ris &&& ~~~value } : Pl011 κ γ).reevaluate wiring) ↔
      (u.rxQueue ≠ [] → u.imsc &&& IMSC_RX ≠ 0 → value &&& INT_RX = 0) := by
  rw [Announced, level_reevaluate hwiring]
  constructor
  · intro h hqueue hmask
    exact ((and_not_rx _ _).1 (h hmask hqueue).2).2
  · intro h hmask hqueue
    -- the line was high, so the status was set
    have hstatus : u.ris &&& INT_RX ≠ 0 := by
      have hhigh := hu hmask hqueue
      rw [hline.line, bne_iff_ne, and_rx_ne_zero, UInt32.toBitVec_and, BitVec.getLsbD_and,
        Bool.and_eq_true] at hhigh
      exact (and_rx_ne_zero _).2 hhigh.2
    exact ⟨hmask, (and_not_rx _ _).2 ⟨hstatus, h hqueue hmask⟩⟩

theorem announced_of_quiet {u' : Pl011 κ γ} (h : Quiet u u') (hu : Announced wiring u) :
    Announced wiring u' := by
  intro hmask hqueue
  rw [h.imsc] at hmask
  rw [h.rxQueue] at hqueue
  rw [h.gic, h.intid]
  exact hu hmask hqueue

theorem announced_step_iff (hwiring : wiring.Reliable) (hline : Settled wiring u)
    (hu : Announced wiring u) (op : Op) : Announced wiring (u.step wiring op) ↔ Undisturbed u op := by
  cases op with
  | pushRx byte => exact iff_of_true (announced_pushRx hwiring byte) trivial
  | read offset => exact iff_of_true (announced_readRegister hu offset) trivial
  | write offset value =>
    by_cases himsc : offset = 0x038
    · subst himsc
      refine (announced_imsc_iff hwiring value).trans ⟨fun h hqueue => ⟨fun hicr => ?_, ?_⟩, ?_⟩
      · exact absurd hicr (by decide)
      · exact fun _ => h hqueue
      · exact fun h hqueue => (h hqueue).2 rfl
    by_cases hicr : offset = 0x044
    · subst hicr
      refine (announced_icr_iff hwiring hline hu value).trans ⟨fun h hqueue => ⟨?_, fun himsc => ?_⟩, ?_⟩
      · exact fun _ => h hqueue
      · exact absurd himsc (by decide)
      · exact fun h hqueue => (h hqueue).1 rfl
    · have hquiet := @quiet_writeRegister _ _ wiring u _ himsc hicr value
      exact iff_of_true (announced_of_quiet hquiet hu)
        fun _ => ⟨fun h => absurd h hicr, fun h => absurd h himsc⟩

/-! ## Runs -/

theorem History.uart_step (h : History κ γ) (op : Op) :
    (h.step wiring op).uart = h.uart.step wiring op := by
  cases op <;> rfl

theorem History.run_append_singleton (sink : κ) (gic : γ) (intid : IntId) (ops : List Op) (op : Op) :
    (run wiring sink gic intid (ops ++ [op])).uart =
      (run wiring sink gic intid ops).uart.step wiring op := by
  rw [run, List.foldl_append, List.foldl_cons, List.foldl_nil, uart_step]
  rfl

/-- **Bytes that wait are announced after each operation exactly if no operation disturbs the
announcement.** -/
theorem announced_iff (hwiring : wiring.Reliable) (sink : κ) {gic : γ} {intid : IntId}
    (hlow : wiring.level intid gic = false) (ops : List Op) :
    (∀ done, done <+: ops → Announced wiring (History.run wiring sink gic intid done).uart) ↔
      ∀ done op, done ++ [op] <+: ops →
        Undisturbed (History.run wiring sink gic intid done).uart op := by
  have hline (done : List Op) := (History.run_settled_ordered hwiring sink hlow done).1
  constructor
  · intro h done op hdone
    have hbefore := h done ((List.prefix_append _ _).trans hdone)
    rw [← announced_step_iff hwiring (hline done) hbefore, ← History.run_append_singleton]
    exact h _ hdone
  · intro h done hdone
    induction done using List.reverseRecOn with
    | nil => exact fun _ hqueue => absurd rfl hqueue
    | append_singleton done op ih =>
      rw [History.run_append_singleton, announced_step_iff hwiring (hline done)]
      · exact h done op hdone
      · exact ih ((List.prefix_append _ _).trans hdone)

section Scenario

def clearFirst : List Op := [.pushRx 0x61, .write 0x038 0x10, .write 0x044 0x10]

theorem announced_iff_clearFirst :
    (∀ done, done <+: clearFirst →
        Announced oneLine (History.run oneLine [] false ⟨33, by decide⟩ done).uart) ↔
      ∀ done op, done ++ [op] <+: clearFirst →
        Undisturbed (History.run oneLine [] false ⟨33, by decide⟩ done).uart op :=
  announced_iff oneLine_reliable [] rfl clearFirst

/-- The line is low with a byte in the queue and the interrupt unmasked. -/
theorem not_announced :
    ¬ Announced oneLine (History.run oneLine [] false ⟨33, by decide⟩ clearFirst).uart :=
  fun h => absurd (h (by decide) (by decide)) (by decide)

end Scenario

end Squib.Legacy.Pl011
