import Squib.Vmm.Runner

/-!
# MMIO exits
-/

namespace Squib.Runner

open Esr Loop

variable {ν β : Type}

/-! ## The trapped instruction -/

def operand (regs : Reg → UInt64) (n : ℕ) : UInt64 :=
  if h : n < 31 then regs (.x ⟨n, h⟩) else 0

def assign (n : ℕ) (value : UInt64) (regs : Reg → UInt64) : Reg → UInt64 :=
  if h : n < 31 then Function.update regs (.x ⟨n, h⟩) value else regs

def signExtend (sf : Bool) (width v : ℕ) : UInt64 :=
  if sf then ⟨(BitVec.ofNat width v).signExtend 64⟩
  else ⟨((BitVec.ofNat width v).signExtend 32).setWidth 64⟩

def fetch (bus : Bus β) (ipa : UInt64) (n : ℕ) (d : β) : List UInt8 × β :=
  match bus.read ipa (List.replicate n 0) d with
  | .ok r => r
  | .error _ => (List.replicate n 0, d)

def send (bus : Bus β) (ipa : UInt64) (data : List UInt8) (d : β) : β :=
  match bus.write ipa data d with
  | .ok d' => d'
  | .error _ => d

def busValue (bus : Bus β) (esr ipa : UInt64) (d : β) : ℕ :=
  Bytes.leNat (fetch bus ipa (2 ^ sas esr) d).1

@[ext]
structure Effect (β : Type) where
  accesses : List Action
  regs : Reg → UInt64
  devices : β

def Effect.retire (e : Effect β) : Effect β :=
  { e with regs := Function.update e.regs .pc (e.regs .pc + 4) }

def store (bus : Bus β) (esr ipa : UInt64) (regs : Reg → UInt64) (d : β) : Effect β :=
  let data := Bytes.leBytes (2 ^ sas esr) (operand regs (srt esr)).toNat
  ⟨[.busWrite ipa data], regs, send bus ipa data d⟩

def load (bus : Bus β) (esr ipa : UInt64) (value : UInt64) (regs : Reg → UInt64) (d : β) :
    Effect β :=
  ⟨[.busRead ipa (2 ^ sas esr)], assign (srt esr) value regs, (fetch bus ipa (2 ^ sas esr) d).2⟩

def extended (bus : Bus β) (esr ipa : UInt64) (d : β) : UInt64 :=
  if sse esr then signExtend (sf esr) (8 * 2 ^ sas esr) (busValue bus esr ipa d)
  else UInt64.ofNat (busValue bus esr ipa d)

def trapped (bus : Bus β) (esr ipa : UInt64) (regs : Reg → UInt64) (d : β) : Effect β :=
  if isv esr then
    if wnr esr then (store bus esr ipa regs d).retire
    else (load bus esr ipa (extended bus esr ipa d) regs d).retire
  else ⟨[], regs, d⟩

/-! ## What the loop does -/

def handled (bus : Bus β) (esr ipa : UInt64) (regs : Reg → UInt64) (d : β) : Effect β :=
  if wnr esr then store bus esr ipa regs d
  else load bus esr ipa (UInt64.ofNat (busValue bus esr ipa d)) regs d

def Action.isBusAccess : Action → Bool
  | .busRead _ _ | .busWrite _ _ => true
  | .psci _ _ _ _ | .setReg _ _ => false

def accesses (exits : List ExitRecord) : List Action :=
  ((exits.head?.map (·.actions)).getD []).filter Action.isBusAccess

def LoopState.effect (regs : ν → Reg → UInt64) (s : LoopState ν β) : Effect β :=
  ⟨accesses s.exits, regs s.vcpu, s.devices⟩

theorem accesses_perform_setReg (r : Reg) (value : UInt64) (s : LoopState ν β) :
    accesses (s.perform (.setReg r value)).exits = accesses s.exits := by
  rw [LoopState.perform]
  cases h : s.exits with
  | nil => rfl
  | cons e es => simp [accesses, Action.isBusAccess]

theorem accesses_perform_bus {a : Action} (ha : a.isBusAccess = true) {s : LoopState ν β}
    {info : ExitInfo} {es : List ExitRecord} (hs : s.exits = ⟨info, []⟩ :: es) :
    accesses (s.perform a).exits = [a] := by
  simp [LoopState.perform, hs, accesses, ha]

section Handled

variable {api : VcpuApi ν} {bus : Bus β} {regs : ν → Reg → UInt64} {s : LoopState ν β} {n : ℕ}
  {info : ExitInfo} {es : List ExitRecord}

theorem handleExit_dataAbort (h : DataAbortClass (api.getExitInfo s.vcpu).syndrome) :
    handleExit api bus s = .next
      (accessMmio api bus (api.getExitInfo s.vcpu).physicalAddress
        (wnr (api.getExitInfo s.vcpu).syndrome)
        (UInt8.ofNat (sas (api.getExitInfo s.vcpu).syndrome))
        (UInt8.ofNat (srt (api.getExitInfo s.vcpu).syndrome))
        (countMmio { s with
          pendingAdvancePc := true, exits := ⟨api.getExitInfo s.vcpu, []⟩ :: s.exits })) := by
  rw [handleExit, decodeException, decode_of_dataAbort h]
  rfl

theorem avRegFromIndex_ofNat (hn : n < 32) :
    avRegFromIndex (UInt8.ofNat n) = if h : n < 31 then some (.x ⟨n, h⟩) else none := by
  have hmod : (UInt8.ofNat n).toNat = n := by
    rw [UInt8.toNat_ofNat']
    omega
  simp only [avRegFromIndex, hmod]

theorem gpRead_eq (hapi : RegisterFile api regs) (v : ν) (hn : n < 32) :
    gpRead api v (UInt8.ofNat n) = operand (regs v) n := by
  have hle : 31 ≤ UInt8.ofNat n ↔ 31 ≤ n := by
    rw [UInt8.le_iff_toNat_le, UInt8.toNat_ofNat', Nat.mod_eq_of_lt (by omega)]
    rfl
  rw [gpRead, avRegFromIndex_ofNat hn, operand]
  by_cases h : n < 31
  · rw [if_neg (by rw [hle]; omega), dif_pos h, dif_pos h]
    simp only [hapi.getReg]
    rfl
  · rw [if_pos (hle.2 (by omega)), dif_neg h]

theorem one_shiftLeft_sas (esr : UInt64) :
    min (1 <<< (UInt8.ofNat (sas esr)).toNat) 8 = 2 ^ sas esr := by
  have hsas := sas_lt esr
  rw [UInt8.toNat_ofNat', Nat.mod_eq_of_lt (by omega), Nat.one_shiftLeft,
    Nat.min_eq_left (two_pow_sas_le esr)]

variable (ipa : UInt64) (data : List UInt8)

theorem busWrite_effect (hs : s.exits = ⟨info, []⟩ :: es) :
    (busWrite bus ipa data s).effect regs =
      ⟨[.busWrite ipa data], regs s.vcpu, send bus ipa data s.devices⟩ := by
  have hacc := accesses_perform_bus (a := .busWrite ipa data) rfl hs
  rw [busWrite, send]
  cases bus.write ipa data s.devices <;> simp [LoopState.effect, hacc]

theorem busRead_effect (regs : ν → Reg → UInt64) (ipa : UInt64) (n : ℕ)
    (hs : s.exits = ⟨info, []⟩ :: es) :
    (busRead bus ipa (List.replicate n 0) s).1 = (fetch bus ipa n s.devices).1 ∧
      (busRead bus ipa (List.replicate n 0) s).2.effect regs =
        ⟨[.busRead ipa n], regs s.vcpu, (fetch bus ipa n s.devices).2⟩ := by
  have hacc := accesses_perform_bus (a := .busRead ipa n) rfl hs
  rw [busRead, fetch]
  cases bus.read ipa (List.replicate n 0) s.devices <;> simp [LoopState.effect, hacc]

theorem pendingAdvancePc_busWrite (s : LoopState ν β) :
    (busWrite bus ipa data s).pendingAdvancePc = s.pendingAdvancePc := by
  rw [busWrite]
  split <;> rfl

theorem pendingAdvancePc_busRead (s : LoopState ν β) :
    (busRead bus ipa data s).2.pendingAdvancePc = s.pendingAdvancePc := by
  rw [busRead]
  split <;> rfl

theorem store_effect (esr ipa : UInt64) (hs : s.exits = ⟨info, []⟩ :: es) :
    (busWrite bus ipa ((Bytes.leBytes 8 (operand (regs s.vcpu) (srt esr)).toNat).take (2 ^ sas esr))
      s).effect regs = store bus esr ipa (regs s.vcpu) s.devices := by
  rw [Bytes.take_leBytes _ (two_pow_sas_le esr)]
  exact busWrite_effect ipa _ hs

theorem assign_effect (hapi : RegisterFile api regs) (hn : n < 32) (value : UInt64)
    (s : LoopState ν β) :
    let s' := match avRegFromIndex (UInt8.ofNat n) with
      | some r => trySetReg api r value s
      | none => s
    s'.pendingAdvancePc = s.pendingAdvancePc ∧
      s'.effect regs = { s.effect regs with regs := assign n value (s.effect regs).regs } := by
  rw [avRegFromIndex_ofNat hn, assign]
  by_cases h : n < 31
  · obtain ⟨v, hv, hregs⟩ := trySetReg_eq hapi (.x ⟨n, h⟩) value s
    rw [dif_pos h, dif_pos h]
    simp only [hv]
    refine ⟨rfl, ?_⟩
    rw [LoopState.effect, hregs]
    simp only [accesses_perform_setReg]
    rfl
  · rw [dif_neg h, dif_neg h]
    exact ⟨rfl, rfl⟩

theorem accessMmio_effect (hapi : RegisterFile api regs) (bus : Bus β) (esr ipa : UInt64)
    (hs : s.exits = ⟨info, []⟩ :: es) :
    let s' := accessMmio api bus ipa (wnr esr) (UInt8.ofNat (sas esr)) (UInt8.ofNat (srt esr)) s
    s'.pendingAdvancePc = s.pendingAdvancePc ∧
      s'.effect regs = handled bus esr ipa (regs s.vcpu) s.devices := by
  simp only [accessMmio, one_shiftLeft_sas, gpRead_eq hapi _ (srt_lt esr), handled]
  split
  · exact ⟨pendingAdvancePc_busWrite .., store_effect esr ipa hs⟩
  · obtain ⟨hdata, heff⟩ := busRead_effect regs ipa (2 ^ sas esr) hs
    obtain ⟨hpend, hassign⟩ := assign_effect hapi (srt_lt esr) _ _
    refine ⟨hpend.trans (pendingAdvancePc_busRead ..), hassign.trans ?_⟩
    rw [Bytes.leNat_append_zeros, hdata, heff]
    rfl

variable {t : Turn ν β}

theorem loopHead_effect (hapi : RegisterFile api regs) (ht : t.stops = false)
    (hs : s.pendingAdvancePc = true) :
    ∃ s', loopHead api t s = .next s' ∧ s'.pendingAdvancePc = false ∧
      s'.effect regs = (s.effect regs).retire := by
  obtain ⟨v, hv, hregs⟩ := loopHead_advance hapi ht hs
  refine ⟨_, hv, rfl, ?_⟩
  ext1
  · exact accesses_perform_setReg _ _ s
  · exact hregs
  · rfl

theorem mmio_exit_handled (hapi : RegisterFile api regs) (bus : Bus β) (ht : t.stops = false)
    (hclass : DataAbortClass (api.getExitInfo s.vcpu).syndrome) :
    ∃ s₁ s₂, handleExit api bus s = .next s₁ ∧ loopHead api t s₁ = .next s₂ ∧
      s₂.pendingAdvancePc = false ∧
      s₂.effect regs = (handled bus (api.getExitInfo s.vcpu).syndrome
        (api.getExitInfo s.vcpu).physicalAddress (regs s.vcpu) s.devices).retire := by
  obtain ⟨hpend, heff⟩ := accessMmio_effect hapi bus (api.getExitInfo s.vcpu).syndrome
    (api.getExitInfo s.vcpu).physicalAddress (s := countMmio { s with
      pendingAdvancePc := true, exits := ⟨api.getExitInfo s.vcpu, []⟩ :: s.exits }) rfl
  obtain ⟨s₂, h₂, hpend₂, heff₂⟩ := loopHead_effect hapi ht hpend
  exact ⟨_, s₂, handleExit_dataAbort hclass, h₂, hpend₂, heff₂.trans (congrArg _ heff)⟩

end Handled

/-! ## When the two agree -/

def Represented (bus : Bus β) (esr ipa : UInt64) (d : β) : Prop :=
  isv esr = true ∧ (wnr esr = true ∨ srt esr = 31 ∨ sse esr = false ∨
    signExtend (sf esr) (8 * 2 ^ sas esr) (busValue bus esr ipa d) =
      UInt64.ofNat (busValue bus esr ipa d))

instance (bus : Bus β) (esr ipa : UInt64) (d : β) : Decidable (Represented bus esr ipa d) := by
  unfold Represented; infer_instance

theorem Effect.retire_injective : Function.Injective (@Effect.retire β) := by
  intro e e' h
  obtain ⟨haccesses, hregs, hdevices⟩ := Effect.ext_iff.1 h
  refine Effect.ext haccesses (funext fun r => ?_) hdevices
  have hr := congrFun hregs r
  by_cases hpc : r = .pc
  · subst hpc
    simpa [Effect.retire] using hr
  · simpa [Effect.retire, Function.update_of_ne hpc] using hr

theorem load_eq_load_iff {bus : Bus β} {esr ipa value value' : UInt64} {regs : Reg → UInt64}
    {d : β} :
    load bus esr ipa value regs d = load bus esr ipa value' regs d ↔
      srt esr = 31 ∨ value = value' := by
  have hsrt := srt_lt esr
  simp only [load, assign, Effect.mk.injEq, true_and, and_true]
  by_cases h : srt esr < 31
  · simp only [dif_pos h, (Function.update_injective regs _).eq_iff, Nat.ne_of_lt h, false_or]
  · simp only [dif_neg h, true_iff]
    omega

theorem handled_eq_trapped_iff (bus : Bus β) (esr ipa : UInt64) (regs : Reg → UInt64) (d : β) :
    (handled bus esr ipa regs d).retire = trapped bus esr ipa regs d ↔
      Represented bus esr ipa d := by
  rw [trapped, Represented, handled]
  cases hisv : isv esr with
  | false =>
    -- the loop accesses the bus all the same
    have hne : (handled bus esr ipa regs d).accesses ≠ [] := by
      rw [handled]
      split <;> exact List.cons_ne_nil _ _
    simp only [Bool.false_eq_true, false_and, iff_false]
    exact fun h => hne (congrArg Effect.accesses h)
  | true =>
    cases hwnr : wnr esr with
    | true => simp
    | false =>
      simp only [Bool.false_eq_true, if_false, if_true, Effect.retire_injective.eq_iff,
        load_eq_load_iff, extended]
      cases hsse : sse esr with
      | false => simp
      | true => simp [eq_comm]

/-- **An MMIO exit has the effect of the trapped instruction exactly where the syndrome is valid and
zero extension is what the instruction asks for.** -/
theorem mmio_exit_iff {api : VcpuApi ν} {regs : ν → Reg → UInt64} (hapi : RegisterFile api regs)
    (bus : Bus β) (s : LoopState ν β) (t : Turn ν β) (ht : t.stops = false)
    (hclass : DataAbortClass (api.getExitInfo s.vcpu).syndrome) :
    (∃ s₁ s₂, handleExit api bus s = .next s₁ ∧ loopHead api t s₁ = .next s₂ ∧
        s₂.pendingAdvancePc = false ∧
        s₂.effect regs = trapped bus (api.getExitInfo s.vcpu).syndrome
          (api.getExitInfo s.vcpu).physicalAddress (regs s.vcpu) s.devices) ↔
      Represented bus (api.getExitInfo s.vcpu).syndrome
        (api.getExitInfo s.vcpu).physicalAddress s.devices := by
  obtain ⟨s₁, s₂, h₁, h₂, hpend, heff⟩ := mmio_exit_handled hapi bus ht hclass
  rw [← handled_eq_trapped_iff _ _ _ (regs s.vcpu), ← heff]
  constructor
  · rintro ⟨s₁', s₂', h₁', h₂', -, h⟩
    obtain rfl : s₁ = s₁' := Ctl.next.inj (h₁.symm.trans h₁')
    obtain rfl : s₂ = s₂' := Ctl.next.inj (h₂.symm.trans h₂')
    exact h
  · exact fun h => ⟨s₁, s₂, h₁, h₂, hpend, h⟩

section Scenario

def byteDevice : BusDevice UInt8 where
  read _ data b := (List.replicate data.length b, b)
  write _ data b := data.headD b
  length_read _ _ _ := List.length_replicate

def byteBus : Bus UInt8 where
  devices := [(⟨0x9000000, 0x1000, by decide, by decide⟩, byteDevice)]
  sorted := List.pairwise_singleton _ _
  disjoint := List.pairwise_singleton _ _

def aborted (esr : UInt64) : LoopState PlainVcpu UInt8 where
  vcpu := ⟨fun _ => 0, ⟨.exception, esr, 0x9000000⟩⟩
  devices := 0x80

def goOn : Turn PlainVcpu UInt8 := ⟨false, false, .ok, id⟩

def ldrb : UInt64 := 0x93050007

def ldrsb : UInt64 := 0x93258007

theorem mmio_exit_ldrb :
    ∃ s₁ s₂, handleExit plainApi byteBus (aborted ldrb) = .next s₁ ∧
      loopHead plainApi goOn s₁ = .next s₂ ∧ s₂.pendingAdvancePc = false ∧
      s₂.effect PlainVcpu.regs = trapped byteBus ldrb 0x9000000 (fun _ => 0) 0x80 :=
  (mmio_exit_iff registerFile_plainApi byteBus (aborted ldrb) goOn rfl (by decide)).2 (by decide)

/-- A signed load of the byte `0x80` leaves `0x80` in the register, not `-128`. -/
theorem ldrsb_not_sign_extended :
    ∃ s₁ s₂, handleExit plainApi byteBus (aborted ldrsb) = .next s₁ ∧
      loopHead plainApi goOn s₁ = .next s₂ ∧ s₂.vcpu.regs (.x 5) = 0x80 ∧
      (trapped byteBus ldrsb 0x9000000 (fun _ => 0) 0x80).regs (.x 5) = 0xFFFFFFFFFFFFFF80 :=
  ⟨_, _, rfl, rfl, by decide, by decide⟩

end Scenario

end Squib.Runner
