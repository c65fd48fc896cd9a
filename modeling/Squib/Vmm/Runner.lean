import Squib.Bus
import Squib.Hv.RunLoop
import Squib.Lib.Bytes
import Squib.Lib.Loop

/-!
# The vCPU thread
-/

namespace Squib.Runner

open Esr Psci Loop

/-! ## The hypervisor library -/

inductive Reg where
  | x (i : Fin 31)
  | pc
  | cpsr
  deriving DecidableEq, Repr

def Reg.x0 : Reg := .x 0

inductive SysReg where
  | mpidrEl1
  deriving DecidableEq, Repr

structure HvError where
  code : UInt32
  deriving DecidableEq, Repr

inductive ExitReason where
  | canceled
  | exception
  | vtimerActivated
  | unknown
  deriving DecidableEq, Repr

structure ExitInfo where
  reason : ExitReason
  syndrome : UInt64
  physicalAddress : UInt64
  deriving DecidableEq, Repr

structure VcpuApi (ν : Type) where
  getReg : Reg → ν → Except HvError UInt64
  setReg : Reg → UInt64 → ν → Except HvError ν
  setSysReg : SysReg → UInt64 → ν → Except HvError ν
  getExitInfo : ν → ExitInfo

structure RegisterFile {ν : Type} (api : VcpuApi ν) (regs : ν → Reg → UInt64) : Prop where
  getReg : ∀ r v, api.getReg r v = .ok (regs v r)
  setReg : ∀ r value v, ∃ v', api.setReg r value v = .ok v' ∧
    regs v' = Function.update (regs v) r value

/-! ## State -/

inductive ShutdownReason where
  | systemOff
  | systemReset
  | operatorRequest
  | guestFault
  | hvfError
  deriving DecidableEq, Repr

structure RunResult where
  reason : ShutdownReason := .operatorRequest
  mmioExits : UInt64 := 0
  hvcExits : UInt64 := 0
  wfiExits : UInt64 := 0
  deriving DecidableEq, Repr

inductive Action where
  | busRead (addr : UInt64) (len : ℕ)
  | busWrite (addr : UInt64) (data : List UInt8)
  | psci (x0 x1 x2 x3 : UInt64)
  | setReg (r : Reg) (value : UInt64)
  deriving DecidableEq, Repr

structure ExitRecord where
  info : ExitInfo
  actions : List Action := []
  deriving DecidableEq, Repr

structure LoopState (ν β : Type) where
  vcpu : ν
  devices : β
  pendingAdvancePc : Bool := false
  result : RunResult := {}
  exits : List ExitRecord := []

structure Turn (ν β : Type) where
  shutdown : Bool
  expired : Bool
  guest : ν → Except HvError ν
  others : β → β

def Turn.stops {ν β : Type} (t : Turn ν β) : Bool := t.shutdown || t.expired

variable {ν β : Type}

namespace LoopState

def perform (a : Action) (s : LoopState ν β) : LoopState ν β :=
  { s with exits := match s.exits with
      | [] => []
      | e :: es => { e with actions := e.actions ++ [a] } :: es }

@[simp] theorem vcpu_perform (a : Action) (s : LoopState ν β) : (s.perform a).vcpu = s.vcpu := rfl

@[simp] theorem devices_perform (a : Action) (s : LoopState ν β) :
    (s.perform a).devices = s.devices := rfl

theorem exits_perform {s : LoopState ν β} {e : ExitRecord} {es : List ExitRecord}
    (hs : s.exits = e :: es) (a : Action) :
    (s.perform a).exits = { e with actions := e.actions ++ [a] } :: es := by
  rw [perform, hs]

end LoopState

def stop (reason : ShutdownReason) (s : LoopState ν β) : Ctl (LoopState ν β) :=
  .brk { s with result := { s.result with reason } }

def saturatingSucc (n : UInt64) : UInt64 := if n = 0xFFFFFFFFFFFFFFFF then n else n + 1

/-! ## Actions -/

variable (api : VcpuApi ν) (bus : Bus β)

def avRegFromIndex (index : UInt8) : Option Reg :=
  if h : index.toNat < 31 then some (.x ⟨index.toNat, h⟩) else none

def gpRead (v : ν) (index : UInt8) : UInt64 :=
  if 31 ≤ index then 0
  else match avRegFromIndex index with
    | some r => (api.getReg r v).toOption.getD 0
    | none => 0

def setReg (r : Reg) (value : UInt64) (s : LoopState ν β) : Except HvError (LoopState ν β) :=
  match api.setReg r value s.vcpu with
  | .ok v => .ok { s.perform (.setReg r value) with vcpu := v }
  | .error e => .error e

def trySetReg (r : Reg) (value : UInt64) (s : LoopState ν β) : LoopState ν β :=
  match setReg api r value s with
  | .ok s' => s'
  | .error _ => s

def busWrite (addr : UInt64) (data : List UInt8) (s : LoopState ν β) : LoopState ν β :=
  match bus.write addr data s.devices with
  | .ok devices => { s.perform (.busWrite addr data) with devices }
  | .error _ => s.perform (.busWrite addr data)

def busRead (addr : UInt64) (data : List UInt8) (s : LoopState ν β) :
    List UInt8 × LoopState ν β :=
  match bus.read addr data s.devices with
  | .ok (data', devices) => (data', { s.perform (.busRead addr data.length) with devices })
  | .error _ => (data, s.perform (.busRead addr data.length))

/-! ## The loop -/

def countMmio (s : LoopState ν β) : LoopState ν β :=
  { s with result := { s.result with mmioExits := saturatingSucc s.result.mmioExits } }

def accessMmio (addr : UInt64) (write : Bool) (sas srt : UInt8) (s : LoopState ν β) :
    LoopState ν β :=
  let len := min (1 <<< sas.toNat) 8
  if write then
    let value := gpRead api s.vcpu srt
    busWrite bus addr ((Bytes.leBytes 8 value.toNat).take len) s
  else
    let (data, s) := busRead bus addr (List.replicate len 0) s
    let v := UInt64.ofNat (Bytes.leNat (data ++ List.replicate (8 - len) 0))
    match avRegFromIndex srt with
    | some r => trySetReg api r v s
    | none => s

def countHvc (s : LoopState ν β) : LoopState ν β :=
  { s with result := { s.result with hvcExits := saturatingSucc s.result.hvcExits } }

def handleHvc (x0 x1 x2 x3 : UInt64) (s : LoopState ν β) : Ctl (LoopState ν β) :=
  let resolved := resolveHvcPsci x0 x1 x2 x3
  let s := trySetReg api .x0 resolved.1 (s.perform (.psci x0 x1 x2 x3))
  match resolved.2 with
  | .systemOff => stop .systemOff s
  | .systemReset => stop .systemReset s
  -- with a single vCPU, `CPU_OFF` shuts the machine down
  | .parkCallerCpuOff => stop .systemOff s
  | .ret _ | .bringUpSecondary _ _ _ | .queryAffinityInfo _ _ => .next s

def countWfi (s : LoopState ν β) : LoopState ν β :=
  { s with result := { s.result with wfiExits := saturatingSucc s.result.wfiExits } }

def handle (exit : Exit) (s : LoopState ν β) : Ctl (LoopState ν β) :=
  match exit with
  | .mmio addr write sas srt _ => .next (accessMmio api bus addr write sas srt (countMmio s))
  | .hvc _ x0 x1 x2 x3 => handleHvc api x0 x1 x2 x3 (countHvc s)
  | .smcHandledAsPsciNotSupported _ => .next (trySetReg api .x0 PsciReturn.notSupported.asX0 s)
  | .wfi | .wfe => .next (countWfi s)
  | .systemRegister _ _ _ _ _ _ _ | .vtimerActivated => .next s
  | .brk _ => stop .guestFault s
  | .cancelled => stop .operatorRequest s
  | .unknownExceptionClass _ _ => stop .guestFault s

def handleExit (s : LoopState ν β) : Ctl (LoopState ν β) :=
  let info := api.getExitInfo s.vcpu
  let dispatch := decodeException info.syndrome info.physicalAddress (gpRead api s.vcpu)
  handle api bus dispatch.exit
    { s with pendingAdvancePc := dispatch.advancePc, exits := ⟨info, []⟩ :: s.exits }

def loopHead (t : Turn ν β) (s : LoopState ν β) : Ctl (LoopState ν β) :=
  if t.shutdown then stop .operatorRequest s
  else if t.expired then stop .operatorRequest s
  else if s.pendingAdvancePc then
    match api.getReg .pc s.vcpu with
    | .error _ => stop .hvfError s
    | .ok pc =>
      match setReg api .pc (pc + 4) s with
      | .error _ => stop .hvfError s
      | .ok s' => .next { s' with pendingAdvancePc := false }
  else .next s

def LoopState.leave (t : Turn ν β) (v : ν) (s : LoopState ν β) : LoopState ν β :=
  { s with vcpu := v, devices := t.others s.devices }

def iterate (t : Turn ν β) (s : LoopState ν β) : Ctl (LoopState ν β) :=
  match loopHead api t s with
  | .brk s' => .brk s'
  | .next s' =>
    match t.guest s'.vcpu with
    | .error _ => stop .hvfError s'
    | .ok v => handleExit api bus (s'.leave t v)

def runLoop : List (Turn ν β) → LoopState ν β → Ctl (LoopState ν β)
  | [], s => .next s
  | t :: ts, s =>
    match iterate api bus t s with
    | .brk s' => .brk s'
    | .next s' => runLoop ts s'

def bootRegs (entryPc fdtAddr : UInt64) : List (Reg × UInt64) :=
  [(.pc, entryPc), (.x 0, fdtAddr), (.x 1, 0), (.x 2, 0), (.x 3, 0), (.cpsr, 0x3C5)]

def setRegs : List (Reg × UInt64) → ν → Except HvError ν
  | [], v => .ok v
  | (r, value) :: regs, v =>
    match api.setReg r value v with
    | .ok v' => setRegs regs v'
    | .error e => .error e

def bootState (vcpu : ν) (devices : β) : LoopState ν β := { vcpu, devices }

def runVcpu0Thread (created : Except HvError ν) (devices : β) (entryPc fdtAddr : UInt64)
    (turns : List (Turn ν β)) : Except RunResult (Ctl (LoopState ν β)) :=
  let failed : RunResult := { reason := .hvfError }
  match created with
  | .error _ => .error failed
  | .ok v =>
    match api.setSysReg .mpidrEl1 0x80000000 v with
    | .error _ => .error failed
    | .ok v =>
      match setRegs api (bootRegs entryPc fdtAddr) v with
      | .error _ => .error failed
      | .ok v => .ok (runLoop api bus turns (bootState v devices))

section RegisterFile

variable {api} {regs : ν → Reg → UInt64} (hapi : RegisterFile api regs) (r : Reg) (value : UInt64)
  (s : LoopState ν β)

include hapi in
theorem setReg_eq :
    ∃ v, setReg api r value s = .ok { s.perform (.setReg r value) with vcpu := v } ∧
      regs v = Function.update (regs s.vcpu) r value := by
  obtain ⟨v, hv, hregs⟩ := hapi.setReg r value s.vcpu
  exact ⟨v, by rw [setReg, hv], hregs⟩

include hapi in
theorem trySetReg_eq :
    ∃ v, trySetReg api r value s = { s.perform (.setReg r value) with vcpu := v } ∧
      regs v = Function.update (regs s.vcpu) r value := by
  obtain ⟨v, hv, hregs⟩ := setReg_eq hapi r value s
  exact ⟨v, by rw [trySetReg, hv], hregs⟩

theorem exits_busWrite (addr : UInt64) (data : List UInt8) (s : LoopState ν β) :
    (busWrite bus addr data s).exits = (s.perform (.busWrite addr data)).exits := by
  rw [busWrite]
  split <;> rfl

theorem exits_busRead (addr : UInt64) (data : List UInt8) (s : LoopState ν β) :
    (busRead bus addr data s).2.exits = (s.perform (.busRead addr data.length)).exits := by
  rw [busRead]
  split <;> rfl

include hapi in
theorem exits_trySetReg :
    (trySetReg api r value s).exits = (s.perform (.setReg r value)).exits := by
  obtain ⟨v, hv, -⟩ := trySetReg_eq hapi r value s
  rw [hv]

variable {t : Turn ν β}

theorem loopHead_stop (ht : t.stops = true) (s : LoopState ν β) :
    loopHead api t s = stop .operatorRequest s := by
  rw [loopHead]
  split
  · rfl
  · next h => rw [if_pos (by simpa [Turn.stops, h] using ht)]

theorem loopHead_go (ht : t.stops = false) (s : LoopState ν β) :
    loopHead api t s =
      if s.pendingAdvancePc then
        match api.getReg .pc s.vcpu with
        | .error _ => stop .hvfError s
        | .ok pc =>
          match setReg api .pc (pc + 4) s with
          | .error _ => stop .hvfError s
          | .ok s' => .next { s' with pendingAdvancePc := false }
      else .next s := by
  rw [Turn.stops, Bool.or_eq_false_iff] at ht
  rw [loopHead, ht.1, ht.2]
  rfl

include hapi in
theorem loopHead_advance (ht : t.stops = false) {s : LoopState ν β} (hs : s.pendingAdvancePc = true) :
    ∃ v, loopHead api t s = .next { s.perform (.setReg .pc (regs s.vcpu .pc + 4)) with
        vcpu := v, pendingAdvancePc := false } ∧
      regs v = Function.update (regs s.vcpu) .pc (regs s.vcpu .pc + 4) := by
  obtain ⟨v, hv, hregs⟩ := setReg_eq hapi .pc (regs s.vcpu .pc + 4) s
  refine ⟨v, ?_, hregs⟩
  rw [loopHead_go ht, if_pos hs, hapi.getReg]
  simp only [hv]

end RegisterFile

structure PlainVcpu where
  regs : Reg → UInt64
  exitInfo : ExitInfo

def plainApi : VcpuApi PlainVcpu where
  getReg r v := .ok (v.regs r)
  setReg r value v := .ok { v with regs := Function.update v.regs r value }
  setSysReg _ _ v := .ok v
  getExitInfo v := v.exitInfo

theorem registerFile_plainApi : RegisterFile plainApi PlainVcpu.regs :=
  ⟨fun _ _ => rfl, fun _ _ _ => ⟨_, rfl, rfl⟩⟩

end Squib.Runner
