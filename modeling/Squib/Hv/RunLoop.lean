import Squib.Arch.Esr
import Squib.Arch.Psci

/-!
# The exception dispatcher
-/

namespace Squib

open Esr Psci

inductive Exit where
  | mmio (addr : UInt64) (write : Bool) (sas srt : UInt8) (sf : Bool)
  | hvc (imm16 : UInt16) (x0 x1 x2 x3 : UInt64)
  | smcHandledAsPsciNotSupported (imm16 : UInt16)
  | systemRegister (read : Bool) (op0 op1 crn crm op2 xt : UInt8)
  | wfi
  | wfe
  | vtimerActivated
  | brk (imm16 : UInt16)
  | cancelled
  | unknownExceptionClass (ec : UInt8) (raw : UInt64)
  deriving DecidableEq, Repr

structure RunLoopDispatch where
  exit : Exit
  advancePc : Bool
  deriving DecidableEq, Repr

def decodeException (esr far : UInt64) (gpRead : UInt8 → UInt64) : RunLoopDispatch :=
  match decode esr with
  | .dataAbort isWrite sas srt sf => ⟨.mmio far isWrite sas srt sf, true⟩
  -- `HVC` and `SMC` report the address of the next instruction, so nothing is advanced for them
  | .hvc imm16 => ⟨.hvc imm16 (gpRead 0) (gpRead 1) (gpRead 2) (gpRead 3), false⟩
  | .smc imm16 => ⟨.smcHandledAsPsciNotSupported imm16, false⟩
  | .systemRegister read op0 op1 crn crm op2 xt =>
    ⟨.systemRegister read op0 op1 crn crm op2 xt, true⟩
  | .wfi => ⟨.wfi, false⟩
  | .wfe => ⟨.wfe, false⟩
  | .brk imm16 => ⟨.brk imm16, false⟩
  | .other ec raw => ⟨.unknownExceptionClass ec raw, false⟩

def resolveHvcPsci (x0 x1 x2 x3 : UInt64) : UInt64 × PsciOutcome :=
  let outcome := dispatch x0.toUInt32 x1 x2 x3
  match outcome with
  | .ret r => (r.asX0, outcome)
  | _ => (PsciReturn.success.asX0, outcome)

end Squib
