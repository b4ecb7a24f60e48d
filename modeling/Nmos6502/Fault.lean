import Nmos6502.Text.Digits

/-!
# Faults

The reasons for which a clock is refused: no reset so far, a byte that is no opcode of the table,
or an opcode whose name no instruction has.
-/

namespace Nmos6502

inductive Fault where
  | unimplementedOpcode (opcode : UInt8) (pc : UInt16)
  | instructionNotImplemented (name : String) (opcode : UInt8) (pc : UInt16)
  | resetRequired
deriving DecidableEq, Repr

namespace Fault

/-- The stage at which an instruction was refused. -/
inductive Stage where
  | decode
  | dispatch
  | lifecycle
deriving DecidableEq, Repr

def stage : Fault → Stage
  | unimplementedOpcode _ _ => .decode
  | instructionNotImplemented _ _ _ => .dispatch
  | resetRequired => .lifecycle

def pc? : Fault → Option UInt16
  | unimplementedOpcode _ pc => some pc
  | instructionNotImplemented _ _ pc => some pc
  | resetRequired => none

def opcode? : Fault → Option UInt8
  | unimplementedOpcode opcode _ => some opcode
  | instructionNotImplemented _ opcode _ => some opcode
  | resetRequired => none

def message : Fault → String
  | unimplementedOpcode opcode pc =>
    "unimplemented opcode $" ++ Text.hexByte opcode ++ " at $" ++ Text.hexWord pc
  | instructionNotImplemented name opcode pc =>
    "instruction " ++ name ++ " not implemented (opcode $" ++ Text.hexByte opcode ++ " at $" ++
      Text.hexWord pc ++ ")"
  | resetRequired => "cpu must be reset before it is clocked"

end Fault

end Nmos6502
