import Nmos6502.Opcode.AddressingMode
import Nmos6502.Opcode.Mnemonic
import Nmos6502.Text.Digits
import Nmos6502.Trace.Event

/-!
# Diary entries

Remarks for a person who follows a run, with the level at which each is of interest.
-/

namespace Nmos6502

inductive Level where
  | trace
  | debug
  | warn
deriving DecidableEq, Repr

inductive DiaryEntry where
  /-- An instruction has been decoded; the registers are those before it takes effect. -/
  | decoded (pc : UInt16) (opcode : UInt8) (mnemonic : Mnemonic) (mode : AddressingMode)
      (a x y sp p : UInt8)
  | unimplementedOpcode (opcode : UInt8) (pc : UInt16)
  | noHandler (name : String) (opcode : UInt8) (pc : UInt16)
  | resetComplete (kind : ResetKind) (pc : UInt16) (sp p : UInt8)
deriving DecidableEq, Repr

namespace DiaryEntry

def level : DiaryEntry → Level
  | decoded .. => .trace
  | unimplementedOpcode .. => .warn
  | noHandler .. => .warn
  | resetComplete .. => .debug

def message : DiaryEntry → String
  | decoded pc opcode mnemonic mode a x y sp p =>
    "$" ++ Text.hexWord pc ++ ": " ++ Text.hexByte opcode ++ " " ++ mnemonic.spelling ++ " " ++
      mode.name ++ " a=" ++ Text.hexByte a ++ " x=" ++ Text.hexByte x ++ " y=" ++
      Text.hexByte y ++ " sp=" ++ Text.hexByte sp ++ " p=" ++ Text.hexByte p
  | unimplementedOpcode opcode pc =>
    "unimplemented opcode $" ++ Text.hexByte opcode ++ " at $" ++ Text.hexWord pc
  | noHandler name opcode pc =>
    "no handler for " ++ name ++ " (opcode $" ++ Text.hexByte opcode ++ " at $" ++
      Text.hexWord pc ++ ")"
  | resetComplete kind pc sp p =>
    "reset (" ++ kind.identifier ++ ") complete: pc=$" ++ Text.hexWord pc ++ " sp=$" ++
      Text.hexByte sp ++ " p=$" ++ Text.hexByte p

end DiaryEntry

end Nmos6502
