import Nmos6502.Opcode.Entry
import Nmos6502.Text.Digits
import Nmos6502.Text.Quoted

/-!
# Wording of table defects
-/

namespace Nmos6502.Opcode.Defect

/-- The opcode of the record at fault. -/
def opcode : Defect → UInt8
  | duplicateOpcode opcode => opcode
  | unknownMode opcode _ => opcode
  | lengthMismatch opcode _ _ => opcode
  | zeroCycles opcode => opcode
  | excessiveCycles opcode _ _ => opcode

def message (d : Defect) : String :=
  "opcode $" ++ Text.hexByte d.opcode ++
    match d with
    | duplicateOpcode _ => " is defined more than once"
    | unknownMode _ mode => " uses unknown addressing mode " ++ Text.quote mode
    | lengthMismatch _ bytes expected =>
      " declares " ++ toString bytes.toNat ++ " bytes but its mode needs " ++
        toString expected.toNat
    | zeroCycles _ => " declares a zero cycle cost"
    | excessiveCycles _ cycles limit =>
      " declares " ++ toString cycles.toNat ++ " cycles, at most " ++
        toString limit.toNat ++ " allowed"

end Nmos6502.Opcode.Defect
