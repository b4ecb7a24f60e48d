import Nmos6502.Opcode.AddressingMode
import Nmos6502.Opcode.Mnemonic
import Nmos6502.Timing

/-!
# Opcode entries

A record describes one opcode in text.  Reading a record checks it and gives an entry, in which
the mode is known and the base cost is within bounds; the length, which has to be the mode's, is
kept as it stands.  A defect says which check fails first.
-/

namespace Nmos6502.Opcode

/-- One opcode as a table's author writes it down. -/
structure Record where
  opcode : UInt8
  mnemonic : String
  mode : String
  bytes : UInt8
  cycles : UInt8
deriving DecidableEq, Repr

/-- One opcode as the processor decodes it.  A name that is no documented mnemonic is kept, and
the opcode then cannot be executed.  `bytes` is listed only: how far an instruction reaches is a
matter of its mode. -/
structure Entry where
  opcode : UInt8
  name : String
  mnemonic : Option Mnemonic
  mode : AddressingMode
  bytes : UInt8
  cycles : UInt8
  cycles_pos : 0 < cycles
  cycles_le : cycles ≤ maxBaseCycles
deriving DecidableEq

inductive Defect where
  | duplicateOpcode (opcode : UInt8)
  | unknownMode (opcode : UInt8) (mode : String)
  | lengthMismatch (opcode bytes expected : UInt8)
  | zeroCycles (opcode : UInt8)
  | excessiveCycles (opcode cycles limit : UInt8)
deriving DecidableEq, Repr

/-- The name under which a mnemonic's text is listed. -/
def listedName (mnemonic : String) : String :=
  Text.upper (Text.trim mnemonic)

/-- Checks mode, length and cost in this order. -/
def Record.read (r : Record) : Except Defect Entry :=
  match AddressingMode.parse? r.mode with
  | none => .error (.unknownMode r.opcode r.mode)
  | some mode =>
    if r.bytes ≠ mode.instructionLength then
      .error (.lengthMismatch r.opcode r.bytes mode.instructionLength)
    else if hpos : 0 < r.cycles then
      if hle : r.cycles ≤ maxBaseCycles then
        .ok
          { opcode := r.opcode
            name := listedName r.mnemonic
            mnemonic := Mnemonic.parse? (Text.trim r.mnemonic)
            mode := mode
            bytes := r.bytes
            cycles := r.cycles
            cycles_pos := hpos
            cycles_le := hle }
      else .error (.excessiveCycles r.opcode r.cycles maxBaseCycles)
    else .error (.zeroCycles r.opcode)

/-- The record that describes `e`. -/
def Entry.record (e : Entry) : Record :=
  { opcode := e.opcode
    mnemonic := e.name
    mode := e.mode.name
    bytes := e.bytes
    cycles := e.cycles }

end Nmos6502.Opcode
