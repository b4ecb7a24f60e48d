import Nmos6502.Text.Blank

/-!
# Addressing modes

The thirteen ways in which an instruction names its operand, and how many bytes each takes after
the opcode.  A mode's name is read in its exact case, with white space around it ignored.
-/

namespace Nmos6502

inductive AddressingMode where
  | immediate
  | zeroPage
  | zeroPageX
  | zeroPageY
  | absolute
  | absoluteX
  | absoluteY
  | indirect
  | indexedIndirect
  | indirectIndexed
  | relative
  | implied
  | accumulator
deriving DecidableEq, Repr

namespace AddressingMode

def all : List AddressingMode :=
  [ immediate, zeroPage, zeroPageX, zeroPageY, absolute, absoluteX, absoluteY, indirect,
    indexedIndirect, indirectIndexed, relative, implied, accumulator ]

def name : AddressingMode → String
  | immediate => "Immediate"
  | zeroPage => "Zero Page"
  | zeroPageX => "X-Indexed Zero Page"
  | zeroPageY => "Y-Indexed Zero Page"
  | absolute => "Absolute"
  | absoluteX => "X-Indexed Absolute"
  | absoluteY => "Y-Indexed Absolute"
  | indirect => "Absolute Indirect"
  | indexedIndirect => "X-Indexed Zero Page Indirect"
  | indirectIndexed => "Zero Page Indirect Y-Indexed"
  | relative => "Relative"
  | implied => "Implied"
  | accumulator => "Accumulator"

/-- The spelling in saved states. -/
def identifier : AddressingMode → String
  | immediate => "Immediate"
  | zeroPage => "ZeroPage"
  | zeroPageX => "ZeroPageX"
  | zeroPageY => "ZeroPageY"
  | absolute => "Absolute"
  | absoluteX => "AbsoluteX"
  | absoluteY => "AbsoluteY"
  | indirect => "Indirect"
  | indexedIndirect => "IndexedIndirect"
  | indirectIndexed => "IndirectIndexed"
  | relative => "Relative"
  | implied => "Implied"
  | accumulator => "Accumulator"

/-- Bytes that follow the opcode. -/
def operandBytes : AddressingMode → UInt8
  | implied | accumulator => 0
  | absolute | absoluteX | absoluteY | indirect => 2
  | _ => 1

def instructionLength (mode : AddressingMode) : UInt8 :=
  1 + mode.operandBytes

def parse? (s : String) : Option AddressingMode :=
  let trimmed := Text.trim s
  all.find? fun mode => mode.name == trimmed

theorem mem_all (mode : AddressingMode) : mode ∈ all := by
  cases mode <;> decide

end AddressingMode

end Nmos6502
