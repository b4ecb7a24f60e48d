import Nmos6502.Cpu.Core
import Nmos6502.Timing

/-!
# Operands

Resolving an addressing mode takes the operand bytes at the program counter and says where the
operand is.  Pointers in page zero wrap within it, and the high byte of an indirect jump's target
comes from the page of its low byte.
-/

namespace Nmos6502

inductive Operand where
  /-- Nothing to work on. -/
  | none
  | accumulator
  /-- A cell of the bus; for an immediate operand the cell after the opcode. -/
  | address (address : UInt16)
  /-- A branch displacement as it stands in the program. -/
  | relative (displacement : UInt8)
deriving DecidableEq, Repr

structure EffectiveAddress where
  operand : Operand
  /-- Whether indexing has led to another page. -/
  pageCrossed : Bool
deriving DecidableEq, Repr

namespace EffectiveAddress

def plain (operand : Operand) : EffectiveAddress := ⟨operand, false⟩

def indexed (base : UInt16) (index : UInt8) : EffectiveAddress :=
  let address := base + index.toUInt16
  ⟨.address address, crossesPage base address⟩

def address? (ea : EffectiveAddress) : Option UInt16 :=
  match ea.operand with
  | .address address => some address
  | _ => none

end EffectiveAddress

/-- The word whose bytes are at `low` and at `high`, read in this order. -/
def readPair (low high : UInt16) : Work UInt16 := do
  let lowByte ← Traffic.fetch low
  let highByte ← Traffic.fetch high
  pure (Word.ofBytes lowByte highByte)

/-- The word at `pointer`, within page zero. -/
def readZeroPageWord (pointer : UInt8) : Work UInt16 :=
  readPair pointer.toUInt16 (pointer + 1).toUInt16

/-- The address after `pointer` on the page of `pointer`. -/
def nextOnPage (pointer : UInt16) : UInt16 :=
  (pointer &&& 0xFF00) ||| ((pointer + 1) &&& 0x00FF)

open EffectiveAddress in
def Core.resolve (c : Core) : AddressingMode → Work (EffectiveAddress × Core)
  | .immediate => pure (plain (.address c.registers.pc), c.setPc (c.registers.pc + 1))
  | .zeroPage => do
    let (byte, c) ← c.fetchByte
    pure (plain (.address byte.toUInt16), c)
  | .zeroPageX => do
    let (byte, c) ← c.fetchByte
    pure (plain (.address (byte + c.registers.x).toUInt16), c)
  | .zeroPageY => do
    let (byte, c) ← c.fetchByte
    pure (plain (.address (byte + c.registers.y).toUInt16), c)
  | .absolute => do
    let (address, c) ← c.fetchWord
    pure (plain (.address address), c)
  | .absoluteX => do
    let (base, c) ← c.fetchWord
    pure (indexed base c.registers.x, c)
  | .absoluteY => do
    let (base, c) ← c.fetchWord
    pure (indexed base c.registers.y, c)
  | .indirect => do
    let (pointer, c) ← c.fetchWord
    let target ← readPair pointer (nextOnPage pointer)
    pure (plain (.address target), c)
  | .indexedIndirect => do
    let (byte, c) ← c.fetchByte
    let address ← readZeroPageWord (byte + c.registers.x)
    pure (plain (.address address), c)
  | .indirectIndexed => do
    let (pointer, c) ← c.fetchByte
    let base ← readZeroPageWord pointer
    pure (indexed base c.registers.y, c)
  | .relative => do
    let (displacement, c) ← c.fetchByte
    pure (plain (.relative displacement), c)
  | .implied => pure (plain .none, c)
  | .accumulator => pure (plain .accumulator, c)

/-- The operand's value.  Only an address is read from the bus; without an operand it is zero. -/
def Core.load (c : Core) : Operand → Work UInt8
  | .address address => Traffic.fetch address
  | .accumulator => pure c.registers.a
  | .relative displacement => pure displacement
  | .none => pure 0

/-- Writes to the operand's place.  A displacement and a missing operand have none. -/
def Core.store (c : Core) (operand : Operand) (value : UInt8) : Work Core :=
  match operand with
  | .address address => do
    Traffic.store address value
    pure c
  | .accumulator => pure (c.setRegister .a value)
  | .relative _ | .none => pure c

end Nmos6502
