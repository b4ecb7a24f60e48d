import Nmos6502.Memory.Region
import Nmos6502.Status
import Nmos6502.Traffic

/-!
# The core

Registers and status: all that an instruction works on apart from the bus.  The program counter
and the stack pointer wrap, the latter within the stack page.
-/

namespace Nmos6502

/-- The three data registers. -/
inductive Register where
  | a
  | x
  | y
deriving DecidableEq, Repr

structure Registers where
  a : UInt8
  x : UInt8
  y : UInt8
  sp : UInt8
  pc : UInt16
deriving DecidableEq, Repr, Inhabited

namespace Registers

def get (r : Registers) : Register → UInt8
  | .a => r.a
  | .x => r.x
  | .y => r.y

def set (r : Registers) (register : Register) (value : UInt8) : Registers :=
  match register with
  | .a => { r with a := value }
  | .x => { r with x := value }
  | .y => { r with y := value }

/-- The program counter, and the registers with it moved on by one. -/
def takePc (r : Registers) : UInt16 × Registers :=
  (r.pc, { r with pc := r.pc + 1 })

end Registers

structure Core where
  registers : Registers
  status : Status
deriving DecidableEq, Repr, Inhabited

namespace Core

def setRegister (c : Core) (register : Register) (value : UInt8) : Core :=
  { c with registers := c.registers.set register value }

def setSp (c : Core) (value : UInt8) : Core :=
  { c with registers := { c.registers with sp := value } }

def setPc (c : Core) (target : UInt16) : Core :=
  { c with registers := { c.registers with pc := target } }

def setStatus (c : Core) (status : Status) : Core :=
  { c with status := status }

def setFlag (c : Core) (flag : Flag) (value : Bool) : Core :=
  c.setStatus (c.status.set flag value)

def setZeroNegative (c : Core) (value : UInt8) : Core :=
  c.setStatus (c.status.setZeroNegative value)

/-- The result of a data operation: the register takes it and `zero` and `negative` follow. -/
def setResult (c : Core) (register : Register) (value : UInt8) : Core :=
  (c.setRegister register value).setZeroNegative value

/-- The byte at the program counter, which moves on. -/
def fetchByte (c : Core) : Work (UInt8 × Core) := do
  let byte ← Traffic.fetch c.registers.pc
  pure (byte, c.setPc (c.registers.pc + 1))

/-- The word at the program counter, low byte first. -/
def fetchWord (c : Core) : Work (UInt16 × Core) := do
  let (low, c) ← c.fetchByte
  let (high, c) ← c.fetchByte
  pure (Word.ofBytes low high, c)

/-- The cell of the stack page that a stack pointer of `sp` denotes. -/
def stackCell (sp : UInt8) : UInt16 :=
  stackBase ||| sp.toUInt16

def pushByte (c : Core) (value : UInt8) : Work Core := do
  Traffic.store (stackCell c.registers.sp) value
  pure (c.setSp (c.registers.sp - 1))

def pullByte (c : Core) : Work (UInt8 × Core) := do
  let sp := c.registers.sp + 1
  let byte ← Traffic.fetch (stackCell sp)
  pure (byte, c.setSp sp)

/-- Pushes the high byte first, so that the low byte is on top. -/
def pushWord (c : Core) (value : UInt16) : Work Core := do
  let c ← c.pushByte (Word.high value)
  c.pushByte (Word.low value)

def pullWord (c : Core) : Work (UInt16 × Core) := do
  let (low, c) ← c.pullByte
  let (high, c) ← c.pullByte
  pure (Word.ofBytes low high, c)

end Core

end Nmos6502
