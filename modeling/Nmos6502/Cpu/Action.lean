import Nmos6502.Cpu.Arithmetic
import Nmos6502.Cpu.Operand

/-!
# Actions

What each mnemonic does once its operand is known.  An action works on the core and the bus, and
says which surcharge it earns: only branches earn one.
-/

namespace Nmos6502

inductive Action where
  | load (register : Register)
  | store (register : Register)
  | transfer (source target : Register)
  | readStackPointer
  | setStackPointer
  | add
  | subtract
  | compare (register : Register)
  | combine (logic : Logic)
  | testBits
  | shift (kind : Shift)
  /-- Adds to the operand, modulo 256. -/
  | adjust (delta : UInt8)
  | adjustRegister (register : Register) (delta : UInt8)
  /-- Branches if the flag has this value. -/
  | branch (flag : Flag) (expected : Bool)
  | jump
  | call
  | returnFromCall
  | interrupt
  | returnFromInterrupt
  | pushAccumulator
  | pushStatus
  | pullAccumulator
  | pullStatus
  | setFlag (flag : Flag) (value : Bool)
  | nothing
deriving DecidableEq, Repr

def Mnemonic.action : Mnemonic → Action
  | lda => .load .a
  | ldx => .load .x
  | ldy => .load .y
  | sta => .store .a
  | stx => .store .x
  | sty => .store .y
  | tax => .transfer .a .x
  | tay => .transfer .a .y
  | txa => .transfer .x .a
  | tya => .transfer .y .a
  | tsx => .readStackPointer
  | txs => .setStackPointer
  | adc => .add
  | sbc => .subtract
  | cmp => .compare .a
  | cpx => .compare .x
  | cpy => .compare .y
  | and => .combine .and
  | ora => .combine .or
  | eor => .combine .xor
  | bit => .testBits
  | asl => .shift .shiftLeft
  | lsr => .shift .shiftRight
  | rol => .shift .rotateLeft
  | ror => .shift .rotateRight
  | inc => .adjust 1
  | dec => .adjust (-1)
  | inx => .adjustRegister .x 1
  | iny => .adjustRegister .y 1
  | dex => .adjustRegister .x (-1)
  | dey => .adjustRegister .y (-1)
  | bcc => .branch .carry false
  | bcs => .branch .carry true
  | bne => .branch .zero false
  | beq => .branch .zero true
  | bpl => .branch .negative false
  | bmi => .branch .negative true
  | bvc => .branch .overflow false
  | bvs => .branch .overflow true
  | jmp => .jump
  | jsr => .call
  | rts => .returnFromCall
  | brk => .interrupt
  | rti => .returnFromInterrupt
  | pha => .pushAccumulator
  | php => .pushStatus
  | pla => .pullAccumulator
  | plp => .pullStatus
  | sec => .setFlag .carry true
  | clc => .setFlag .carry false
  | sei => .setFlag .interruptDisable true
  | cli => .setFlag .interruptDisable false
  | sed => .setFlag .decimal true
  | cld => .setFlag .decimal false
  | clv => .setFlag .overflow false
  | nop => .nothing

namespace Core

/-- The accumulator and the flags after an addition or a subtraction. -/
def takeSum (c : Core) (sum : Sum) : Core :=
  (((c.setRegister .a sum.value).setFlag .carry sum.carry).setFlag .overflow
    sum.overflow).setZeroNegative sum.value

/-- The flags of `value - m`, which itself is dropped. -/
def compare (c : Core) (value m : UInt8) : Core :=
  (c.setFlag .carry (m ≤ value)).setZeroNegative (value - m)

def testBits (c : Core) (m : UInt8) : Core :=
  ((c.setFlag .zero (c.registers.a &&& m == 0)).setFlag .negative (m &&& 0x80 != 0)).setFlag
    .overflow (m &&& 0x40 != 0)

/-- Only an address is a place to go to. -/
def jump (c : Core) : Operand → Core
  | .address target => c.setPc target
  | _ => c

/-- The core after a branch and the surcharge of the branch.  Without a displacement there is
nowhere to go. -/
def branch (c : Core) (flag : Flag) (expected : Bool) : Operand → Core × UInt8
  | .relative displacement =>
    let next := c.registers.pc
    let target := Word.displace next displacement
    let taken := c.status.get flag == expected
    (if taken then c.setPc target else c, branchPenalty taken next target)
  | _ => (c, 0)

/-- Saves the address after the padding byte and the status, and goes through the vector. -/
def interrupt (c : Core) : Work Core := do
  let c ← c.pushWord (c.registers.pc + 1)
  let c ← c.pushByte c.status.pushed
  let c := c.setFlag .interruptDisable true
  let handler ← readPair irqVector (irqVector + 1)
  pure (c.setPc handler)

def returnFromInterrupt (c : Core) : Work Core := do
  let (byte, c) ← c.pullByte
  let (target, c) ← c.pullWord
  pure ((c.setStatus (Status.pulled byte)).setPc target)

/-- Saves the address of the call's last byte, one less than where it returns to. -/
def call (c : Core) (operand : Operand) : Work Core := do
  let c ← c.pushWord (c.registers.pc - 1)
  pure (c.jump operand)

def returnFromCall (c : Core) : Work Core := do
  let (address, c) ← c.pullWord
  pure (c.setPc (address + 1))

end Core

namespace Action

/-- What an action that is no branch does. -/
def effect (c : Core) (operand : Operand) : Action → Work Core
  | load register => do
    let value ← c.load operand
    pure (c.setResult register value)
  | store register => c.store operand (c.registers.get register)
  | transfer source target => pure (c.setResult target (c.registers.get source))
  | readStackPointer => pure (c.setResult .x c.registers.sp)
  | setStackPointer => pure (c.setSp c.registers.x)
  | add => do
    let m ← c.load operand
    pure (c.takeSum (addWithCarry c.registers.a m (c.status.get .carry)))
  | subtract => do
    let m ← c.load operand
    pure (c.takeSum (subtractWithBorrow c.registers.a m (c.status.get .carry)))
  | compare register => do
    let m ← c.load operand
    pure (c.compare (c.registers.get register) m)
  | combine logic => do
    let m ← c.load operand
    pure (c.setResult .a (logic.apply c.registers.a m))
  | testBits => do
    let m ← c.load operand
    pure (c.testBits m)
  | shift kind => do
    let value ← c.load operand
    let (result, carry) := kind.apply value (c.status.get .carry)
    let c ← c.store operand result
    pure ((c.setFlag .carry carry).setZeroNegative result)
  | adjust delta => do
    let value ← c.load operand
    let c ← c.store operand (value + delta)
    pure (c.setZeroNegative (value + delta))
  | adjustRegister register delta =>
    pure (c.setResult register (c.registers.get register + delta))
  | branch flag expected => pure (c.branch flag expected operand).1
  | jump => pure (c.jump operand)
  | call => c.call operand
  | returnFromCall => c.returnFromCall
  | interrupt => c.interrupt
  | returnFromInterrupt => c.returnFromInterrupt
  | pushAccumulator => c.pushByte c.registers.a
  | pushStatus => c.pushByte c.status.pushed
  | pullAccumulator => do
    let (value, c) ← c.pullByte
    pure (c.setResult .a value)
  | pullStatus => do
    let (byte, c) ← c.pullByte
    pure (c.setStatus (Status.pulled byte))
  | setFlag flag value => pure (c.setFlag flag value)
  | nothing => pure c

/-- The surcharge that an action earns in the state in which it begins. -/
def surcharge (c : Core) (operand : Operand) : Action → UInt8
  | branch flag expected => (c.branch flag expected operand).2
  | _ => 0

end Action

end Nmos6502
