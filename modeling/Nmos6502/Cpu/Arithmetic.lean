import Nmos6502.Word

/-!
# Arithmetic on bytes

Addition and subtraction with carry, the bitwise operations, and shifts through the carry.
Decimal mode plays no part.
-/

namespace Nmos6502

/-- A byte with the carry and overflow that go with it. -/
structure Sum where
  value : UInt8
  carry : Bool
  overflow : Bool
deriving DecidableEq, Repr

/-- `a + m + carry`.  It overflows if both operands have the sign that the result lacks. -/
def addWithCarry (a m : UInt8) (carry : Bool) : Sum :=
  let value := a + m + carry.toUInt8
  { value := value
    carry := a.toNat + m.toNat + carry.toNat > 0xFF
    overflow := (a ^^^ value) &&& (m ^^^ value) &&& 0x80 != 0 }

/-- `a - m - (1 - carry)`.  The carry out is set if nothing had to be borrowed. -/
def subtractWithBorrow (a m : UInt8) (carry : Bool) : Sum :=
  let value := a - m - (!carry).toUInt8
  { value := value
    carry := m.toNat + (!carry).toNat ≤ a.toNat
    overflow := (a ^^^ m) &&& (a ^^^ value) &&& 0x80 != 0 }

inductive Logic where
  | and
  | or
  | xor
deriving DecidableEq, Repr

def Logic.apply : Logic → UInt8 → UInt8 → UInt8
  | and, a, m => a &&& m
  | or, a, m => a ||| m
  | xor, a, m => a ^^^ m

inductive Shift where
  | shiftLeft
  | shiftRight
  | rotateLeft
  | rotateRight
deriving DecidableEq, Repr

/-- The shifted byte and the bit that leaves it.  A rotation takes in the carry. -/
def Shift.apply : Shift → UInt8 → Bool → UInt8 × Bool
  | shiftLeft, value, _ => (value <<< 1, value &&& 0x80 != 0)
  | shiftRight, value, _ => (value >>> 1, value &&& 0x01 != 0)
  | rotateLeft, value, carry => ((value <<< 1) ||| carry.toUInt8, value &&& 0x80 != 0)
  | rotateRight, value, carry => ((value >>> 1) ||| (carry.toUInt8 <<< 7), value &&& 0x01 != 0)

end Nmos6502
