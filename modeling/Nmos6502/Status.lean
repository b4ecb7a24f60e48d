/-!
# The status register

The eight flags of the processor, one bit each, and the two forms the register takes on the
stack: pushed copies carry `break` and `unused` set, pulled bytes lose `break` and gain `unused`.
-/

namespace Nmos6502

inductive Flag where
  | carry
  | zero
  | interruptDisable
  | decimal
  | breakMark
  | unused
  | overflow
  | negative
deriving DecidableEq, Repr

namespace Flag

/-- The flags in bit order. -/
def all : List Flag :=
  [carry, zero, interruptDisable, decimal, breakMark, unused, overflow, negative]

def mask : Flag → UInt8
  | carry => 0x01
  | zero => 0x02
  | interruptDisable => 0x04
  | decimal => 0x08
  | breakMark => 0x10
  | unused => 0x20
  | overflow => 0x40
  | negative => 0x80

def identifier : Flag → String
  | carry => "Carry"
  | zero => "Zero"
  | interruptDisable => "InterruptDisable"
  | decimal => "Decimal"
  | breakMark => "Break"
  | unused => "Unused"
  | overflow => "Overflow"
  | negative => "Negative"

theorem mem_all (f : Flag) : f ∈ all := by
  cases f <;> decide

end Flag

structure Status where
  bits : UInt8
deriving DecidableEq, Repr

namespace Status

/-- Out of power-on only `unused` is set. -/
def powerOn : Status := ⟨Flag.unused.mask⟩

instance : Inhabited Status := ⟨powerOn⟩

def get (s : Status) (f : Flag) : Bool :=
  s.bits &&& f.mask != 0

def set (s : Status) (f : Flag) (value : Bool) : Status :=
  if value then ⟨s.bits ||| f.mask⟩ else ⟨s.bits &&& ~~~f.mask⟩

/-- `zero` and `negative` as the result `value` decides them. -/
def setZeroNegative (s : Status) (value : UInt8) : Status :=
  (s.set .zero (value == 0)).set .negative (value &&& 0x80 != 0)

/-- The byte that goes onto the stack. -/
def pushed (s : Status) : UInt8 :=
  s.bits ||| Flag.breakMark.mask ||| Flag.unused.mask

/-- The register after `byte` has been pulled into it. -/
def pulled (byte : UInt8) : Status :=
  ⟨(byte &&& ~~~Flag.breakMark.mask) ||| Flag.unused.mask⟩

end Status

end Nmos6502
