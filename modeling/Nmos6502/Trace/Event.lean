import Nmos6502.Text.Digits

/-!
# Trace events

What a run reports, in the order in which it happens.  A bus access is reported after it is done
and carries the clock at which its instruction was fetched.
-/

namespace Nmos6502

inductive ResetKind where
  /-- The data registers are cleared and the status is set afresh. -/
  | deterministic
  /-- Registers and unrelated status bits stay as they are. -/
  | hardwareAccurate
deriving DecidableEq, Repr

namespace ResetKind

def all : List ResetKind := [deterministic, hardwareAccurate]

def identifier : ResetKind → String
  | deterministic => "Deterministic"
  | hardwareAccurate => "HardwareAccurate"

end ResetKind

inductive Direction where
  | read
  | write
deriving DecidableEq, Repr

namespace Direction

def all : List Direction := [read, write]

def identifier : Direction → String
  | read => "Read"
  | write => "Write"

/-- The letter in bus logs. -/
def tag : Direction → Char
  | read => 'R'
  | write => 'W'

end Direction

/-- One byte that crossed the bus. -/
structure Access where
  cycle : UInt64
  address : UInt16
  data : UInt8
  direction : Direction
deriving DecidableEq, Repr

/-- The line of a bus log. -/
def Access.line (a : Access) : String :=
  Text.alignRight 6 (toString a.cycle.toNat) ++ " " ++ String.singleton a.direction.tag ++ " $" ++
    Text.hexWord a.address ++ " $" ++ Text.hexByte a.data

inductive Event where
  | resetStarted (kind : ResetKind)
  | resetCompleted (pc : UInt16)
  | started (pc : UInt16) (opcode : UInt8)
  | retired (pc : UInt16) (cycles : UInt8)
  | accessed (access : Access)
  | faulted (pc : UInt16) (opcode : UInt8)
deriving DecidableEq, Repr

end Nmos6502
