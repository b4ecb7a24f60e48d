/-!
# Configuration

What a processor is built with and never changes.
-/

namespace Nmos6502

structure Config where
  /-- Whether an indexed read that leaves its page costs one cycle more. -/
  pageCrossPenalty : Bool
  /-- The stack pointer before the first reset. -/
  powerOnSp : UInt8
deriving DecidableEq, Repr

namespace Config

def defaultPowerOnSp : UInt8 := 0

instance : Inhabited Config := ⟨⟨true, defaultPowerOnSp⟩⟩

/-- The stack pointer as the first reset leaves it. -/
def postResetSp (c : Config) : UInt8 := c.powerOnSp - 3

end Config

end Nmos6502
