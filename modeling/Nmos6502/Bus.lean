import Nmos6502.Memory

/-!
# Buses

A bus answers reads, takes writes and is clocked once per cycle.  A read may change it, since a
device can consume what it hands out.
-/

namespace Nmos6502

class Bus (β : Type) where
  read : β → UInt16 → UInt8 × β
  write : β → UInt16 → UInt8 → β
  tick : β → β := fun bus => bus

/-- Plain memory is a bus on which the clock has no effect. -/
instance : Bus Memory where
  read memory address := (memory.read address, memory)
  write := Memory.write

end Nmos6502
