import Nmos6502.Bus

/-!
# Replayed buses

A tape answers reads with the bytes of a list, one after the other, whatever the address, and pays
no heed to writes and clocks.  Past its end it answers zero.
-/

namespace Nmos6502

structure Tape where
  bytes : List UInt8
deriving DecidableEq, Repr

namespace Tape

def next : Tape → UInt8 × Tape
  | ⟨[]⟩ => (0, ⟨[]⟩)
  | ⟨byte :: rest⟩ => (byte, ⟨rest⟩)

instance : Bus Tape where
  read tape _ := tape.next
  write tape _ _ := tape

end Tape

end Nmos6502
