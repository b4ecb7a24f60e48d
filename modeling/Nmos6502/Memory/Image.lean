import Nmos6502.Memory
import Nmos6502.Memory.Region

/-!
# Memory images

A fresh memory that holds an image, and the vectors that a host points at its code.
-/

namespace Nmos6502.Memory

/-- A memory with `image` from `base` upwards and zeros elsewhere. -/
def ofImage (base : UInt16) (image : List UInt8) : Memory :=
  zeroed.load base image

def setResetVector (m : Memory) (entry : UInt16) : Memory :=
  m.writeWord resetVector entry

def setIrqVector (m : Memory) (handler : UInt16) : Memory :=
  m.writeWord irqVector handler

end Nmos6502.Memory
