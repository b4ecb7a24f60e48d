/-!
# Bytes and words

Addresses are sixteen-bit words and memory holds bytes.  A word is stored low byte first.
-/

namespace Nmos6502

namespace Word

/-- The word whose low byte comes first. -/
def ofBytes (low high : UInt8) : UInt16 :=
  low.toUInt16 ||| (high.toUInt16 <<< 8)

def low (w : UInt16) : UInt8 := w.toUInt8

def high (w : UInt16) : UInt8 := (w >>> 8).toUInt8

/-- `w` moved by a displacement byte read as a signed number. -/
def displace (w : UInt16) (displacement : UInt8) : UInt16 :=
  w + displacement.toInt8.toInt16.toUInt16

end Word

namespace Byte

/-- Addition that stops at the largest byte. -/
def saturatingAdd (a b : UInt8) : UInt8 :=
  if a.toNat + b.toNat < 256 then a + b else 255

/-- Countdown by one that stops at zero. -/
def countdown (a : UInt8) : UInt8 :=
  if a = 0 then 0 else a - 1

end Byte

end Nmos6502
