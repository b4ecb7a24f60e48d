/-!
# Magnitude of a number

Whether a decimal number lies in the range of a double.  The number is taken as its leading digits
times a power of ten, and both are doubles before they are multiplied, so that the answer differs
from that for the exact value close to the greatest double.
-/

namespace Nmos6502.Serial.Magnitude

/-- `n` to the nearest number of at most `bits` significant bits, a tie to the even neighbour. -/
def roundToBits (bits n : Nat) : Nat :=
  let unit := 1 <<< (n.log2 + 1 - bits)
  let below := n / unit
  let rest := n % unit
  if 2 * rest < unit ∨ (2 * rest = unit ∧ below % 2 = 0) then below * unit
  else (below + 1) * unit

/-- The significant bits of a double. -/
def precision : Nat := 53

/-- The least power of two beyond the doubles. -/
def beyond : Nat := 1 <<< 1024

/-- The greatest power of ten that is a double. -/
def maxExponent : Nat := 308

/-- Appends digits to `leading` as long as the number stays below 2^64, and gives the digits that
are left. -/
def gather (leading : Nat) : List Char → Nat × List Char
  | [] => (leading, [])
  | d :: digits =>
    let next := leading * 10 + (d.toNat - '0'.toNat)
    if next < UInt64.size then gather next digits else (leading, d :: digits)

/-- Whether `leading` times the power of ten is less than `beyond` in double arithmetic. -/
def scaledInRange (leading : Nat) (exponent : Int) : Bool :=
  leading == 0 || exponent < 0 ||
    (exponent ≤ maxExponent &&
      roundToBits precision
        (roundToBits precision leading *
          roundToBits precision (Nat.pow 10 exponent.toNat)) < beyond)

/-- Whether the number with these digits before and after the point, and this exponent, is in
range.  A digit before the point that is not gathered still counts as a place; one after the point
does not. -/
def inRange (whole fraction : List Char) (exponent : Int) : Bool :=
  let (leading, dropped) := gather 0 whole
  let (leading, unread) := gather leading fraction
  scaledInRange leading (exponent + dropped.length + unread.length - fraction.length)

end Nmos6502.Serial.Magnitude
