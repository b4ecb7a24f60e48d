/-!
# Digits

Numbers as they appear in messages and bus logs: bytes and addresses in upper-case hexadecimal of
fixed width, cycle stamps in decimal, right-aligned.
-/

namespace Nmos6502.Text

/-- The upper-case hexadecimal digit of `n`, which counts modulo sixteen. -/
def hexDigit (n : Nat) : Char :=
  match n % 16 with
  | 0 => '0' | 1 => '1' | 2 => '2' | 3 => '3' | 4 => '4' | 5 => '5' | 6 => '6' | 7 => '7'
  | 8 => '8' | 9 => '9' | 10 => 'A' | 11 => 'B' | 12 => 'C' | 13 => 'D' | 14 => 'E' | _ => 'F'

/-- The `width` lowest hexadecimal digits of `n`. -/
def hexDigits (n : Nat) : Nat → List Char
  | 0 => []
  | width + 1 => hexDigits (n / 16) width ++ [hexDigit n]

def hexByte (b : UInt8) : String :=
  String.ofList (hexDigits b.toNat 2)

def hexWord (w : UInt16) : String :=
  String.ofList (hexDigits w.toNat 4)

/-- `text` moved to the right edge of a column, which it may exceed. -/
def alignRight (width : Nat) (text : String) : String :=
  String.ofList (List.replicate (width - text.length) ' ') ++ text

@[simp] theorem length_hexDigits (n width : Nat) : (hexDigits n width).length = width := by
  induction width generalizing n with
  | zero => rfl
  | succ width ih => simp [hexDigits, ih]

end Nmos6502.Text
