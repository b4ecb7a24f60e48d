/-!
# White space

The characters with the Unicode property White_Space, and trimming by them.
-/

namespace Nmos6502.Text

def isBlank (c : Char) : Bool :=
  let n := c.toNat
  (0x09 ≤ n && n ≤ 0x0D) || n == 0x20 || n == 0x85 || n == 0xA0 || n == 0x1680 ||
    (0x2000 ≤ n && n ≤ 0x200A) || n == 0x2028 || n == 0x2029 || n == 0x202F ||
    n == 0x205F || n == 0x3000

/-- `cs` without its leading and trailing white space. -/
def strip (cs : List Char) : List Char :=
  ((cs.dropWhile isBlank).reverse.dropWhile isBlank).reverse

def trim (s : String) : String :=
  String.ofList (strip s.toList)

/-- `s` with its ASCII letters in upper case. -/
def upper (s : String) : String :=
  String.ofList (s.toList.map Char.toUpper)

/-- Whether `s` and `t` differ at most in the case of ASCII letters. -/
def sameLetters (s t : String) : Bool :=
  s.toList.map Char.toLower == t.toList.map Char.toLower

end Nmos6502.Text
