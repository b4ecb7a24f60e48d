import Nmos6502.Serial.Magnitude
import Nmos6502.Serial.Value

/-!
# Reading structured values

A reader for JSON text.  A number without fraction and exponent is an integer, save for minus zero,
and has to be in the range of a double; of two fields of one name the later counts; lists and
objects stand in one another up to `maxDepth` levels.  The readers take what they need from the
front of the text and give back the rest; their fuel is computed from the text's length.
-/

namespace Nmos6502.Serial

namespace Reader

def skipBlank : List Char → List Char
  | ' ' :: cs | '\t' :: cs | '\n' :: cs | '\r' :: cs => skipBlank cs
  | cs => cs

/-- The value of a hexadecimal digit of either case. -/
def hexValue? (c : Char) : Option Nat :=
  if '0' ≤ c ∧ c ≤ '9' then some (c.toNat - '0'.toNat)
  else if 'a' ≤ c ∧ c ≤ 'f' then some (c.toNat - 'a'.toNat + 10)
  else if 'A' ≤ c ∧ c ≤ 'F' then some (c.toNat - 'A'.toNat + 10)
  else none

/-- Four hexadecimal digits. -/
def hexUnit? : List Char → Option (Nat × List Char)
  | a :: b :: c :: d :: cs => do
    let a ← hexValue? a
    let b ← hexValue? b
    let c ← hexValue? c
    let d ← hexValue? d
    pure (((a * 16 + b) * 16 + c) * 16 + d, cs)
  | _ => none

/-- The character that `\u` introduces: one unit, or two that form a pair. -/
def unicodeEscape? (cs : List Char) : Option (Char × List Char) := do
  let (unit, cs) ← hexUnit? cs
  if 0xD800 ≤ unit ∧ unit < 0xDC00 then
    match cs with
    | '\\' :: 'u' :: cs =>
      let (second, cs) ← hexUnit? cs
      if 0xDC00 ≤ second ∧ second < 0xE000 then
        pure (Char.ofNat (0x10000 + (unit - 0xD800) * 0x400 + (second - 0xDC00)), cs)
      else none
    | _ => none
  else if 0xDC00 ≤ unit ∧ unit < 0xE000 then none
  else pure (Char.ofNat unit, cs)

/-- The character that a backslash introduces. -/
def escape? : List Char → Option (Char × List Char)
  | '"' :: cs => some ('"', cs)
  | '\\' :: cs => some ('\\', cs)
  | '/' :: cs => some ('/', cs)
  | 'b' :: cs => some ('\x08', cs)
  | 'f' :: cs => some ('\x0c', cs)
  | 'n' :: cs => some ('\n', cs)
  | 'r' :: cs => some ('\r', cs)
  | 't' :: cs => some ('\t', cs)
  | 'u' :: cs => unicodeEscape? cs
  | _ => none

/-- The rest of a string whose opening quote has been read. -/
def string? (seen : List Char) : Nat → List Char → Option (String × List Char)
  | _, '"' :: cs => some (String.ofList seen.reverse, cs)
  | fuel + 1, '\\' :: cs =>
    match escape? cs with
    | some (c, cs) => string? (c :: seen) fuel cs
    | none => none
  | fuel + 1, c :: cs => if c.toNat < 0x20 then none else string? (c :: seen) fuel cs
  | _, _ => none

/-- The value of a row of decimal digits. -/
def decimalValue (digits : List Char) : Nat :=
  digits.foldl (fun n d => n * 10 + (d.toNat - '0'.toNat)) 0

/-- Digits, of which there is at least one. -/
def digits? (cs : List Char) : Option (List Char × List Char) :=
  let (digits, rest) := cs.span Char.isDigit
  if digits.isEmpty then none else some (digits, rest)

/-- The digits before the point: zero, or digits that do not begin with zero. -/
def whole? : List Char → Option (List Char × List Char)
  | '0' :: cs => if cs.head?.any Char.isDigit then none else some (['0'], cs)
  | cs => digits? cs

/-- The digits after the point, if there is one. -/
def fraction? : List Char → Option (Option (List Char) × List Char)
  | '.' :: cs => do
    let (digits, rest) ← digits? cs
    pure (some digits, rest)
  | cs => some (none, cs)

/-- An exponent as it is written. -/
structure Exponent where
  mark : Char
  sign : List Char
  digits : List Char

def Exponent.value (e : Exponent) : Int :=
  if e.sign = ['-'] then -decimalValue e.digits else decimalValue e.digits

def Exponent.literal (e : Exponent) : List Char :=
  e.mark :: e.sign ++ e.digits

/-- An optional sign of an exponent. -/
def exponentSign : List Char → List Char × List Char
  | '+' :: cs => (['+'], cs)
  | '-' :: cs => (['-'], cs)
  | cs => ([], cs)

def exponent? : List Char → Option (Option Exponent × List Char)
  | [] => some (none, [])
  | mark :: cs =>
    if mark = 'e' ∨ mark = 'E' then do
      let (sign, rest) := exponentSign cs
      let (digits, rest) ← digits? rest
      pure (some ⟨mark, sign, digits⟩, rest)
    else some (none, mark :: cs)

/-- A number as it is written, without its sign. -/
structure Numeral where
  whole : List Char
  fraction : Option (List Char)
  exponent : Option Exponent

namespace Numeral

def isInteger (n : Numeral) : Bool :=
  n.fraction.isNone && n.exponent.isNone

def inRange (n : Numeral) : Bool :=
  Magnitude.inRange n.whole (n.fraction.getD []) ((n.exponent.map Exponent.value).getD 0)

def literal (n : Numeral) : List Char :=
  n.whole ++ (n.fraction.map ('.' :: ·)).getD [] ++ (n.exponent.map Exponent.literal).getD []

/-- The value of the numeral behind a minus sign or none. -/
def toValue (negative : Bool) (n : Numeral) : Value :=
  let value := decimalValue n.whole
  if n.isInteger && !(negative && value == 0) then
    .integer (if negative then -value else value)
  else
    .decimal (String.ofList ((if negative then ['-'] else []) ++ n.literal))

end Numeral

def unsigned? (negative : Bool) (cs : List Char) : Option (Value × List Char) := do
  let (whole, rest) ← whole? cs
  let (fraction, rest) ← fraction? rest
  let (exponent, rest) ← exponent? rest
  let numeral : Numeral := ⟨whole, fraction, exponent⟩
  if numeral.inRange then pure (numeral.toValue negative, rest) else none

def number? : List Char → Option (Value × List Char)
  | '-' :: cs => unsigned? true cs
  | cs => unsigned? false cs

/-- How many lists and objects may enclose a value. -/
def maxDepth : Nat := 127

mutual

/-- A value in which `depth` more levels of lists and objects may open. -/
def value? : Nat → Nat → List Char → Option (Value × List Char)
  | 0, _, _ => none
  | fuel + 1, depth, cs =>
    match skipBlank cs with
    | 'n' :: 'u' :: 'l' :: 'l' :: cs => some (.null, cs)
    | 't' :: 'r' :: 'u' :: 'e' :: cs => some (.bool true, cs)
    | 'f' :: 'a' :: 'l' :: 's' :: 'e' :: cs => some (.bool false, cs)
    | '"' :: cs => (string? [] cs.length cs).map fun (s, cs) => (.text s, cs)
    | '[' :: cs =>
      match depth with
      | 0 => none
      | depth + 1 =>
        match skipBlank cs with
        | ']' :: cs => some (.list [], cs)
        | cs => items? fuel depth [] cs
    | '\x7b' :: cs =>
      match depth with
      | 0 => none
      | depth + 1 =>
        match skipBlank cs with
        | '\x7d' :: cs => some (.object [], cs)
        | cs => fields? fuel depth [] cs
    | cs => number? cs

/-- The rest of a list that is not empty. -/
def items? : Nat → Nat → List Value → List Char → Option (Value × List Char)
  | 0, _, _, _ => none
  | fuel + 1, depth, seen, cs =>
    match value? fuel depth cs with
    | none => none
    | some (item, cs) =>
      match skipBlank cs with
      | ',' :: cs => items? fuel depth (item :: seen) cs
      | ']' :: cs => some (.list (item :: seen).reverse, cs)
      | _ => none

/-- The rest of an object that is not empty. -/
def fields? : Nat → Nat → List (String × Value) → List Char → Option (Value × List Char)
  | 0, _, _, _ => none
  | fuel + 1, depth, seen, cs =>
    match skipBlank cs with
    | '"' :: cs =>
      match string? [] cs.length cs with
      | none => none
      | some (key, cs) =>
        match skipBlank cs with
        | ':' :: cs =>
          match value? fuel depth cs with
          | none => none
          | some (item, cs) =>
            let seen := (key, item) :: seen.filter fun field => field.1 != key
            match skipBlank cs with
            | ',' :: cs => fields? fuel depth seen cs
            | '\x7d' :: cs => some (.object seen.reverse, cs)
            | _ => none
        | _ => none
    | _ => none

end

end Reader

/-- The value that `text` holds, if it holds one and nothing else. -/
def Value.read? (text : String) : Option Value :=
  let cs := text.toList
  match Reader.value? (2 * cs.length + 2) Reader.maxDepth cs with
  | some (value, rest) => if (Reader.skipBlank rest).isEmpty then some value else none
  | none => none

end Nmos6502.Serial
