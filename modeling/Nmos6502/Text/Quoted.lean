import Nmos6502.Text.Printable

/-!
# Quoted text

Text between double quotes on one line.  Quote and backslash are escaped, tab, line ends and NUL
have short escapes, and any other character that does not print is written as its code point in
hexadecimal.  `unescape?` reads the inside of the quotes back.
-/

namespace Nmos6502.Text

/-- The code point of `c` between braces. -/
def codePoint (c : Char) : List Char :=
  ['\\', 'u', '\x7b'] ++ Nat.toDigits 16 c.toNat ++ ['\x7d']

def escapeChar (c : Char) : List Char :=
  if c = '"' then ['\\', '"']
  else if c = '\\' then ['\\', '\\']
  else if c = '\t' then ['\\', 't']
  else if c = '\r' then ['\\', 'r']
  else if c = '\n' then ['\\', 'n']
  else if c = '\x00' then ['\\', '0']
  else if isPrintable c then [c]
  else codePoint c

def escape (cs : List Char) : List Char :=
  cs.flatMap escapeChar

def quote (s : String) : String :=
  String.ofList (['"'] ++ escape s.toList ++ ['"'])

/-- The value of a lower-case hexadecimal digit. -/
def digitValue? (c : Char) : Option Nat :=
  if '0' ≤ c ∧ c ≤ '9' then some (c.toNat - '0'.toNat)
  else if 'a' ≤ c ∧ c ≤ 'f' then some (c.toNat - 'a'.toNat + 10)
  else none

/-- Reads hexadecimal digits up to the closing brace, and gives what follows it. -/
def readCodePoint? (value : Nat) : List Char → Option (Char × List Char)
  | [] => none
  | '\x7d' :: rest => some (Char.ofNat value, rest)
  | c :: rest => (digitValue? c).bind fun digit => readCodePoint? (16 * value + digit) rest

theorem length_of_readCodePoint?
    {value : Nat} {cs rest : List Char} {c : Char}
    (h : readCodePoint? value cs = some (c, rest)) :
    rest.length < cs.length := by
  induction cs generalizing value with
  | nil => simp [readCodePoint?] at h
  | cons d cs ih =>
      unfold readCodePoint? at h
      split at h
      · simp at h
      · next heq =>
        simp only [Option.some.injEq, Prod.mk.injEq] at h
        simp only [List.cons.injEq] at heq
        simp [heq.2, h.2]
      · next heq =>
        obtain ⟨digit, _, hrest⟩ := Option.bind_eq_some_iff.mp h
        simp only [List.cons.injEq] at heq
        exact Nat.lt_succ_of_lt (ih (heq.2 ▸ hrest))

/-- Inverts `escape`; a backslash must begin one of the escapes. -/
def unescape? : List Char → Option (List Char)
  | [] => some []
  | '\\' :: '"' :: rest => (unescape? rest).map ('"' :: ·)
  | '\\' :: '\\' :: rest => (unescape? rest).map ('\\' :: ·)
  | '\\' :: 't' :: rest => (unescape? rest).map ('\t' :: ·)
  | '\\' :: 'r' :: rest => (unescape? rest).map ('\r' :: ·)
  | '\\' :: 'n' :: rest => (unescape? rest).map ('\n' :: ·)
  | '\\' :: '0' :: rest => (unescape? rest).map ('\x00' :: ·)
  | '\\' :: 'u' :: '\x7b' :: digits =>
    match h : readCodePoint? 0 digits with
    | none => none
    | some (c, rest) =>
      have : rest.length < digits.length := length_of_readCodePoint? h
      (unescape? rest).map (c :: ·)
  | '\\' :: _ => none
  | c :: rest => (unescape? rest).map (c :: ·)
termination_by cs => cs.length

end Nmos6502.Text
