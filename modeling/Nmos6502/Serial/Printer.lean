import Nmos6502.Serial.Value
import Nmos6502.Text.Digits

/-!
# Writing structured values

JSON text on one line and without blanks.  Only quotes, backslashes and controls are escaped.  Each
writer appends to the text so far.
-/

namespace Nmos6502.Serial.Value

def writeChar (out : String) (c : Char) : String :=
  if c = '"' then out ++ "\\\""
  else if c = '\\' then out ++ "\\\\"
  else if c.toNat < 0x20 then out ++ "\\u" ++ String.ofList (Text.hexDigits c.toNat 4)
  else out.push c

def writeText (out : String) (s : String) : String :=
  (s.toList.foldl writeChar (out.push '"')).push '"'

mutual

def write (out : String) : Value → String
  | null => out ++ "null"
  | bool b => out ++ toString b
  | integer n => out ++ toString n
  | decimal literal => out ++ literal
  | text s => writeText out s
  | list [] => out ++ "[]"
  | list (item :: items) => writeItems (item.write (out.push '[')) items
  | object [] => out ++ "\x7b\x7d"
  | object ((key, item) :: fields) =>
    writeFields (item.write ((writeText (out.push '\x7b') key).push ':')) fields

/-- The items after the first and the closing bracket. -/
def writeItems (out : String) : List Value → String
  | [] => out.push ']'
  | item :: items => writeItems (item.write (out.push ',')) items

/-- The fields after the first and the closing brace. -/
def writeFields (out : String) : List (String × Value) → String
  | [] => out.push '\x7d'
  | (key, item) :: fields =>
    writeFields (item.write ((writeText (out.push ',') key).push ':')) fields

end

def print (v : Value) : String := v.write ""

end Nmos6502.Serial.Value
