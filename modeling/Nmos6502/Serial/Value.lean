/-!
# Structured values

The values that saved states are written in: JSON, with integers kept apart from all other
numbers.  The fields of an object are in order, and looking one up finds the first of its name.
-/

namespace Nmos6502.Serial

inductive Value where
  | null
  | bool (b : Bool)
  | integer (n : Int)
  /-- A number with a fraction or an exponent, as it is written. -/
  | decimal (literal : String)
  | text (s : String)
  | list (items : List Value)
  | object (fields : List (String × Value))
deriving Inhabited

namespace Value

def field? (name : String) : List (String × Value) → Option Value
  | [] => none
  | (key, value) :: rest => if key = name then some value else field? name rest

/-- The values of the named fields, in this order.  A list may stand for an object if it holds
exactly these values. -/
def fields? (names : List String) : Value → Option (List Value)
  | object fields => names.mapM fun name => field? name fields
  | list items => if items.length = names.length then some items else none
  | _ => none

/-- The word that chooses one of several cases.  It may also be the only key of an object that
holds nothing. -/
def word? : Value → Option String
  | text s => some s
  | object [(s, null)] => some s
  | _ => none

/-- A number from zero up to, but not including, `bound`. -/
def natBelow? (bound : Nat) : Value → Option Nat
  | integer n => if 0 ≤ n ∧ n < bound then some n.toNat else none
  | _ => none

end Value

end Nmos6502.Serial
