import Nmos6502.Cpu
import Nmos6502.Serial.Value

/-!
# Shapes of saved states

How the parts of a processor's state are written as structured values, and how they are read back.
A state is written field by field.  Every field is required, others are passed over, and a number
has to fit its register.  Nothing else is checked.
-/

namespace Nmos6502.Serial

/-- A type with a written form.  The instances are what a serialization that is derived from the
declarations of the types does; that it is so derived is assumed here. -/
class Shape (α : Type) where
  encode : α → Value
  decode? : Value → Option α

export Shape (encode decode?)

instance : Shape Bool where
  encode := .bool
  decode?
    | .bool b => some b
    | _ => none

instance : Shape String where
  encode := .text
  decode?
    | .text s => some s
    | _ => none

instance : Shape UInt8 where
  encode n := .integer n.toNat
  decode? value := (value.natBelow? UInt8.size).map UInt8.ofNat

instance : Shape UInt16 where
  encode n := .integer n.toNat
  decode? value := (value.natBelow? UInt16.size).map UInt16.ofNat

instance : Shape UInt64 where
  encode n := .integer n.toNat
  decode? value := (value.natBelow? UInt64.size).map UInt64.ofNat

/-- Reads the case of `all` whose identifier the value is. -/
def decodeCase? {α : Type} (all : List α) (identifier : α → String) (value : Value) : Option α :=
  value.word?.bind fun s => all.find? fun a => identifier a == s

instance : Shape Mnemonic where
  encode m := .text m.identifier
  decode? := decodeCase? Mnemonic.all Mnemonic.identifier

instance : Shape AddressingMode where
  encode mode := .text mode.identifier
  decode? := decodeCase? AddressingMode.all AddressingMode.identifier

instance : Shape ResetKind where
  encode kind := .text kind.identifier
  decode? := decodeCase? ResetKind.all ResetKind.identifier

instance : Shape Direction where
  encode direction := .text direction.identifier
  decode? := decodeCase? Direction.all Direction.identifier

/-! ## Objects -/

/-- The fields of an object, in order, and the values of `α` that are written and read with them. -/
structure Fields (α : Type) where
  names : List String
  write : α → List Value
  read? : List Value → Option α

namespace Fields

variable {α β γ : Type}

def single (name : String) [Shape α] : Fields α where
  names := [name]
  write a := [encode a]
  read?
    | [value] => decode? value
    | _ => none

def cons (name : String) [Shape α] (rest : Fields β) : Fields (α × β) where
  names := name :: rest.names
  write p := encode p.1 :: rest.write p.2
  read?
    | value :: values => return (← decode? value, ← rest.read? values)
    | [] => none

/-- Fields of the `parts` that values of `γ` are made of. -/
def of (fields : Fields α) (parts : γ → α) (make : α → γ) : Fields γ where
  names := fields.names
  write c := fields.write (parts c)
  read? values := (fields.read? values).map make

@[reducible]
def shape (fields : Fields α) : Shape α where
  encode a := .object (fields.names.zip (fields.write a))
  decode? value := (value.fields? fields.names).bind fields.read?

end Fields

open Fields

instance : Shape Status :=
  ((single "bits").of Status.bits Status.mk).shape

instance : Shape Registers :=
  Fields.shape <|
    .of (.cons "a" <| .cons "x" <| .cons "y" <| .cons "sp" <| .single "pc")
      (fun r => (r.a, r.x, r.y, r.sp, r.pc)) fun (a, x, y, sp, pc) => ⟨a, x, y, sp, pc⟩

instance : Shape Snapshot :=
  Fields.shape <|
    .of (.cons "registers" <| .cons "status" <| .cons "pending_cycles" <|
        .cons "total_cycles" <| .single "reset_done")
      (fun s => (s.registers, s.status, s.pendingCycles, s.totalCycles, s.resetDone))
      fun (registers, status, pendingCycles, totalCycles, resetDone) =>
        { registers, status, pendingCycles, totalCycles, resetDone }

instance : Shape Config :=
  Fields.shape <|
    .of (.cons "page_cross_penalty" <| .single "power_on_sp")
      (fun c => (c.pageCrossPenalty, c.powerOnSp)) fun (pageCrossPenalty, powerOnSp) =>
        ⟨pageCrossPenalty, powerOnSp⟩

instance : Shape Opcode.Record :=
  Fields.shape <|
    .of (.cons "opcode" <| .cons "mnemonic" <| .cons "addressing mode" <| .cons "bytes" <|
        .single "cycles")
      (fun r => (r.opcode, r.mnemonic, r.mode, r.bytes, r.cycles))
      fun (opcode, mnemonic, mode, bytes, cycles) => ⟨opcode, mnemonic, mode, bytes, cycles⟩

instance : Shape Access :=
  Fields.shape <|
    .of (.cons "cycle" <| .cons "address" <| .cons "data" <| .single "operation")
      (fun a => (a.cycle, a.address, a.data, a.direction))
      fun (cycle, address, data, direction) => ⟨cycle, address, data, direction⟩

end Nmos6502.Serial
