import Nmos6502.Bus

/-!
# Memory with peripherals

Peripherals stand in a fixed order in front of a memory.  An access goes to the first peripheral
that claims its address, and to the memory if none does.  The clock and a reset reach every
peripheral in order and never the memory.

The calls are made at a switchboard, which writes down every call that reaches a peripheral.  A
system is a switchboard without the record.
-/

namespace Nmos6502

class Peripheral (δ : Type) where
  claims : δ → UInt16 → Bool
  read : δ → UInt16 → UInt8 × δ
  write : δ → UInt16 → UInt8 → δ
  tick : δ → δ := fun device => device
  reset : δ → δ := fun device => device

/-- A call of a peripheral.  That of a read bears the byte that has been answered. -/
inductive DeviceCall where
  | read (address : UInt16) (value : UInt8)
  | write (address : UInt16) (value : UInt8)
  | tick
  | reset
deriving DecidableEq, Repr

namespace Peripheral

variable {δ : Type} [Peripheral δ]

def take (device : δ) : DeviceCall → δ
  | .read address _ => (read device address).2
  | .write address value => write device address value
  | .tick => tick device
  | .reset => reset device

end Peripheral

/-- A call that has reached the peripheral at a place in the order, and what it has made of it. -/
structure Delivery (δ : Type) where
  index : Nat
  call : DeviceCall
  device : δ
deriving DecidableEq, Repr

structure SystemBus (δ : Type) where
  memory : Memory
  peripherals : Array δ

namespace SystemBus

variable {δ : Type}

def ofMemory (memory : Memory) : SystemBus δ := ⟨memory, #[]⟩

/-- Attaches `device` behind all others. -/
def attach (bus : SystemBus δ) (device : δ) : SystemBus δ :=
  { bus with peripherals := bus.peripherals.push device }

/-- One line that says what the bus consists of. -/
def describe (bus : SystemBus δ) : String :=
  "SystemBus \x7b memory: " ++ bus.memory.describe ++ ", peripherals: " ++
    toString bus.peripherals.size ++ " \x7d"

/-- The first peripheral that claims `address`. -/
def owner? [Peripheral δ] (bus : SystemBus δ) (address : UInt16) :
    Option (Fin bus.peripherals.size) :=
  bus.peripherals.findFinIdx? fun device => Peripheral.claims device address

end SystemBus

/-- A system with the calls that have reached its peripherals, oldest first. -/
structure Switchboard (δ : Type) where
  system : SystemBus δ
  deliveries : List (Delivery δ)

namespace Switchboard

variable {δ : Type}

/-- A switchboard that has put nothing through yet. -/
def fresh (system : SystemBus δ) : Switchboard δ := ⟨system, []⟩

/-- The peripheral at `i` has taken `call` and is now `device`. -/
def note
    (board : Switchboard δ) (i : Fin board.system.peripherals.size) (call : DeviceCall)
    (device : δ) : Switchboard δ where
  system := { board.system with peripherals := board.system.peripherals.set i device }
  deliveries := board.deliveries ++ [⟨i, call, device⟩]

variable [Peripheral δ]

def read (board : Switchboard δ) (address : UInt16) : UInt8 × Switchboard δ :=
  match board.system.owner? address with
  | none => (board.system.memory.read address, board)
  | some i =>
    let (value, device) := Peripheral.read board.system.peripherals[i] address
    (value, board.note i (.read address value) device)

def write (board : Switchboard δ) (address : UInt16) (value : UInt8) : Switchboard δ :=
  match board.system.owner? address with
  | none =>
    let memory := board.system.memory.write address value
    { board with system := { board.system with memory := memory } }
  | some i =>
    let device := Peripheral.write board.system.peripherals[i] address value
    board.note i (.write address value) device

/-- Hands `call` to the peripheral at `index`. -/
def hand (call : DeviceCall) (board : Switchboard δ) (index : Nat) : Switchboard δ :=
  if h : index < board.system.peripherals.size then
    board.note ⟨index, h⟩ call (Peripheral.take board.system.peripherals[index] call)
  else board

/-- Hands `call` to all peripherals, one after the other. -/
def handAll (board : Switchboard δ) (call : DeviceCall) : Switchboard δ :=
  (List.range board.system.peripherals.size).foldl (hand call) board

def tick (board : Switchboard δ) : Switchboard δ := board.handAll .tick

def resetPeripherals (board : Switchboard δ) : Switchboard δ := board.handAll .reset

instance : Bus (Switchboard δ) where
  read := read
  write := write
  tick := tick

end Switchboard

namespace SystemBus

variable {δ : Type} [Peripheral δ]

def read (bus : SystemBus δ) (address : UInt16) : UInt8 × SystemBus δ :=
  let (value, board) := (Switchboard.fresh bus).read address
  (value, board.system)

def write (bus : SystemBus δ) (address : UInt16) (value : UInt8) : SystemBus δ :=
  ((Switchboard.fresh bus).write address value).system

def tick (bus : SystemBus δ) : SystemBus δ := (Switchboard.fresh bus).tick.system

def resetPeripherals (bus : SystemBus δ) : SystemBus δ :=
  (Switchboard.fresh bus).resetPeripherals.system

instance : Bus (SystemBus δ) where
  read := read
  write := write
  tick := tick

end SystemBus

end Nmos6502
