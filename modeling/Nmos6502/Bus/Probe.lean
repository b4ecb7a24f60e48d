import Nmos6502.Bus

/-!
# Observed buses

A probe stands in front of a bus and writes down every call that reaches it, in order.
-/

namespace Nmos6502

inductive BusCall where
  | read (address : UInt16) (value : UInt8)
  | write (address : UInt16) (value : UInt8)
  | tick
deriving DecidableEq, Repr

structure Probe (β : Type) where
  bus : β
  calls : List BusCall

namespace Probe

variable {β : Type}

/-- A probe that has seen nothing yet. -/
def fresh (bus : β) : Probe β := ⟨bus, []⟩

instance [Bus β] : Bus (Probe β) where
  read probe address :=
    let (value, bus) := Bus.read probe.bus address
    (value, ⟨bus, probe.calls ++ [.read address value]⟩)
  write probe address value :=
    ⟨Bus.write probe.bus address value, probe.calls ++ [.write address value]⟩
  tick probe := ⟨Bus.tick probe.bus, probe.calls ++ [.tick]⟩

section Access

variable [Bus β] (probe : Probe β) (address : UInt16) (value : UInt8)

@[simp] theorem read_eq :
    Bus.read probe address =
      ((Bus.read probe.bus address).1,
        ⟨(Bus.read probe.bus address).2,
          probe.calls ++ [.read address (Bus.read probe.bus address).1]⟩) := rfl

@[simp] theorem write_eq :
    Bus.write probe address value =
      ⟨Bus.write probe.bus address value, probe.calls ++ [.write address value]⟩ := rfl

@[simp] theorem tick_eq : Bus.tick probe = ⟨Bus.tick probe.bus, probe.calls ++ [.tick]⟩ := rfl

end Access

end Probe

end Nmos6502
