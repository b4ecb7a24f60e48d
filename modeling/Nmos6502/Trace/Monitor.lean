import Nmos6502.Trace.Sink

/-!
# Bus monitors

A monitor is the sink that keeps bus accesses, oldest first, and ignores all else.
-/

namespace Nmos6502

structure Monitor where
  accesses : Array Access
deriving DecidableEq, Repr

namespace Monitor

def empty : Monitor := ⟨#[]⟩

instance : Inhabited Monitor := ⟨empty⟩

def record (m : Monitor) : Event → Monitor
  | .accessed access => ⟨m.accesses.push access⟩
  | _ => m

instance : Sink Monitor where
  event := record

/-- Drops all accesses. -/
def clear (_ : Monitor) : Monitor := empty

def last? (m : Monitor) : Option Access := m.accesses.back?

def reads (m : Monitor) : Array Access :=
  m.accesses.filter fun access => access.direction == .read

def writes (m : Monitor) : Array Access :=
  m.accesses.filter fun access => access.direction == .write

def size (m : Monitor) : Nat := m.accesses.size

def isEmpty (m : Monitor) : Bool := m.accesses.isEmpty

end Monitor

end Nmos6502
