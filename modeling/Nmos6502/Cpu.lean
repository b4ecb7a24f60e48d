import Nmos6502.Cpu.Engine

/-!
# The processor

A processor is an engine with the count of its clocks and the setup it was built from.  It owns no
bus: every operation is given one, and a sink, and gives both back.  The count is kept by the run,
and goes up where an operation counts a clock.
-/

namespace Nmos6502

/-- All that a run can change in a processor. -/
structure Snapshot extends Engine where
  totalCycles : UInt64
deriving DecidableEq, Repr, Inhabited

structure Cpu extends Snapshot where
  setup : Setup
deriving DecidableEq, Inhabited

namespace Cpu

/-- What an operation answers and leaves behind. -/
structure Report (α β σ : Type) where
  value : α
  cpu : Cpu
  bus : β
  sink : σ

/-- Out of power-on: no registers set but the stack pointer, and no reset so far. -/
def ofSetup (setup : Setup) : Cpu where
  registers := ⟨0, 0, 0, setup.config.powerOnSp, 0⟩
  status := Status.powerOn
  pendingCycles := 0
  resetDone := false
  totalCycles := 0
  setup := setup

def snapshot (cpu : Cpu) : Snapshot := cpu.toSnapshot

def restore (cpu : Cpu) (snapshot : Snapshot) : Cpu :=
  { cpu with toSnapshot := snapshot }

section Operations

variable {α β σ : Type} [Bus β] [Sink σ]

/-- Plays `task` on the bus, from the current count of clocks. -/
def drive (cpu : Cpu) (task : Engine → Traffic Mark (α × Engine)) (bus : β) (sink : σ) :
    Report α β σ :=
  let o := (task cpu.toEngine).run cpu.totalCycles bus sink
  { value := o.value.1
    cpu := { cpu with toEngine := o.value.2, totalCycles := o.clock }
    bus := o.bus
    sink := o.sink }

def reset (cpu : Cpu) (kind : ResetKind) (bus : β) (sink : σ) : Report Unit β σ :=
  cpu.drive (Engine.reset kind) bus sink

def step (cpu : Cpu) (bus : β) (sink : σ) : Report (Except Fault Phase) β σ :=
  cpu.drive (Engine.step cpu.setup) bus sink

/-- The loop of `execute`, from the steps on that it has taken so far.  There is no report if `fuel`
more steps do not suffice. -/
def untilRetired
    (cpu : Cpu) (bus : β) (sink : σ) (fetched : Bool) (clocks fuel : Nat) :
    Option (Report (Except Fault Nat) β σ) :=
  let r := cpu.drive (Engine.untilRetired cpu.setup fetched clocks fuel) bus sink
  r.value.map fun result => ⟨result, r.cpu, r.bus, r.sink⟩

def execute (cpu : Cpu) (bus : β) (sink : σ) : Report (Except Fault Nat) β σ :=
  cpu.drive (Engine.execute cpu.setup) bus sink

/-- Takes the operand bytes of `mode` at the program counter. -/
def resolve (cpu : Cpu) (mode : AddressingMode) (bus : β) : Report EffectiveAddress β Unit :=
  cpu.drive (Engine.intervene fun c => c.resolve mode) bus ()

def pushByte (cpu : Cpu) (value : UInt8) (bus : β) : Report Unit β Unit :=
  cpu.drive (Engine.intervene fun c => Prod.mk () <$> c.pushByte value) bus ()

def pushWord (cpu : Cpu) (value : UInt16) (bus : β) : Report Unit β Unit :=
  cpu.drive (Engine.intervene fun c => Prod.mk () <$> c.pushWord value) bus ()

def pullByte (cpu : Cpu) (bus : β) : Report UInt8 β Unit :=
  cpu.drive (Engine.intervene Core.pullByte) bus ()

def pullWord (cpu : Cpu) (bus : β) : Report UInt16 β Unit :=
  cpu.drive (Engine.intervene Core.pullWord) bus ()

end Operations

/-- One line with the whole state and the size of the opcode table. -/
def describe (cpu : Cpu) : String :=
  let r := cpu.registers
  "Cpu \x7b registers: Registers \x7b a: " ++ toString r.a.toNat ++ ", x: " ++
    toString r.x.toNat ++ ", y: " ++ toString r.y.toNat ++ ", sp: " ++ toString r.sp.toNat ++
    ", pc: " ++ toString r.pc.toNat ++ " \x7d, status: StatusRegister \x7b bits: " ++
    toString cpu.status.bits.toNat ++ " \x7d, pending_cycles: " ++
    toString cpu.pendingCycles.toNat ++ ", total_cycles: " ++ toString cpu.totalCycles.toNat ++
    ", reset_done: " ++ toString cpu.resetDone ++
    ", config: CoreConfig \x7b page_cross_penalty: " ++
    toString cpu.setup.config.pageCrossPenalty ++ ", power_on_sp: " ++
    toString cpu.setup.config.powerOnSp.toNat ++ " \x7d, opcodes: " ++
    toString cpu.setup.table.size ++ " \x7d"

end Cpu

end Nmos6502
