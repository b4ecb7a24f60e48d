import Nmos6502.Config
import Nmos6502.Cpu.Action
import Nmos6502.Fault
import Nmos6502.Opcode.Documented

/-!
# The engine

An instruction takes effect as a whole in the clock that fetches it, and its remaining cycles then
pass idly.  `Engine.step` is one clock; `Engine.execute` takes steps until an instruction in flight
and then a whole one have run out; `Engine.reset` is the seven-clock reset sequence.  A clock is
counted and then the bus is clocked.  A refused clock is none: nothing is counted and no device
advances.
-/

namespace Nmos6502

/-- What a processor is built from. -/
structure Setup where
  config : Config
  table : Opcode.Table
deriving DecidableEq, Inhabited

/-- The core, the cycles that its instruction still has to take, and whether a reset has
completed. -/
structure Engine extends Core where
  pendingCycles : UInt8
  resetDone : Bool
deriving DecidableEq, Repr, Inhabited

/-- What a clock did. -/
inductive Phase where
  | fetch
  | idle
deriving DecidableEq, Repr

/-- The base cost of an entry and the surcharge for an indexed read that has left its page. -/
def Config.baseCycles
    (config : Config) (entry : Opcode.Entry) (mnemonic : Mnemonic) (ea : EffectiveAddress) :
    UInt8 :=
  if ea.pageCrossed && config.pageCrossPenalty && paysPageCross mnemonic entry.mode then
    Byte.saturatingAdd entry.cycles Penalty.pageCross.cycles
  else entry.cycles

namespace Core

open Traffic

/-- The decoded instruction, from its operand to its cost. -/
def carryOut
    (config : Config) (entry : Opcode.Entry) (mnemonic : Mnemonic) (c : Core) :
    Work (UInt8 × Core) := do
  let (ea, c) ← c.resolve entry.mode
  let action := mnemonic.action
  let cycles :=
    Byte.saturatingAdd (config.baseCycles entry mnemonic ea) (action.surcharge c ea.operand)
  let c ← action.effect c ea.operand
  pure (cycles, c)

/-- Fetches, decodes and carries out one instruction, and gives its cost. -/
def instruction (setup : Setup) (c : Core) : Traffic Mark (Except Fault UInt8 × Core) := do
  let pc := c.registers.pc
  let (opcode, c) ← c.fetchByte.embed.traced
  note (.event (.started pc opcode))
  match setup.table.lookup opcode with
  | none =>
    note (.remark (.unimplementedOpcode opcode pc))
    note (.event (.faulted pc opcode))
    pure (.error (.unimplementedOpcode opcode pc), c)
  | some entry =>
    match entry.mnemonic with
    | none =>
      note (.remark (.noHandler entry.name opcode pc))
      note (.event (.faulted pc opcode))
      pure (.error (.instructionNotImplemented entry.name opcode pc), c)
    | some mnemonic =>
      note (.remark (.decoded pc opcode mnemonic entry.mode c.registers.a c.registers.x
        c.registers.y c.registers.sp c.status.bits))
      let (cycles, c) ← (c.carryOut setup.config entry mnemonic).embed.traced
      note (.event (.retired pc cycles))
      pure (.ok cycles, c)

end Core

namespace Engine

open Traffic

def step (setup : Setup) (e : Engine) : Traffic Mark (Except Fault Phase × Engine) :=
  if !e.resetDone then pure (.error .resetRequired, e)
  else if e.pendingCycles = 0 then do
    let (result, core) ← e.toCore.instruction setup
    match result with
    | .error fault => pure (.error fault, { e with toCore := core })
    | .ok cycles =>
      note .count
      note .tick
      pure (.ok .fetch, { e with toCore := core, pendingCycles := Byte.countdown cycles })
  else do
    note .count
    note .tick
    pure (.ok .idle, { e with pendingCycles := Byte.countdown e.pendingCycles })

/-- Steps until one of them has fetched and nothing is pending any more, and counts the steps from
`clocks` on.  There is no answer if `fuel` steps do not suffice. -/
def untilRetired (setup : Setup) (fetched : Bool) (clocks : Nat) :
    Nat → Engine → Traffic Mark (Option (Except Fault Nat) × Engine)
  | 0, e => pure (none, e)
  | fuel + 1, e => do
    let (result, e) ← step setup e
    match result with
    | .error fault => pure (some (.error fault), e)
    | .ok phase =>
      let fetched := fetched || phase == .fetch
      if fetched && e.pendingCycles == 0 then pure (some (.ok (clocks + 1)), e)
      else untilRetired setup fetched (clocks + 1) fuel e

/-- Lets the instruction in flight run out and carries out the next one.  The program counter may
end where it began.  As no instruction takes more than 255 clocks, the loop always answers. -/
def execute (setup : Setup) (e : Engine) : Traffic Mark (Except Fault Nat × Engine) := do
  let (result?, e) ← untilRetired setup false 0 (e.pendingCycles.toNat + 256) e
  pure (result?.getD (.ok 0), e)

/-- One clock that reads one byte. -/
def clockedRead (address : UInt16) : Traffic Mark UInt8 := do
  let byte ← (fetch address).embed.traced
  note .count
  note .tick
  pure byte

/-- The registers and the status after a reset has found `pc` in the vector. -/
def restart (kind : ResetKind) (pc : UInt16) (c : Core) : Core :=
  let status := Flag.interruptDisable.mask ||| Flag.unused.mask
  let sp := c.registers.sp - 3
  match kind with
  | .deterministic => ⟨⟨0, 0, 0, sp, pc⟩, ⟨status⟩⟩
  | .hardwareAccurate => ⟨{ c.registers with sp := sp, pc := pc }, ⟨c.status.bits ||| status⟩⟩

/-- Two reads at the program counter, three down the stack and two of the vector, each in a clock
of its own.  Only the vector counts. -/
def reset (kind : ResetKind) (e : Engine) : Traffic Mark (Unit × Engine) := do
  let pc := e.registers.pc
  let sp := e.registers.sp
  note (.event (.resetStarted kind))
  let _ ← clockedRead pc
  let _ ← clockedRead (pc + 1)
  let _ ← clockedRead (Core.stackCell (sp - 1))
  let _ ← clockedRead (Core.stackCell (sp - 2))
  let _ ← clockedRead (Core.stackCell (sp - 3))
  let low ← clockedRead resetVector
  let high ← clockedRead (resetVector + 1)
  let target := Word.ofBytes low high
  let core := restart kind target e.toCore
  note (.remark (.resetComplete kind target core.registers.sp core.status.bits))
  note (.event (.resetCompleted target))
  pure ((), ⟨core, 0, true⟩)

/-- Work on the core from outside, between two clocks.  Nobody is told of its accesses. -/
def intervene {α : Type} (work : Core → Work (α × Core)) (e : Engine) :
    Traffic Mark (α × Engine) := do
  let (value, core) ← (work e.toCore).embed
  pure (value, { e with toCore := core })

end Engine

end Nmos6502
