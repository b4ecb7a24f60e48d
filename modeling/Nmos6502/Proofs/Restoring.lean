import Nmos6502.Bus.Tape
import Nmos6502.Proofs.Step

/-!
# Restored processors

A snapshot holds all that a run can change, and of its setup an engine uses the table and whether a
page crossing costs a cycle.  So a processor that has been restored goes on as the one whose
snapshot it was, whatever either of them went through before.
-/

namespace Nmos6502

/-! ## What an engine uses of its setup -/

/-- The setups differ at most in the stack pointer out of power-on. -/
structure Setup.Agrees (s t : Setup) : Prop where
  table : s.table = t.table
  penalty : s.config.pageCrossPenalty = t.config.pageCrossPenalty

namespace Core

theorem carryOut_of_penalty
    {config other : Config} (hpenalty : config.pageCrossPenalty = other.pageCrossPenalty)
    (entry : Opcode.Entry) (m : Mnemonic) (c : Core) :
    c.carryOut config entry m = c.carryOut other entry m := by
  simp only [carryOut, Config.baseCycles, hpenalty]

theorem instruction_of_agrees {s t : Setup} (hagrees : s.Agrees t) (c : Core) :
    c.instruction s = c.instruction t := by
  simp only [instruction, hagrees.table, carryOut_of_penalty hagrees.penalty]

end Core

namespace Engine

theorem step_of_agrees {s t : Setup} (hagrees : s.Agrees t) (e : Engine) : step s e = step t e := by
  simp only [step, Core.instruction_of_agrees hagrees]

theorem untilRetired_of_agrees
    {s t : Setup} (hagrees : s.Agrees t) (fetched : Bool) (clocks fuel : Nat) (e : Engine) :
    untilRetired s fetched clocks fuel e = untilRetired t fetched clocks fuel e := by
  induction fuel generalizing fetched clocks e with
  | zero => rfl
  | succ fuel ih => simp only [untilRetired, step_of_agrees hagrees, ih]

theorem execute_of_agrees {s t : Setup} (hagrees : s.Agrees t) (e : Engine) :
    execute s e = execute t e := by
  simp only [execute, untilRetired_of_agrees hagrees]

end Engine

theorem Request.task_of_agrees
    {s t : Setup} (hagrees : s.Agrees t) (e : Engine) (request : Request) :
    request.task s e = request.task t e := by
  cases request with
  | step => simp only [task, Engine.step_of_agrees hagrees]
  | execute => simp only [task, Engine.execute_of_agrees hagrees]
  | _ => rfl

/-! ## Sessions of traced and untraced calls -/

structure Call where
  request : Request
  /-- Whether the call is given the sink of its session. -/
  traced : Bool

structure Moment (β σ : Type) where
  reply : Reply
  snapshot : Snapshot
  bus : β
  sink : σ

namespace Cpu

variable {β σ : Type} [Bus β] [Sink σ]

def make (cpu : Cpu) (call : Call) (bus : β) (sink : σ) : Report Reply β σ :=
  if call.traced then cpu.perform call.request bus sink
  else
    let r := cpu.perform call.request bus ()
    ⟨r.value, r.cpu, r.bus, sink⟩

def moments (cpu : Cpu) : List Call → β → σ → List (Moment β σ)
  | [], _, _ => []
  | call :: rest, bus, sink =>
    let r := cpu.make call bus sink
    ⟨r.value, r.cpu.snapshot, r.bus, r.sink⟩ :: r.cpu.moments rest r.bus r.sink

/-- No run can tell the processors apart. -/
structure Twins (c d : Cpu) : Prop where
  snapshot : c.snapshot = d.snapshot
  setup : c.setup.Agrees d.setup

theorem Twins.perform
    {c d : Cpu} (htwins : c.Twins d) (request : Request) (bus : β) (sink : σ) :
    let r := c.perform request bus sink
    let s := d.perform request bus sink
    r.value = s.value ∧ r.cpu.Twins s.cpu ∧ r.bus = s.bus ∧ r.sink = s.sink := by
  rcases c with ⟨taken, setup⟩
  rcases d with ⟨taken', other⟩
  rcases htwins with ⟨hsnapshot, hagrees⟩
  obtain rfl : taken = taken' := hsnapshot
  have htask : request.task setup taken.toEngine = request.task other taken.toEngine :=
    request.task_of_agrees hagrees taken.toEngine
  simp only [Cpu.perform, drive, htask, true_and, and_true]
  exact ⟨rfl, hagrees⟩

theorem Twins.make
    {c d : Cpu} (htwins : c.Twins d) (call : Call) (bus : β) (sink : σ) :
    let r := c.make call bus sink
    let s := d.make call bus sink
    r.value = s.value ∧ r.cpu.Twins s.cpu ∧ r.bus = s.bus ∧ r.sink = s.sink := by
  cases htraced : call.traced with
  | true =>
      simp only [Cpu.make, htraced, if_true]
      exact htwins.perform call.request bus sink
  | false =>
      -- Without a trace the call has a sink of its own, and that of the session stays as it is.
      rcases htwins.perform call.request bus () with ⟨hvalue, hcpu, hbus, -⟩
      simp only [Cpu.make, htraced, Bool.false_eq_true, if_false]
      exact ⟨hvalue, hcpu, hbus, trivial⟩

theorem Twins.moments
    {c d : Cpu} (htwins : c.Twins d) (calls : List Call) (bus : β) (sink : σ) :
    c.moments calls bus sink = d.moments calls bus sink := by
  induction calls generalizing c d bus sink with
  | nil => rfl
  | cons call rest ih =>
      rcases htwins.make call bus sink with ⟨hvalue, hcpu, hbus, hsink⟩
      simp only [Cpu.moments]
      rw [hvalue, hcpu.snapshot, hbus, hsink, ih hcpu]

/-- Restored from another processor's snapshot, a processor with the same table and the same
surcharge for page crossings goes on as that one does: call after call the replies, the snapshots,
the bus and what the sink has been told are the same. -/
theorem restored_goes_on_alike
    (c d : Cpu) (hagrees : c.setup.Agrees d.setup) (calls : List Call) (bus : β) (sink : σ) :
    let restored := d.restore c.snapshot
    restored.snapshot = c.snapshot ∧ restored.setup = d.setup ∧
      restored.moments calls bus sink = c.moments calls bus sink := by
  intro restored
  have htwins : c.Twins restored := ⟨rfl, hagrees⟩
  exact ⟨rfl, rfl, (htwins.moments calls bus sink).symm⟩

/-- The snapshot is taken in the middle of an instruction, and the processor that it is restored to
has never been reset. -/
theorem restored_in_flight :
    let table := Opcode.Table.empty.insert (.documented 0xA9 .lda .immediate 2 2)
    let inFlight := { readyAt 0x400 table with pendingCycles := 2 }
    let unready := ofSetup ⟨⟨true, 0x80⟩, table⟩
    let calls : List Call := [⟨.step, true⟩, ⟨.execute, false⟩, ⟨.reset .hardwareAccurate, true⟩]
    let tape : Tape := ⟨[0xA9, 0x07, 0, 0, 0, 0, 0, 0x34, 0x12]⟩
    let log : Array Event := #[]
    let restored := unready.restore inFlight.snapshot
    inFlight.setup ≠ restored.setup ∧
      (restored.moments calls tape log).map Moment.snapshot =
        (inFlight.moments calls tape log).map Moment.snapshot ∧
      (restored.moments calls tape log).map (fun moment => moment.snapshot.totalCycles) =
        [1, 4, 11] := by
  intro table inFlight unready calls tape log restored
  have hagrees : inFlight.setup.Agrees unready.setup := ⟨rfl, rfl⟩
  rcases inFlight.restored_goes_on_alike unready hagrees calls tape log with
    ⟨-, hsetup, hmoments⟩
  refine ⟨?_, congrArg _ hmoments, ?_⟩
  · intro hsame
    have hsp := congrArg (fun setup => setup.config.powerOnSp) (hsame.trans hsetup)
    exact absurd hsp (by decide)
  · rw [hmoments]
    decide +kernel

end Cpu

end Nmos6502
