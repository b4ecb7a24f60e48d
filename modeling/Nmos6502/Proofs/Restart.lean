import Nmos6502.Proofs.Calls
import Nmos6502.Proofs.Numerals

/-!
# Resets

A reset sweeps seven addresses, one in each clock, and of the bytes that it finds there only the
last two matter.  Which addresses they are is settled before the first read, and the kinds of reset
differ only in what becomes of the registers and the status afterwards.
-/

namespace Nmos6502

/-! ## Sweeps -/

/-- Reads of bytes, each in a clock of its own. -/
def BusCall.clockedReads : List (UInt16 × UInt8) → List BusCall
  | [] => []
  | (address, byte) :: rest => .read address byte :: .tick :: clockedReads rest

namespace Engine

/-- Reads each of the addresses in a clock of its own and goes on with the bytes. -/
def sweep {α : Type} : List UInt16 → (List UInt8 → Traffic Mark α) → Traffic Mark α
  | [], next => next []
  | address :: rest, next => do
    let byte ← clockedRead address
    sweep rest fun bytes => next (byte :: bytes)

/-- The addresses that a reset sweeps. -/
def resetReads (pc : UInt16) (sp : UInt8) : List UInt16 :=
  [pc, pc + 1, Core.stackCell (sp - 1), Core.stackCell (sp - 2), Core.stackCell (sp - 3),
    resetVector, resetVector + 1]

/-- What a reset makes of the bytes of its sweep. -/
def settle (kind : ResetKind) (e : Engine) (bytes : List UInt8) : Traffic Mark (Unit × Engine) := do
  let target := Word.ofBytes (bytes.getD 5 0) (bytes.getD 6 0)
  let core := restart kind target e.toCore
  Traffic.note (.remark (.resetComplete kind target core.registers.sp core.status.bits))
  Traffic.note (.event (.resetCompleted target))
  pure ((), ⟨core, 0, true⟩)

theorem reset_eq_sweep (kind : ResetKind) (e : Engine) :
    reset kind e = .mark (.event (.resetStarted kind))
      (sweep (resetReads e.registers.pc e.registers.sp) (settle kind e)) := rfl

variable {α β σ : Type} [Bus β] [Sink σ]

/-- The bytes of a sweep are settled by the bus alone. -/
theorem sweep_answers (addresses : List UInt16) (bus : β) :
    ∃ bytes later, bytes.length = addresses.length ∧
      ∀ next : List UInt8 → Traffic Mark α,
        (sweep addresses next).calls bus =
          BusCall.clockedReads (addresses.zip bytes) ++ (next bytes).calls later ∧
        ∀ clock (sink : σ), ∃ seen,
          (sweep addresses next).run clock bus sink =
            (next bytes).run (clock + .ofNat addresses.length) later seen := by
  induction addresses generalizing bus with
  | nil =>
      refine ⟨[], bus, rfl, fun next => ⟨rfl, fun clock sink => ⟨sink, ?_⟩⟩⟩
      exact congrArg ((next []).run · bus sink) (UInt64.add_zero clock).symm
  | cons address rest ih =>
      let answer := Bus.read bus address
      rcases ih (Bus.tick answer.2) with ⟨bytes, later, hlength, hnext⟩
      refine ⟨answer.1 :: bytes, later, congrArg Nat.succ hlength, fun next => ?_⟩
      rcases hnext fun bytes => next (answer.1 :: bytes) with ⟨hcalls, hrun⟩
      have hread : (sweep (address :: rest) next).calls bus =
          .read address answer.1 :: .tick ::
            (sweep rest fun bytes => next (answer.1 :: bytes)).calls (Bus.tick answer.2) := rfl
      rw [hread, hcalls]
      refine ⟨rfl, fun clock sink => ?_⟩
      rcases hrun (clock + 1) (Sink.event sink (.accessed ⟨clock, address, answer.1, .read⟩)) with
        ⟨seen, hseen⟩
      have hclock : clock + 1 + UInt64.ofNat rest.length =
          clock + UInt64.ofNat (address :: rest).length := by
        rw [List.length_cons, UInt64.ofNat_add]
        grind
      rw [hclock] at hseen
      exact ⟨seen, hseen⟩

/-- The bytes of a reset are settled by the bus and by where the reset starts. -/
theorem reset_answers (e : Engine) (bus : β) :
    ∃ first second third fourth fifth low high later, ∀ kind,
      (reset kind e).calls bus =
        BusCall.clockedReads ((resetReads e.registers.pc e.registers.sp).zip
          [first, second, third, fourth, fifth, low, high]) ∧
      ∀ clock (sink : σ), ∃ seen,
        (reset kind e).run clock bus sink =
          ⟨((), ⟨restart kind (Word.ofBytes low high) e.toCore, 0, true⟩), clock + 7, later,
            seen⟩ := by
  let addresses := resetReads e.registers.pc e.registers.sp
  rcases sweep_answers (α := Unit × Engine) (σ := σ) addresses bus with
    ⟨bytes, later, hlength, hnext⟩
  match bytes, hlength with
  | [first, second, third, fourth, fifth, low, high], _ =>
      refine ⟨first, second, third, fourth, fifth, low, high, later, fun kind => ?_⟩
      rcases hnext (settle kind e) with ⟨hcalls, hrun⟩
      rw [reset_eq_sweep]
      refine ⟨hcalls, fun clock sink => ?_⟩
      rcases hrun clock (Sink.event sink (.resetStarted kind)) with ⟨seen, hseen⟩
      exact ⟨_, hseen⟩

end Engine

/-! ## What a reset leaves -/

/-- A deterministic restart at `vector`. -/
def Snapshot.restarted (vector : UInt16) (sp : UInt8) (totalCycles : UInt64) : Snapshot where
  registers := ⟨0, 0, 0, sp - 3, vector⟩
  status := ⟨0x24⟩
  pendingCycles := 0
  resetDone := true
  totalCycles := totalCycles + 7

namespace Cpu

variable {β σ : Type} [Bus β] [Sink σ]

theorem reset_memory (cpu : Cpu) (memory : Memory) (sink : σ) :
    (cpu.reset .deterministic memory sink).cpu.snapshot =
      .restarted (memory.readWord 0xFFFC) cpu.registers.sp cpu.totalCycles := by
  rcases Engine.reset_answers (σ := σ) cpu.toEngine memory with ⟨_, _, _, _, _, _, _, _, hkind⟩
  rcases (hkind .deterministic).2 cpu.totalCycles sink with ⟨seen, hrun⟩
  have hengine : (cpu.reset .deterministic memory sink).cpu.toEngine =
      ⟨Engine.restart .deterministic (memory.readWord 0xFFFC) cpu.toCore, 0, true⟩ := rfl
  have hclock : (cpu.reset .deterministic memory sink).cpu.totalCycles = cpu.totalCycles + 7 :=
    congrArg Traffic.Outcome.clock hrun
  exact congrArg₂ Snapshot.mk hengine hclock

theorem reset_probe (cpu : Cpu) (bus : β) (sink : σ) :
    ∃ first second third fourth fifth low high later, ∀ kind,
      let r := cpu.reset kind (Probe.fresh bus) sink
      r.bus = ⟨later, BusCall.clockedReads
        ((Engine.resetReads cpu.registers.pc cpu.registers.sp).zip
          [first, second, third, fourth, fifth, low, high])⟩ ∧
      r.cpu =
        { cpu with
          toEngine := ⟨Engine.restart kind (Word.ofBytes low high) cpu.toCore, 0, true⟩
          totalCycles := cpu.totalCycles + 7 } := by
  rcases Engine.reset_answers (σ := σ) cpu.toEngine bus with
    ⟨first, second, third, fourth, fifth, low, high, later, hkind⟩
  refine ⟨first, second, third, fourth, fifth, low, high, later, fun kind => ?_⟩
  rcases hkind kind with ⟨hcalls, hrun⟩
  rcases hrun cpu.totalCycles sink with ⟨seen, hseen⟩
  simp only [reset, drive, Probe.fresh, Traffic.run_probe, hcalls, hseen, List.nil_append, and_self]

/-- From every state and on every bus, a reset of either kind makes the same seven reads, one in
each clock.  It restarts at the word of the last two bytes, three cells down the stack. -/
theorem reset_takes_seven_reads (cpu : Cpu) (kind : ResetKind) (bus : β) (sink : σ) :
    let pc := cpu.registers.pc
    let sp := cpu.registers.sp
    let r := cpu.reset kind (Probe.fresh bus) sink
    cpu.reset kind bus sink = ⟨(), r.cpu, r.bus.bus, r.sink⟩ ∧
      (∃ first second third fourth fifth low high,
        r.bus.calls =
          [.read pc first, .tick, .read (pc + 1) second, .tick,
            .read (.ofNat (0x100 + (sp - 1).toNat)) third, .tick,
            .read (.ofNat (0x100 + (sp - 2).toNat)) fourth, .tick,
            .read (.ofNat (0x100 + (sp - 3).toNat)) fifth, .tick,
            .read 0xFFFC low, .tick, .read 0xFFFD high, .tick] ∧
        r.cpu.registers.pc.toNat = low.toNat + 256 * high.toNat) ∧
      (∀ other, (cpu.reset other (Probe.fresh bus) sink).bus = r.bus) ∧
      r.cpu.registers.sp = sp - 3 ∧ r.cpu.totalCycles = cpu.totalCycles + 7 ∧
      r.cpu.pendingCycles = 0 ∧ r.cpu.resetDone = true ∧ r.cpu.setup = cpu.setup ∧
      (match kind with
        | .deterministic =>
          r.cpu.registers.a = 0 ∧ r.cpu.registers.x = 0 ∧ r.cpu.registers.y = 0 ∧
            r.cpu.status = ⟨0x24⟩
        | .hardwareAccurate =>
          r.cpu.registers.a = cpu.registers.a ∧ r.cpu.registers.x = cpu.registers.x ∧
            r.cpu.registers.y = cpu.registers.y ∧ r.cpu.status = ⟨cpu.status.bits ||| 0x24⟩) ∧
      ∀ memory : Memory,
        (cpu.reset .deterministic memory sink).cpu.snapshot =
          .restarted (memory.readWord 0xFFFC) sp cpu.totalCycles := by
  intro pc sp r
  have hplain : cpu.reset kind bus sink = ⟨(), r.cpu, r.bus.bus, r.sink⟩ := by
    rw [show r = _ from cpu.drive_probe (Engine.reset kind) bus [] sink]
    rfl
  rcases cpu.reset_probe bus sink with
    ⟨first, second, third, fourth, fifth, low, high, later, hprobe⟩
  rcases hprobe kind with ⟨hbus, hcpu⟩
  have hcalls := congrArg Probe.calls hbus
  simp only [Engine.resetReads, Core.stackCell_eq] at hcalls
  refine ⟨hplain, ⟨first, second, third, fourth, fifth, low, high, hcalls, ?_⟩,
    fun other => (hprobe other).1.trans hbus.symm, ?_, congrArg (·.totalCycles) hcpu,
    congrArg (·.pendingCycles) hcpu, congrArg (·.resetDone) hcpu, congrArg (·.setup) hcpu, ?_,
    fun memory => cpu.reset_memory memory sink⟩
  · rw [hcpu, ← Word.toNat_ofBytes]
    cases kind <;> rfl
  · rw [hcpu]
    cases kind <;> rfl
  · rw [hcpu]
    cases kind <;> exact ⟨rfl, rfl, rfl, rfl⟩

end Cpu

end Nmos6502
