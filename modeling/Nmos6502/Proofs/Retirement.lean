import Mathlib.Order.Bounds.Defs
import Nmos6502.Bus.Tape
import Nmos6502.Proofs.Log
import Nmos6502.Proofs.Refusal

/-!
# Whole instructions

`Cpu.execute` is what single steps do until an instruction has retired, and the instruction takes as
many of them as it reports.
-/

namespace Nmos6502

namespace Cpu

variable {β σ : Type} [Bus β] [Sink σ]

/-! ## The cost that is billed is the time that is taken -/

theorem fetchingStep_of_decodes
    (cpu : Cpu) (bus : β) (hreset : cpu.resetDone = true)
    {entry : Opcode.Entry} {mnemonic : Mnemonic}
    (hdecodes : cpu.setup.table.Decodes
      (cpu.opcodeOn (Bus.tick^[cpu.pendingCycles.toNat] bus)) entry mnemonic) :
    ∃ cycles : UInt8, 0 < cycles ∧
      retirements (cpu.fetchingStep bus (#[] : Array Event)).sink =
        [(cpu.registers.pc, cycles)] ∧
      ∀ {σ : Type} [Sink σ] (sink : σ),
        (cpu.fetchingStep bus sink).value = .ok .fetch ∧
        (cpu.fetchingStep bus sink).cpu.pendingCycles.toNat = cycles.toNat - 1 := by
  obtain ⟨cycles, hpos, hlog, hbilled⟩ :=
    cpu.drained.retirements_of_decodes (Bus.tick^[cpu.pendingCycles.toNat] bus) #[] hreset rfl
      hdecodes
  refine ⟨cycles, hpos, hlog, fun sink => ⟨?_, ?_⟩⟩
  · have hstep := cpu.drained.step_of_decodes _ sink hreset rfl hdecodes
    exact congrArg Report.value hstep
  · have hseen := cpu.drained.drive_unobserved (Engine.step cpu.setup)
      (Bus.tick^[cpu.pendingCycles.toNat] bus) sink
    have hlogged := cpu.drained.drive_unobserved (Engine.step cpu.setup)
      (Bus.tick^[cpu.pendingCycles.toNat] bus) (#[] : Array Event)
    have hsame : (cpu.fetchingStep bus sink).cpu = (cpu.fetchingStep bus (#[] : Array Event)).cpu :=
      congrArg Report.cpu (hseen.symm.trans hlogged)
    have hpending : (cpu.fetchingStep bus (#[] : Array Event)).cpu.pendingCycles =
        Byte.countdown cycles := hbilled
    rw [hsame, hpending]
    exact Byte.toNat_countdown cycles

theorem retired_after_last_clock
    (cpu : Cpu) (n : Nat) (bus : β) (sink : σ) (hreset : cpu.resetDone = true)
    (hfetch : .phase (.ok .fetch) ∈ (cpu.steps n bus sink).value)
    (hpending : (cpu.steps n bus sink).cpu.pendingCycles = 0) :
    cpu.pendingCycles.toNat + (cpu.fetchingStep bus sink).cpu.pendingCycles.toNat + 1 ≤ n := by
  by_contra hearly
  by_cases hdraining : n ≤ cpu.pendingCycles.toNat
  · rw [cpu.steps_of_idle n bus sink hreset hdraining] at hfetch
    have hidle := List.eq_of_mem_replicate hfetch
    simp at hidle
  · obtain ⟨late, rfl⟩ : ∃ late, n = cpu.pendingCycles.toNat + (late + 1) :=
      ⟨n - cpu.pendingCycles.toNat - 1, by omega⟩
    have hlate : late < (cpu.fetchingStep bus sink).cpu.pendingCycles.toNat := by omega
    rw [cpu.steps_past_fetching late bus sink hreset (Nat.le_of_lt hlate)] at hpending
    have hleft := (cpu.fetchingStep bus sink).cpu.toNat_pendingCycles_idledBy (Nat.le_of_lt hlate)
    simp only at hpending
    rw [hpending] at hleft
    change 0 = _ at hleft
    omega

/-- An instruction is refused exactly if its opcode does not decode.  One that decodes takes the
clocks of its predecessor that are left and those that its retirement reports, and single steps do
exactly what it does.  No smaller number of steps has fetched it and has nothing pending. -/
theorem execute_refines_steps (cpu : Cpu) (bus : β) (hreset : cpu.resetDone = true) :
    let p := cpu.pendingCycles.toNat
    let opcode := cpu.opcodeOn (Bus.tick^[p] bus)
    let decodes := ∃ entry mnemonic, cpu.setup.table.Decodes opcode entry mnemonic
    ((∃ fault, (cpu.execute bus ()).value = .error fault) ↔ ¬decodes) ∧
    (decodes → ∃ cycles : UInt8, 0 < cycles ∧
      retirements (cpu.execute bus (#[] : Array Event)).sink = [(cpu.registers.pc, cycles)] ∧
      ∀ {σ : Type} [Sink σ] (sink : σ),
        let x := cpu.execute bus sink
        let last := p + cycles.toNat
        x.value = .ok last ∧
        cpu.steps last bus sink =
          ⟨idleReplies p ++ .phase (.ok .fetch) :: idleReplies (cycles.toNat - 1), x.cpu, x.bus,
            x.sink⟩ ∧
        x.cpu.pendingCycles = 0 ∧
        IsLeast
          {n | .phase (.ok .fetch) ∈ (cpu.steps n bus sink).value ∧
            (cpu.steps n bus sink).cpu.pendingCycles = 0} last ∧
        ∀ fuel, p + 256 ≤ fuel → cpu.untilRetired bus sink false 0 fuel = some x) := by
  intro p opcode decodes
  refine ⟨cpu.execute_refused_iff bus () hreset, fun hdecodes => ?_⟩
  rcases hdecodes with ⟨entry, mnemonic, hdecodes⟩
  rcases cpu.fetchingStep_of_decodes bus hreset hdecodes with ⟨cycles, hpos, hlog, hfetching⟩
  have hcycles : 0 < cycles.toNat := UInt8.lt_iff_toNat_lt.mp hpos
  refine ⟨cycles, hpos, ?_, fun sink => ?_⟩
  · rw [cpu.execute_of_fetch bus _ hreset (hfetching _).1]
    exact hlog
  · intro x last
    rcases hfetching sink with ⟨hvalue, hpending⟩
    have hx : x = _ := cpu.execute_of_fetch bus sink hreset hvalue
    have hclocks : p + 1 + (cycles.toNat - 1) = last := by omega
    have hlast : p + (cycles.toNat - 1 + 1) = last := by omega
    have hcount : x.value = .ok last := by
      rw [hx, hpending]
      exact congrArg Except.ok hclocks
    have hsteps : cpu.steps last bus sink =
        ⟨idleReplies p ++ .phase (.ok .fetch) :: idleReplies (cycles.toNat - 1), x.cpu, x.bus,
          x.sink⟩ := by
      have hall := cpu.steps_of_fetch bus sink hreset hvalue
      simp only [hpending] at hall
      rw [← hlast]
      exact hall
    have hdone : x.cpu.pendingCycles = 0 := by
      rw [hx]
      rfl
    have hretired : .phase (.ok .fetch) ∈ (cpu.steps last bus sink).value ∧
        (cpu.steps last bus sink).cpu.pendingCycles = 0 := by
      rw [hsteps]
      exact ⟨by simp, hdone⟩
    refine ⟨hcount, hsteps, hdone, ⟨hretired, ?_⟩, fun fuel hfuel => ?_⟩
    · intro n hpaid
      rcases hpaid with ⟨hfetch, hpaid⟩
      have hle := cpu.retired_after_last_clock n bus sink hreset hfetch hpaid
      omega
    · exact cpu.untilRetired_eq_execute bus sink hfuel

def selfJumping : Cpu := { readyAt 0x400 .documented with pendingCycles := 2 }

/-- A jump to itself retires, though control ends where it began. -/
theorem execute_of_self_jump :
    let x := selfJumping.execute (⟨[0x4C, 0x00, 0x04]⟩ : Tape) ()
    x.value = .ok 5 ∧ x.cpu.registers.pc = selfJumping.registers.pc ∧
      selfJumping.steps 5 (⟨[0x4C, 0x00, 0x04]⟩ : Tape) () =
        ⟨idleReplies 2 ++ .phase (.ok .fetch) :: idleReplies 2, x.cpu, x.bus, x.sink⟩ := by
  have hlookup :
      selfJumping.setup.table.lookup 0x4C = some (.documented 0x4C .jmp .absolute 3 3) := by
    decide +kernel
  obtain ⟨-, hretires⟩ := selfJumping.execute_refines_steps (⟨[0x4C, 0x00, 0x04]⟩ : Tape) rfl
  rcases hretires ⟨_, _, hlookup, rfl⟩ with ⟨cycles, -, hlog, hsteps⟩
  have hretired : retirements (selfJumping.execute (⟨[0x4C, 0x00, 0x04]⟩ : Tape)
      (#[] : Array Event)).sink = [(0x400, 3)] := by decide +kernel
  have hsame : [(selfJumping.registers.pc, cycles)] = [(0x400, 3)] := hlog.symm.trans hretired
  obtain rfl : cycles = 3 := (Prod.mk.inj (List.cons.inj hsame).1).2
  rcases hsteps () with ⟨hcount, hreplies, -⟩
  exact ⟨hcount, by decide +kernel, hreplies⟩

end Cpu

end Nmos6502
