import Nmos6502.Bus.Tape
import Nmos6502.Proofs.Execution

/-!
# Refused clocks

Which clocks are refused and what a refusal leaves behind.  A refusal at decoding has read one byte
and stands one address further on; it is no clock, and it is forgotten: the next step fetches the
next byte.  An instruction in flight is seen out before `execute` can be refused.
-/

namespace Nmos6502

namespace Opcode.Table

variable {t : Table} {opcode : UInt8} {pc : UInt16}

theorem refusal?_unimplemented_iff :
    (∃ remark, t.refusal? opcode pc = some (.unimplementedOpcode opcode pc, remark)) ↔
      t.lookup opcode = none := by
  unfold refusal?
  cases hentry : t.lookup opcode with
  | none => simp
  | some entry => cases hmnemonic : entry.mnemonic <;> simp [hmnemonic]

theorem refusal?_notImplemented_iff {name : String} :
    (∃ remark, t.refusal? opcode pc = some (.instructionNotImplemented name opcode pc, remark)) ↔
      ∃ entry, t.lookup opcode = some entry ∧ entry.mnemonic = none ∧ entry.name = name := by
  unfold refusal?
  cases hentry : t.lookup opcode with
  | none => simp
  | some entry => cases hmnemonic : entry.mnemonic <;> simp [hmnemonic]

theorem fault_of_refusal? {fault : Fault} {remark : DiaryEntry}
    (hrefusal : t.refusal? opcode pc = some (fault, remark)) :
    fault = .unimplementedOpcode opcode pc ∨
      ∃ name, fault = .instructionNotImplemented name opcode pc := by
  unfold refusal? at hrefusal
  cases hentry : t.lookup opcode with
  | none =>
      simp only [hentry, Option.some.injEq, Prod.mk.injEq] at hrefusal
      exact Or.inl hrefusal.1.symm
  | some entry =>
      cases hmnemonic : entry.mnemonic with
      | none =>
          simp only [hentry, hmnemonic, Option.some.injEq, Prod.mk.injEq] at hrefusal
          exact Or.inr ⟨entry.name, hrefusal.1.symm⟩
      | some mnemonic => simp [hentry, hmnemonic] at hrefusal

end Opcode.Table

namespace Cpu

variable {β σ : Type} [Bus β] [Sink σ]

/-! ## A clock that is due to fetch -/

theorem step_error_iff
    (cpu : Cpu) (bus : β) (sink : σ)
    (hreset : cpu.resetDone = true) (hpending : cpu.pendingCycles = 0) {fault : Fault} :
    (cpu.step bus sink).value = .error fault ↔
      ∃ remark, cpu.setup.table.refusal? (cpu.opcodeOn bus) cpu.registers.pc =
        some (fault, remark) := by
  rcases cpu.setup.table.refused_or_decodes (cpu.opcodeOn bus) cpu.registers.pc with
    ⟨reason, remark, hrefusal⟩ | ⟨entry, mnemonic, hdecodes⟩
  · rw [cpu.step_of_refusal bus sink hreset hpending hrefusal, hrefusal]
    simp
  · rw [cpu.step_of_decodes bus sink hreset hpending hdecodes,
      Opcode.Table.refusal?_eq_none_iff.mpr ⟨entry, mnemonic, hdecodes⟩]
    simp

theorem step_fetch_iff
    (cpu : Cpu) (bus : β) (sink : σ)
    (hreset : cpu.resetDone = true) (hpending : cpu.pendingCycles = 0) :
    (cpu.step bus sink).value = .ok .fetch ↔
      ∃ entry mnemonic, cpu.setup.table.Decodes (cpu.opcodeOn bus) entry mnemonic := by
  constructor
  · intro hfetch
    rcases cpu.setup.table.refused_or_decodes (cpu.opcodeOn bus) cpu.registers.pc with
      ⟨fault, remark, hrefusal⟩ | hdecodes
    · have herror := (cpu.step_error_iff bus sink hreset hpending).mpr ⟨remark, hrefusal⟩
      rw [hfetch] at herror
      contradiction
    · exact hdecodes
  · intro hdecodes
    rcases hdecodes with ⟨entry, mnemonic, hdecodes⟩
    rw [cpu.step_of_decodes bus sink hreset hpending hdecodes]

theorem fetch_is_first_call
    (cpu : Cpu) (bus : β) (sink : σ)
    (hreset : cpu.resetDone = true) (hpending : cpu.pendingCycles = 0) :
    ∃ later, (cpu.step (Probe.fresh bus) sink).bus.calls =
      .read cpu.registers.pc (cpu.opcodeOn bus) :: later := by
  rcases cpu.setup.table.refused_or_decodes (cpu.opcodeOn bus) cpu.registers.pc with
    ⟨fault, remark, hrefusal⟩ | ⟨entry, mnemonic, hdecodes⟩
  · rw [cpu.step_of_refusal (Probe.fresh bus) sink hreset hpending hrefusal]
    exact ⟨[], rfl⟩
  · exact ⟨_, cpu.step_calls_of_decodes bus sink hreset hpending hdecodes⟩

theorem step_of_error
    (cpu : Cpu) (bus : β) (sink : σ)
    (hreset : cpu.resetDone = true) (hpending : cpu.pendingCycles = 0) {fault : Fault}
    (herror : (cpu.step bus sink).value = .error fault) :
    (cpu.step bus sink).cpu = cpu.setCore (cpu.setPc (cpu.registers.pc + 1)) ∧
      (cpu.step bus sink).bus = (Bus.read bus cpu.registers.pc).2 ∧
      (cpu.step (Probe.fresh bus) sink).bus.calls =
        [.read cpu.registers.pc (cpu.opcodeOn bus)] := by
  rcases (cpu.step_error_iff bus sink hreset hpending).mp herror with ⟨remark, hrefusal⟩
  rw [cpu.step_of_refusal bus sink hreset hpending hrefusal,
    cpu.step_of_refusal (Probe.fresh bus) sink hreset hpending hrefusal]
  exact ⟨rfl, rfl, rfl⟩

/-! ## A refused instruction -/

theorem execute_error_iff
    (cpu : Cpu) (bus : β) (sink : σ) (hreset : cpu.resetDone = true) {fault : Fault} :
    (cpu.execute bus sink).value = .error fault ↔
      (cpu.fetchingStep bus sink).value = .error fault := by
  constructor
  · intro herror
    rw [cpu.execute_eq bus sink hreset] at herror
    cases hvalue : (cpu.fetchingStep bus sink).value with
    | error other => simpa [retired, hvalue] using herror
    | ok phase => simp [retired, hvalue] at herror
  · intro hfault
    rw [cpu.execute_of_fault bus sink hreset hfault]

/-- What decides on a refusal is the byte that the clocks of the instruction in flight leave at the
program counter. -/
theorem execute_refused_iff
    (cpu : Cpu) (bus : β) (sink : σ) (hreset : cpu.resetDone = true) :
    (∃ fault, (cpu.execute bus sink).value = .error fault) ↔
      ¬∃ entry mnemonic, cpu.setup.table.Decodes
        (cpu.opcodeOn (Bus.tick^[cpu.pendingCycles.toNat] bus)) entry mnemonic := by
  let clocked := Bus.tick^[cpu.pendingCycles.toNat] bus
  have herror : ∀ fault, (cpu.execute bus sink).value = .error fault ↔
      ∃ remark, cpu.setup.table.refusal? (cpu.opcodeOn clocked) cpu.registers.pc =
        some (fault, remark) := by
    intro fault
    exact (cpu.execute_error_iff bus sink hreset).trans
      (cpu.drained.step_error_iff clocked sink hreset rfl)
  constructor
  · intro hrefused hdecodes
    rcases hrefused with ⟨fault, hfault⟩
    rcases (herror fault).mp hfault with ⟨remark, hrefusal⟩
    rw [Opcode.Table.refusal?_eq_none_iff.mpr hdecodes] at hrefusal
    contradiction
  · intro hundecoded
    rcases cpu.setup.table.refused_or_decodes (cpu.opcodeOn clocked) cpu.registers.pc with
      ⟨fault, remark, hrefusal⟩ | hdecodes
    · exact ⟨fault, (herror fault).mpr ⟨remark, hrefusal⟩⟩
    · exact absurd hdecodes hundecoded

theorem fetchingStep_probe (cpu : Cpu) (bus : β) (sink : σ) :
    let s := cpu.fetchingStep (Probe.fresh bus) sink
    let clocked := Bus.tick^[cpu.pendingCycles.toNat] bus
    s.value = (cpu.fetchingStep bus sink).value ∧
      s.bus.calls = List.replicate cpu.pendingCycles.toNat .tick ++
        (cpu.drained.step (Probe.fresh clocked) sink).bus.calls := by
  have hclocked : Bus.tick^[cpu.pendingCycles.toNat] (Probe.fresh bus) =
      ⟨Bus.tick^[cpu.pendingCycles.toNat] bus, List.replicate cpu.pendingCycles.toNat .tick⟩ :=
    Probe.tick_iterate _ bus []
  unfold fetchingStep step
  rw [hclocked, drive_probe]
  exact ⟨rfl, rfl⟩

/-- The clocks around the fetch make no calls but their own. -/
theorem execute_probe (cpu : Cpu) (bus : β) (sink : σ) (hreset : cpu.resetDone = true) :
    let clocked := Bus.tick^[cpu.pendingCycles.toNat] bus
    ∃ later, (cpu.execute (Probe.fresh bus) sink).bus.calls =
      List.replicate cpu.pendingCycles.toNat .tick ++
        (cpu.drained.step (Probe.fresh clocked) sink).bus.calls ++ List.replicate later .tick := by
  intro clocked
  rcases cpu.fetchingStep_probe bus sink with ⟨-, hprobed⟩
  cases hvalue : (cpu.fetchingStep (Probe.fresh bus) sink).value with
  | error fault =>
      rw [cpu.execute_of_fault (Probe.fresh bus) sink hreset hvalue]
      exact ⟨0, by simpa using hprobed⟩
  | ok phase =>
      rw [cpu.execute_of_fetch (Probe.fresh bus) sink hreset hvalue]
      refine ⟨(cpu.fetchingStep (Probe.fresh bus) sink).cpu.pendingCycles.toNat, ?_⟩
      rw [← hprobed]
      exact congrArg Probe.calls (Probe.tick_iterate _ _ _)

theorem execute_of_error
    (cpu : Cpu) (bus : β) (sink : σ)
    (hreset : cpu.resetDone = true) {fault : Fault}
    (herror : (cpu.execute bus sink).value = .error fault) :
    let pending := cpu.pendingCycles.toNat
    let clocked := Bus.tick^[pending] bus
    let x := cpu.execute bus sink
    cpu.steps pending bus sink = ⟨idleReplies pending, cpu.drained, clocked, sink⟩ ∧
      cpu.drained.step clocked sink = ⟨.error fault, x.cpu, x.bus, x.sink⟩ ∧
      x.cpu = cpu.drained.setCore (cpu.setPc (cpu.registers.pc + 1)) ∧
      (cpu.execute (Probe.fresh bus) sink).bus.calls =
        List.replicate pending .tick ++ [.read cpu.registers.pc (cpu.opcodeOn clocked)] := by
  intro pending clocked x
  have hfault := (cpu.execute_error_iff bus sink hreset).mp herror
  have hx : x = _ := cpu.execute_of_fault bus sink hreset hfault
  have hlast : cpu.drained.step clocked sink = ⟨.error fault, x.cpu, x.bus, x.sink⟩ := by
    rw [hx, ← hfault]
    rfl
  rcases cpu.drained.step_of_error clocked sink hreset rfl hfault with ⟨hcpu, -, hcalls⟩
  rcases cpu.fetchingStep_probe bus sink with ⟨hvalue, hprobed⟩
  have hprobe := cpu.execute_of_fault (Probe.fresh bus) sink hreset (hvalue.trans hfault)
  refine ⟨cpu.steps_drain bus sink hreset, hlast, ?_, ?_⟩
  · rw [hx]
    exact hcpu
  · rw [hprobe]
    exact hprobed.trans (congrArg _ hcalls)

/-- Which clocks are refused, and what a refusal leaves: nothing at all without a reset, and else
one byte read and passed over.  An instruction in flight keeps a clock from being refused, and is
seen out before `execute` is. -/
theorem refusals_are_exact (cpu : Cpu) (bus : β) (sink : σ) :
    let pc := cpu.registers.pc
    let opcode := cpu.opcodeOn bus
    let table := cpu.setup.table
    let r := cpu.step bus sink
    let calls := (cpu.step (Probe.fresh bus) sink).bus.calls
    (cpu.resetDone = false →
      r = ⟨.error .resetRequired, cpu, bus, sink⟩ ∧ calls = []) ∧
    (cpu.resetDone = true → cpu.pendingCycles ≠ 0 →
      r = ⟨.ok .idle, cpu.idled, Bus.tick bus, sink⟩ ∧ calls = [.tick]) ∧
    (cpu.resetDone = true → cpu.pendingCycles = 0 →
      (r.value = .error (.unimplementedOpcode opcode pc) ↔ table.lookup opcode = none) ∧
      (∀ name, r.value = .error (.instructionNotImplemented name opcode pc) ↔
        ∃ entry, table.lookup opcode = some entry ∧ entry.mnemonic = none ∧ entry.name = name) ∧
      (r.value = .ok .fetch ↔ ∃ entry mnemonic, table.Decodes opcode entry mnemonic) ∧
      ∀ fault, r.value = .error fault →
        (fault = .unimplementedOpcode opcode pc ∨
          ∃ name, fault = .instructionNotImplemented name opcode pc) ∧
        r.cpu = cpu.setCore (cpu.setPc (pc + 1)) ∧
        r.bus = (Bus.read bus pc).2 ∧
        calls = [.read pc opcode] ∧
        ∃ later, (r.cpu.step (Probe.fresh r.bus) r.sink).bus.calls =
          .read (pc + 1) (Bus.read r.bus (pc + 1)).1 :: later) ∧
    ∀ fault,
      let pending := cpu.pendingCycles.toNat
      let clocked := Bus.tick^[pending] bus
      let x := cpu.execute bus sink
      x.value = .error fault →
        (cpu.resetDone = false ∧ x = ⟨.error .resetRequired, cpu, bus, sink⟩) ∨
        (cpu.resetDone = true ∧
          cpu.steps pending bus sink = ⟨idleReplies pending, cpu.drained, clocked, sink⟩ ∧
          cpu.drained.step clocked sink = ⟨.error fault, x.cpu, x.bus, x.sink⟩ ∧
          x.cpu = cpu.drained.setCore (cpu.setPc (pc + 1)) ∧
          (cpu.execute (Probe.fresh bus) sink).bus.calls =
            List.replicate pending .tick ++ [.read pc (cpu.opcodeOn clocked)]) := by
  intro pc opcode table r calls
  refine ⟨fun hreset => ?_, fun hreset hpending => ?_, fun hreset hpending => ?_, ?_⟩
  · have hprobe := cpu.step_of_not_reset (Probe.fresh bus) sink hreset
    have hcalls : calls = [] := congrArg (fun s => s.bus.calls) hprobe
    exact ⟨cpu.step_of_not_reset bus sink hreset, hcalls⟩
  · have hprobe := cpu.step_of_pending (Probe.fresh bus) sink hreset hpending
    have hcalls : calls = [.tick] := congrArg (fun s => s.bus.calls) hprobe
    exact ⟨cpu.step_of_pending bus sink hreset hpending, hcalls⟩
  · have herror := @cpu.step_error_iff _ _ _ _ bus sink hreset hpending
    refine ⟨?_, fun name => ?_, cpu.step_fetch_iff bus sink hreset hpending, fun fault hfault => ?_⟩
    · exact herror.trans Opcode.Table.refusal?_unimplemented_iff
    · exact herror.trans Opcode.Table.refusal?_notImplemented_iff
    · rcases herror.mp hfault with ⟨remark, hrefusal⟩
      rcases cpu.step_of_error bus sink hreset hpending hfault with ⟨hcpu, hbus, hcalls⟩
      have hready : r.cpu.resetDone = true ∧ r.cpu.pendingCycles = 0 := by
        rw [hcpu]
        exact ⟨hreset, hpending⟩
      have hpc : r.cpu.registers.pc = pc + 1 := by
        rw [hcpu]
        rfl
      have hnext := r.cpu.fetch_is_first_call r.bus r.sink hready.1 hready.2
      unfold Core.opcodeOn at hnext
      rw [hpc] at hnext
      exact ⟨Opcode.Table.fault_of_refusal? hrefusal, hcpu, hbus, hcalls, hnext⟩
  · intro fault pending clocked x hfault
    by_cases hreset : cpu.resetDone = true
    · exact Or.inr ⟨hreset, cpu.execute_of_error bus sink hreset hfault⟩
    · have hunready := Bool.eq_false_iff.mpr hreset
      exact Or.inl ⟨hunready, cpu.execute_of_not_reset bus sink hunready⟩

theorem step_of_unknown_name :
    let entry : Opcode.Entry := ⟨0x02, "KIL", none, .implied, 1, 2, by decide, by decide⟩
    let cpu := readyAt 0x400 (Opcode.Table.empty.insert entry)
    let r := cpu.step (⟨[0x02, 0xEA]⟩ : Tape) ()
    r.value = .error (.instructionNotImplemented "KIL" 0x02 0x400) ∧
      r.cpu = cpu.setCore (cpu.setPc 0x401) ∧ r.bus = ⟨[0xEA]⟩ := by
  intro entry cpu r
  rcases refusals_are_exact cpu (⟨[0x02, 0xEA]⟩ : Tape) () with ⟨-, -, hready, -⟩
  rcases hready rfl rfl with ⟨-, hname, -, hleft⟩
  have hlookup : cpu.setup.table.lookup 0x02 = some entry := Opcode.Table.lookup_insert_self _ entry
  have hvalue : r.value = .error (.instructionNotImplemented "KIL" 0x02 0x400) :=
    (hname "KIL").mpr ⟨entry, hlookup, rfl, rfl⟩
  rcases hleft _ hvalue with ⟨-, hcpu, hbus, -⟩
  exact ⟨hvalue, hcpu, hbus⟩

end Cpu

end Nmos6502
