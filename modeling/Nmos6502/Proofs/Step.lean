import Nmos6502.Proofs.Calls

/-!
# One clock

The outcomes of `Cpu.step`, one equation for each: refused for want of a reset, idle, refused at
decoding, and fetching.  Each equation says all that the clock does to the processor, the bus and
the sink, so that later proofs need not open the definition of a step.
-/

namespace Nmos6502

/-! ## Decoding -/

namespace Opcode.Table

structure Decodes (t : Table) (opcode : UInt8) (entry : Entry) (mnemonic : Mnemonic) : Prop where
  lookup_eq : t.lookup opcode = some entry
  mnemonic_eq : entry.mnemonic = some mnemonic

/-- The fault with which `opcode` is refused at `pc`, and the remark on it. -/
def refusal? (t : Table) (opcode : UInt8) (pc : UInt16) : Option (Fault × DiaryEntry) :=
  match t.lookup opcode with
  | none => some (.unimplementedOpcode opcode pc, .unimplementedOpcode opcode pc)
  | some entry =>
    match entry.mnemonic with
    | none =>
      some (.instructionNotImplemented entry.name opcode pc, .noHandler entry.name opcode pc)
    | some _ => none

theorem refusal?_eq_none_iff {t : Table} {opcode : UInt8} {pc : UInt16} :
    t.refusal? opcode pc = none ↔ ∃ entry mnemonic, t.Decodes opcode entry mnemonic := by
  unfold refusal?
  constructor
  · intro hnone
    cases hentry : t.lookup opcode with
    | none => simp [hentry] at hnone
    | some entry =>
        cases hmnemonic : entry.mnemonic with
        | none => simp [hentry, hmnemonic] at hnone
        | some mnemonic => exact ⟨entry, mnemonic, hentry, hmnemonic⟩
  · intro hmnemonic
    rcases hmnemonic with ⟨entry, mnemonic, hentry, hmnemonic⟩
    simp [hentry, hmnemonic]

theorem refused_or_decodes (t : Table) (opcode : UInt8) (pc : UInt16) :
    (∃ fault remark, t.refusal? opcode pc = some (fault, remark)) ∨
      ∃ entry mnemonic, t.Decodes opcode entry mnemonic := by
  cases hrefusal : t.refusal? opcode pc with
  | none => exact Or.inr (refusal?_eq_none_iff.mp hrefusal)
  | some refusal => exact Or.inl ⟨refusal.1, refusal.2, rfl⟩

end Opcode.Table

/-! ## The opcode and what follows it -/

namespace Core

variable {β σ : Type} [Bus β] [Sink σ]

def opcodeOn (c : Core) (bus : β) : UInt8 := (Bus.read bus c.registers.pc).1

def busPastOpcode (c : Core) (bus : β) : β := (Bus.read bus c.registers.pc).2

def pastOpcode (c : Core) : Core := c.setPc (c.registers.pc + 1)

/-- The sink after the opcode has been read and announced. -/
def announce (c : Core) (clock : UInt64) (bus : β) (sink : σ) : σ :=
  let pc := c.registers.pc
  let opcode := c.opcodeOn bus
  Sink.event (Sink.event sink (.accessed ⟨clock, pc, opcode, .read⟩)) (.started pc opcode)

def decodedRemark
    (c : Core) (opcode : UInt8) (entry : Opcode.Entry) (mnemonic : Mnemonic) : DiaryEntry :=
  let r := c.registers
  .decoded r.pc opcode mnemonic entry.mode r.a r.x r.y r.sp c.status.bits

theorem instruction_run_of_refusal
    (c : Core) (setup : Setup) (clock : UInt64) (bus : β) (sink : σ)
    {fault : Fault} {remark : DiaryEntry}
    (hrefusal :
      setup.table.refusal? (c.opcodeOn bus) c.registers.pc = some (fault, remark)) :
    (c.instruction setup).run clock bus sink =
      ⟨(.error fault, c.pastOpcode), clock, c.busPastOpcode bus,
        Sink.event (Sink.remark (c.announce clock bus sink) remark)
          (.faulted c.registers.pc (c.opcodeOn bus))⟩ := by
  unfold Opcode.Table.refusal? at hrefusal
  unfold opcodeOn at hrefusal
  cases hentry : setup.table.lookup (Bus.read bus c.registers.pc).1 with
  | none =>
      simp only [hentry, Option.some.injEq, Prod.mk.injEq] at hrefusal
      rcases hrefusal with ⟨rfl, rfl⟩
      simp [instruction, fetchByte, Traffic.fetch, Traffic.embed, Traffic.traced, Traffic.note,
        Traffic.run, hentry, pastOpcode, busPastOpcode, announce, opcodeOn]
  | some entry =>
      cases hmnemonic : entry.mnemonic with
      | none =>
          simp only [hentry, hmnemonic, Option.some.injEq, Prod.mk.injEq] at hrefusal
          rcases hrefusal with ⟨rfl, rfl⟩
          simp [instruction, fetchByte, Traffic.fetch, Traffic.embed, Traffic.traced,
            Traffic.note, Traffic.run, hentry, hmnemonic, pastOpcode, busPastOpcode, announce,
            opcodeOn]
      | some mnemonic => simp [hentry, hmnemonic] at hrefusal

def cost
    (config : Config) (entry : Opcode.Entry) (mnemonic : Mnemonic)
    (resolved : EffectiveAddress × Core) : UInt8 :=
  Byte.saturatingAdd (config.baseCycles entry mnemonic resolved.1)
    (mnemonic.action.surcharge resolved.2 resolved.1.operand)

theorem carryOut_eq
    (c : Core) (config : Config) (entry : Opcode.Entry) (mnemonic : Mnemonic) :
    c.carryOut config entry mnemonic =
      c.resolve entry.mode >>= fun resolved =>
        Prod.mk (cost config entry mnemonic resolved) <$>
          mnemonic.action.effect resolved.2 resolved.1.operand := rfl

/-- The decoded instruction as it is played after the opcode. -/
def carriedOut
    (c : Core) (config : Config) (entry : Opcode.Entry) (mnemonic : Mnemonic)
    (clock : UInt64) (bus : β) (sink : σ) : Traffic.Outcome (UInt8 × Core) β σ :=
  (c.pastOpcode.carryOut config entry mnemonic).embed.traced.run clock (c.busPastOpcode bus)
    (Sink.remark (c.announce clock bus sink) (c.decodedRemark (c.opcodeOn bus) entry mnemonic))

theorem carriedOut_value
    (c : Core) (config : Config) (entry : Opcode.Entry) (mnemonic : Mnemonic)
    (clock : UInt64) (bus : β) (sink : σ) :
    (c.carriedOut config entry mnemonic clock bus sink).value =
      ((c.pastOpcode.carryOut config entry mnemonic).embed.run clock (c.busPastOpcode bus)
        ()).value :=
  (Traffic.run_traced _ clock _ () _).1

theorem instruction_run_of_decodes
    (c : Core) (setup : Setup) (clock : UInt64) (bus : β) (sink : σ)
    {entry : Opcode.Entry} {mnemonic : Mnemonic}
    (hdecodes : setup.table.Decodes (c.opcodeOn bus) entry mnemonic) :
    (c.instruction setup).run clock bus sink =
      let o := c.carriedOut setup.config entry mnemonic clock bus sink
      ⟨(.ok o.value.1, o.value.2), clock, o.bus,
        Sink.event o.sink (.retired c.registers.pc o.value.1)⟩ := by
  have hentry : setup.table.lookup (Bus.read bus c.registers.pc).1 = some entry :=
    hdecodes.lookup_eq
  simp only [instruction, fetchByte, Traffic.fetch, Traffic.pure_eq_done, Traffic.read_bind,
    Traffic.done_bind, Traffic.embed, Traffic.traced, Traffic.note, Traffic.mark_bind,
    Traffic.run, hentry, hdecodes.mnemonic_eq, Traffic.run_bind, Traffic.run_embed_traced_clock,
    Traffic.Outcome.mk.injEq, Prod.mk.injEq, Except.ok.injEq, true_and]
  exact ⟨⟨rfl, rfl⟩, rfl, rfl⟩

theorem carriedOut_probe_calls
    (c : Core) (config : Config) (entry : Opcode.Entry) (m : Mnemonic) (clock : UInt64) (bus : β)
    (sink : σ) :
    (c.carriedOut config entry m clock (Probe.fresh bus) sink).bus.calls =
      .read c.registers.pc (c.opcodeOn bus) ::
        Traffic.calls (c.pastOpcode.carryOut config entry m).embed (c.busPastOpcode bus) := by
  have hprobe : c.busPastOpcode (Probe.fresh bus) =
      ⟨c.busPastOpcode bus, [.read c.registers.pc (c.opcodeOn bus)]⟩ := rfl
  unfold carriedOut
  rw [hprobe, Traffic.run_probe, Traffic.calls_traced]
  rfl

end Core

/-! ## The outcomes of a step -/

namespace Cpu

variable {β σ : Type} [Bus β] [Sink σ]

def setCore (cpu : Cpu) (core : Core) : Cpu := { cpu with toCore := core }

/-- A processor that has been reset and fetches next at `pc`. -/
def readyAt (pc : UInt16) (table : Opcode.Table) : Cpu where
  registers := ⟨0, 0, 0, 0xFD, pc⟩
  status := Status.powerOn
  pendingCycles := 0
  resetDone := true
  totalCycles := 0
  setup := ⟨default, table⟩

def idled (cpu : Cpu) : Cpu :=
  { cpu with
    pendingCycles := Byte.countdown cpu.pendingCycles
    totalCycles := cpu.totalCycles + 1 }

def billed (cpu : Cpu) (cycles : UInt8) (core : Core) : Cpu :=
  { cpu with
    toCore := core
    pendingCycles := Byte.countdown cycles
    totalCycles := cpu.totalCycles + 1 }

variable (cpu : Cpu) (bus : β) (sink : σ)

theorem step_of_not_reset (hreset : cpu.resetDone = false) :
    cpu.step bus sink = ⟨.error .resetRequired, cpu, bus, sink⟩ := by
  simp [step, drive, Engine.step, hreset, Traffic.run]

theorem step_of_pending (hreset : cpu.resetDone = true) (hpending : cpu.pendingCycles ≠ 0) :
    cpu.step bus sink = ⟨.ok .idle, cpu.idled, Bus.tick bus, sink⟩ := by
  simp [step, drive, Engine.step, hreset, hpending, Traffic.run, Traffic.note, idled]

theorem step_of_refusal
    (hreset : cpu.resetDone = true) (hpending : cpu.pendingCycles = 0)
    {fault : Fault} {remark : DiaryEntry}
    (hrefusal :
      cpu.setup.table.refusal? (cpu.opcodeOn bus) cpu.registers.pc = some (fault, remark)) :
    cpu.step bus sink =
      ⟨.error fault, cpu.setCore cpu.pastOpcode, cpu.busPastOpcode bus,
        Sink.event (Sink.remark (cpu.announce cpu.totalCycles bus sink) remark)
          (.faulted cpu.registers.pc (cpu.opcodeOn bus))⟩ := by
  rcases cpu with ⟨⟨⟨core, pending, reset⟩, total⟩, setup⟩
  obtain rfl : reset = true := hreset
  obtain rfl : pending = 0 := hpending
  have hrun := core.instruction_run_of_refusal setup total bus sink hrefusal
  simp only [step, drive, Engine.step, Bool.not_true, Bool.false_eq_true, if_false, if_true,
    Traffic.run_bind, hrun]
  rfl

theorem step_of_decodes
    (hreset : cpu.resetDone = true) (hpending : cpu.pendingCycles = 0)
    {entry : Opcode.Entry} {mnemonic : Mnemonic}
    (hdecodes : cpu.setup.table.Decodes (cpu.opcodeOn bus) entry mnemonic) :
    cpu.step bus sink =
      let o := cpu.carriedOut cpu.setup.config entry mnemonic cpu.totalCycles bus sink
      ⟨.ok .fetch, cpu.billed o.value.1 o.value.2, Bus.tick o.bus,
        Sink.event o.sink (.retired cpu.registers.pc o.value.1)⟩ := by
  rcases cpu with ⟨⟨⟨core, pending, reset⟩, total⟩, setup⟩
  obtain rfl : reset = true := hreset
  obtain rfl : pending = 0 := hpending
  have hrun := core.instruction_run_of_decodes setup total bus sink hdecodes
  simp only [step, drive, Engine.step, Bool.not_true, Bool.false_eq_true, if_false, if_true,
    Traffic.run_bind, hrun]
  rfl

theorem step_calls_of_decodes
    (hreset : cpu.resetDone = true) (hpending : cpu.pendingCycles = 0)
    {entry : Opcode.Entry} {mnemonic : Mnemonic}
    (hdecodes : cpu.setup.table.Decodes (cpu.opcodeOn bus) entry mnemonic) :
    (cpu.step (Probe.fresh bus) sink).bus.calls =
      .read cpu.registers.pc (cpu.opcodeOn bus) ::
        Traffic.calls (cpu.pastOpcode.carryOut cpu.setup.config entry mnemonic).embed
          (cpu.busPastOpcode bus) ++ [.tick] := by
  rw [cpu.step_of_decodes (Probe.fresh bus) sink hreset hpending hdecodes]
  simp only [Probe.tick_eq, Core.carriedOut_probe_calls]

inductive Situation (cpu : Cpu) (bus : β) : Prop where
  | unready (hreset : cpu.resetDone = false)
  | inFlight (hreset : cpu.resetDone = true) (hpending : cpu.pendingCycles ≠ 0)
  | refused
      (hreset : cpu.resetDone = true) (hpending : cpu.pendingCycles = 0)
      {fault : Fault} {remark : DiaryEntry}
      (hrefusal :
        cpu.setup.table.refusal? (cpu.opcodeOn bus) cpu.registers.pc = some (fault, remark))
  | decoded
      (hreset : cpu.resetDone = true) (hpending : cpu.pendingCycles = 0)
      {entry : Opcode.Entry} {mnemonic : Mnemonic}
      (hdecodes : cpu.setup.table.Decodes (cpu.opcodeOn bus) entry mnemonic)

theorem situation : Situation cpu bus := by
  by_cases hreset : cpu.resetDone = true
  · by_cases hpending : cpu.pendingCycles = 0
    · rcases cpu.setup.table.refused_or_decodes (cpu.opcodeOn bus) cpu.registers.pc with
        ⟨fault, remark, hrefusal⟩ | ⟨entry, mnemonic, hdecodes⟩
      · exact .refused hreset hpending hrefusal
      · exact .decoded hreset hpending hdecodes
    · exact .inFlight hreset hpending
  · exact .unready (Bool.eq_false_iff.mpr hreset)

theorem phase_eq_fetch
    (hpending : cpu.pendingCycles = 0) {phase : Phase}
    (hphase : (cpu.step bus sink).value = .ok phase) :
    phase = .fetch := by
  cases cpu.situation bus with
  | unready hreset =>
      rw [cpu.step_of_not_reset bus sink hreset] at hphase
      contradiction
  | inFlight _ hflight => exact absurd hpending hflight
  | refused hreset _ hrefusal =>
      rw [cpu.step_of_refusal bus sink hreset hpending hrefusal] at hphase
      contradiction
  | decoded hreset _ hdecodes =>
      rw [cpu.step_of_decodes bus sink hreset hpending hdecodes] at hphase
      exact (Except.ok.inj hphase).symm

theorem step_resetDone_setup :
    let r := cpu.step bus sink
    r.cpu.resetDone = cpu.resetDone ∧ r.cpu.setup = cpu.setup := by
  cases cpu.situation bus with
  | unready hreset =>
      rw [cpu.step_of_not_reset bus sink hreset]
      exact ⟨rfl, rfl⟩
  | inFlight hreset hpending =>
      rw [cpu.step_of_pending bus sink hreset hpending]
      exact ⟨rfl, rfl⟩
  | refused hreset hpending hrefusal =>
      rw [cpu.step_of_refusal bus sink hreset hpending hrefusal]
      exact ⟨rfl, rfl⟩
  | decoded hreset hpending hdecodes =>
      rw [cpu.step_of_decodes bus sink hreset hpending hdecodes]
      exact ⟨rfl, rfl⟩

end Cpu

end Nmos6502
