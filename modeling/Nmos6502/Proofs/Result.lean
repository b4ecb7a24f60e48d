import Nmos6502.Proofs.Refusal
import Nmos6502.Proofs.Transfers

/-!
# What work comes to

Work inside one clock depends on neither the clock nor the sink, so on a given bus it comes to a
value, a bus and the transfers between.  A decoded instruction is such work: what it does to the
core and the bus is the same whatever it costs, and the call that fetches it transfers the opcode,
what the instruction transfers and nothing else.
-/

namespace Nmos6502

namespace Traffic

structure Result (α β : Type) where
  value : α
  bus : β
  moved : List Transfer

variable {α β γ σ : Type} [Bus β] [Sink σ]

/-- What work inside one clock comes to, with the transfers that it makes. -/
def result : Work α → β → Result α β
  | done value, bus => ⟨value, bus, []⟩
  | read address next, bus =>
    let (byte, bus) := Bus.read bus address
    let r := (next byte).result bus
    { r with moved := ⟨.read, address, byte⟩ :: r.moved }
  | write address value next, bus =>
    let r := next.result (Bus.write bus address value)
    { r with moved := ⟨.write, address, value⟩ :: r.moved }
  | mark m _, _ => m.elim

theorem result_bind (t : Work α) (f : α → Work γ) (bus : β) :
    (t >>= f).result bus =
      let r := t.result bus
      let s := (f r.value).result r.bus
      ⟨s.value, s.bus, r.moved ++ s.moved⟩ := by
  induction t generalizing bus with
  | done value => rfl
  | read address next ih =>
      simp only [read_bind, result, ih]
      rfl
  | write address value next ih =>
      simp only [write_bind, result, ih]
      rfl
  | mark m next ih => exact m.elim

theorem result_map (f : α → γ) (t : Work α) (bus : β) :
    (f <$> t).result bus =
      let r := t.result bus
      ⟨f r.value, r.bus, r.moved⟩ := by
  rw [map_eq_pure_bind, result_bind]
  simp [result]

/-- Neither the clock nor the sink matters to work inside one clock. -/
theorem run_embed_result (t : Work α) (clock : UInt64) (bus : β) (sink : σ) :
    let o := (t.embed : Traffic Mark α).run clock bus sink
    o.value = (t.result bus).value ∧ o.bus = (t.result bus).bus := by
  induction t generalizing bus sink with
  | done value => exact ⟨rfl, rfl⟩
  | read address next ih => exact ih _ _ _
  | write address value next ih => exact ih _ _
  | mark m next ih => exact m.elim

theorem run_traced_result (t : Work α) (clock : UInt64) (bus : β) (sink : σ) :
    let o := (t.embed : Traffic Mark α).traced.run clock bus sink
    o.value = (t.result bus).value ∧ o.bus = (t.result bus).bus := by
  intro o
  have htraced := t.embed.run_traced clock bus () sink
  have hresult := t.run_embed_result clock bus ()
  exact ⟨htraced.1.trans hresult.1, htraced.2.2.trans hresult.2⟩

theorem transfers_calls_embed (t : Work α) (bus : β) :
    transfers ((t.embed : Traffic Mark α).calls bus) = (t.result bus).moved := by
  induction t generalizing bus with
  | done value => rfl
  | read address next ih => exact congrArg (_ :: ·) (ih _ _)
  | write address value next ih => exact congrArg (_ :: ·) (ih _)
  | mark m next ih => exact m.elim

end Traffic

/-! ## A decoded instruction -/

namespace Core

variable {β σ : Type} [Bus β] [Sink σ]

/-- What a decoded instruction does, whatever it costs. -/
def proceed (c : Core) (mode : AddressingMode) (mnemonic : Mnemonic) : Work Core := do
  let (ea, c) ← c.resolve mode
  mnemonic.action.effect c ea.operand

theorem carryOut_result
    (c : Core) (config : Config) (entry : Opcode.Entry) (mnemonic : Mnemonic) (bus : β) :
    (c.carryOut config entry mnemonic).result bus =
      let r := (c.proceed entry.mode mnemonic).result bus
      ⟨(cost config entry mnemonic ((c.resolve entry.mode).result bus).value, r.value), r.bus,
        r.moved⟩ := by
  rw [carryOut_eq]
  simp only [proceed, Traffic.result_bind, Traffic.result_map]

theorem carriedOut_result
    (c : Core) (config : Config) (entry : Opcode.Entry) (mnemonic : Mnemonic) (clock : UInt64)
    (bus : β) (sink : σ) :
    let o := c.carriedOut config entry mnemonic clock bus sink
    let ready := c.pastOpcode
    let r := (ready.proceed entry.mode mnemonic).result (c.busPastOpcode bus)
    let resolved := ((ready.resolve entry.mode).result (c.busPastOpcode bus)).value
    o.value = (cost config entry mnemonic resolved, r.value) ∧ o.bus = r.bus := by
  have hrun := (c.pastOpcode.carryOut config entry mnemonic).run_traced_result clock
    (c.busPastOpcode bus)
    (Sink.remark (c.announce clock bus sink) (c.decodedRemark (c.opcodeOn bus) entry mnemonic))
  rw [carryOut_result] at hrun
  exact hrun

end Core

/-! ## The transfers of a call -/

namespace Cpu

variable {β σ : Type} [Bus β] [Sink σ] (cpu : Cpu) (bus : β) (sink : σ)

theorem step_transfers_of_decodes
    (hreset : cpu.resetDone = true) (hpending : cpu.pendingCycles = 0)
    {entry : Opcode.Entry} {mnemonic : Mnemonic}
    (hdecodes : cpu.setup.table.Decodes (cpu.opcodeOn bus) entry mnemonic) :
    transfers (cpu.step (Probe.fresh bus) sink).bus.calls =
      ⟨.read, cpu.registers.pc, cpu.opcodeOn bus⟩ ::
        ((cpu.pastOpcode.carryOut cpu.setup.config entry mnemonic).result
          (cpu.busPastOpcode bus)).moved := by
  rw [cpu.step_calls_of_decodes bus sink hreset hpending hdecodes, List.cons_append, transfers_read,
    transfers_append, Traffic.transfers_calls_embed]
  simp

theorem execute_transfers (hreset : cpu.resetDone = true) :
    let clocked := Bus.tick^[cpu.pendingCycles.toNat] bus
    transfers (cpu.execute (Probe.fresh bus) sink).bus.calls =
      transfers (cpu.drained.step (Probe.fresh clocked) sink).bus.calls := by
  intro clocked
  rcases cpu.execute_probe bus sink hreset with ⟨later, hcalls⟩
  rw [hcalls]
  simp [clocked]

end Cpu

end Nmos6502
