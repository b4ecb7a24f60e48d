import Nmos6502.Proofs.Billing
import Nmos6502.Proofs.Effect

/-!
# One instruction on any bus

A request that carries out an instruction sees out what is in flight, reads the opcode and the bytes
that lead to the operand, does what the effect of the mnemonic does, and lets clocks pass.  What it
leaves in the core, which bytes it transfers and what it reports as its cost are read off the
effect, on every bus and in every mode.
-/

namespace Nmos6502

theorem Traffic.Ensures.direction_of_mem_moved
    {α β : Type} [Bus β] {P : α → Prop} {t : Work α} (ht : t.Ensures (fun _ _ => False) P) {bus : β}
    {transfer : Transfer} (hmem : transfer ∈ (t.result bus).moved) :
    transfer.direction = .read := by
  induction t generalizing bus with
  | done value => exact absurd hmem List.not_mem_nil
  | read address next ih =>
      rcases List.mem_cons.mp hmem with rfl | hlater
      · rfl
      · exact ih _ (ht _) hlater
  | write address value next ih => exact ht.1.elim
  | mark m next ih => exact m.elim

/-- What crosses the bus if `data` goes to the operand's place or comes from there. -/
def Operand.transfers (direction : Direction) (data : UInt8) : Operand → List Transfer
  | address place => [⟨direction, place, data⟩]
  | _ => []

namespace Core

variable {β : Type} [Bus β] (c : Core) (bus : β)

/-- The byte that the operand stands for. -/
def valueAt : Operand → UInt8
  | .address address => (Bus.read bus address).1
  | .accumulator => c.registers.a
  | .relative displacement => displacement
  | .none => 0

theorem valueAt_setPc (target : UInt16) (operand : Operand) :
    (c.setPc target).valueAt bus operand = c.valueAt bus operand := by
  cases operand <;> rfl

theorem load_result (operand : Operand) (f : UInt8 → Core) :
    let v := c.valueAt bus operand
    let r := (c.load operand >>= fun v => pure (f v)).result bus
    r.value = f v ∧ r.moved = operand.transfers .read v := by
  cases operand <;> exact ⟨rfl, rfl⟩

theorem store_result (operand : Operand) (value : UInt8) :
    let r := (c.store operand value).result bus
    r.value = (if operand = .accumulator then c.setRegister .a value else c) ∧
      r.moved = operand.transfers .write value := by
  cases operand <;> exact ⟨rfl, rfl⟩

/-- A byte is read, changed and written back. -/
theorem modify_result (operand : Operand) (f : UInt8 → UInt8) (finish : UInt8 → Core → Core) :
    let v := c.valueAt bus operand
    let r := (do
      let v ← c.load operand
      let d ← c.store operand (f v)
      pure (finish v d) : Work Core).result bus
    r.value = finish v (if operand = .accumulator then c.setRegister .a (f v) else c) ∧
      r.moved = operand.transfers .read v ++ operand.transfers .write (f v) := by
  cases operand <;> exact ⟨rfl, rfl⟩

end Core

namespace Cpu

section Places

variable {β : Type} [Bus β] (cpu : Cpu) (bus : β)

/-- The bus from which the next opcode is read, once the clocks of an instruction in flight have
passed. -/
def clocked : β := Bus.tick^[cpu.pendingCycles.toNat] bus

/-- What the bytes behind the opcode lead to, and the bus that is left then. -/
def locate (mode : AddressingMode) : Report EffectiveAddress β Unit :=
  (cpu.setCore cpu.pastOpcode).resolve mode (cpu.busPastOpcode (cpu.clocked bus))

/-- The opcode and the bytes that lead to the operand. -/
def fetches (mode : AddressingMode) : List Transfer :=
  ⟨.read, cpu.registers.pc, cpu.opcodeOn (cpu.clocked bus)⟩ ::
    transfers ((cpu.setCore cpu.pastOpcode).resolve mode
      (Probe.fresh (cpu.busPastOpcode (cpu.clocked bus)))).bus.calls

/-- The byte behind the opcode. -/
def displacementOn : UInt8 :=
  (Bus.read (cpu.busPastOpcode (cpu.clocked bus)) (cpu.registers.pc + 1)).1

/-- The byte that an instruction of this mode works on. -/
def operandValue (mode : AddressingMode) : UInt8 :=
  cpu.valueAt (cpu.locate bus mode).bus (cpu.locate bus mode).value.operand

/-- The core behind all bytes of an instruction. -/
def ready (mode : AddressingMode) : Core :=
  cpu.setPc (cpu.registers.pc + mode.instructionLength.toUInt16)

/-- The request carries out one instruction, of this mnemonic. -/
structure Performs (request : Request) (entry : Opcode.Entry) (m : Mnemonic) : Prop where
  resetDone : cpu.resetDone = true
  turns : cpu.Turns request
  decodes : cpu.setup.table.Decodes (cpu.opcodeOn (cpu.clocked bus)) entry m

end Places

section Operands

variable {β : Type} [Bus β] (cpu : Cpu) (bus : β) (mode : AddressingMode)

theorem locate_eq :
    let r := (cpu.pastOpcode.resolve mode).result (cpu.busPastOpcode (cpu.clocked bus))
    (cpu.locate bus mode).value = r.value.1 ∧ (cpu.locate bus mode).bus = r.bus := by
  intro r
  have hlocate : cpu.locate bus mode = _ := (cpu.setCore cpu.pastOpcode).drive_intervene
    (fun c => c.resolve mode) (cpu.busPastOpcode (cpu.clocked bus))
  rw [hlocate]
  exact ⟨rfl, rfl⟩

theorem fetches_eq :
    let r := (cpu.pastOpcode.resolve mode).result (cpu.busPastOpcode (cpu.clocked bus))
    cpu.fetches bus mode =
      ⟨.read, cpu.registers.pc, cpu.opcodeOn (cpu.clocked bus)⟩ :: r.moved := by
  intro r
  have hcalls := (cpu.setCore cpu.pastOpcode).intervene_calls (fun c => c.resolve mode)
    (cpu.busPastOpcode (cpu.clocked bus))
  unfold fetches resolve
  rw [hcalls, Traffic.transfers_calls_embed]
  rfl

theorem direction_of_mem_fetches {transfer : Transfer} (hmem : transfer ∈ cpu.fetches bus mode) :
    transfer.direction = .read := by
  rw [cpu.fetches_eq bus mode] at hmem
  rcases List.mem_cons.mp hmem with rfl | hlater
  · rfl
  · exact (cpu.pastOpcode.resolve_ensures mode).direction_of_mem_moved hlater

theorem locate_suits : (cpu.locate bus mode).value.operand.Suits mode := by
  rw [(cpu.locate_eq bus mode).1]
  exact (cpu.resolvedOn_suits (cpu.clocked bus) mode).1

theorem locate_relative :
    (cpu.locate bus .relative).value.operand = .relative (cpu.displacementOn bus) := by
  rw [(cpu.locate_eq bus .relative).1]
  rfl

theorem ready_eq :
    cpu.ready mode =
      cpu.pastOpcode.setPc (cpu.pastOpcode.registers.pc + mode.operandBytes.toUInt16) := by
  unfold ready
  rw [mode.instructionLength_toUInt16, ← UInt16.add_assoc]
  rfl

/-- The opcode apart, an instruction transfers its operand bytes and what its effect does. -/
theorem proceed_result (m : Mnemonic) :
    let place := cpu.locate bus mode
    let s := (m.action.effect (cpu.ready mode) place.value.operand).result place.bus
    let r := (cpu.pastOpcode.proceed mode m).result (cpu.busPastOpcode (cpu.clocked bus))
    r.value = s.value ∧ r.bus = s.bus ∧
      ⟨.read, cpu.registers.pc, cpu.opcodeOn (cpu.clocked bus)⟩ :: r.moved =
        cpu.fetches bus mode ++ s.moved := by
  intro place s r
  have hproceed := cpu.pastOpcode.proceed_result (cpu.busPastOpcode (cpu.clocked bus)) mode m
  rcases cpu.locate_eq bus mode with ⟨hplace, hplaced⟩
  simp only [← cpu.ready_eq, ← hplace, ← hplaced] at hproceed
  rw [cpu.fetches_eq, show r = _ from hproceed]
  exact ⟨rfl, rfl, rfl⟩

end Operands

section Performing

variable {β σ : Type} [Bus β] [Sink σ] (cpu : Cpu) (bus : β) (sink : σ) {request : Request}

/-- Either request comes to the clock that fetches, and time passes around it. -/
theorem perform_of_fetch
    (hreset : cpu.resetDone = true) (hturns : cpu.Turns request) {phase : Phase}
    (hfetch : (cpu.fetchingStep bus sink).value = .ok phase) :
    let s := cpu.fetchingStep bus sink
    let x := cpu.perform request bus sink
    x.value.fault? = none ∧ x.cpu.toCore = s.cpu.toCore ∧ x.sink = s.sink ∧
      ∃ n, x.bus = Bus.tick^[n] s.bus := by
  intro s x
  rcases hturns with rfl | ⟨rfl, hpending⟩
  · have hx : x = _ := cpu.perform_execute bus sink
    rw [cpu.execute_of_fetch bus sink hreset hfetch] at hx
    rw [hx]
    exact ⟨rfl, rfl, rfl, _, rfl⟩
  · have hx : x = _ := cpu.perform_step bus sink
    rw [← cpu.fetchingStep_eq_step bus hpending] at hx
    rw [hx]
    refine ⟨?_, rfl, rfl, 0, rfl⟩
    simp only [hfetch, Reply.fault?]

theorem perform_transfers_eq (hreset : cpu.resetDone = true) (hturns : cpu.Turns request) :
    transfers (cpu.perform request (Probe.fresh bus) sink).bus.calls =
      transfers (cpu.drained.step (Probe.fresh (cpu.clocked bus)) sink).bus.calls := by
  rcases hturns with rfl | ⟨rfl, hpending⟩
  · rw [perform_execute]
    exact cpu.execute_transfers bus sink hreset
  · have hclocked : cpu.clocked bus = bus := by
      rw [clocked, hpending]
      rfl
    rw [perform_step, cpu.drained_of_pendingCycles_zero hpending, hclocked]

variable {entry : Opcode.Entry} {m : Mnemonic} (h : cpu.Performs bus request entry m)

include h

theorem perform_carriedOut :
    let o := cpu.carriedOut cpu.setup.config entry m cpu.drained.totalCycles (cpu.clocked bus) sink
    let x := cpu.perform request bus sink
    x.value.fault? = none ∧ x.cpu.toCore = o.value.2 ∧
      x.sink = Sink.event o.sink (.retired cpu.registers.pc o.value.1) ∧
      ∃ n, x.bus = Bus.tick^[n] o.bus := by
  intro o x
  have hstep : cpu.fetchingStep bus sink = _ :=
    cpu.drained.step_of_decodes (cpu.clocked bus) sink h.resetDone rfl h.decodes
  have hfetch : (cpu.fetchingStep bus sink).value = .ok .fetch := by rw [hstep]
  rcases cpu.perform_of_fetch bus sink h.resetDone h.turns hfetch with
    ⟨hfault, hcore, hsink, n, hbus⟩
  rw [hstep] at hcore hsink hbus
  exact ⟨hfault, hcore, hsink, n + 1, hbus⟩

/-- The instruction is not refused, and it leaves what the effect of its mnemonic leaves. -/
theorem perform_result :
    let place := cpu.locate bus entry.mode
    let s := (m.action.effect (cpu.ready entry.mode) place.value.operand).result place.bus
    let x := cpu.perform request bus sink
    x.value.fault? = none ∧ x.cpu.toCore = s.value ∧ ∃ n, x.bus = Bus.tick^[n] s.bus := by
  intro place s x
  rcases cpu.perform_carriedOut bus sink h with ⟨hfault, hcore, -, n, hbus⟩
  rcases cpu.carriedOut_result cpu.setup.config entry m cpu.drained.totalCycles (cpu.clocked bus)
    sink with ⟨hvalue, hleft⟩
  rcases cpu.proceed_result bus entry.mode m with ⟨hend, hlast, -⟩
  rw [hvalue] at hcore
  rw [hleft] at hbus
  exact ⟨hfault, hcore.trans hend, n, hbus.trans (congrArg _ hlast)⟩

/-- The bus sees the bytes of the instruction and then the transfers of the effect. -/
theorem perform_transfers :
    let place := cpu.locate bus entry.mode
    let s := (m.action.effect (cpu.ready entry.mode) place.value.operand).result place.bus
    transfers (cpu.perform request (Probe.fresh bus) sink).bus.calls =
      cpu.fetches bus entry.mode ++ s.moved := by
  intro place s
  have hstep := cpu.drained.step_transfers_of_decodes (cpu.clocked bus) sink h.resetDone rfl
    h.decodes
  rw [cpu.perform_transfers_eq bus sink h.resetDone h.turns, hstep, Core.carryOut_result]
  exact (cpu.proceed_result bus entry.mode m).2.2

/-- An instruction that leaves the bus alone, but for the bytes that lead to its operand. -/
theorem perform_of_pure
    {f : Core → Operand → Core}
    (heffect : ∀ c operand, m.action.effect c operand = pure (f c operand)) :
    (cpu.perform request bus sink).cpu.toCore =
        f (cpu.ready entry.mode) (cpu.locate bus entry.mode).value.operand ∧
      transfers (cpu.perform request (Probe.fresh bus) sink).bus.calls =
        cpu.fetches bus entry.mode := by
  rcases cpu.perform_result bus sink h with ⟨-, hcore, -⟩
  have htransfers := cpu.perform_transfers bus sink h
  simp only [heffect] at hcore htransfers
  exact ⟨hcore, htransfers.trans (List.append_nil _)⟩

/-- An instruction that reads its operand and works on nothing else but the core. -/
theorem perform_of_load
    {f : Core → UInt8 → Core}
    (heffect : ∀ c operand, m.action.effect c operand = c.load operand >>= fun v => pure (f c v)) :
    let v := cpu.operandValue bus entry.mode
    let place := (cpu.locate bus entry.mode).value.operand
    (cpu.perform request bus sink).cpu.toCore = f (cpu.ready entry.mode) v ∧
      transfers (cpu.perform request (Probe.fresh bus) sink).bus.calls =
        cpu.fetches bus entry.mode ++ place.transfers .read v := by
  intro v place
  rcases cpu.perform_result bus sink h with ⟨-, hcore, -⟩
  have htransfers := cpu.perform_transfers bus sink h
  rcases (cpu.ready entry.mode).load_result (cpu.locate bus entry.mode).bus place
    (f (cpu.ready entry.mode)) with ⟨hvalue, hmoved⟩
  have hv : (cpu.ready entry.mode).valueAt (cpu.locate bus entry.mode).bus place = v :=
    cpu.toCore.valueAt_setPc _ _ place
  rw [hv] at hvalue hmoved
  simp only [heffect] at hcore htransfers
  exact ⟨hcore.trans hvalue, htransfers.trans (congrArg _ hmoved)⟩

omit sink in
theorem perform_retirements (log : Array Event) :
    retirements (cpu.perform request bus log).sink = retirements log ++
      [(cpu.registers.pc,
        Core.cost cpu.setup.config entry m (cpu.resolvedOn (cpu.clocked bus) entry.mode))] := by
  rw [(cpu.perform_carriedOut bus log h).2.2.1]
  exact Core.retirements_carriedOut cpu.setup.config entry m cpu.toCore (cpu.clocked bus)
    cpu.drained.totalCycles log

end Performing

end Cpu

end Nmos6502
