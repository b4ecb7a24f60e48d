import Nmos6502.Proofs.Timeless

/-!
# One instruction on plain memory

A request that carries out one instruction does what the effect of its mnemonic does, after the
operand bytes have been passed and the operand has been found.  Finding it writes nothing, so that
on plain memory the effect begins with the memory as it was.
-/

namespace Nmos6502

namespace Traffic

variable {α β : Type} [Bus β] {W : UInt16 → UInt8 → Prop} {P : α → Prop} {t : Work α}

theorem Ensures.result_value (ht : t.Ensures W P) (bus : β) : P (t.result bus).value := by
  induction t generalizing bus with
  | done value => exact ht
  | read address next ih => exact ih _ (ht _) _
  | write address value next ih => exact ih ht.2 _
  | mark m next ih => exact m.elim

theorem Ensures.result_memory (ht : t.Ensures (fun _ _ => False) P) (memory : Memory) :
    (t.result memory).bus = memory := by
  induction t generalizing memory with
  | done value => rfl
  | read address next ih => exact ih _ (ht _) memory
  | write address value next ih => exact ht.1.elim
  | mark m next ih => exact m.elim

end Traffic

theorem AddressingMode.instructionLength_toUInt16 (mode : AddressingMode) :
    mode.instructionLength.toUInt16 = 1 + mode.operandBytes.toUInt16 := by
  cases mode <;> rfl

namespace Core

variable (c : Core) (memory : Memory)

/-- The operand that the bytes at the program counter lead to. -/
def operandOn (mode : AddressingMode) : Operand :=
  ((c.resolve mode).result memory).value.1.operand

theorem proceed_result {β : Type} [Bus β] (bus : β) (mode : AddressingMode) (m : Mnemonic) :
    let r := (c.resolve mode).result bus
    let ready := c.setPc (c.registers.pc + mode.operandBytes.toUInt16)
    let s := (m.action.effect ready r.value.1.operand).result r.bus
    (c.proceed mode m).result bus = ⟨s.value, s.bus, r.moved ++ s.moved⟩ := by
  intro r ready s
  have hready : r.value.2 = ready :=
    ((c.resolve_ensures mode).result_value (W := fun _ _ => True) bus).2
  have hbind : (c.proceed mode m).result bus =
      let s := (m.action.effect r.value.2 r.value.1.operand).result r.bus
      ⟨s.value, s.bus, r.moved ++ s.moved⟩ := Traffic.result_bind _ _ bus
  rw [hbind, hready]

theorem proceed_memory (mode : AddressingMode) (m : Mnemonic) :
    let ready := c.setPc (c.registers.pc + mode.operandBytes.toUInt16)
    let r := (c.proceed mode m).result memory
    let s := (m.action.effect ready (c.operandOn memory mode)).result memory
    r.value = s.value ∧ r.bus = s.bus := by
  intro ready r s
  have hmemory : ((c.resolve mode).result memory).bus = memory :=
    (c.resolve_ensures mode).result_memory memory
  have hr : r = _ := c.proceed_result memory mode m
  rw [hr, hmemory]
  exact ⟨rfl, rfl⟩

end Core

namespace Cpu

variable (cpu : Cpu) (memory : Memory) {request : Request}

/-- The request carries out one instruction: a whole call, or the clock that fetches it. -/
def Turns (request : Request) : Prop :=
  request = .execute ∨ request = .step ∧ cpu.pendingCycles = 0

theorem perform_turn (hreset : cpu.resetDone = true) (hturns : cpu.Turns request) :
    let x := cpu.perform request memory ()
    let r := (cpu.turn cpu.setup.table).result memory
    x.value.fault? = r.value.1 ∧ x.cpu.toCore = r.value.2 ∧ x.bus = r.bus := by
  rcases hturns with rfl | ⟨rfl, hpending⟩
  · rw [perform_execute]
    rcases cpu.execute_turn memory hreset with ⟨hfault, hcore, hbus, -⟩
    exact ⟨hfault, hcore, hbus⟩
  · rw [perform_step]
    rcases cpu.step_turn memory hreset hpending with ⟨hfault, hcore, hbus, -⟩
    exact ⟨hfault, hcore, hbus⟩

/-- A decoded instruction is not refused, and it comes to the effect of its mnemonic behind its
bytes. -/
theorem perform_effect
    (hreset : cpu.resetDone = true) (hturns : cpu.Turns request) {entry : Opcode.Entry}
    {m : Mnemonic} (hdecodes : cpu.setup.table.Decodes (memory.read cpu.registers.pc) entry m) :
    let ready := cpu.setPc (cpu.registers.pc + entry.mode.instructionLength.toUInt16)
    let operand := cpu.pastOpcode.operandOn memory entry.mode
    let x := cpu.perform request memory ()
    let s := (m.action.effect ready operand).result memory
    x.value.fault? = none ∧ x.cpu.toCore = s.value ∧ x.bus = s.bus := by
  intro ready operand x s
  rcases cpu.perform_turn memory hreset hturns with ⟨hfault, hcore, hbus⟩
  rw [cpu.turn_of_decodes memory hdecodes] at hfault hcore hbus
  rcases cpu.pastOpcode.proceed_memory memory entry.mode m with ⟨hvalue, hleft⟩
  have hready : cpu.pastOpcode.setPc
      (cpu.pastOpcode.registers.pc + entry.mode.operandBytes.toUInt16) = ready := by
    unfold ready
    rw [entry.mode.instructionLength_toUInt16, ← UInt16.add_assoc]
    rfl
  rw [hready] at hvalue hleft
  exact ⟨hfault, hcore.trans hvalue, hbus.trans hleft⟩

end Cpu

end Nmos6502
