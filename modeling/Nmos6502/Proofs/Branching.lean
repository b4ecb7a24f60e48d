import Nmos6502.Proofs.Instruction

/-!
# Branches and jumps

Where control is after a conditional branch and what the branch has cost, in whole numbers and on
every bus.  A branch that is taken pays for it, so that the cost tells whether it has been taken
even if its target is the next instruction.  Nothing but the program counter changes.
-/

namespace Nmos6502

/-- The branch on the same flag with the other value. -/
def Mnemonic.complement? : Mnemonic → Option Mnemonic
  | bcc => some .bcs
  | bcs => some .bcc
  | bne => some .beq
  | beq => some .bne
  | bpl => some .bmi
  | bmi => some .bpl
  | bvc => some .bvs
  | bvs => some .bvc
  | _ => none

theorem Mnemonic.condition?_of_complement?
    {m other : Mnemonic} {flag : Flag} {expected : Bool}
    (hcondition : m.condition? = some (flag, expected)) (hother : m.complement? = some other) :
    other.condition? = some (flag, !expected) := by
  cases m <;> simp_all [complement?, condition?] <;> cases hother <;> simp [← hcondition]

theorem Mnemonic.not_pureRead_of_condition?
    {m : Mnemonic} {condition : Flag × Bool} (hcondition : m.condition? = some condition) :
    m ∉ pureReads := by
  cases m <;> simp_all [condition?, pureReads]

/-! ## What branches cost -/

section Costs

variable (config : Config) {m : Mnemonic} {mode : AddressingMode} (c : Core) {flag : Flag}
  {expected : Bool} (hcondition : m.condition? = some (flag, expected))

include hcondition

theorem Core.dueCost_of_condition? (entry : Opcode.Entry) (operand : Operand) :
    dueCost config entry m c operand =
      entry.cycles.toNat + branchSurcharge m entry.mode c operand := by
  have hcrossing : crossingSurcharge config m entry.mode c operand = 0 := by
    cases operand with
    | address address =>
        have hread := m.not_pureRead_of_condition? hcondition
        simp [crossingSurcharge, hread]
    | _ => rfl
  rw [dueCost, hcrossing, Nat.add_zero]

theorem branchSurcharge_pos_iff (displacement : UInt8) :
    0 < branchSurcharge m .relative c (.relative displacement) ↔ c.status.get flag = expected := by
  simp only [branchSurcharge, hcondition, true_and]
  by_cases htaken : c.status.get flag = expected
  · rw [if_pos htaken]
    split <;> simp [htaken]
  · simp [htaken]

omit hcondition in
theorem branchSurcharge_of_ne_relative (operand : Operand) (hmode : mode ≠ .relative) :
    branchSurcharge m mode c operand = 0 := by
  cases operand with
  | relative displacement =>
      unfold branchSurcharge
      simp only [hmode, false_and, if_false]
      split <;> rfl
  | _ => rfl

end Costs

theorem Core.branch_of_ne_relative
    (c : Core) (flag : Flag) (expected : Bool) {operand : Operand} {mode : AddressingMode}
    (hsuits : operand.Suits mode) (hmode : mode ≠ .relative) :
    (c.branch flag expected operand).1 = c := by
  cases operand with
  | relative displacement => exact absurd hsuits.mode_eq_relative hmode
  | _ => rfl

namespace Cpu

section Outcomes

variable {β : Type} [Bus β] (cpu : Cpu) (bus : β) (request : Request) (entry : Opcode.Entry)

/-- Control is at the end of the displacement, and more has been paid than the entry declares. -/
def TakesBranch : Prop :=
  let x := cpu.perform request bus (#[] : Array Event)
  let next := (cpu.registers.pc.toNat + 2) % 65536
  (x.cpu.registers.pc.toNat : Int) = (next + Byte.signed (cpu.displacementOn bus)) % 65536 ∧
    ∃ cycles, retirements x.sink = [(cpu.registers.pc, cycles)] ∧ entry.cycles < cycles

/-- Control is at the next instruction, and what the entry declares has been paid. -/
def PassesBranch : Prop :=
  let x := cpu.perform request bus (#[] : Array Event)
  x.cpu.registers.pc.toNat = (cpu.registers.pc.toNat + 2) % 65536 ∧
    retirements x.sink = [(cpu.registers.pc, entry.cycles)]

end Outcomes

theorem PassesBranch.not_takesBranch
    {β : Type} [Bus β] {cpu : Cpu} {bus : β} {request : Request} {entry : Opcode.Entry}
    (hpassed : cpu.PassesBranch bus request entry) : ¬cpu.TakesBranch bus request entry := by
  rintro ⟨-, cycles, hlog, hpaid⟩
  have hsame : cycles = entry.cycles := by simpa [hlog] using hpassed.2
  exact UInt8.lt_irrefl _ (hsame ▸ hpaid)

theorem fetches_relative {β : Type} [Bus β] (cpu : Cpu) (bus : β) :
    cpu.fetches bus .relative =
      [⟨.read, cpu.registers.pc, cpu.opcodeOn (cpu.clocked bus)⟩,
        ⟨.read, cpu.registers.pc + 1, cpu.displacementOn bus⟩] :=
  cpu.fetches_eq bus .relative

theorem ready_pc_relative (cpu : Cpu) :
    (cpu.ready .relative).registers.pc.toNat = (cpu.registers.pc.toNat + 2) % 65536 :=
  UInt16.toNat_add _ _

section Calls

variable {β : Type} [Bus β] (cpu : Cpu) (bus : β) {request : Request} {entry : Opcode.Entry}
  {m : Mnemonic} (h : cpu.Performs bus request entry m) {flag : Flag} {expected : Bool}
  (hcondition : m.condition? = some (flag, expected))

include h hcondition

theorem perform_branch :
    (cpu.perform request bus (#[] : Array Event)).cpu.toCore =
      ((cpu.ready entry.mode).branch flag expected (cpu.locate bus entry.mode).value.operand).1 ∧
    transfers (cpu.perform request (Probe.fresh bus) ()).bus.calls =
      cpu.fetches bus entry.mode := by
  have haction := (m.action_eq_branch_iff flag expected).mpr hcondition
  have heffect (c : Core) (operand : Operand) :
      m.action.effect c operand = pure (c.branch flag expected operand).1 := by
    rw [haction]
    rfl
  exact ⟨(cpu.perform_of_pure bus (#[] : Array Event) h heffect).1,
    (cpu.perform_of_pure bus () h heffect).2⟩

theorem retirements_branch :
    ∃ cycles, retirements (cpu.perform request bus (#[] : Array Event)).sink =
        [(cpu.registers.pc, cycles)] ∧
      cycles.toNat = entry.cycles.toNat +
        branchSurcharge m entry.mode cpu.toCore (cpu.locate bus entry.mode).value.operand := by
  refine ⟨_, cpu.perform_retirements bus h #[], ?_⟩
  rw [Core.cost_toNat, Core.dueCost_of_condition? _ _ hcondition, (cpu.locate_eq bus _).1]
  rfl

theorem retirements_branch_of_no_surcharge
    (hzero : branchSurcharge m entry.mode cpu.toCore
      (cpu.locate bus entry.mode).value.operand = 0) :
    retirements (cpu.perform request bus (#[] : Array Event)).sink =
      [(cpu.registers.pc, entry.cycles)] := by
  rcases cpu.retirements_branch bus h hcondition with ⟨cycles, hlog, hcycles⟩
  rw [hzero, Nat.add_zero] at hcycles
  rw [hlog, UInt8.toNat_inj.mp hcycles]

variable (hmode : entry.mode = .relative)

include hmode

theorem takesBranch (htaken : cpu.status.get flag = expected) :
    cpu.TakesBranch bus request entry := by
  have hcore := (cpu.perform_branch bus h hcondition).1
  rcases cpu.retirements_branch bus h hcondition with ⟨cycles, hlog, hcycles⟩
  rw [hmode, cpu.locate_relative bus] at hcore hcycles
  have hpaid := (branchSurcharge_pos_iff cpu.toCore hcondition (cpu.displacementOn bus)).mpr htaken
  have hend : (cpu.perform request bus (#[] : Array Event)).cpu.toCore =
      (cpu.ready .relative).setPc
        (Word.displace (cpu.ready .relative).registers.pc (cpu.displacementOn bus)) := by
    rw [hcore]
    simp [Core.branch, ready, htaken]
  refine ⟨?_, cycles, hlog, UInt8.lt_iff_toNat_lt.mpr (by omega)⟩
  rw [hend, Core.setPc_pc, Word.toNat_displace, cpu.ready_pc_relative]

theorem passesBranch (hpassed : cpu.status.get flag ≠ expected) :
    cpu.PassesBranch bus request entry := by
  have hcore := (cpu.perform_branch bus h hcondition).1
  have hfree := mt
    (branchSurcharge_pos_iff cpu.toCore hcondition (cpu.displacementOn bus)).mp hpassed
  have hlog := cpu.retirements_branch_of_no_surcharge bus h hcondition
  rw [hmode, cpu.locate_relative bus] at hcore hlog
  have hend : (cpu.perform request bus (#[] : Array Event)).cpu.toCore = cpu.ready .relative := by
    rw [hcore]
    simp [Core.branch, ready, hpassed]
  refine ⟨?_, hlog (Nat.eq_zero_of_not_pos hfree)⟩
  rw [hend, cpu.ready_pc_relative]

theorem takesBranch_iff :
    cpu.TakesBranch bus request entry ↔ cpu.status.get flag = expected := by
  refine ⟨fun htakes => ?_, cpu.takesBranch bus h hcondition hmode⟩
  -- A branch that ends where it would have gone anyway is told apart by what it has cost.
  by_contra hpassed
  exact (cpu.passesBranch bus h hcondition hmode hpassed).not_takesBranch htakes

end Calls

theorem perform_jump
    {β : Type} [Bus β] (cpu : Cpu) (bus : β) {request : Request} {entry : Opcode.Entry}
    (h : cpu.Performs bus request entry .jmp) :
    (cpu.perform request bus (#[] : Array Event)).cpu.toCore =
      (cpu.ready entry.mode).jump (cpu.locate bus entry.mode).value.operand ∧
    transfers (cpu.perform request (Probe.fresh bus) ()).bus.calls =
      cpu.fetches bus entry.mode :=
  ⟨(cpu.perform_of_pure bus (#[] : Array Event) h fun _ _ => rfl).1,
    (cpu.perform_of_pure bus () h fun _ _ => rfl).2⟩

/-- A branch in relative mode is decided by its flag, and so is that on the opposite value, the
other way, on whatever processor and bus.  Any other mode leaves a branch nowhere to go and nothing
to pay for.  Branches and jumps move the program counter, and apart from it they only read the bytes
that lead to their target. -/
theorem branches_and_jumps_only_move
    {β : Type} [Bus β] (cpu : Cpu) (bus : β) {request : Request} {entry : Opcode.Entry}
    {m : Mnemonic} (h : cpu.Performs bus request entry m) :
    let x := cpu.perform request bus (#[] : Array Event)
    let seen := transfers (cpu.perform request (Probe.fresh bus) ()).bus.calls
    x.value.fault? = none ∧
    (∀ flag expected, m.condition? = some (flag, expected) →
      x.cpu.toCore = cpu.setPc x.cpu.registers.pc ∧
      (entry.mode = .relative →
        seen = [⟨.read, cpu.registers.pc, cpu.opcodeOn (cpu.clocked bus)⟩,
          ⟨.read, cpu.registers.pc + 1, cpu.displacementOn bus⟩] ∧
        (cpu.status.get flag = expected → cpu.TakesBranch bus request entry) ∧
        (cpu.status.get flag ≠ expected → cpu.PassesBranch bus request entry) ∧
        ∀ {γ : Type} [Bus γ] (other : Cpu) (away : γ) {request' : Request}
          {entry' : Opcode.Entry} {m' : Mnemonic},
          m.complement? = some m' → other.Performs away request' entry' m' →
          entry'.mode = .relative → other.status = cpu.status →
          (cpu.TakesBranch bus request entry ↔ ¬other.TakesBranch away request' entry')) ∧
      (entry.mode ≠ .relative →
        x.cpu.registers.pc = cpu.registers.pc + entry.mode.instructionLength.toUInt16 ∧
        retirements x.sink = [(cpu.registers.pc, entry.cycles)] ∧
        seen = cpu.fetches bus entry.mode ∧ ∀ transfer ∈ seen, transfer.direction = .read)) ∧
    (m = .jmp → ∀ target, (cpu.locate bus entry.mode).value.operand = .address target →
      x.cpu.toCore = cpu.setPc target ∧ seen = cpu.fetches bus entry.mode ∧
      ∀ transfer ∈ seen, transfer.direction = .read) := by
  intro x seen
  refine ⟨(cpu.perform_result bus (#[] : Array Event) h).1, ?_, ?_⟩
  · intro flag expected hcondition
    rcases cpu.perform_branch bus h hcondition with ⟨hcore, hseen⟩
    have hmoved : x.cpu.toCore = _ := hcore
    have hread : seen = _ := hseen
    refine ⟨?_, ?_, ?_⟩
    · rcases Core.branch_eq (cpu.ready entry.mode) flag expected
        (cpu.locate bus entry.mode).value.operand with ⟨target, htarget⟩
      rw [hmoved, htarget]
      rfl
    · intro hmode
      refine ⟨?_, cpu.takesBranch bus h hcondition hmode, cpu.passesBranch bus h hcondition hmode,
        ?_⟩
      · rw [hread, hmode, fetches_relative]
      · intro γ _ other away request' entry' m' hcomplement hother hmode' hstatus
        have hcondition' := Mnemonic.condition?_of_complement? hcondition hcomplement
        rw [cpu.takesBranch_iff bus h hcondition hmode,
          other.takesBranch_iff away hother hcondition' hmode', hstatus]
        cases cpu.status.get flag <;> cases expected <;> decide
    · intro hmode
      have hcost := cpu.retirements_branch_of_no_surcharge bus h hcondition
        (branchSurcharge_of_ne_relative _ _ hmode)
      refine ⟨?_, hcost, hread, fun transfer hmem => ?_⟩
      · rw [hmoved, Core.branch_of_ne_relative _ flag expected (cpu.locate_suits bus _) hmode]
        rfl
      · exact cpu.direction_of_mem_fetches bus entry.mode (hread ▸ hmem)
  · rintro rfl target hplace
    rcases cpu.perform_jump bus h with ⟨hcore, hseen⟩
    have hmoved : x.cpu.toCore = _ := hcore
    have hread : seen = _ := hseen
    rw [hplace] at hmoved
    exact ⟨hmoved, hread, fun transfer hmem =>
      cpu.direction_of_mem_fetches bus entry.mode (hread ▸ hmem)⟩

/-- A branch that is taken backwards through the bottom of the address space, and its opposite with
the same displacement on another bus. -/
theorem branch_through_the_bottom :
    let bne : Opcode.Entry := ⟨0xD0, "BNE", some .bne, .relative, 2, 2, by decide, by decide⟩
    let beq : Opcode.Entry := ⟨0xF0, "BEQ", some .beq, .relative, 2, 2, by decide, by decide⟩
    let cpu := readyAt 0xFFFE (Opcode.Table.empty.insert bne)
    let other := readyAt 0xFFFE (Opcode.Table.empty.insert beq)
    let tape : Tape := ⟨[0xD0, 0x80]⟩
    let away : Tape := ⟨[0xF0, 0x80]⟩
    ((cpu.perform .step tape (#[] : Array Event)).cpu.registers.pc.toNat : Int) = 0xFF80 ∧
      ¬other.TakesBranch away .execute beq := by
  intro bne beq cpu other tape away
  have hbne : cpu.Performs tape .step bne .bne :=
    ⟨rfl, .inr ⟨rfl, rfl⟩, Opcode.Table.lookup_insert_self _ bne, rfl⟩
  have hbeq : other.Performs away .execute beq .beq :=
    ⟨rfl, .inl rfl, Opcode.Table.lookup_insert_self _ beq, rfl⟩
  rcases (cpu.branches_and_jumps_only_move tape hbne).2.1 .zero false rfl with ⟨-, hrelative, -⟩
  rcases hrelative rfl with ⟨-, htakes, -, hopposite⟩
  have htaken : cpu.TakesBranch tape .step bne := htakes (by decide)
  have hdisplacement : cpu.displacementOn tape = 0x80 := rfl
  refine ⟨htaken.1.trans ?_, (hopposite other away rfl hbeq rfl rfl).mp htaken⟩
  rw [hdisplacement]
  decide

end Cpu

end Nmos6502
