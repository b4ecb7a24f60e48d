import Nmos6502.Cpu.Action
import Nmos6502.Proofs.Play
import Nmos6502.Proofs.Updates

/-!
# Footprints

A footprint says what may differ after an instruction: whether control may go elsewhere, which
flags and registers may have another value, where the stack pointer ends and what may be written.
`Mnemonic.footprint` is the documented footprint of each mnemonic, `Action.footprint` that of each
action.  An action stays within its own footprint, and the two agree.
-/

namespace Nmos6502

structure Footprint where
  /-- Whether control may leave the straight line. -/
  redirects : Bool
  flags : List Flag
  registers : List Register
  /-- The stack pointer afterwards. -/
  sp : UInt8
  /-- Whether the operand's place may be written. -/
  storesOperand : Bool
  /-- How many cells of the stack may be written, from the stack pointer downwards. -/
  pushes : Nat
deriving DecidableEq

namespace Footprint

/-- `d` differs from `c` in nothing but what the footprint names, and control has come to `next`
unless it may have gone elsewhere. -/
structure Admits (fp : Footprint) (next : UInt16) (c d : Core) : Prop where
  pc : fp.redirects = false → d.registers.pc = next
  flag : ∀ f, f ∉ fp.flags → d.status.get f = c.status.get f
  register : ∀ r, r ∉ fp.registers → d.registers.get r = c.registers.get r
  sp : d.registers.sp = fp.sp

/-- The addresses that may be written by an instruction that begins with the stack pointer `sp`. -/
def MayWrite (fp : Footprint) (sp : UInt8) (operand : Operand) (address : UInt16) : Prop :=
  (fp.storesOperand = true ∧ operand = .address address) ∨
    ∃ depth < fp.pushes, address = Core.stackCell (sp - UInt8.ofNat depth)

end Footprint

namespace Mnemonic

def redirects : Mnemonic → Bool
  | bcc | bcs | bne | beq | bpl | bmi | bvc | bvs | jmp | jsr | rts | brk | rti => true
  | _ => false

def alteredFlags : Mnemonic → List Flag
  | lda | ldx | ldy | tax | tay | txa | tya | tsx | pla | and | ora | eor | inc | dec | inx | iny
  | dex | dey => [.negative, .zero]
  | cmp | cpx | cpy | asl | lsr | rol | ror => [.negative, .zero, .carry]
  | adc | sbc => [.negative, .zero, .carry, .overflow]
  | bit => [.negative, .zero, .overflow]
  | sec | clc => [.carry]
  | sed | cld => [.decimal]
  | clv => [.overflow]
  | sei | cli | brk => [.interruptDisable]
  | plp | rti => Flag.all
  | _ => []

def storesOperand : Mnemonic → Bool
  | sta | stx | sty | inc | dec | asl | lsr | rol | ror => true
  | _ => false

/-- The data registers that an instruction may alter.  What is written back lands in the
accumulator if that is the operand. -/
def alteredRegisters (mode : AddressingMode) (m : Mnemonic) : List Register :=
  match m with
  | lda | txa | tya | adc | sbc | and | ora | eor | pla => [.a]
  | ldx | tax | tsx | inx | dex => [.x]
  | ldy | tay | iny | dey => [.y]
  | _ => if m.storesOperand && mode == .accumulator then [.a] else []

def stackPointer (r : Registers) : Mnemonic → UInt8
  | pha | php => r.sp - 1
  | pla | plp => r.sp + 1
  | jsr => r.sp - 2
  | rts => r.sp + 2
  | brk => r.sp - 3
  | rti => r.sp + 3
  | txs => r.x
  | _ => r.sp

def pushes : Mnemonic → Nat
  | pha | php => 1
  | jsr => 2
  | brk => 3
  | _ => 0

def footprint (mode : AddressingMode) (r : Registers) (m : Mnemonic) : Footprint where
  redirects := m.redirects
  flags := m.alteredFlags
  registers := m.alteredRegisters mode
  sp := m.stackPointer r
  storesOperand := m.storesOperand
  pushes := m.pushes

end Mnemonic

namespace Action

/-- The registers that take what is written back to `operand`. -/
def backed (operand : Operand) : List Register :=
  if operand = .accumulator then [.a] else []

def footprint (operand : Operand) (r : Registers) : Action → Footprint
  | load register => ⟨false, [.negative, .zero], [register], r.sp, false, 0⟩
  | store _ => ⟨false, [], backed operand, r.sp, true, 0⟩
  | transfer _ target => ⟨false, [.negative, .zero], [target], r.sp, false, 0⟩
  | readStackPointer => ⟨false, [.negative, .zero], [.x], r.sp, false, 0⟩
  | setStackPointer => ⟨false, [], [], r.x, false, 0⟩
  | add | subtract => ⟨false, [.negative, .zero, .carry, .overflow], [.a], r.sp, false, 0⟩
  | compare _ => ⟨false, [.negative, .zero, .carry], [], r.sp, false, 0⟩
  | combine _ => ⟨false, [.negative, .zero], [.a], r.sp, false, 0⟩
  | testBits => ⟨false, [.negative, .zero, .overflow], [], r.sp, false, 0⟩
  | shift _ => ⟨false, [.negative, .zero, .carry], backed operand, r.sp, true, 0⟩
  | adjust _ => ⟨false, [.negative, .zero], backed operand, r.sp, true, 0⟩
  | adjustRegister register _ => ⟨false, [.negative, .zero], [register], r.sp, false, 0⟩
  | branch _ _ | jump => ⟨true, [], [], r.sp, false, 0⟩
  | call => ⟨true, [], [], r.sp - 2, false, 2⟩
  | returnFromCall => ⟨true, [], [], r.sp + 2, false, 0⟩
  | interrupt => ⟨true, [.interruptDisable], [], r.sp - 3, false, 3⟩
  | returnFromInterrupt => ⟨true, Flag.all, [], r.sp + 3, false, 0⟩
  | pushAccumulator | pushStatus => ⟨false, [], [], r.sp - 1, false, 1⟩
  | pullAccumulator => ⟨false, [.negative, .zero], [.a], r.sp + 1, false, 0⟩
  | pullStatus => ⟨false, Flag.all, [], r.sp + 1, false, 0⟩
  | setFlag flag _ => ⟨false, [flag], [], r.sp, false, 0⟩
  | nothing => ⟨false, [], [], r.sp, false, 0⟩

end Action

/-! ## What the parts of an action do -/

namespace Core

variable {W : UInt16 → UInt8 → Prop}

theorem load_ensures (c : Core) (operand : Operand) :
    (c.load operand).Ensures W fun _ => True := by
  cases operand <;> simp [load, Traffic.fetch]

theorem store_ensures
    (c : Core) {operand : Operand} (value : UInt8)
    (hwrite : ∀ address, operand = .address address → W address value) :
    (c.store operand value).Ensures W fun d =>
      d = if operand = .accumulator then c.setRegister .a value else c := by
  cases operand with
  | address address => simpa [store, Traffic.store] using hwrite address rfl
  | accumulator => simp [store]
  | relative displacement => simp [store]
  | none => simp [store]

theorem pushByte_ensures
    (c : Core) (value : UInt8) (hwrite : W (stackCell c.registers.sp) value) :
    (c.pushByte value).Ensures W fun d => d = c.setSp (c.registers.sp - 1) := by
  simpa [pushByte, Traffic.store] using hwrite

theorem pullByte_ensures (c : Core) :
    c.pullByte.Ensures W fun r => r.2 = c.setSp (c.registers.sp + 1) := by
  simp [pullByte, Traffic.fetch]

theorem pushWord_ensures
    (c : Core) (value : UInt16)
    (hwrite : ∀ depth < 2, ∀ byte, W (stackCell (c.registers.sp - UInt8.ofNat depth)) byte) :
    (c.pushWord value).Ensures W fun d => d = c.setSp (c.registers.sp - 2) := by
  unfold pushWord
  have hhigh := c.pushByte_ensures (Word.high value) (by simpa using hwrite 0 (by omega) _)
  apply hhigh.bind
  intro d hd
  subst hd
  have hlow := (c.setSp (c.registers.sp - 1)).pushByte_ensures (Word.low value)
    (hwrite 1 (by omega) _)
  apply hlow.imp
  intro e he
  rw [he, setSp_setSp, setSp_sp]
  congr 1
  grind

theorem pullWord_ensures (c : Core) :
    c.pullWord.Ensures W fun r => r.2 = c.setSp (c.registers.sp + 2) := by
  unfold pullWord
  apply c.pullByte_ensures.bind
  intro r hd
  rcases r with ⟨low, d⟩
  apply d.pullByte_ensures.bind
  intro r he
  rcases r with ⟨high, e⟩
  obtain rfl : d = c.setSp (c.registers.sp + 1) := hd
  change e = (c.setSp (c.registers.sp + 1)).setSp (c.registers.sp + 1 + 1) at he
  change e = c.setSp (c.registers.sp + 2)
  rw [he, setSp_setSp]
  congr 1
  grind

theorem readPair_ensures (low high : UInt16) :
    (readPair low high).Ensures W fun _ => True := by
  simp [readPair, Traffic.fetch]

theorem jump_eq (c : Core) (operand : Operand) : ∃ target, c.jump operand = c.setPc target := by
  cases operand with
  | address target => exact ⟨target, rfl⟩
  | accumulator => exact ⟨c.registers.pc, rfl⟩
  | relative displacement => exact ⟨c.registers.pc, rfl⟩
  | none => exact ⟨c.registers.pc, rfl⟩

theorem branch_eq (c : Core) (flag : Flag) (expected : Bool) (operand : Operand) :
    ∃ target, (c.branch flag expected operand).1 = c.setPc target := by
  cases operand with
  | relative displacement =>
      unfold branch
      by_cases htaken : (c.status.get flag == expected) = true
      · exact ⟨Word.displace c.registers.pc displacement, by simp [htaken]⟩
      · exact ⟨c.registers.pc, by simp [htaken, setPc]⟩
  | address target => exact ⟨c.registers.pc, rfl⟩
  | accumulator => exact ⟨c.registers.pc, rfl⟩
  | none => exact ⟨c.registers.pc, rfl⟩

theorem call_ensures
    (c : Core) (operand : Operand)
    (hwrite : ∀ depth < 2, ∀ byte, W (stackCell (c.registers.sp - UInt8.ofNat depth)) byte) :
    (c.call operand).Ensures W fun d =>
      ∃ target, d = (c.setSp (c.registers.sp - 2)).setPc target := by
  unfold call
  apply (c.pushWord_ensures _ hwrite).bind
  intro d hd
  subst hd
  exact jump_eq _ operand

theorem returnFromCall_ensures (c : Core) :
    c.returnFromCall.Ensures W fun d =>
      ∃ target, d = (c.setSp (c.registers.sp + 2)).setPc target := by
  unfold returnFromCall
  apply c.pullWord_ensures.bind
  intro r hd
  rcases r with ⟨address, d⟩
  obtain rfl : d = c.setSp (c.registers.sp + 2) := hd
  exact ⟨address + 1, rfl⟩

theorem interrupt_ensures
    (c : Core)
    (hwrite : ∀ depth < 3, ∀ byte, W (stackCell (c.registers.sp - UInt8.ofNat depth)) byte) :
    c.interrupt.Ensures W fun d =>
      ∃ handler,
        d = ((c.setSp (c.registers.sp - 3)).setFlag .interruptDisable true).setPc handler := by
  unfold interrupt
  have hword := c.pushWord_ensures (c.registers.pc + 1) fun depth hdepth => hwrite depth (by omega)
  apply hword.bind
  intro d hd
  subst hd
  have hbyte := (c.setSp (c.registers.sp - 2)).pushByte_ensures
    (c.setSp (c.registers.sp - 2)).status.pushed (hwrite 2 (by omega) _)
  apply hbyte.bind
  intro e he
  have hsp : c.registers.sp - 2 - 1 = c.registers.sp - 3 := by grind
  rw [setSp_setSp, setSp_sp, hsp] at he
  subst he
  exact (readPair_ensures _ _).bind fun handler _ => ⟨handler, rfl⟩

theorem returnFromInterrupt_ensures (c : Core) :
    c.returnFromInterrupt.Ensures W fun d =>
      ∃ byte target,
        d = ((c.setSp (c.registers.sp + 3)).setStatus (Status.pulled byte)).setPc target := by
  unfold returnFromInterrupt
  apply c.pullByte_ensures.bind
  intro r hd
  rcases r with ⟨byte, d⟩
  obtain rfl : d = c.setSp (c.registers.sp + 1) := hd
  apply (c.setSp (c.registers.sp + 1)).pullWord_ensures.bind
  intro r he
  rcases r with ⟨target, e⟩
  have hsp : c.registers.sp + 1 + 2 = c.registers.sp + 3 := by grind
  change e = (c.setSp (c.registers.sp + 1)).setSp (c.registers.sp + 1 + 2) at he
  rw [setSp_setSp, hsp] at he
  subst he
  exact ⟨byte, target, rfl⟩

end Core

/-! ## Which flags an operation decides -/

namespace Core

open Status

variable (c : Core)

theorem setZeroNegative_agreesOff (value : UInt8) :
    c.status.AgreesOff [.negative, .zero] (c.setZeroNegative value).status :=
  (AgreesOff.refl _ _).setZeroNegative (by decide) (by decide) value

theorem takeSum_agreesOff (sum : Sum) :
    c.status.AgreesOff [.negative, .zero, .carry, .overflow] (c.takeSum sum).status := by
  have hcarry : c.status.AgreesOff [.negative, .zero, .carry, .overflow]
      (c.status.set .carry sum.carry) := (AgreesOff.refl _ _).set (by decide) _
  have hoverflow := hcarry.set (f := .overflow) (by decide) sum.overflow
  exact hoverflow.setZeroNegative (by decide) (by decide) sum.value

theorem setCarryZeroNegative_agreesOff (carry : Bool) (value : UInt8) :
    c.status.AgreesOff [.negative, .zero, .carry]
      ((c.setFlag .carry carry).setZeroNegative value).status := by
  have hcarry : c.status.AgreesOff [.negative, .zero, .carry] (c.status.set .carry carry) :=
    (AgreesOff.refl _ _).set (by decide) _
  exact hcarry.setZeroNegative (by decide) (by decide) value

theorem testBits_agreesOff (m : UInt8) :
    c.status.AgreesOff [.negative, .zero, .overflow] (c.testBits m).status := by
  have hzero : c.status.AgreesOff [.negative, .zero, .overflow]
      (c.status.set .zero (c.registers.a &&& m == 0)) := (AgreesOff.refl _ _).set (by decide) _
  have hnegative := hzero.set (f := .negative) (by decide) (m &&& 0x80 != 0)
  exact hnegative.set (by decide) _

theorem setFlag_agreesOff (flag : Flag) (value : Bool) :
    c.status.AgreesOff [flag] (c.setFlag flag value).status :=
  (AgreesOff.refl _ _).set List.mem_cons_self value

end Core

/-! ## An action stays within its footprint -/

namespace Footprint

variable (fp : Footprint) {c d : Core} {status : Status}

theorem admits_of_status
    {target : UInt16}
    (hd : d = ((c.setSp fp.sp).setStatus status).setPc target)
    (hpc : fp.redirects = false → target = c.registers.pc)
    (hstatus : c.status.AgreesOff fp.flags status) :
    fp.Admits c.registers.pc c d := by
  subst hd
  exact ⟨hpc, hstatus, fun r _ => by cases r <;> rfl, rfl⟩

theorem admits_of_redirect
    {target : UInt16}
    (hd : d = ((c.setSp fp.sp).setStatus status).setPc target)
    (hredirects : fp.redirects = true)
    (hstatus : c.status.AgreesOff fp.flags status) :
    fp.Admits c.registers.pc c d := by
  refine fp.admits_of_status hd (fun hstraight => ?_) hstatus
  rw [hredirects] at hstraight
  contradiction

theorem admits_of_register
    {register : Register} {value : UInt8}
    (hd : d = ((c.setSp fp.sp).setRegister register value).setStatus status)
    (hregister : register ∈ fp.registers)
    (hstatus : c.status.AgreesOff fp.flags status) :
    fp.Admits c.registers.pc c d := by
  subst hd
  refine ⟨fun _ => by simp, hstatus, fun r hr => ?_, by simp⟩
  have hne : r ≠ register := fun heq => hr (heq ▸ hregister)
  simp [Registers.get_set_of_ne _ _ hne]

theorem admits_of_stored
    {operand : Operand} {value : UInt8} {stored : Core}
    (hstored : stored = if operand = .accumulator then c.setRegister .a value else c)
    (hd : d = stored.setStatus status)
    (hregisters : fp.registers = Action.backed operand)
    (hsp : fp.sp = c.registers.sp)
    (hstatus : c.status.AgreesOff fp.flags status) :
    fp.Admits c.registers.pc c d := by
  by_cases haccumulator : operand = .accumulator
  · rw [if_pos haccumulator] at hstored
    have hmem : Register.a ∈ fp.registers := by simp [hregisters, Action.backed, haccumulator]
    have hregister : d = ((c.setSp fp.sp).setRegister .a value).setStatus status := by
      rw [hd, hstored, hsp]
      rfl
    exact fp.admits_of_register hregister hmem hstatus
  · rw [if_neg haccumulator] at hstored
    have hunmoved : d = ((c.setSp fp.sp).setStatus status).setPc c.registers.pc := by
      rw [hd, hstored, hsp]
      rfl
    exact fp.admits_of_status hunmoved (fun _ => rfl) hstatus

end Footprint

namespace Action

/-- Along its whole tree an action stays within its footprint. -/
theorem effect_within_footprint (c : Core) (operand : Operand) (action : Action) :
    let fp := action.footprint operand c.registers
    (action.effect c operand).Ensures
      (fun address _ => fp.MayWrite c.registers.sp operand address)
      (fp.Admits c.registers.pc c) := by
  intro fp
  have hpush : ∀ depth < fp.pushes, ∀ _byte : UInt8,
      fp.MayWrite c.registers.sp operand (Core.stackCell (c.registers.sp - UInt8.ofNat depth)) :=
    fun depth hdepth _ => Or.inr ⟨depth, hdepth, rfl⟩
  have hback : fp.storesOperand = true → ∀ address, operand = .address address →
      fp.MayWrite c.registers.sp operand address :=
    fun hstores _ haddress => Or.inl ⟨hstores, haddress⟩
  have hsame : ∀ flags, c.status.AgreesOff flags c.status := fun flags => .refl flags c.status
  cases action with
  | load register =>
      apply (c.load_ensures operand).bind
      intro value _
      exact fp.admits_of_register rfl List.mem_cons_self (c.setZeroNegative_agreesOff value)
  | store register =>
      apply (c.store_ensures _ (hback rfl)).imp
      intro d hd
      have hstatus : d = d.setStatus c.status := by
        rw [hd]
        split <;> rfl
      exact fp.admits_of_stored hd hstatus rfl rfl (hsame _)
  | transfer source target =>
      exact fp.admits_of_register rfl List.mem_cons_self (c.setZeroNegative_agreesOff _)
  | readStackPointer =>
      exact fp.admits_of_register rfl List.mem_cons_self (c.setZeroNegative_agreesOff _)
  | setStackPointer => exact fp.admits_of_status rfl (fun _ => rfl) (hsame _)
  | add =>
      apply (c.load_ensures operand).bind
      intro m _
      exact fp.admits_of_register rfl List.mem_cons_self (c.takeSum_agreesOff _)
  | subtract =>
      apply (c.load_ensures operand).bind
      intro m _
      exact fp.admits_of_register rfl List.mem_cons_self (c.takeSum_agreesOff _)
  | compare register =>
      apply (c.load_ensures operand).bind
      intro m _
      exact fp.admits_of_status rfl (fun _ => rfl) (c.setCarryZeroNegative_agreesOff _ _)
  | combine logic =>
      apply (c.load_ensures operand).bind
      intro m _
      exact fp.admits_of_register rfl List.mem_cons_self (c.setZeroNegative_agreesOff _)
  | testBits =>
      apply (c.load_ensures operand).bind
      intro m _
      exact fp.admits_of_status rfl (fun _ => rfl) (c.testBits_agreesOff m)
  | shift kind =>
      simp only [effect]
      apply (c.load_ensures operand).bind
      intro value _
      generalize kind.apply value (c.status.get .carry) = shifted
      rcases shifted with ⟨result, carry⟩
      apply (c.store_ensures _ (hback rfl)).bind
      intro d hd
      have hstatus : d.status = c.status := by
        rw [hd]
        split <;> rfl
      apply fp.admits_of_stored hd rfl rfl rfl
      rw [Core.setFlag_status, hstatus]
      exact c.setCarryZeroNegative_agreesOff carry result
  | adjust delta =>
      apply (c.load_ensures operand).bind
      intro value _
      apply (c.store_ensures _ (hback rfl)).bind
      intro d hd
      have hstatus : d.status = c.status := by
        rw [hd]
        split <;> rfl
      apply fp.admits_of_stored hd rfl rfl rfl
      rw [hstatus]
      exact c.setZeroNegative_agreesOff _
  | adjustRegister register delta =>
      exact fp.admits_of_register rfl List.mem_cons_self (c.setZeroNegative_agreesOff _)
  | branch flag expected =>
      rcases c.branch_eq flag expected operand with ⟨target, htarget⟩
      exact fp.admits_of_redirect htarget rfl (hsame _)
  | jump =>
      rcases c.jump_eq operand with ⟨target, htarget⟩
      exact fp.admits_of_redirect htarget rfl (hsame _)
  | call =>
      refine Traffic.Ensures.imp (c.call_ensures operand hpush) ?_
      intro d hd
      rcases hd with ⟨target, hd⟩
      exact fp.admits_of_redirect hd rfl (hsame _)
  | returnFromCall =>
      apply c.returnFromCall_ensures.imp
      intro d hd
      rcases hd with ⟨target, hd⟩
      exact fp.admits_of_redirect hd rfl (hsame _)
  | interrupt =>
      refine Traffic.Ensures.imp (c.interrupt_ensures hpush) ?_
      intro d hd
      rcases hd with ⟨handler, hd⟩
      exact fp.admits_of_redirect hd rfl (c.setFlag_agreesOff _ _)
  | returnFromInterrupt =>
      apply c.returnFromInterrupt_ensures.imp
      intro d hd
      rcases hd with ⟨byte, target, hd⟩
      exact fp.admits_of_redirect hd rfl (.all c.status (Status.pulled byte))
  | pushAccumulator =>
      have hwrite := hpush 0 Nat.zero_lt_one c.registers.a
      apply (c.pushByte_ensures _ (by simpa using hwrite)).imp
      intro d hd
      exact fp.admits_of_status hd (fun _ => rfl) (hsame _)
  | pushStatus =>
      have hwrite := hpush 0 Nat.zero_lt_one c.status.pushed
      apply (c.pushByte_ensures _ (by simpa using hwrite)).imp
      intro d hd
      exact fp.admits_of_status hd (fun _ => rfl) (hsame _)
  | pullAccumulator =>
      apply c.pullByte_ensures.bind
      intro r hd
      rcases r with ⟨value, d⟩
      obtain rfl : d = c.setSp (c.registers.sp + 1) := hd
      exact fp.admits_of_register rfl List.mem_cons_self (c.setZeroNegative_agreesOff value)
  | pullStatus =>
      apply c.pullByte_ensures.bind
      intro r hd
      rcases r with ⟨byte, d⟩
      obtain rfl : d = c.setSp (c.registers.sp + 1) := hd
      exact fp.admits_of_status rfl (fun _ => rfl) (.all c.status (Status.pulled byte))
  | setFlag flag value =>
      exact fp.admits_of_status rfl (fun _ => rfl) (c.setFlag_agreesOff flag value)
  | nothing => exact fp.admits_of_status rfl (fun _ => rfl) (hsame _)

end Action

end Nmos6502
