import Nmos6502.Proofs.Contents
import Nmos6502.Proofs.Effect
import Nmos6502.Proofs.Numerals

/-!
# Calls, interrupts and the way back

A call saves one address less than where it returns to, and an interrupt saves one address more than
where its instruction ends; the two returns make up for it.  They find the way back from any later
state in which the stack pointer and the saved bytes are what they were, wherever in its page the
stack has wrapped.
-/

namespace Nmos6502

theorem Status.pulled_pushed (s : Status) :
    pulled s.pushed = (s.set .breakMark false).set .unused true := by
  have hbreak : Flag.breakMark.mask &&& ~~~Flag.breakMark.mask = 0 := by decide
  have hunused : (Flag.unused.mask &&& ~~~Flag.breakMark.mask) ||| Flag.unused.mask =
      Flag.unused.mask := by decide
  simp [pulled, pushed, set, Byte.or_and_distrib, hbreak, UInt8.or_assoc, hunused]

/-! ## The stack on plain memory -/

open Nmos6502.Core (stackCell)

namespace Core

theorem stackCell_toUInt8 (sp : UInt8) : (stackCell sp).toUInt8 = sp := by
  have hbase : stackBase.toUInt8 = 0 := rfl
  rw [stackCell, UInt16.toUInt8_or, hbase]
  simp

theorem stackCell_injective : Function.Injective stackCell :=
  Function.LeftInverse.injective stackCell_toUInt8

theorem ne_stackCell {address : UInt16} (hoff : stackCell address.toUInt8 ≠ address) (sp : UInt8) :
    address ≠ stackCell sp := by
  intro heq
  apply hoff
  rw [heq, stackCell_toUInt8]

end Core

/-- The memory after `word` has been pushed from `sp` downwards, high byte first. -/
def Memory.pushWord (memory : Memory) (sp : UInt8) (word : UInt16) : Memory :=
  (memory.write (stackCell sp) (Word.high word)).write (stackCell (sp - 1)) (Word.low word)

/-- The memory after an interrupt has pushed `word` and below it `byte`. -/
def Memory.pushFrame (memory : Memory) (sp : UInt8) (word : UInt16) (byte : UInt8) : Memory :=
  (memory.pushWord sp word).write (stackCell (sp - 2)) byte

namespace Memory

variable (memory : Memory) (sp byte : UInt8) (word : UInt16)

theorem read_pushWord_high : (memory.pushWord sp word).read (stackCell sp) = Word.high word := by
  have hne : stackCell sp ≠ stackCell (sp - 1) := Core.stackCell_injective.ne (by grind)
  rw [pushWord, read_write_of_ne _ _ hne, read_write_self]

theorem read_pushWord_low :
    (memory.pushWord sp word).read (stackCell (sp - 1)) = Word.low word := by
  rw [pushWord, read_write_self]

theorem read_pushFrame_word {cell : UInt8} (hcell : cell ≠ sp - 2) :
    (memory.pushFrame sp word byte).read (stackCell cell) =
      (memory.pushWord sp word).read (stackCell cell) :=
  read_write_of_ne _ _ (Core.stackCell_injective.ne hcell)

theorem read_pushFrame_byte :
    (memory.pushFrame sp word byte).read (stackCell (sp - 2)) = byte := by
  rw [pushFrame, read_write_self]

theorem readWord_irqVector_pushFrame :
    (memory.pushFrame sp word byte).readWord irqVector = memory.readWord irqVector := by
  have hlow : ∀ sp, irqVector ≠ stackCell sp := Core.ne_stackCell (by decide)
  have hhigh : ∀ sp, irqVector + 1 ≠ stackCell sp := Core.ne_stackCell (by decide)
  simp only [readWord, pushFrame, pushWord, read_write_of_ne _ _ (hlow _),
    read_write_of_ne _ _ (hhigh _)]

end Memory

/-! ## What the four instructions do -/

namespace Core

variable (c : Core) (memory : Memory)

theorem call_memory (operand : Operand) :
    let r := (c.call operand).result memory
    r.value.registers.sp = c.registers.sp - 2 ∧
      r.bus = memory.pushWord c.registers.sp (c.registers.pc - 1) := by
  intro r
  have hvalue : ∃ target, r.value = (c.setSp (c.registers.sp - 2)).setPc target :=
    (c.call_ensures (W := fun _ _ => True) operand fun _ _ _ => trivial).result_value memory
  rcases hvalue with ⟨target, htarget⟩
  rw [htarget]
  exact ⟨rfl, rfl⟩

theorem interrupt_memory :
    let r := c.interrupt.result memory
    let target := memory.readWord irqVector
    r.value = ((c.setSp (c.registers.sp - 3)).setFlag .interruptDisable true).setPc target ∧
      r.bus = memory.pushFrame c.registers.sp (c.registers.pc + 1) c.status.pushed := by
  intro r target
  have hsp : c.registers.sp - 1 - 1 = c.registers.sp - 2 := by grind
  have hend : c.registers.sp - 2 - 1 = c.registers.sp - 3 := by grind
  have hbus : r.bus = memory.pushFrame c.registers.sp (c.registers.pc + 1) c.status.pushed := by
    rw [Memory.pushFrame, ← hsp]
    rfl
  have hvalue : r.value = ((c.setSp (c.registers.sp - 1 - 1 - 1)).setFlag .interruptDisable
      true).setPc (r.bus.readWord irqVector) := rfl
  rw [hvalue, hbus, Memory.readWord_irqVector_pushFrame, hsp, hend]
  exact ⟨rfl, rfl⟩

theorem returnFromCall_memory
    {sp : UInt8} {word : UInt16} (hsp : c.registers.sp = sp - 2)
    (hhigh : memory.read (stackCell sp) = Word.high word)
    (hlow : memory.read (stackCell (sp - 1)) = Word.low word) :
    let r := c.returnFromCall.result memory
    r.value = (c.setSp sp).setPc (word + 1) ∧ r.bus = memory := by
  intro r
  have hfirst : c.registers.sp + 1 = sp - 1 := by grind
  have hlast : sp - 1 + 1 = sp := by grind
  have hvalue : r.value = (c.setSp (c.registers.sp + 1 + 1)).setPc
      (Word.ofBytes (memory.read (stackCell (c.registers.sp + 1)))
        (memory.read (stackCell (c.registers.sp + 1 + 1))) + 1) := rfl
  rw [hvalue, hfirst, hlast, hlow, hhigh, Word.ofBytes_low_high]
  exact ⟨rfl, rfl⟩

theorem returnFromInterrupt_memory
    {sp byte : UInt8} {word : UInt16} (hsp : c.registers.sp = sp - 3)
    (hhigh : memory.read (stackCell sp) = Word.high word)
    (hlow : memory.read (stackCell (sp - 1)) = Word.low word)
    (hbyte : memory.read (stackCell (sp - 2)) = byte) :
    let r := c.returnFromInterrupt.result memory
    r.value = ((c.setSp sp).setStatus (Status.pulled byte)).setPc word ∧ r.bus = memory := by
  intro r
  have hfirst : c.registers.sp + 1 = sp - 2 := by grind
  have hnext : sp - 2 + 1 = sp - 1 := by grind
  have hlast : sp - 1 + 1 = sp := by grind
  have hvalue : r.value = ((c.setSp (c.registers.sp + 1 + 1 + 1)).setStatus
      (Status.pulled (memory.read (stackCell (c.registers.sp + 1))))).setPc
        (Word.ofBytes (memory.read (stackCell (c.registers.sp + 1 + 1)))
          (memory.read (stackCell (c.registers.sp + 1 + 1 + 1)))) := rfl
  rw [hvalue, hfirst, hnext, hlast, hlow, hhigh, hbyte, Word.ofBytes_low_high]
  exact ⟨rfl, rfl⟩

end Core

/-! ## The way back -/

namespace Cpu

/-- However the processor and the memory have gone on since `left`: if the stack pointer is `low`
and the `cells` are as in `left`, then an instruction of mnemonic `m` is not refused, it leads back
to `sp` and to `pc`, and it does nothing else but to change the status by `restore`. -/
def LeadsBack
    (left : Memory) (low : UInt8) (cells : List UInt16) (m : Mnemonic) (sp : UInt8) (pc : UInt16)
    (restore : Status → Status) : Prop :=
  ∀ (later : Cpu) (held : Memory) (request : Request) (entry : Opcode.Entry),
    later.resetDone = true → later.Turns request → later.registers.sp = low →
    (∀ cell ∈ cells, held.read cell = left.read cell) →
    later.setup.table.Decodes (held.read later.registers.pc) entry m →
    let y := later.perform request held ()
    y.value.fault? = none ∧
      y.cpu.registers = { later.registers with sp := sp, pc := pc } ∧
      y.cpu.status = restore later.status ∧ y.bus = held

theorem leadsBack_of_effect
    {left : Memory} {low : UInt8} {cells : List UInt16} {m : Mnemonic} {sp : UInt8} {pc : UInt16}
    {restore : Status → Status}
    (heffect : ∀ (c : Core) (held : Memory) (operand : Operand), c.registers.sp = low →
      (∀ cell ∈ cells, held.read cell = left.read cell) →
      let r := (m.action.effect c operand).result held
      r.value = ((c.setSp sp).setStatus (restore c.status)).setPc pc ∧ r.bus = held) :
    LeadsBack left low cells m sp pc restore := by
  intro later held request entry hreset hturns hsp hcells hdecodes y
  rcases later.perform_effect held hreset hturns hdecodes with ⟨hfault, hcore, hbus⟩
  let ready := later.setPc (later.registers.pc + entry.mode.instructionLength.toUInt16)
  rcases heffect ready held (later.pastOpcode.operandOn held entry.mode) hsp hcells with
    ⟨hvalue, hleft⟩
  have hback : y.cpu.toCore = ((ready.setSp sp).setStatus (restore later.status)).setPc pc :=
    hcore.trans hvalue
  exact ⟨hfault, congrArg Core.registers hback, congrArg Core.status hback, hbus.trans hleft⟩

theorem leadsBack_pushWord (memory : Memory) (sp : UInt8) (word : UInt16) :
    LeadsBack (memory.pushWord sp word) (sp - 2) [stackCell sp, stackCell (sp - 1)] .rts sp
      (word + 1) id := by
  apply leadsBack_of_effect
  intro c held operand hsp hcells
  have hhigh := hcells (stackCell sp) (by simp)
  have hlow := hcells (stackCell (sp - 1)) (by simp)
  rw [Memory.read_pushWord_high] at hhigh
  rw [Memory.read_pushWord_low] at hlow
  exact c.returnFromCall_memory held hsp hhigh hlow

theorem leadsBack_pushFrame (memory : Memory) (sp : UInt8) (word : UInt16) (status : Status) :
    LeadsBack (memory.pushFrame sp word status.pushed) (sp - 3)
      [stackCell sp, stackCell (sp - 1), stackCell (sp - 2)] .rti sp word
      fun _ => (status.set .breakMark false).set .unused true := by
  apply leadsBack_of_effect
  intro c held operand hsp hcells
  have hhigh := hcells (stackCell sp) (by simp)
  have hlow := hcells (stackCell (sp - 1)) (by simp)
  have hbyte := hcells (stackCell (sp - 2)) (by simp)
  rw [Memory.read_pushFrame_word _ _ _ _ (by grind), Memory.read_pushWord_high] at hhigh
  rw [Memory.read_pushFrame_word _ _ _ _ (by grind), Memory.read_pushWord_low] at hlow
  rw [Memory.read_pushFrame_byte] at hbyte
  rw [← status.pulled_pushed]
  exact c.returnFromInterrupt_memory held hsp hhigh hlow hbyte

theorem documented_brk_length {opcode : UInt8} {entry : Opcode.Entry}
    (hdecodes : Opcode.Table.documented.Decodes opcode entry .brk) :
    entry.mode.instructionLength = 1 := by
  have hall : ∀ e ∈ Opcode.documentedEntries,
      e.mnemonic = some .brk → e.mode.instructionLength = 1 := by
    decide +kernel
  exact hall entry (Opcode.Table.mem_of_lookup_ofEntries hdecodes.lookup_eq) hdecodes.mnemonic_eq

/-- A call and an interrupt leave the stack such that their returns lead back, from wherever the
program has gone in between: the call to the end of its own bytes, with every flag as the program
has left it, and the interrupt to one byte further, with the flags that it has saved. -/
theorem returns_lead_back
    (cpu : Cpu) (memory : Memory) {request : Request} {entry : Opcode.Entry}
    (hreset : cpu.resetDone = true) (hturns : cpu.Turns request) :
    let pc := cpu.registers.pc
    let sp := cpu.registers.sp
    let next := pc + entry.mode.instructionLength.toUInt16
    let x := cpu.perform request memory ()
    (cpu.setup.table.Decodes (memory.read pc) entry .jsr →
      x.value.fault? = none ∧ x.bus = memory.pushWord sp (next - 1) ∧
      LeadsBack x.bus x.cpu.registers.sp [stackCell sp, stackCell (sp - 1)] .rts sp next id) ∧
    (cpu.setup.table.Decodes (memory.read pc) entry .brk →
      x.value.fault? = none ∧
      x.cpu.status = cpu.status.set .interruptDisable true ∧
      x.cpu.registers.pc = memory.readWord irqVector ∧
      x.bus = memory.pushFrame sp (next + 1) cpu.status.pushed ∧
      (cpu.setup.table = .documented → next + 1 = pc + 2) ∧
      LeadsBack x.bus x.cpu.registers.sp [stackCell sp, stackCell (sp - 1), stackCell (sp - 2)]
        .rti sp (next + 1) fun _ => (cpu.status.set .breakMark false).set .unused true) := by
  intro pc sp next x
  let ready := cpu.setPc next
  constructor
  · intro hdecodes
    rcases cpu.perform_effect memory hreset hturns hdecodes with ⟨hfault, hcore, hbus⟩
    rcases ready.call_memory memory (cpu.pastOpcode.operandOn memory entry.mode) with
      ⟨hvalue, hleft⟩
    have hsp : x.cpu.registers.sp = sp - 2 := (congrArg (·.registers.sp) hcore).trans hvalue
    have hx : x.bus = memory.pushWord sp (next - 1) := hbus.trans hleft
    have hback := leadsBack_pushWord memory sp (next - 1)
    have hnext : next - 1 + 1 = next := by grind
    rw [hnext] at hback
    rw [hsp, hx]
    exact ⟨hfault, rfl, hback⟩
  · intro hdecodes
    rcases cpu.perform_effect memory hreset hturns hdecodes with ⟨hfault, hcore, hbus⟩
    rcases ready.interrupt_memory memory with ⟨hvalue, hleft⟩
    have hx : x.bus = memory.pushFrame sp (next + 1) cpu.status.pushed := hbus.trans hleft
    have hleave : x.cpu.toCore = ((ready.setSp (sp - 3)).setFlag .interruptDisable true).setPc
        (memory.readWord irqVector) := hcore.trans hvalue
    have hsp : x.cpu.registers.sp = sp - 3 := congrArg (·.registers.sp) hleave
    rw [hsp, hx]
    refine ⟨hfault, congrArg Core.status hleave, congrArg (·.registers.pc) hleave, rfl, ?_,
      leadsBack_pushFrame memory sp (next + 1) cpu.status⟩
    intro hdocumented
    rw [hdocumented] at hdecodes
    unfold next
    rw [documented_brk_length hdecodes, UInt16.add_assoc]
    rfl

/-- A processor whose next push wraps around the bottom of the stack page. -/
def lowOnStack (entries : List Opcode.Entry) : Cpu :=
  { readyAt 0x400 (.ofEntries entries) with registers := ⟨1, 2, 3, 0x00, 0x400⟩ }

def calling : Memory := (Memory.zeroed.load 0x400 [0x20, 0x00, 0x03]).load 0x300 [0x60]

/-- The vector is zero, and so is the address of the handler. -/
def breaking : Memory := (Memory.zeroed.load 0x400 [0x00]).write 0x00 0x40

theorem way_back_of_lowOnStack :
    let jsr := Opcode.Entry.documented 0x20 .jsr .absolute 3 6
    let rts := Opcode.Entry.documented 0x60 .rts .implied 1 6
    let brk := Opcode.Entry.documented 0x00 .brk .implied 1 7
    let rti := Opcode.Entry.documented 0x40 .rti .implied 1 6
    let jump := (lowOnStack [jsr, rts]).perform .execute calling ()
    let interrupt := (lowOnStack [brk, rti]).perform .execute breaking ()
    (jump.cpu.perform .execute jump.bus ()).cpu.registers.pc = 0x403 ∧
      (interrupt.cpu.perform .execute interrupt.bus ()).cpu.registers.pc = 0x402 := by
  intro jsr rts brk rti jump interrupt
  let caller := lowOnStack [jsr, rts]
  let breaker := lowOnStack [brk, rti]
  have hjump : jump.cpu.resetDone = true := by
    rw [show jump = _ from caller.perform_execute calling ()]
    exact (caller.execute_leaves calling rfl).2
  have hinterrupt : interrupt.cpu.resetDone = true := by
    rw [show interrupt = _ from breaker.perform_execute breaking ()]
    exact (breaker.execute_leaves breaking rfl).2
  have hjsr : caller.setup.table.Decodes (calling.read 0x400) jsr .jsr := ⟨by decide +kernel, rfl⟩
  have hbrk : breaker.setup.table.Decodes (breaking.read 0x400) brk .brk :=
    ⟨by decide +kernel, rfl⟩
  rcases (caller.returns_lead_back calling rfl (.inl rfl)).1 hjsr with ⟨-, -, hcall⟩
  rcases (breaker.returns_lead_back breaking rfl (.inl rfl)).2 hbrk with
    ⟨-, -, hpc, hbus, -, hbreak⟩
  have hrts : jump.cpu.setup.table.Decodes (jump.bus.read jump.cpu.registers.pc) rts .rts :=
    ⟨by decide +kernel, rfl⟩
  have hvector : breaking.readWord irqVector = 0 := by
    have hword : Word.ofBytes 0 0 = 0 := rfl
    simp [breaking, Memory.readWord, irqVector, Memory.read_write_of_ne, Memory.read_zeroed, hword]
  have hrti : interrupt.cpu.setup.table.Decodes (interrupt.bus.read interrupt.cpu.registers.pc) rti
      .rti := by
    rw [hpc, hbus, hvector]
    exact ⟨by decide +kernel, rfl⟩
  have hcalled := hcall jump.cpu jump.bus .execute rts hjump (.inl rfl) (by with_reducible rfl)
    (fun _ _ => by with_reducible rfl) hrts
  have hbroken := hbreak interrupt.cpu interrupt.bus .execute rti hinterrupt (.inl rfl)
    (by with_reducible rfl) (fun _ _ => by with_reducible rfl) hrti
  have hfirst : caller.registers.pc + jsr.mode.instructionLength.toUInt16 = 0x403 := by decide
  have hsecond : breaker.registers.pc + brk.mode.instructionLength.toUInt16 + 1 = 0x402 := by decide
  exact ⟨(congrArg Registers.pc hcalled.2.1).trans hfirst,
    (congrArg Registers.pc hbroken.2.1).trans hsecond⟩

end Cpu

end Nmos6502
