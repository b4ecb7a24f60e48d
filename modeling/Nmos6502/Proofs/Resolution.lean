import Nmos6502.Proofs.Effect
import Nmos6502.Proofs.Numerals

/-!
# Where operands are

For each mode, in whole numbers, where an operand is, which index is added to which address, and
which cells are looked at on the way.  On plain memory a resolution finds the operand there, reads
these cells in turn and nothing else, and moves the program counter past the operand bytes.
-/

namespace Nmos6502

/-! ## The modes in whole numbers -/

namespace Memory

variable (memory : Memory)

/-- The byte in the cell of this number.  Numbers beyond the address space wrap around. -/
def cell (n : Nat) : Nat := (memory.read (.ofNat n)).toNat

/-- The number with its low byte in one cell and its high byte in another. -/
def pair (low high : Nat) : Nat := memory.cell low + 256 * memory.cell high

/-- The pointer in page zero, which wraps around within that page. -/
def zeroPagePair (pointer : Nat) : Nat := memory.pair pointer ((pointer + 1) % 256)

def readCalls (cells : List Nat) : List BusCall :=
  cells.map fun n => .read (.ofNat n) (memory.read (.ofNat n))

variable (r : Registers)

def operandByte : Nat := memory.cell r.pc.toNat

def operandWord : Nat := memory.pair r.pc.toNat (r.pc.toNat + 1)

end Memory

/-- The cell after `pointer`, without a carry into the page. -/
def samePageSuccessor (pointer : Nat) : Nat := pointer / 256 * 256 + (pointer + 1) % 256

namespace AddressingMode

section Places

variable (memory : Memory) (r : Registers)

open Memory

def location : AddressingMode → Operand
  | immediate => .address r.pc
  | zeroPage => .address (.ofNat (memory.operandByte r))
  | zeroPageX => .address (.ofNat ((memory.operandByte r + r.x.toNat) % 256))
  | zeroPageY => .address (.ofNat ((memory.operandByte r + r.y.toNat) % 256))
  | absolute => .address (.ofNat (memory.operandWord r))
  | absoluteX => .address (.ofNat ((memory.operandWord r + r.x.toNat) % 65536))
  | absoluteY => .address (.ofNat ((memory.operandWord r + r.y.toNat) % 65536))
  | indirect =>
    let pointer := memory.operandWord r
    .address (.ofNat (memory.pair pointer (samePageSuccessor pointer)))
  | indexedIndirect =>
    .address (.ofNat (memory.zeroPagePair ((memory.operandByte r + r.x.toNat) % 256)))
  | indirectIndexed =>
    .address (.ofNat ((memory.zeroPagePair (memory.operandByte r) + r.y.toNat) % 65536))
  | relative => .relative (.ofNat (memory.operandByte r))
  | implied => .none
  | accumulator => .accumulator

/-- The address before indexing and the index, where indexing may leave the page. -/
def indexing : AddressingMode → Option (Nat × Nat)
  | absoluteX => some (memory.operandWord r, r.x.toNat)
  | absoluteY => some (memory.operandWord r, r.y.toNat)
  | indirectIndexed => some (memory.zeroPagePair (memory.operandByte r), r.y.toNat)
  | _ => none

/-- The operand bytes that are read.  An immediate operand is left to its instruction. -/
def operandCells : AddressingMode → List Nat
  | immediate | implied | accumulator => []
  | absolute | absoluteX | absoluteY | indirect => [r.pc.toNat, r.pc.toNat + 1]
  | _ => [r.pc.toNat]

def pointerCells : AddressingMode → List Nat
  | indirect => [memory.operandWord r, samePageSuccessor (memory.operandWord r)]
  | indexedIndirect =>
    let pointer := (memory.operandByte r + r.x.toNat) % 256
    [pointer, (pointer + 1) % 256]
  | indirectIndexed => [memory.operandByte r, (memory.operandByte r + 1) % 256]
  | _ => []

end Places

end AddressingMode

/-! ## Numbers from bytes and words -/

theorem Byte.toNat_add_mod (a b : UInt8) : (a.toNat + b.toNat) % 256 = (a + b).toNat :=
  (UInt8.toNat_add a b).symm

theorem Byte.toNat_succ_mod (b : UInt8) : (b.toNat + 1) % 256 = (b + 1).toNat :=
  toNat_add_mod b 1

theorem Word.ofNat_toNat_byte (b : UInt8) : UInt16.ofNat b.toNat = b.toUInt16 := by
  rw [← UInt8.toNat_toUInt16, UInt16.ofNat_toNat]

theorem Word.ofNat_toNat_succ (w : UInt16) : UInt16.ofNat (w.toNat + 1) = w + 1 := by
  rw [UInt16.ofNat_add, UInt16.ofNat_toNat]
  rfl

theorem Word.toNat_add_mod (w : UInt16) (b : UInt8) :
    (w.toNat + b.toNat) % 65536 = (w + b.toUInt16).toNat := by
  rw [UInt16.toNat_add, UInt8.toNat_toUInt16]

theorem samePageSuccessor_toNat (pointer : UInt16) :
    samePageSuccessor pointer.toNat = (nextOnPage pointer).toNat :=
  (toNat_nextOnPage pointer).symm

namespace Memory

variable (memory : Memory)

theorem pair_eq (low high : Nat) :
    memory.pair low high =
      (Word.ofBytes (memory.read (.ofNat low)) (memory.read (.ofNat high))).toNat := by
  rw [Word.toNat_ofBytes]
  rfl

theorem operandByte_eq (r : Registers) : memory.operandByte r = (memory.read r.pc).toNat := by
  rw [operandByte, cell, UInt16.ofNat_toNat]

theorem operandWord_eq (r : Registers) :
    memory.operandWord r = (Word.ofBytes (memory.read r.pc) (memory.read (r.pc + 1))).toNat := by
  rw [operandWord, pair_eq, UInt16.ofNat_toNat, Word.ofNat_toNat_succ]

theorem zeroPagePair_eq (pointer : UInt8) :
    memory.zeroPagePair pointer.toNat =
      (Word.ofBytes (memory.read pointer.toUInt16)
        (memory.read (pointer + 1).toUInt16)).toNat := by
  rw [zeroPagePair, pair_eq, Byte.toNat_succ_mod, Word.ofNat_toNat_byte, Word.ofNat_toNat_byte]

end Memory

/-! ## Resolving on plain memory -/

namespace Core

variable (c : Core) (memory : Memory)

open Memory

theorem resolve_location (mode : AddressingMode) :
    ((c.resolve mode).result memory).value.1.operand = mode.location memory c.registers := by
  cases mode <;>
    simp only [AddressingMode.location, operandByte_eq, operandWord_eq, Byte.toNat_add_mod,
      zeroPagePair_eq, Word.toNat_add_mod, samePageSuccessor_toNat, pair_eq,
      Word.ofNat_toNat_byte, UInt16.ofNat_toNat, UInt8.ofNat_toNat]
  all_goals rfl

theorem indexed_pageCrossed_iff (base : UInt16) (index : UInt8) :
    (EffectiveAddress.indexed base index).pageCrossed = true ↔
      ∃ b i, some (base.toNat, index.toNat) = some (b, i) ∧ 256 ≤ b % 256 + i := by
  have hcarry := crossesPage_add_iff base index
  constructor
  · intro hcrossed
    exact ⟨base.toNat, index.toNat, rfl, hcarry.mp hcrossed⟩
  · rintro ⟨_, _, ⟨⟩, hsum⟩
    exact hcarry.mpr hsum

theorem resolve_pageCrossed_iff (mode : AddressingMode) :
    ((c.resolve mode).result memory).value.1.pageCrossed = true ↔
      ∃ base index, mode.indexing memory c.registers = some (base, index) ∧
        256 ≤ base % 256 + index := by
  cases mode with
  | absoluteX =>
      rw [AddressingMode.indexing, operandWord_eq]
      exact indexed_pageCrossed_iff _ _
  | absoluteY =>
      rw [AddressingMode.indexing, operandWord_eq]
      exact indexed_pageCrossed_iff _ _
  | indirectIndexed =>
      rw [AddressingMode.indexing, operandByte_eq, zeroPagePair_eq]
      exact indexed_pageCrossed_iff _ _
  | _ =>
      change false = true ↔ _
      simp [AddressingMode.indexing]

theorem resolve_calls (mode : AddressingMode) :
    Traffic.calls (c.resolve mode).embed memory =
      memory.readCalls
        (mode.operandCells c.registers ++ mode.pointerCells memory c.registers) := by
  cases mode <;>
    simp only [AddressingMode.operandCells, AddressingMode.pointerCells, readCalls,
      operandByte_eq, operandWord_eq, Byte.toNat_add_mod, Byte.toNat_succ_mod,
      samePageSuccessor_toNat, List.map_append, List.map_cons, Word.ofNat_toNat_byte,
      Word.ofNat_toNat_succ, UInt16.ofNat_toNat]
  all_goals rfl

end Core

/-! ## Taking an operand from outside -/

namespace Cpu

section Interventions

variable {α β : Type} [Bus β] (cpu : Cpu) (work : Core → Work (α × Core)) (bus : β)

theorem drive_intervene :
    cpu.drive (Engine.intervene work) bus () =
      let r := (work cpu.toCore).result bus
      ⟨r.value.1, cpu.setCore r.value.2, r.bus, ()⟩ := by
  have hrun := (work cpu.toCore).run_embed_result cpu.totalCycles bus ()
  simp only [drive, Engine.intervene, Traffic.run_bind, Traffic.run_embed_clock, hrun]
  rfl

theorem intervene_calls :
    (cpu.drive (Engine.intervene work) (Probe.fresh bus) ()).bus.calls =
      Traffic.calls (work cpu.toCore).embed bus := by
  simp only [drive, Engine.intervene, Traffic.run_bind, Probe.fresh, Traffic.run_probe,
    List.nil_append]
  exact List.append_nil _

end Interventions

/-- Resolving a mode on plain memory finds the operand where the mode has it, and says that indexing
has left the page exactly if the low bytes carry.  It reads the operand bytes and then the pointer,
writes nothing, and leaves everything as it was but the program counter, which moves past the
operand bytes. -/
theorem operands_are_found (cpu : Cpu) (memory : Memory) (mode : AddressingMode) :
    let r := cpu.resolve mode memory
    let next := (cpu.registers.pc.toNat + mode.operandBytes.toNat) % 65536
    r.value.operand = mode.location memory cpu.registers ∧
    (r.value.pageCrossed = true ↔
      ∃ base index, mode.indexing memory cpu.registers = some (base, index) ∧
        256 ≤ base % 256 + index) ∧
    r.cpu = cpu.setCore (cpu.setPc (.ofNat next)) ∧ r.bus = memory ∧
    (cpu.resolve mode (Probe.fresh memory)).bus.calls =
      memory.readCalls
        (mode.operandCells cpu.registers ++ mode.pointerCells memory cpu.registers) := by
  intro r next
  have hr : r = _ := cpu.drive_intervene (fun c => c.resolve mode) memory
  have hcore : ((cpu.toCore.resolve mode).result memory).value.2 = cpu.setPc (.ofNat next) := by
    unfold next
    rw [((cpu.resolve_ensures mode).result_value (W := fun _ _ => False) memory).2,
      Word.toNat_add_mod, UInt16.ofNat_toNat]
  rw [hr]
  exact ⟨cpu.resolve_location memory mode, cpu.resolve_pageCrossed_iff memory mode,
    congrArg cpu.setCore hcore, (cpu.resolve_ensures mode).result_memory memory,
    (cpu.intervene_calls (fun c => c.resolve mode) memory).trans (cpu.resolve_calls memory mode)⟩

end Cpu

end Nmos6502
