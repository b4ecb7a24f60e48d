import Nmos6502.Proofs.Arithmetic
import Nmos6502.Proofs.Chains
import Nmos6502.Proofs.Linkage
import Nmos6502.Proofs.Shifting

/-!
# Shifts and rotations in memory

A number of any length, whose bytes are in cells that need not adjoin, is doubled or halved by a
shift of its first cell and a rotation of each of the others.  No other cell is written, as long as
the program and the number keep apart.  A rotation and the opposite one restore the byte and the
carry, in memory or in the accumulator, however either of them finds it.
-/

namespace Nmos6502

namespace Operand

/-- The memory once `value` has been put in the operand's place. -/
def stored (memory : Memory) (value : UInt8) : Operand → Memory
  | address cell => memory.write cell value
  | _ => memory

theorem stored_stored_self (c : Core) (memory : Memory) (value : UInt8) (place : Operand) :
    place.stored (place.stored memory value) (c.valueAt memory place) = memory := by
  cases place with
  | address cell =>
      apply Memory.ext_read
      intro other
      by_cases hother : other = cell
      · rw [hother]
        exact Memory.read_write_self _ _ _
      · exact (Memory.read_write_of_ne _ _ hother).trans (Memory.read_write_of_ne _ _ hother)
  | _ => rfl

end Operand

namespace Core

variable (c : Core)

/-- What a shift leaves in the core. -/
def shifted (place : Operand) (r : UInt8 × Bool) : Core :=
  let d := if place = .accumulator then c.setRegister .a r.1 else c
  (d.setFlag .carry r.2).setZeroNegative r.1

theorem shift_memory (kind : Shift) (place : Operand) (memory : Memory) :
    let r := kind.apply (c.valueAt memory place) (c.status.get .carry)
    let s := ((Action.shift kind).effect c place).result memory
    s.value = c.shifted place r ∧ s.bus = place.stored memory r.1 := by
  cases place <;> exact ⟨rfl, rfl⟩

theorem shifted_carry (place : Operand) (r : UInt8 × Bool) :
    (c.shifted place r).status.get .carry = r.2 := by
  rw [shifted, setZeroNegative_get _ _ (by decide) (by decide)]
  simp

theorem shifted_tellsOf (place : Operand) (r : UInt8 × Bool) : (c.shifted place r).TellsOf r.1 :=
  setZeroNegative_tellsOf _ r.1

theorem valueAt_shifted
    {place : Operand} (hwritable : place = .accumulator ∨ ∃ cell, place = .address cell)
    (memory : Memory) (r : UInt8 × Bool) :
    (c.shifted place r).valueAt (place.stored memory r.1) place = r.1 := by
  rcases hwritable with rfl | ⟨cell, rfl⟩
  · rfl
  · exact Memory.read_write_self _ _ _

theorem shifted_registers (place : Operand) (r : UInt8 × Bool) :
    (c.shifted place r).registers =
      if place = .accumulator then { c.registers with a := r.1 } else c.registers := by
  unfold shifted
  split <;> rfl

theorem shifted_agreesOff (place : Operand) (r : UInt8 × Bool) :
    c.status.AgreesOff [.negative, .zero, .carry] (c.shifted place r).status := by
  unfold shifted
  split
  · exact setCarryZeroNegative_agreesOff (c.setRegister .a r.1) r.2 r.1
  · exact setCarryZeroNegative_agreesOff c r.2 r.1

end Core

namespace Turn

/-! ## Programs -/

variable (turn : Turn)

def shiftMnemonic : Turn → Mnemonic
  | left => .asl
  | right => .lsr

def shiftOpcode : Turn → UInt8
  | left => 0x0E
  | right => 0x4E

def rotationMnemonic : Turn → Mnemonic
  | left => .rol
  | right => .ror

theorem action_rotationMnemonic : turn.rotationMnemonic.action = .shift turn.rotation := by
  cases turn <;> rfl

def rotationOpcode : Turn → UInt8
  | left => 0x2E
  | right => 0x6E

/-- An instruction in absolute mode. -/
def code (opcode : UInt8) (cell : UInt16) : List UInt8 := [opcode, Word.low cell, Word.high cell]

def rotations (cells : List UInt16) : List UInt8 := cells.flatMap (code turn.rotationOpcode)

/-- Shifts the first cell and rotates the others. -/
def program : List UInt16 → List UInt8
  | [] => []
  | cell :: rest => code turn.shiftOpcode cell ++ turn.rotations rest

theorem length_rotations (cells : List UInt16) :
    (turn.rotations cells).length = 3 * cells.length := by
  simp [rotations, List.length_flatMap, code, Nat.mul_comm]

/-! ## What they come to -/

/-- The core and the memory after the cell has taken in this carry. -/
def stepped (carry : Bool) (s : Core × Memory) (cell : UInt16) : Core × Memory :=
  let r := turn.rotation.apply (s.2.read cell) carry
  ((s.1.setPc (s.1.registers.pc + 3)).shifted (.address cell) r, s.2.write cell r.1)

/-- Each cell takes in the carry that has left the one before. -/
def chained : Bool → List UInt16 → Core × Memory → Core × Memory
  | _, [], s => s
  | carry, cell :: rest, s =>
    let u := turn.stepped carry s cell
    chained (u.1.status.get .carry) rest u

theorem stepped_carry (carry : Bool) (s : Core × Memory) (cell : UInt16) :
    (turn.stepped carry s cell).1.status.get .carry =
      (turn.rotation.apply (s.2.read cell) carry).2 :=
  Core.shifted_carry ..

/-- The cells hold the rotated bytes, no other cell has been written, and the carry is what has left
the last of them. -/
structure Rotated (carry : Bool) (cells : List UInt16) (s t : Core × Memory) : Prop where
  bytes : cells.map t.2.read = turn.rotated carry (cells.map s.2.read)
  elsewhere : ∀ address ∉ cells, t.2.read address = s.2.read address
  carryOut : t.1.status.get .carry = turn.carryOut carry (cells.map s.2.read)
  registers : t.1.registers =
    { s.1.registers with pc := s.1.registers.pc + .ofNat (3 * cells.length) }
  flags : s.1.status.AgreesOff [.negative, .zero, .carry] t.1.status
  told : ∀ last ∈ cells.getLast?, t.1.TellsOf (t.2.read last)
  idle : cells = [] → t = s

theorem Rotated.refl (s : Core × Memory) : turn.Rotated (s.1.status.get .carry) [] s s where
  bytes := rfl
  elsewhere _ _ := rfl
  carryOut := rfl
  registers := by simp
  flags := Status.AgreesOff.refl _ _
  told _ hlast := by simp at hlast
  idle _ := rfl

variable {turn} in
theorem Rotated.cons
    {carry : Bool} {s t : Core × Memory} {cell : UInt16} {rest : List UInt16} (hnew : cell ∉ rest)
    (hrest : let u := turn.stepped carry s cell
      turn.Rotated (u.1.status.get .carry) rest u t) :
    turn.Rotated carry (cell :: rest) s t := by
  let r := turn.rotation.apply (s.2.read cell) carry
  let u := turn.stepped carry s cell
  have hrest : turn.Rotated r.2 rest u t := turn.stepped_carry carry s cell ▸ hrest
  have hkept : ∀ address, address ≠ cell → u.2.read address = s.2.read address :=
    fun _ hne => Memory.read_write_of_ne _ _ hne
  -- The cells differ, so that this one is written now only, and the others have not been so far.
  have hcell : t.2.read cell = r.1 :=
    (hrest.elsewhere cell hnew).trans (Memory.read_write_self _ _ _)
  have hbytes : rest.map u.2.read = rest.map s.2.read :=
    List.map_congr_left fun address hmem => hkept address fun heq => hnew (heq ▸ hmem)
  have hfirst : s.1.status.AgreesOff [.negative, .zero, .carry] u.1.status :=
    (s.1.setPc (s.1.registers.pc + 3)).shifted_agreesOff (.address cell) r
  have hpc : s.1.registers.pc + 3 + .ofNat (3 * rest.length) =
      s.1.registers.pc + .ofNat (3 * (rest.length + 1)) := by
    rw [Nat.mul_succ, Nat.add_comm, UInt16.ofNat_add, ← UInt16.add_assoc]
    rfl
  exact
    { bytes := by
        rw [List.map_cons, List.map_cons, hcell, hrest.bytes, hbytes]
        rfl
      elsewhere := by
        intro address hout
        rw [List.mem_cons, not_or] at hout
        exact (hrest.elsewhere address hout.2).trans (hkept address hout.1)
      carryOut := by
        rw [hrest.carryOut, hbytes]
        rfl
      registers := by
        rw [hrest.registers, List.length_cons, ← hpc]
        rfl
      flags := fun f hf => (hrest.flags f hf).trans (hfirst f hf)
      told := by
        intro last hlast
        cases rest with
        | nil =>
            obtain rfl : cell = last := by simpa using hlast
            rw [hcell, hrest.idle rfl]
            exact Core.shifted_tellsOf ..
        | cons next more =>
            rw [List.getLast?_cons_cons] at hlast
            exact hrest.told last hlast
      idle := by simp }

theorem chained_carry_rotated (cells : List UInt16) (hnodup : cells.Nodup) (s : Core × Memory) :
    let carry := s.1.status.get .carry
    turn.Rotated carry cells s (turn.chained carry cells s) := by
  induction cells generalizing s with
  | nil => exact .refl turn s
  | cons cell rest ih =>
      rcases List.nodup_cons.mp hnodup with ⟨hnew, hrest⟩
      exact .cons hnew (ih hrest _)

/-- The first cell may take in another carry than the core's. -/
theorem chained_rotated
    (carry : Bool) {cells : List UInt16} (hne : cells ≠ []) (hnodup : cells.Nodup)
    (s : Core × Memory) :
    turn.Rotated carry cells s (turn.chained carry cells s) := by
  cases cells with
  | nil => contradiction
  | cons cell rest =>
      rcases List.nodup_cons.mp hnodup with ⟨hnew, hrest⟩
      exact .cons hnew (turn.chained_carry_rotated rest hrest _)

/-! ## The programs as they run -/

section Runs

open Nmos6502.Core Opcode

variable {turn : Turn} {c : Core} {memory : Memory}

theorem leads_code
    {opcode : UInt8} {entry : Entry} {m : Mnemonic} {kind : Shift} {carry : Bool} {cell : UInt16}
    (hdecodes : Table.documented.Decodes opcode entry m) (hmode : entry.mode = .absolute)
    (haction : m.action = .shift kind)
    (hkind : ∀ b, kind.apply b (c.status.get .carry) = turn.rotation.apply b carry)
    (hcode : memory.Holds c.registers.pc (code opcode cell)) :
    let t := turn.stepped carry (c, memory) cell
    Leads .documented 1 c memory t.1 t.2 := by
  intro t
  rcases hcode with ⟨hopcode, hlow, hhigh, -⟩
  have hplace : c.pastOpcode.operandOn memory .absolute = .address (Word.ofBytes
    (memory.read (c.registers.pc + 1)) (memory.read (c.registers.pc + 1 + 1))) := rfl
  rw [hlow, hhigh, Word.ofBytes_low_high] at hplace
  have hlength : AddressingMode.absolute.instructionLength.toUInt16 = 3 := rfl
  have hdecoded : Table.documented.Decodes (memory.read c.registers.pc) entry m := by
    rw [hopcode]
    exact hdecodes
  have hleads := leads_of_decodes hdecoded
  simp only [haction, hmode, hplace, hlength] at hleads
  rcases (c.setPc (c.registers.pc + 3)).shift_memory kind (.address cell) memory with
    ⟨hvalue, hbus⟩
  have hsame : kind.apply ((c.setPc (c.registers.pc + 3)).valueAt memory (.address cell))
      (c.status.get .carry) = turn.rotation.apply (memory.read cell) carry := hkind _
  rw [Core.setPc_status, hsame] at hvalue hbus
  rw [hvalue, hbus] at hleads
  exact hleads

variable (turn)

theorem away_from_next
    {base address : UInt16} {n : Nat} (haway : ∀ i < 3 * (n + 1), address ≠ base + .ofNat i) :
    ∀ i < 3 * n, address ≠ base + 3 + .ofNat i := by
  intro i hi
  have hnext := haway (3 + i) (by omega)
  rwa [UInt16.ofNat_add, ← UInt16.add_assoc] at hnext

/-- The rest of the program is still there when the first cell has been written. -/
theorem stepped_holds
    {opcode : UInt8} {cell : UInt16} {rest : List UInt16} (carry : Bool)
    (hcode : memory.Holds c.registers.pc (code opcode cell ++ turn.rotations rest))
    (haway : ∀ i < 3 * (rest.length + 1), cell ≠ c.registers.pc + .ofNat i) :
    let u := turn.stepped carry (c, memory) cell
    u.2.Holds u.1.registers.pc (turn.rotations rest) := by
  have hrest := (Memory.holds_append.mp hcode).2
  apply hrest.write
  rw [length_rotations]
  exact away_from_next haway

theorem leads_rotations
    {cells : List UInt16} (hcode : memory.Holds c.registers.pc (turn.rotations cells))
    (hapart : ∀ cell ∈ cells, ∀ i < 3 * cells.length, cell ≠ c.registers.pc + .ofNat i) :
    let t := turn.chained (c.status.get .carry) cells (c, memory)
    Leads .documented cells.length c memory t.1 t.2 := by
  induction cells generalizing c memory with
  | nil => exact .zero
  | cons cell rest ih =>
      have hdecodes : Table.documented.Decodes turn.rotationOpcode
          (.documented turn.rotationOpcode turn.rotationMnemonic .absolute 3 6)
          turn.rotationMnemonic := by
        cases turn <;> exact Chain.documented_decodes rfl rfl
      have hfirst := leads_code hdecodes rfl turn.action_rotationMnemonic (fun _ => rfl)
        (Memory.holds_append.mp hcode).1
      have hheld := turn.stepped_holds (c.status.get .carry) hcode (hapart cell List.mem_cons_self)
      have hlater := ih hheld fun other hmem =>
        away_from_next (hapart other (List.mem_cons_of_mem cell hmem))
      rw [List.length_cons, Nat.add_comm]
      exact hfirst.trans hlater

theorem leads_program
    {cells : List UInt16} (hcode : memory.Holds c.registers.pc (turn.program cells))
    (hapart : ∀ cell ∈ cells, ∀ i < 3 * cells.length, cell ≠ c.registers.pc + .ofNat i) :
    let t := turn.chained false cells (c, memory)
    Leads .documented cells.length c memory t.1 t.2 := by
  cases cells with
  | nil => exact .zero
  | cons cell rest =>
      have hdecodes : Table.documented.Decodes turn.shiftOpcode
          (.documented turn.shiftOpcode turn.shiftMnemonic .absolute 3 6) turn.shiftMnemonic := by
        cases turn <;> exact Chain.documented_decodes rfl rfl
      have haction : turn.shiftMnemonic.action = .shift turn.shift := by
        cases turn <;> rfl
      have hfirst := leads_code hdecodes rfl haction (fun b => turn.shift_apply b _)
        (Memory.holds_append.mp hcode).1
      have hheld := turn.stepped_holds false hcode (hapart cell List.mem_cons_self)
      have hlater := turn.leads_rotations hheld fun other hmem =>
        away_from_next (hapart other (List.mem_cons_of_mem cell hmem))
      rw [List.length_cons, Nat.add_comm]
      exact hfirst.trans hlater

end Runs

end Turn

namespace Cpu

/-! ## Numbers -/

/-- The program is where the processor fetches next, and apart from the cells of the number, which
are given from the least significant byte on. -/
structure HoldsShift (cpu : Cpu) (turn : Turn) (memory : Memory) (data : List UInt16) : Prop where
  ready : cpu.Ready .documented
  code : memory.Holds cpu.registers.pc (turn.program (turn.order data))
  nonempty : data ≠ []
  distinct : data.Nodup
  apart : ∀ cell ∈ data, ∀ i < 3 * data.length, cell ≠ cpu.registers.pc + .ofNat i

theorem after_shift
    {cpu : Cpu} {turn : Turn} {memory : Memory} {data : List UInt16}
    (h : cpu.HoldsShift turn memory data) :
    let r := cpu.after data.length memory
    turn.Rotated false (turn.order data) (cpu.toCore, memory) (r.cpu.toCore, r.bus) ∧
      ∀ reply ∈ r.value, reply.fault? = none := by
  intro r
  have hperm : (turn.order data).Perm data := turn.order_perm
  have hapart : ∀ cell ∈ turn.order data, ∀ i < 3 * (turn.order data).length,
      cell ≠ cpu.registers.pc + .ofNat i := by
    intro cell hmem
    rw [hperm.length_eq]
    exact h.apart cell (hperm.mem_iff.mp hmem)
  have hne : turn.order data ≠ [] := fun hnil =>
    h.nonempty (List.length_eq_zero_iff.mp (hperm.length_eq ▸ congrArg List.length hnil))
  have hrun := turn.leads_program h.code hapart cpu h.ready rfl
  rw [hperm.length_eq] at hrun
  rcases hrun with ⟨hcore, hbus, haccepted⟩
  have hend : (r.cpu.toCore, r.bus) = turn.chained false (turn.order data) (cpu.toCore, memory) :=
    Prod.ext hcore hbus
  rw [hend]
  exact ⟨turn.chained_rotated false hne (hperm.nodup_iff.mpr h.distinct) _, haccepted⟩

theorem after_shift_number
    {cpu : Cpu} {turn : Turn} {memory : Memory} {data : List UInt16}
    (h : cpu.HoldsShift turn memory data) :
    let r := cpu.after data.length memory
    turn.Shifts data.length (Bytes.number (data.map memory.read))
      (Bytes.number (data.map r.bus.read)) (r.cpu.status.get .carry) := by
  intro r
  rcases after_shift h with ⟨hrotated, -⟩
  have hbytes := hrotated.bytes
  have hcarry := hrotated.carryOut
  rw [← turn.order_map, ← turn.order_map] at hbytes
  rw [← turn.order_map] at hcarry
  have hleft : data.map r.bus.read =
      turn.order (turn.rotated false (turn.order (data.map memory.read))) := by
    rw [← hbytes, turn.order_order]
  have hne : data.map memory.read ≠ [] := mt List.map_eq_nil_iff.mp h.nonempty
  have hshifts := turn.shifts_number hne
  rw [List.length_map] at hshifts
  rw [hleft, hcarry]
  exact hshifts

/-! ## There and back -/

theorem locate_memory (cpu : Cpu) (memory : Memory) (mode : AddressingMode) :
    (cpu.locate memory mode).bus = memory := by
  rw [(cpu.locate_eq memory mode).2, clocked, Memory.tick_iterate]
  exact (cpu.pastOpcode.resolve_ensures mode).result_memory memory

theorem perform_rotation
    {cpu : Cpu} {memory : Memory} {request : Request} {entry : Opcode.Entry} {turn : Turn}
    {place : Operand} (h : cpu.Performs memory request entry turn.rotationMnemonic)
    (hplace : (cpu.locate memory entry.mode).value.operand = place) :
    let r := turn.rotation.apply (cpu.valueAt memory place) (cpu.status.get .carry)
    let x := cpu.perform request memory ()
    x.value.fault? = none ∧ x.cpu.toCore = (cpu.ready entry.mode).shifted place r ∧
      x.bus = place.stored memory r.1 := by
  intro r x
  rcases cpu.perform_result memory () h with ⟨hfault, hcore, n, hbus⟩
  rcases (cpu.ready entry.mode).shift_memory turn.rotation place memory with ⟨hvalue, hstored⟩
  rw [cpu.locate_memory, hplace, turn.action_rotationMnemonic] at hcore hbus
  rw [Memory.tick_iterate] at hbus
  have hv : (cpu.ready entry.mode).valueAt memory place = cpu.valueAt memory place :=
    cpu.toCore.valueAt_setPc memory _ place
  rw [hv] at hvalue hstored
  exact ⟨hfault, hcore.trans hvalue, hbus.trans hstored⟩

/-- The opposite rotations find the same place, one after the other. -/
structure TurnsBack (cpu : Cpu) (turn : Turn) (memory : Memory) (place : Operand)
    (request request' : Request) (entry entry' : Opcode.Entry) : Prop where
  writable : place = .accumulator ∨ ∃ cell, place = .address cell
  there : cpu.Performs memory request entry turn.rotationMnemonic
  found : (cpu.locate memory entry.mode).value.operand = place
  back :
    let x := cpu.perform request memory ()
    x.cpu.Performs x.bus request' entry' turn.back.rotationMnemonic
  foundAgain :
    let x := cpu.perform request memory ()
    (x.cpu.locate x.bus entry'.mode).value.operand = place

section Returns

variable {cpu : Cpu} {turn : Turn} {memory : Memory} {place : Operand} {request request' : Request}
  {entry entry' : Opcode.Entry} (h : cpu.TurnsBack turn memory place request request' entry entry')

include h

theorem TurnsBack.performs :
    let v := cpu.valueAt memory place
    let carry := cpu.status.get .carry
    let r := turn.rotation.apply v carry
    let x := cpu.perform request memory ()
    let y := x.cpu.perform request' x.bus ()
    (x.value.fault? = none ∧ x.cpu.toCore = (cpu.ready entry.mode).shifted place r ∧
        x.bus = place.stored memory r.1) ∧
      y.value.fault? = none ∧ y.cpu.toCore = (x.cpu.ready entry'.mode).shifted place (v, carry) ∧
        y.bus = memory := by
  intro v carry r x y
  rcases perform_rotation h.there h.found with ⟨hfault', hcore', hbus'⟩
  rcases perform_rotation h.back h.foundAgain with ⟨hfault, hcore, hbus⟩
  have hvalue : x.cpu.valueAt x.bus place = r.1 := by
    rw [show x.cpu.toCore = _ from hcore', show x.bus = _ from hbus']
    exact Core.valueAt_shifted _ h.writable memory r
  have hcarry : x.cpu.status.get .carry = r.2 := by
    rw [show x.cpu.toCore = _ from hcore', Core.shifted_carry]
  -- The second rotation takes in just what the first has left.
  have hback : turn.back.rotation.apply r.1 r.2 = (v, carry) := turn.rotation_back v carry
  rw [hvalue, hcarry, hback] at hcore hbus
  refine ⟨⟨hfault', hcore', hbus'⟩, hfault, hcore, hbus.trans ?_⟩
  rw [show x.bus = _ from hbus']
  exact place.stored_stored_self cpu.toCore memory r.1

theorem TurnsBack.restores :
    let y := (cpu.perform request memory ()).cpu.perform request'
      (cpu.perform request memory ()).bus ()
    y.cpu.valueAt y.bus place = cpu.valueAt memory place ∧
      y.cpu.registers = { cpu.registers with pc := y.cpu.registers.pc } ∧
      y.cpu.status.get .carry = cpu.status.get .carry ∧
      cpu.status.AgreesOff [.negative, .zero] y.cpu.status := by
  intro y
  let x := cpu.perform request memory ()
  rcases h.performs with ⟨⟨-, hfirst, -⟩, -, hsecond, hbus⟩
  have hcore : y.cpu.toCore = _ := hsecond
  have hcarry : y.cpu.status.get .carry = cpu.status.get .carry := by
    rw [hcore, Core.shifted_carry]
  refine ⟨?_, ?_, hcarry, ?_⟩
  · rw [hcore, show y.bus = memory from hbus]
    rcases h.writable with rfl | ⟨cell, rfl⟩ <;> rfl
  · have hthere := congrArg Core.registers hfirst
    have hback := congrArg Core.registers hcore
    rw [Core.shifted_registers] at hthere hback
    simp only [ready, Core.setPc] at hthere hback
    rw [hback, hthere]
    rcases h.writable with rfl | ⟨cell, rfl⟩ <;> rfl
  · have hthere : cpu.status.AgreesOff [.negative, .zero, .carry] x.cpu.status := by
      rw [show x.cpu.toCore = _ from hfirst]
      exact Core.shifted_agreesOff (cpu.ready entry.mode) place _
    have hback : x.cpu.status.AgreesOff [.negative, .zero, .carry] y.cpu.status := by
      rw [hcore]
      exact Core.shifted_agreesOff (x.cpu.ready entry'.mode) place _
    intro f hf
    by_cases hflag : f = .carry
    · rw [hflag, hcarry]
    · have hout : f ∉ [Flag.negative, .zero, .carry] := by simp_all
      exact (hback f hout).trans (hthere f hout)

end Returns

/-- To the left, a chain of a shift and rotations doubles the number in its cells, and the carry is
its top bit; to the right, it halves it, and the carry is the remainder.  Nothing else is written,
and the core keeps all but the program counter and three flags.  Opposite rotations restore the
memory, the registers and the carry, whatever the modes.  Zero and negative tell of the byte that
has been written last. -/
theorem shifts_go_through_the_carry (turn : Turn) :
    (∀ (cpu : Cpu) (memory : Memory) (data : List UInt16), cpu.HoldsShift turn memory data →
      let n := data.length
      let r := cpu.after n memory
      turn.Shifts n (Bytes.number (data.map memory.read)) (Bytes.number (data.map r.bus.read))
        (r.cpu.status.get .carry) ∧
      (∀ address ∉ data, r.bus.read address = memory.read address) ∧
      r.cpu.registers = { cpu.registers with pc := cpu.registers.pc + .ofNat (3 * n) } ∧
      cpu.status.AgreesOff [.negative, .zero, .carry] r.cpu.status ∧
      (∀ last ∈ (turn.order data).getLast?, r.cpu.TellsOf (r.bus.read last)) ∧
      ∀ reply ∈ r.value, reply.fault? = none) ∧
    ∀ (cpu : Cpu) (memory : Memory) (place : Operand) (request request' : Request)
      (entry entry' : Opcode.Entry),
      cpu.TurnsBack turn memory place request request' entry entry' →
      let x := cpu.perform request memory ()
      let y := x.cpu.perform request' x.bus ()
      x.value.fault? = none ∧ y.value.fault? = none ∧
      y.cpu.valueAt y.bus place = cpu.valueAt memory place ∧
      y.cpu.status.get .carry = cpu.status.get .carry ∧
      y.bus = memory ∧ y.cpu.registers = { cpu.registers with pc := y.cpu.registers.pc } ∧
      cpu.status.AgreesOff [.negative, .zero] y.cpu.status ∧
      x.cpu.TellsOf (x.cpu.valueAt x.bus place) ∧ y.cpu.TellsOf (y.cpu.valueAt y.bus place) := by
  constructor
  · intro cpu memory data h n r
    rcases after_shift h with ⟨hrotated, haccepted⟩
    have hperm : (turn.order data).Perm data := turn.order_perm
    have hregisters := hrotated.registers
    rw [hperm.length_eq] at hregisters
    refine ⟨after_shift_number h, ?_, hregisters, hrotated.flags, hrotated.told, haccepted⟩
    intro address hout
    exact hrotated.elsewhere address (mt hperm.mem_iff.mp hout)
  · intro cpu memory place request request' entry entry' h x y
    rcases h.performs with ⟨⟨hfault', hfirst, hbus'⟩, hfault, hsecond, hbus⟩
    rcases h.restores with ⟨hvalue, hregisters, hcarry, hflags⟩
    refine ⟨hfault', hfault, hvalue, hcarry, hbus, hregisters, hflags, ?_, ?_⟩
    · rw [show x.cpu.toCore = _ from hfirst, show x.bus = _ from hbus',
        Core.valueAt_shifted _ h.writable]
      exact Core.shifted_tellsOf _ place _
    · rw [show y.cpu.valueAt y.bus place = _ from hvalue, show y.cpu.toCore = _ from hsecond]
      exact Core.shifted_tellsOf _ place _

/-- Two bytes that do not adjoin are doubled, and the accumulator is rotated there and back. -/
theorem double_apart_and_turn_back :
    let cpu := readyAt 0x400 .documented
    let data : List UInt16 := [0x10, 0x12]
    let memory :=
      ((Memory.zeroed.load 0x400 (Turn.left.program data)).write 0x10 0x80).write 0x12 0x81
    let rol := Opcode.Entry.documented 0x2A .rol .accumulator 1 2
    let ror := Opcode.Entry.documented 0x6A .ror .accumulator 1 2
    let turner := lowOnStack [rol, ror]
    let code := Memory.zeroed.load 0x400 [0x2A, 0x6A]
    Bytes.number (data.map (cpu.after data.length memory).bus.read) = 0x300 ∧
      (cpu.after data.length memory).cpu.status.get .carry = true ∧
      ((turner.perform .execute code ()).cpu.perform .execute
        (turner.perform .execute code ()).bus ()).cpu.status.get .carry = false ∧
      ((turner.perform .execute code ()).cpu.perform .execute
        (turner.perform .execute code ()).bus ()).bus = code := by
  intro cpu data memory rol ror turner code
  have hcode : memory.Holds cpu.registers.pc (Turn.left.program (Turn.left.order data)) :=
    ((Memory.holds_load _ _ (by decide)).write (by decide) _).write (by decide) _
  have hdata : data.map memory.read = [0x80, 0x81] := by
    simp [data, memory, Memory.read_write_of_ne]
  have hapart : ∀ cell ∈ data, ∀ i < 3 * data.length, cell ≠ cpu.registers.pc + .ofNat i := by
    intro cell hmem
    simp only [data, List.mem_cons, List.not_mem_nil, or_false] at hmem
    rcases hmem with rfl | rfl <;> decide
  have hholds : cpu.HoldsShift .left memory data :=
    ⟨⟨rfl, rfl⟩, hcode, by decide, by decide, hapart⟩
  have hreset : (turner.perform .execute code ()).cpu.resetDone = true := by
    rw [turner.perform_execute code ()]
    exact (turner.execute_leaves code rfl).2
  have hthere : turner.Performs code .execute rol .rol :=
    ⟨rfl, .inl rfl, by decide +kernel, rfl⟩
  have hback : (turner.perform .execute code ()).cpu.Performs
      (turner.perform .execute code ()).bus .execute ror .ror :=
    ⟨hreset, .inl rfl, by decide +kernel, rfl⟩
  have hturns : turner.TurnsBack .left code .accumulator .execute .execute rol ror :=
    ⟨.inl rfl, hthere, rfl, hback, rfl⟩
  rcases ((shifts_go_through_the_carry .left).1 cpu memory data hholds).1 with ⟨hnumber, hcarry⟩
  obtain ⟨-, -, -, hcarry', hbus, -⟩ :=
    (shifts_go_through_the_carry .left).2 turner code .accumulator _ _ rol ror hturns
  rw [hdata] at hnumber hcarry
  have hclear : turner.status.get .carry = false := by decide
  exact ⟨hnumber.trans (by decide), hcarry.trans (by decide), hcarry'.trans hclear, hbus⟩

end Cpu

end Nmos6502
