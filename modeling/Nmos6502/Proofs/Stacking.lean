import Mathlib.Data.List.Infix
import Nmos6502.Proofs.Linkage
import Nmos6502.Proofs.Numerals

/-!
# The stack as a stack

Between them the four stack helpers make of page one and the stack pointer a stack of bytes, of
which a word is two.  It has room for 256 bytes, and as long as no more are live and none is pulled
that has not been pushed, it answers as a stack of bytes does, wherever in its page the stack
pointer begins and however often it wraps.
-/

namespace Nmos6502

open Nmos6502.Core (stackCell)

theorem Byte.ofInt_natCast (n : Nat) : UInt8.ofInt n = UInt8.ofNat n := by
  apply UInt8.toNat_inj.mp
  rw [UInt8.ofInt, UInt8.toNat_ofNat', UInt8.toNat_ofNat']
  omega

inductive StackCall where
  | pushByte (value : UInt8)
  | pushWord (value : UInt16)
  | pullByte
  | pullWord
deriving DecidableEq, Repr

namespace StackCall

def request : StackCall → Request
  | pushByte value => .pushByte value
  | pushWord value => .pushWord value
  | pullByte => .pullByte
  | pullWord => .pullWord

/-- By how many bytes the stack grows. -/
def growth : StackCall → Int
  | pushByte _ => 1
  | pushWord _ => 2
  | pullByte => -1
  | pullWord => -2

/-- The number of live bytes that the calls leave. -/
def live : List StackCall → Int
  | [] => 0
  | call :: rest => call.growth + live rest

/-- At no time are fewer than no bytes or more than 256 bytes live. -/
def Bounded (calls : List StackCall) : Prop :=
  ∀ before, before <+: calls → 0 ≤ live before ∧ live before ≤ 256

instance (calls : List StackCall) : Decidable (Bounded calls) :=
  decidable_of_iff (∀ before ∈ calls.inits, 0 ≤ live before ∧ live before ≤ 256) <| by
    simp only [Bounded, List.mem_inits]

/-- What a stack of bytes answers and what is left of it, its top in front.  A word lies on it with
its low byte on top. -/
def apply : StackCall → List UInt8 → Option (Reply × List UInt8)
  | pushByte value, stack => some (.done, value :: stack)
  | pushWord value, stack => some (.done, Word.low value :: Word.high value :: stack)
  | pullByte, top :: stack => some (.byte top, stack)
  | pullWord, low :: high :: stack => some (.word (Word.ofBytes low high), stack)
  | _, _ => none

def applyAll : List StackCall → List UInt8 → Option (List Reply × List UInt8)
  | [], stack => some ([], stack)
  | call :: rest, stack => do
    let (reply, stack) ← call.apply stack
    let (replies, stack) ← applyAll rest stack
    pure (reply :: replies, stack)

/-- The cells that the call addresses to push into where the stack pointer is `sp`. -/
def cells (sp : UInt8) : StackCall → List UInt16
  | pushByte _ => [stackCell sp]
  | pushWord _ => [stackCell sp, stackCell (sp - 1)]
  | pullByte | pullWord => []

/-- The cells that any push among the calls addresses. -/
def addressed : UInt8 → List StackCall → List UInt16
  | _, [] => []
  | sp, call :: rest => call.cells sp ++ addressed (sp - UInt8.ofInt call.growth) rest

theorem live_cons (call : StackCall) (rest : List StackCall) :
    live (call :: rest) = call.growth + live rest := rfl

theorem exists_of_mem_cells {sp : UInt8} {call : StackCall} {address : UInt16}
    (hmem : address ∈ call.cells sp) : ∃ cell, address = stackCell cell := by
  cases call with
  | pushByte value => exact ⟨sp, List.mem_singleton.mp hmem⟩
  | pushWord value =>
      rcases List.mem_cons.mp hmem with hhigh | hlow
      · exact ⟨sp, hhigh⟩
      · exact ⟨sp - 1, List.mem_singleton.mp hlow⟩
  | pullByte => contradiction
  | pullWord => contradiction

theorem exists_of_mem_addressed {sp : UInt8} {calls : List StackCall} {address : UInt16}
    (hmem : address ∈ addressed sp calls) : ∃ cell, address = stackCell cell := by
  induction calls generalizing sp with
  | nil => contradiction
  | cons call rest ih =>
      rcases List.mem_append.mp hmem with hfirst | hrest
      · exact exists_of_mem_cells hfirst
      · exact ih hrest

end StackCall

/-! ## The stack in its page -/

namespace Memory

/-- The bytes of `stack` lie above `sp`, the top one next to it. -/
def HoldsStack (memory : Memory) : UInt8 → List UInt8 → Prop
  | _, [] => True
  | sp, top :: rest => memory.read (stackCell (sp + 1)) = top ∧ memory.HoldsStack (sp + 1) rest

variable {memory : Memory} {sp : UInt8} {stack : List UInt8}

theorem HoldsStack.write (h : memory.HoldsStack sp stack) {cell : UInt8} (value : UInt8)
    (hfree : stack.length ≤ (cell - sp - 1).toNat) :
    (memory.write (stackCell cell) value).HoldsStack sp stack := by
  induction stack generalizing sp with
  | nil => trivial
  | cons top rest ih =>
      rcases h with ⟨htop, hrest⟩
      rw [List.length_cons] at hfree
      have hne : stackCell (sp + 1) ≠ stackCell cell := by
        apply Core.stackCell_injective.ne
        rintro rfl
        have hnone : sp + 1 - sp - 1 = 0 := by grind
        rw [hnone] at hfree
        contradiction
      have hlater : rest.length ≤ (cell - (sp + 1) - 1).toNat := by
        have hcell := cell.toNat_lt
        have hsp := sp.toNat_lt
        simp only [UInt8.toNat_sub, UInt8.toNat_add, UInt8.toNat_ofNat] at *
        omega
      exact ⟨(read_write_of_ne _ _ hne).trans htop, ih hrest hlater⟩

theorem HoldsStack.push (h : memory.HoldsStack sp stack) (value : UInt8)
    (hroom : stack.length < 256) :
    (memory.write (stackCell sp) value).HoldsStack (sp - 1) (value :: stack) := by
  have hback : sp - 1 + 1 = sp := by grind
  have hlast : sp - sp - 1 = 255 := by grind
  have hfree : stack.length ≤ (sp - sp - 1).toNat := by
    rw [hlast]
    exact Nat.le_of_lt_succ hroom
  rw [HoldsStack, hback]
  exact ⟨read_write_self _ _ _, h.write value hfree⟩

end Memory

/-! ## One call -/

namespace Cpu

/-- What calls leave that have made `later` of `stack` and whose pushes have addressed `cells`. -/
structure Stacks
    (cpu : Cpu) (memory : Memory) (stack : List UInt8) (left : Cpu) (held : Memory)
    (later : List UInt8) (cells : List UInt16) : Prop where
  floor :
    left.registers.sp + UInt8.ofNat later.length = cpu.registers.sp + UInt8.ofNat stack.length
  pointer : left = cpu.setCore (cpu.setSp left.registers.sp)
  holds : held.HoldsStack left.registers.sp later
  others : ∀ address, address ∉ cells → held.read address = memory.read address

variable {cpu middle left : Cpu} {memory between held : Memory} {stack later inter : List UInt8}

theorem Stacks.refl (hholds : memory.HoldsStack cpu.registers.sp stack) :
    cpu.Stacks memory stack cpu memory stack [] where
  floor := rfl
  pointer := rfl
  holds := hholds
  others _ _ := rfl

theorem Stacks.trans
    {cells more : List UInt16} (hfirst : cpu.Stacks memory stack middle between inter cells)
    (hsecond : middle.Stacks between inter left held later more) :
    cpu.Stacks memory stack left held later (cells ++ more) where
  floor := hsecond.floor.trans hfirst.floor
  pointer := by
    have hkept : middle.setCore (middle.setSp left.registers.sp) =
        cpu.setCore (cpu.setSp left.registers.sp) := by
      rw [hfirst.pointer]
      rfl
    exact hsecond.pointer.trans hkept
  holds := hsecond.holds
  others address hother := by
    rw [List.mem_append, not_or] at hother
    exact (hsecond.others address hother.2).trans (hfirst.others address hother.1)

theorem Stacks.sp_eq
    {cells : List UInt16} (h : cpu.Stacks memory stack left held later cells) {growth : Int}
    (hgrown : (later.length : Int) = stack.length + growth) :
    left.registers.sp = cpu.registers.sp - UInt8.ofInt growth := by
  have hlater : UInt8.ofNat later.length = UInt8.ofNat stack.length + UInt8.ofInt growth := by
    rw [← Byte.ofInt_natCast, hgrown, UInt8.ofInt_add, Byte.ofInt_natCast]
  have hfloor := h.floor
  rw [hlater] at hfloor
  grind

theorem stacks_pushByte
    (value : UInt8) (hholds : memory.HoldsStack cpu.registers.sp stack)
    (hroom : stack.length < 256) :
    let r := cpu.perform (.pushByte value) memory ()
    cpu.Stacks memory stack r.cpu r.bus (value :: stack) [stackCell cpu.registers.sp] where
  floor := by
    change cpu.registers.sp - 1 + UInt8.ofNat (stack.length + 1) = _
    rw [UInt8.ofNat_add]
    grind
  pointer := rfl
  holds := hholds.push value hroom
  others _ hother := Memory.read_write_of_ne memory value (List.mem_singleton.not.mp hother)

theorem stacks_pullByte
    {top : UInt8} (hholds : memory.HoldsStack cpu.registers.sp (top :: stack)) :
    let r := cpu.perform .pullByte memory ()
    r.value = .byte top ∧ cpu.Stacks memory (top :: stack) r.cpu r.bus stack [] := by
  refine ⟨congrArg Reply.byte hholds.1, ?_, rfl, hholds.2, fun _ _ => rfl⟩
  change cpu.registers.sp + 1 + UInt8.ofNat stack.length = _ + UInt8.ofNat (stack.length + 1)
  rw [UInt8.ofNat_add]
  grind

theorem stacks_call
    (call : StackCall) (hholds : memory.HoldsStack cpu.registers.sp stack)
    (hlow : 0 ≤ stack.length + call.growth) (hhigh : stack.length + call.growth ≤ 256) :
    let r := cpu.perform call.request memory ()
    ∃ later, call.apply stack = some (r.value, later) ∧
      (later.length : Int) = stack.length + call.growth ∧
      cpu.Stacks memory stack r.cpu r.bus later (call.cells cpu.registers.sp) := by
  cases call with
  | pushByte value =>
      have hroom : stack.length < 256 := by
        simp only [StackCall.growth] at hhigh
        omega
      exact ⟨value :: stack, rfl, rfl, stacks_pushByte value hholds hroom⟩
  | pushWord value =>
      have hroom : stack.length + 1 < 256 := by
        simp only [StackCall.growth] at hhigh
        omega
      -- Pushing a word is pushing its high byte and then its low byte.
      have hfirst := stacks_pushByte (Word.high value) hholds (Nat.lt_of_succ_lt hroom)
      have hsecond := stacks_pushByte (Word.low value) hfirst.holds hroom
      exact ⟨Word.low value :: Word.high value :: stack, rfl, rfl, hfirst.trans hsecond⟩
  | pullByte =>
      cases stack with
      | nil => contradiction
      | cons top rest =>
          rcases stacks_pullByte hholds with ⟨hvalue, hstacks⟩
          refine ⟨rest, congrArg (fun reply => some (reply, rest)) hvalue.symm, ?_, hstacks⟩
          simp only [StackCall.growth, List.length_cons]
          omega
  | pullWord =>
      rcases stack with - | ⟨low, - | ⟨high, rest⟩⟩
      · contradiction
      · contradiction
      · rcases stacks_pullByte hholds with ⟨hlowByte, hfirst⟩
        rcases stacks_pullByte hfirst.holds with ⟨hhighByte, hsecond⟩
        have hvalue : (cpu.perform .pullWord memory ()).value = .word (Word.ofBytes low high) := by
          rw [← Reply.byte.inj hlowByte, ← Reply.byte.inj hhighByte]
          rfl
        refine ⟨rest, congrArg (fun reply => some (reply, rest)) hvalue.symm, ?_,
          hfirst.trans hsecond⟩
        simp only [StackCall.growth, List.length_cons]
        omega

/-! ## Any number of calls -/

theorem stacks_calls
    (calls : List StackCall) (hholds : memory.HoldsStack cpu.registers.sp stack)
    (hbounded : ∀ before, before <+: calls →
      0 ≤ stack.length + StackCall.live before ∧ stack.length + StackCall.live before ≤ 256) :
    let r := cpu.performAll (calls.map StackCall.request) memory ()
    ∃ later, StackCall.applyAll calls stack = some (r.value, later) ∧
      (later.length : Int) = stack.length + StackCall.live calls ∧
      cpu.Stacks memory stack r.cpu r.bus later (StackCall.addressed cpu.registers.sp calls) := by
  induction calls generalizing cpu memory stack with
  | nil => exact ⟨stack, rfl, by simp [StackCall.live], .refl hholds⟩
  | cons call rest ih =>
      have hnow := hbounded [call] (List.prefix_append [call] rest)
      rw [StackCall.live_cons, show StackCall.live [] = 0 from rfl, Int.add_zero] at hnow
      rcases stacks_call call hholds hnow.1 hnow.2 with ⟨middle, hreply, hgrown, hfirst⟩
      have hrest : ∀ before, before <+: rest →
          0 ≤ middle.length + StackCall.live before ∧
            middle.length + StackCall.live before ≤ 256 := by
        intro before hbefore
        have hwhole := hbounded (call :: before) (List.cons_prefix_cons.mpr ⟨rfl, hbefore⟩)
        rw [StackCall.live_cons] at hwhole
        omega
      rcases ih hfirst.holds hrest with ⟨later, hreplies, hlength, hsecond⟩
      rw [hfirst.sp_eq hgrown] at hsecond
      refine ⟨later, ?_, ?_, hfirst.trans hsecond⟩
      · simp only [StackCall.applyAll, hreply, Option.bind_eq_bind, Option.bind_some, hreplies]
        rfl
      · rw [hlength, hgrown, StackCall.live_cons, Int.add_assoc]

/-- As long as none to 256 bytes are live, every pull answers as a stack of bytes does, the stack
pointer is as many bytes below its start as are live, and nothing else changes but the cells that
pushes have addressed, all of them in page one. -/
theorem stack_is_last_in_first_out
    (cpu : Cpu) (memory : Memory) {calls : List StackCall}
    (hbounded : StackCall.Bounded calls) :
    ∀ before, before <+: calls →
      let sp := cpu.registers.sp
      let r := cpu.performAll (before.map StackCall.request) memory ()
      ∃ stack, StackCall.applyAll before [] = some (r.value, stack) ∧
        (stack.length : Int) = StackCall.live before ∧
        r.cpu = cpu.setCore (cpu.setSp (sp - UInt8.ofNat stack.length)) ∧
        (∀ address, address < 0x100 ∨ 0x1FF < address →
          r.bus.read address = memory.read address) ∧
        ∀ address, address ∉ StackCall.addressed sp before →
          r.bus.read address = memory.read address := by
  intro before hbefore sp r
  have hempty : ∀ earlier, earlier <+: before →
      0 ≤ (([] : List UInt8).length : Int) + StackCall.live earlier ∧
        (([] : List UInt8).length : Int) + StackCall.live earlier ≤ 256 := by
    intro earlier hearlier
    simpa using hbounded earlier (hearlier.trans hbefore)
  have hnothing : memory.HoldsStack sp [] := trivial
  rcases stacks_calls before hnothing hempty with ⟨stack, hreplies, hlength, hstacks⟩
  have hgrown : (stack.length : Int) = ([] : List UInt8).length + (stack.length : Int) := by simp
  have hsp : r.cpu.registers.sp = sp - UInt8.ofNat stack.length := by
    rw [hstacks.sp_eq hgrown, Byte.ofInt_natCast]
  refine ⟨stack, hreplies, by simpa using hlength, ?_, ?_, hstacks.others⟩
  · rw [← hsp]
    exact hstacks.pointer
  · intro address hout
    apply hstacks.others
    intro hmem
    rcases StackCall.exists_of_mem_addressed hmem with ⟨cell, rfl⟩
    have hcell := cell.toNat_lt
    simp only [Core.stackCell_eq, UInt16.lt_iff_toNat_lt, UInt16.toNat_ofNat', UInt16.toNat_ofNat]
      at hout
    omega

/-- The first push is at the bottom of page one and the second at its top, and one word is pulled of
both.  No reset has come before. -/
theorem stack_around_the_bottom :
    let cpu := ofSetup default
    let calls : List StackCall :=
      [.pushByte 0x12, .pushByte 0x34, .pullWord, .pushWord 0x5678, .pullByte]
    let r := cpu.performAll (calls.map StackCall.request) Memory.zeroed ()
    StackCall.Bounded calls ∧
      r.value = [.done, .done, .word 0x1234, .done, .byte 0x78] ∧
      r.cpu = cpu.setCore (cpu.setSp 0xFF) ∧ r.bus.read 0x17F = 0 := by
  intro cpu calls r
  have hbounded : StackCall.Bounded calls := by decide
  have hreplies : StackCall.applyAll calls [] =
      some ([.done, .done, .word 0x1234, .done, .byte 0x78], [0x56]) := rfl
  rcases cpu.stack_is_last_in_first_out Memory.zeroed hbounded calls (List.prefix_refl calls) with
    ⟨stack, happly, -, hcpu, -, hothers⟩
  have hboth := Option.some.inj (hreplies.symm.trans happly)
  have hvalue : r.value = _ := (congrArg Prod.fst hboth).symm
  obtain rfl : [0x56] = stack := congrArg Prod.snd hboth
  exact ⟨hbounded, hvalue, hcpu,
    (hothers 0x17F (by decide)).trans (Memory.read_zeroed 0x17F)⟩

end Cpu

end Nmos6502
