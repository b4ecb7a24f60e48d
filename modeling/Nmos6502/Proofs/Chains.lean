import Nmos6502.Proofs.Carrying
import Nmos6502.Proofs.Contents
import Nmos6502.Proofs.Programs

/-!
# Chains of additions and subtractions

Numbers of more than a byte are added and subtracted byte by byte, with the least significant one
first: the carry is set up once, and each byte is loaded into the accumulator and worked on there.
The loads in between leave the carry alone, so that the chain comes to one operation on the whole
numbers.
-/

namespace Nmos6502

inductive Chain where
  | addition
  | subtraction

namespace Chain

/-! ## The programs -/

def openerMnemonic : Chain → Mnemonic
  | addition => .clc
  | subtraction => .sec

def opener : Chain → UInt8
  | addition => 0x18
  | subtraction => 0x38

def operationMnemonic : Chain → Mnemonic
  | addition => .adc
  | subtraction => .sbc

def operation : Chain → UInt8
  | addition => 0x69
  | subtraction => 0xE9

/-- The stages of the chain, each an immediate `LDA` and the operation. -/
def stages (chain : Chain) (pairs : List (UInt8 × UInt8)) : List UInt8 :=
  pairs.flatMap fun pair => [0xA9, pair.1, chain.operation, pair.2]

def program (chain : Chain) (a m : List UInt8) : List UInt8 :=
  chain.opener :: chain.stages (a.zip m)

/-! ## What a stage does -/

def carryIn : Chain → Bool
  | addition => false
  | subtraction => true

/-- What is added to the accumulator for an operand. -/
def addend : Chain → UInt8 → UInt8
  | addition, m => m
  | subtraction, m => ~~~m

variable (chain : Chain)

def opened (c : Core) : Core :=
  (c.setPc (c.registers.pc + 1)).setFlag .carry chain.carryIn

def loaded (c : Core) (a : UInt8) : Core :=
  (c.setPc (c.registers.pc + 2)).setResult .a a

def operated (c : Core) (m : UInt8) : Core :=
  (c.setPc (c.registers.pc + 2)).takeSum
    (addWithCarry c.registers.a (chain.addend m) (c.status.get .carry))

def stage (c : Core) (pair : UInt8 × UInt8) : Core :=
  chain.operated (loaded c pair.1) pair.2

theorem loaded_carry (c : Core) (a : UInt8) :
    (loaded c a).status.get .carry = c.status.get .carry := by
  simp [loaded, Status.setZeroNegative, Status.get_set_of_ne]

theorem stage_eq (c : Core) (a m : UInt8) :
    let sum := addWithCarry a (chain.addend m) (c.status.get .carry)
    let d := chain.stage c (a, m)
    d.registers.a = sum.value ∧ d.status.get .carry = sum.carry ∧
      d.status.get .overflow = sum.overflow ∧
      d.status.get .negative = (sum.value &&& 0x80 != 0) := by
  have ha : (loaded c a).registers.a = a := rfl
  simp only [stage, operated, loaded_carry, ha]
  refine ⟨rfl, ?_, ?_, ?_⟩
  all_goals
    simp [Core.takeSum, Status.setZeroNegative, Status.get_set_of_ne]

/-! ## What a chain does -/

def addends (pairs : List (UInt8 × UInt8)) : List (UInt8 × UInt8) :=
  pairs.map (Prod.map id chain.addend)

theorem foldl_carry (c : Core) (pairs : List (UInt8 × UInt8)) :
    (pairs.foldl chain.stage c).status.get .carry =
      Bytes.carryOut (c.status.get .carry) (chain.addends pairs) := by
  induction pairs generalizing c with
  | nil => rfl
  | cons pair rest ih =>
      rw [List.foldl_cons, ih, (chain.stage_eq c pair.1 pair.2).2.1]
      rfl

theorem accumulators_eq (c : Core) (pairs : List (UInt8 × UInt8)) :
    (List.range pairs.length).map
        (fun i => ((pairs.take (i + 1)).foldl chain.stage c).registers.a) =
      Bytes.sums (c.status.get .carry) (chain.addends pairs) := by
  induction pairs generalizing c with
  | nil => rfl
  | cons pair rest ih =>
      rcases chain.stage_eq c pair.1 pair.2 with ⟨hvalue, hcarry, -, -⟩
      have hrest := ih (chain.stage c pair)
      rw [hcarry] at hrest
      rw [List.length_cons, List.range_succ_eq_map, List.map_cons, List.map_map]
      exact congrArg₂ List.cons hvalue hrest

section Runs

variable {memory : Memory} {c : Core}

open Nmos6502.Core Opcode

theorem documented_decodes {opcode : UInt8} {entry : Entry} {m : Mnemonic}
    (hentry : documentedEntries.reverse.find? (fun e => e.opcode == opcode) = some entry)
    (hmnemonic : entry.mnemonic = some m) :
    Table.documented.Decodes opcode entry m :=
  ⟨(Table.lookup_ofEntries _ _).trans hentry, hmnemonic⟩

theorem opener_decodes : Table.documented.Decodes chain.opener
    (.documented chain.opener chain.openerMnemonic .implied 1 2) chain.openerMnemonic := by
  cases chain <;> exact documented_decodes rfl rfl

theorem operation_decodes : Table.documented.Decodes chain.operation
    (.documented chain.operation chain.operationMnemonic .immediate 2 2)
    chain.operationMnemonic := by
  cases chain <;> exact documented_decodes rfl rfl

theorem leads_open {rest : List UInt8}
    (hcode : memory.Holds c.registers.pc (chain.opener :: rest)) :
    Leads .documented 1 c memory (chain.opened c) memory := by
  rcases hcode with ⟨hopcode, -⟩
  have hleads := leads_of_decodes (hopcode.symm ▸ chain.opener_decodes)
  cases chain with
  | addition => exact hleads
  | subtraction => exact hleads

theorem leads_load {a : UInt8} {rest : List UInt8}
    (hcode : memory.Holds c.registers.pc (0xA9 :: a :: rest)) :
    Leads .documented 1 c memory (loaded c a) memory := by
  rcases hcode with ⟨hopcode, hoperand, -⟩
  have hdecodes : Table.documented.Decodes (memory.read c.registers.pc)
      (.documented 0xA9 .lda .immediate 2 2) .lda := by
    rw [hopcode]
    exact documented_decodes rfl rfl
  have hleads := leads_of_decodes hdecodes
  subst hoperand
  exact hleads

theorem leads_operate {m : UInt8} {rest : List UInt8}
    (hcode : memory.Holds c.registers.pc (chain.operation :: m :: rest)) :
    Leads .documented 1 c memory (chain.operated c m) memory := by
  rcases hcode with ⟨hopcode, hoperand, -⟩
  have hleads := leads_of_decodes (hopcode.symm ▸ chain.operation_decodes)
  subst hoperand
  cases chain with
  | addition => exact hleads
  | subtraction =>
      unfold operated addend
      rw [← subtractWithBorrow_eq]
      exact hleads

theorem leads_stages {pairs : List (UInt8 × UInt8)}
    (hcode : memory.Holds c.registers.pc (chain.stages pairs)) :
    Leads .documented (2 * pairs.length) c memory (pairs.foldl chain.stage c) memory := by
  induction pairs generalizing c with
  | nil => exact .zero
  | cons pair rest ih =>
      have hload : memory.Holds c.registers.pc
          (0xA9 :: pair.1 :: chain.operation :: pair.2 :: chain.stages rest) := hcode
      have hoperation : memory.Holds (loaded c pair.1).registers.pc
          (chain.operation :: pair.2 :: chain.stages rest) := by
        rw [show (loaded c pair.1).registers.pc = c.registers.pc + 1 + 1 from
          (UInt16.add_assoc _ 1 1).symm]
        exact hload.2.2
      have hrest : memory.Holds (chain.stage c pair).registers.pc (chain.stages rest) := by
        rw [show (chain.stage c pair).registers.pc = (loaded c pair.1).registers.pc + 1 + 1 from
          (UInt16.add_assoc _ 1 1).symm]
        exact hoperation.2.2
      have hfirst := (leads_load hload).trans (chain.leads_operate hoperation)
      rw [List.length_cons, Nat.mul_add, Nat.add_comm]
      exact hfirst.trans (ih hrest)

theorem leads_take {pairs : List (UInt8 × UInt8)} {k : Nat} (hk : k ≤ pairs.length)
    (hcode : memory.Holds c.registers.pc (chain.opener :: chain.stages pairs)) :
    Leads .documented (2 * k + 1) c memory ((pairs.take k).foldl chain.stage (chain.opened c))
      memory := by
  have hstages : chain.stages pairs =
      chain.stages (pairs.take k) ++ chain.stages (pairs.drop k) := by
    rw [stages, stages, stages, ← List.flatMap_append, List.take_append_drop]
  have hstart : memory.Holds (chain.opened c).registers.pc (chain.stages (pairs.take k)) := by
    have hrest := hcode.2
    rw [hstages, Memory.holds_append] at hrest
    exact hrest.1
  have hlength : (pairs.take k).length = k := by
    rw [List.length_take, Nat.min_eq_left hk]
  have hleads := (chain.leads_open hcode).trans (chain.leads_stages hstart)
  rw [hlength, Nat.add_comm] at hleads
  exact hleads

end Runs

/-! ## Chains as operations on whole numbers -/

theorem length_program {a m : List UInt8} (hlength : m.length = a.length) :
    (chain.program a m).length = 4 * a.length + 1 := by
  have hstages (pairs : List (UInt8 × UInt8)) :
      (chain.stages pairs).length = 4 * pairs.length := by
    simp [stages, List.length_flatMap, Nat.mul_comm]
  simp [program, hstages, hlength]

theorem length_zip_of_eq {a m : List UInt8} (hlength : m.length = a.length) :
    (a.zip m).length = a.length := by
  rw [List.length_zip, hlength, Nat.min_self]

theorem exists_last_pair {a m : List UInt8} (hlength : m.length = a.length) (hne : a ≠ []) :
    ∃ low x y, a.zip m = low ++ [(x, y)] := by
  rcases List.eq_nil_or_concat (a.zip m) with hnil | ⟨low, ⟨x, y⟩, hpairs⟩
  · have hpos : 0 < a.length := List.length_pos_iff.mpr hne
    rw [← length_zip_of_eq hlength, hnil] at hpos
    contradiction
  · exact ⟨low, x, y, by rw [hpairs, List.concat_eq_append]⟩

theorem addends_zip (a m : List UInt8) : chain.addends (a.zip m) = a.zip (m.map chain.addend) :=
  List.zip_map_right.symm

end Chain

namespace Cpu

section Totals

variable (cpu : Cpu) (chain : Chain) (memory : Memory) (a m : List UInt8)

/-- The chain, loaded where the processor fetches next, after this many of its instructions. -/
def along (k : Nat) : Report (List Reply) Memory Unit :=
  cpu.after k (memory.load cpu.registers.pc (chain.program a m))

/-- The accumulator after each of the operations. -/
def results : List UInt8 :=
  (List.range a.length).map fun i => (cpu.along chain memory a m (2 * i + 3)).cpu.registers.a

variable {a m} (hready : cpu.Ready .documented) (hlength : m.length = a.length)
  (hfits : 4 * a.length + 1 ≤ 65536)

include hready hlength hfits

theorem along_eq {k : Nat} (hk : k ≤ a.length) :
    let r := cpu.along chain memory a m (2 * k + 1)
    r.cpu.toCore = ((a.zip m).take k).foldl chain.stage (chain.opened cpu.toCore) ∧
      r.bus = memory.load cpu.registers.pc (chain.program a m) ∧
      ∀ reply ∈ r.value, reply.fault? = none := by
  have hcode := memory.holds_load cpu.registers.pc
    (Nat.le_trans (Nat.le_of_eq (chain.length_program hlength)) hfits)
  have hpairs : k ≤ (a.zip m).length := by
    rw [Chain.length_zip_of_eq hlength]
    exact hk
  exact chain.leads_take hpairs hcode cpu hready rfl

theorem results_eq :
    cpu.results chain memory a m = Bytes.sums chain.carryIn (a.zip (m.map chain.addend)) := by
  have hcarry : (chain.opened cpu.toCore).status.get .carry = chain.carryIn := by
    simp [Chain.opened]
  rw [← hcarry, ← chain.addends_zip, ← chain.accumulators_eq, Chain.length_zip_of_eq hlength]
  apply List.map_congr_left
  intro i hi
  have hrun := (cpu.along_eq chain memory hready hlength hfits (List.mem_range.mp hi)).1
  exact congrArg (fun c => c.registers.a) hrun

/-- What the last stage of the chain leaves is its sum with the carry of the others. -/
theorem along_all {low : List (UInt8 × UInt8)} {x y : UInt8} (hpairs : a.zip m = low ++ [(x, y)]) :
    let last := cpu.along chain memory a m (2 * a.length + 1)
    let carry := Bytes.carryOut chain.carryIn (chain.addends low)
    let sum := addWithCarry x (chain.addend y) carry
    last.cpu.status.get .carry = sum.carry ∧ last.cpu.status.get .overflow = sum.overflow ∧
      last.cpu.status.get .negative = (sum.value &&& 0x80 != 0) := by
  intro last carry sum
  have hall : (a.zip m).take a.length = a.zip m :=
    List.take_of_length_le (Nat.le_of_eq (Chain.length_zip_of_eq hlength))
  have hcarry : (low.foldl chain.stage (chain.opened cpu.toCore)).status.get .carry = carry := by
    rw [chain.foldl_carry]
    simp [carry, Chain.opened]
  have hcore := (cpu.along_eq chain memory hready hlength hfits (Nat.le_refl _)).1
  rw [hall, hpairs, List.foldl_append] at hcore
  have hstage := chain.stage_eq (low.foldl chain.stage (chain.opened cpu.toCore)) x y
  rw [hcarry] at hstage
  have hstatus : last.cpu.status = _ := congrArg Core.status hcore
  rw [hstatus]
  exact hstage.2

theorem along_totals (hne : a ≠ []) :
    let n := a.length
    let added := m.map chain.addend
    let last := cpu.along chain memory a m (2 * n + 1)
    Bytes.number (cpu.results chain memory a m) +
        256 ^ n * (last.cpu.status.get .carry).toNat =
      Bytes.number a + Bytes.number added + chain.carryIn.toNat ∧
    (last.cpu.status.get .overflow = true ↔
      ¬Bytes.InRange n (Bytes.signed a + Bytes.signed added + chain.carryIn.toNat)) ∧
    ∃ top, (cpu.results chain memory a m).getLast? = some top ∧
      (last.cpu.status.get .negative = true ↔ 128 ≤ top.toNat) := by
  intro n added last
  have hadded : added.length = a.length := (List.length_map _).trans hlength
  have hfst : (a.zip added).map Prod.fst = a := List.map_fst_zip (Nat.le_of_eq hadded.symm)
  have hsnd : (a.zip added).map Prod.snd = added := List.map_snd_zip (Nat.le_of_eq hadded)
  have hresults := cpu.results_eq chain memory hready hlength hfits
  obtain ⟨low, x, y, hpairs⟩ := Chain.exists_last_pair hlength hne
  have hsplit : a.zip added = chain.addends low ++ [(x, chain.addend y)] := by
    rw [← chain.addends_zip, hpairs]
    exact List.map_append
  let sum := addWithCarry x (chain.addend y)
    (Bytes.carryOut chain.carryIn (chain.addends low))
  rcases cpu.along_all chain memory hready hlength hfits hpairs with
    ⟨hcarry, hoverflow, hnegative⟩
  refine ⟨?_, ?_, sum.value, ?_, ?_⟩
  · have hsums := Bytes.number_sums chain.carryIn (a.zip added)
    have hlast : Bytes.carryOut chain.carryIn (a.zip added) = last.cpu.status.get .carry := by
      rw [hcarry, hsplit, Bytes.carryOut_append]
      rfl
    rw [hfst, hsnd, hlast, Chain.length_zip_of_eq hadded, ← hresults] at hsums
    exact hsums
  · have hiff := Bytes.overflow_iff chain.carryIn (chain.addends low) x (chain.addend y)
    have hlow : (chain.addends low).length + 1 = n := by
      have hlast := congrArg List.length hsplit
      rw [Chain.length_zip_of_eq hadded, List.length_append] at hlast
      exact hlast.symm
    rw [hsplit, List.map_append] at hfst hsnd
    rw [hoverflow, ← hlow]
    rw [show (chain.addends low).map Prod.fst ++ [x] = a from hfst,
      show (chain.addends low).map Prod.snd ++ [chain.addend y] = added from hsnd] at hiff
    exact hiff
  · rw [hresults, hsplit, Bytes.sums_append]
    exact List.getLast?_concat
  · rw [hnegative, Byte.and_top_iff]

end Totals

/-- Whatever the registers and the flags, a chain of additions adds two numbers of `n` bytes and a
chain of subtractions subtracts them: the accumulator goes through the bytes of the result, the
carry says whether they are all of it, or whether nothing has been borrowed, and overflow whether
the signed result is out of range.  The top bit of the result is the sign that is left, memory is
as it was, and no instruction has been refused. -/
theorem chains_compute
    (cpu : Cpu) (memory : Memory) (a m : List UInt8) (hready : cpu.Ready .documented)
    (hlength : m.length = a.length) (hne : a ≠ []) (hfits : 4 * a.length + 1 ≤ 65536) :
    let n := a.length
    let last (chain : Chain) := cpu.along chain memory a m (2 * n + 1)
    let flag (chain : Chain) (f : Flag) := (last chain).cpu.status.get f
    let sum := cpu.results .addition memory a m
    let difference := cpu.results .subtraction memory a m
    (Bytes.number sum + 256 ^ n * (flag .addition .carry).toNat = Bytes.number a + Bytes.number m ∧
      (flag .addition .overflow = true ↔
        ¬Bytes.InRange n (Bytes.signed a + Bytes.signed m))) ∧
    ((Bytes.number difference : Int) = (Bytes.number a - Bytes.number m) % 256 ^ n ∧
      (flag .subtraction .carry = true ↔ Bytes.number m ≤ Bytes.number a) ∧
      (flag .subtraction .overflow = true ↔
        ¬Bytes.InRange n (Bytes.signed a - Bytes.signed m))) ∧
    ∀ chain,
      (∃ top, (cpu.results chain memory a m).getLast? = some top ∧
        (flag chain .negative = true ↔ 128 ≤ top.toNat)) ∧
      (last chain).bus = memory.load cpu.registers.pc (chain.program a m) ∧
      ∀ reply ∈ (last chain).value, reply.fault? = none := by
  intro n last flag sum difference
  have htotals := fun chain => cpu.along_totals chain memory hready hlength hfits hne
  refine ⟨?_, ?_, ?_⟩
  · rcases htotals .addition with ⟨hsum, hoverflow, -⟩
    have hsame : m.map Chain.addition.addend = m := List.map_id m
    rw [hsame] at hsum hoverflow
    have hnone : (Chain.addition.carryIn.toNat : Int) = 0 := rfl
    rw [hnone, add_zero] at hoverflow
    exact ⟨hsum, hoverflow⟩
  · rcases htotals .subtraction with ⟨hsum, hoverflow, -⟩
    have hsame : m.map Chain.subtraction.addend = m.map (~~~·) := rfl
    have hm : m ≠ [] := by
      rintro rfl
      exact hne (List.length_eq_zero_iff.mp hlength.symm)
    have hcomplement := Bytes.number_complement m
    have hbound : Bytes.number difference < 256 ^ n := by
      have hlt := Bytes.number_lt difference
      rwa [show difference.length = n by simp [difference, results, n]] at hlt
    rw [hsame] at hsum hoverflow
    rw [hlength] at hcomplement
    rcases Bytes.sub_of_add_complement hcomplement hsum hbound with ⟨hdifference, hcarry⟩
    rw [Bytes.signed_complement m hm] at hoverflow
    -- The carry that is set at first makes up for what the complement falls short by.
    have htotal : Bytes.signed a + (-1 - Bytes.signed m) + Chain.subtraction.carryIn.toNat =
        Bytes.signed a - Bytes.signed m := by
      change _ + _ + 1 = _
      omega
    rw [htotal] at hoverflow
    exact ⟨by exact_mod_cast hdifference, hcarry, hoverflow⟩
  · intro chain
    have hall := cpu.along_eq chain memory hready hlength hfits (Nat.le_refl _)
    exact ⟨(htotals chain).2.2, hall.2⟩

/-- The programs wrap around, and decimal mode is on. -/
theorem chains_around_the_top :
    let cpu := { readyAt 0xFFFE .documented with status := ⟨0x2B⟩ }
    let a : List UInt8 := [0xFF, 0x7F]
    let m : List UInt8 := [0x01, 0x00]
    (cpu.along .addition .zeroed a m (2 * a.length + 1)).cpu.status.get .overflow = true ∧
      (Bytes.number (cpu.results .subtraction .zeroed a m) : Int) = 0x7FFE := by
  intro cpu a m
  have ha : Bytes.number a = 0x7FFF := rfl
  have hm : Bytes.number m = 1 := rfl
  rcases cpu.chains_compute .zeroed a m ⟨rfl, rfl⟩ rfl (by decide) (by decide) with
    ⟨⟨-, hoverflow⟩, ⟨hdifference, -⟩, -⟩
  beta_reduce at hoverflow
  have hrange : ¬Bytes.InRange a.length (Bytes.signed a + Bytes.signed m) := by
    simp [Bytes.InRange, Bytes.signed, ha, hm, a, m]
  refine ⟨hoverflow.mpr hrange, hdifference.trans ?_⟩
  rw [ha, hm]
  decide

end Cpu

end Nmos6502
