import Nmos6502.Proofs.Carrying
import Nmos6502.Proofs.Instruction

/-!
# Additions, subtractions and comparisons

The instructions that compute with a register and an operand, in whole numbers: the byte that they
leave, and the flags that tell of it, whatever the mode, also if the operand is the accumulator
itself.  Subtractions are additions of the complement, and a comparison has the flags of a
subtraction that has nothing to borrow.
-/

namespace Nmos6502

theorem Byte.not_eq (b : UInt8) : ~~~b = 255 - b := by
  have hb : b.toNat < 256 := b.toNat_lt
  have hle : b ≤ 255 := UInt8.le_iff_toNat_le.mpr (Nat.le_of_lt_succ hb)
  apply UInt8.toNat_inj.mp
  rw [UInt8.toNat_not, UInt8.toNat_sub_of_le _ _ hle]
  rfl

theorem Byte.signed_not (b : UInt8) : Byte.signed (~~~b) = -1 - Byte.signed b := by
  have hb : b.toNat < 256 := b.toNat_lt
  have hnot : (~~~b).toNat = 255 - b.toNat := b.toNat_not
  simp only [Byte.signed, hnot]
  split <;> split <;> omega

namespace Core

/-- The accumulator and the flags tell of an operation: it comes to `total`, to `signed` if bytes
stand for signed numbers, and `carry` says when the carry is set. -/
structure Computes (d : Core) (total signed : Int) (carry : Prop) : Prop where
  accumulator : (d.registers.a.toNat : Int) = total % 256
  carry : d.status.get .carry = true ↔ carry
  overflow : d.status.get .overflow = true ↔ ¬(-128 ≤ signed ∧ signed ≤ 127)
  zero : d.status.get .zero = true ↔ d.registers.a = 0
  negative : d.status.get .negative = true ↔ 128 ≤ d.registers.a.toNat

/-- The flags tell how `value` compares with `m`. -/
structure Compares (d : Core) (value m : UInt8) : Prop where
  carry : d.status.get .carry = true ↔ m.toNat ≤ value.toNat
  zero : d.status.get .zero = true ↔ value = m
  negative : d.status.get .negative = true ↔ 128 ≤ ((value.toNat : Int) - m.toNat) % 256

theorem setZeroNegative_zero_iff (c : Core) (value : UInt8) :
    (c.setZeroNegative value).status.get .zero = true ↔ value = 0 := by
  simp [Status.setZeroNegative, Status.get_set_of_ne]

theorem setZeroNegative_negative_iff (c : Core) (value : UInt8) :
    (c.setZeroNegative value).status.get .negative = true ↔ 128 ≤ value.toNat := by
  rw [← Byte.and_top_iff]
  simp [Status.setZeroNegative]

/-- Zero and negative tell of `value`. -/
structure TellsOf (d : Core) (value : UInt8) : Prop where
  zero : d.status.get .zero = true ↔ value = 0
  negative : d.status.get .negative = true ↔ 128 ≤ value.toNat

theorem setZeroNegative_tellsOf (c : Core) (value : UInt8) :
    (c.setZeroNegative value).TellsOf value :=
  ⟨c.setZeroNegative_zero_iff value, c.setZeroNegative_negative_iff value⟩

theorem setZeroNegative_get
    (c : Core) (value : UInt8) {f : Flag} (hzero : f ≠ .zero) (hnegative : f ≠ .negative) :
    (c.setZeroNegative value).status.get f = c.status.get f := by
  simp [Status.setZeroNegative, Status.get_set_of_ne, hzero, hnegative]

theorem takeSum_carry (c : Core) (sum : Sum) :
    (c.takeSum sum).status.get .carry = sum.carry := by
  rw [takeSum, setZeroNegative_get _ _ (by decide) (by decide)]
  simp [Status.get_set_of_ne]

theorem takeSum_overflow (c : Core) (sum : Sum) :
    (c.takeSum sum).status.get .overflow = sum.overflow := by
  rw [takeSum, setZeroNegative_get _ _ (by decide) (by decide)]
  simp

theorem takeSum_status_congr {c d : Core} (sum : Sum) (hstatus : c.status = d.status) :
    (c.takeSum sum).status = (d.takeSum sum).status := by
  simp [takeSum, hstatus]

theorem takeSum_computes
    (c : Core) {sum : Sum} {total signed : Int} {carry : Prop}
    (hvalue : (sum.value.toNat : Int) = total % 256) (hcarry : sum.carry = true ↔ carry)
    (hoverflow : sum.overflow = true ↔ ¬(-128 ≤ signed ∧ signed ≤ 127)) :
    (c.takeSum sum).Computes total signed carry where
  accumulator := hvalue
  carry := by rw [takeSum_carry, hcarry]
  overflow := by rw [takeSum_overflow, hoverflow]
  zero := setZeroNegative_zero_iff _ sum.value
  negative := setZeroNegative_negative_iff _ sum.value

theorem add_computes (c : Core) (a m : UInt8) (carry : Bool) :
    let total : Int := a.toNat + m.toNat + carry.toNat
    (c.takeSum (addWithCarry a m carry)).Computes total
      (Byte.signed a + Byte.signed m + carry.toNat) (256 ≤ total) := by
  intro total
  have hsum := addWithCarry_toNat a m carry
  have hoverflow := addWithCarry_overflow_iff a m carry
  generalize addWithCarry a m carry = sum at hsum hoverflow
  have hvalue : sum.value.toNat < 256 := sum.value.toNat_lt
  have hcarry : sum.carry = true ↔ 256 ≤ total := by
    cases hout : sum.carry <;> simp only [hout, Bool.toNat_true, Bool.toNat_false] at hsum <;>
      simp [total] <;> omega
  have hbyte : (sum.value.toNat : Int) = total % 256 := by
    have hout : sum.carry.toNat ≤ 1 := sum.carry.toNat_le
    simp only at hsum
    omega
  refine takeSum_computes c hbyte hcarry (hoverflow.trans ?_)
  omega

theorem subtract_computes (c : Core) (a m : UInt8) (carry : Bool) :
    let total : Int := a.toNat - m.toNat - (1 - carry.toNat)
    (c.takeSum (subtractWithBorrow a m carry)).Computes total
      (Byte.signed a - Byte.signed m - (1 - carry.toNat)) (0 ≤ total) := by
  intro total
  have hm : m.toNat < 256 := m.toNat_lt
  have hnot : (~~~m).toNat = 255 - m.toNat := m.toNat_not
  have hadd := c.add_computes a (~~~m) carry
  -- The sum with the complement exceeds the difference by 256, which only the carry notices.
  have htotal : (a.toNat + (~~~m).toNat + carry.toNat : Int) = total + 256 := by
    rw [hnot]
    simp only [total]
    omega
  have hsigned : Byte.signed a + Byte.signed (~~~m) + carry.toNat =
      Byte.signed a - Byte.signed m - (1 - carry.toNat) := by
    rw [Byte.signed_not]
    omega
  rw [subtractWithBorrow_eq, ← hsigned]
  simp only [htotal] at hadd
  exact
    { hadd with
      accumulator := by rw [hadd.accumulator, Int.add_emod_right]
      carry := by
        rw [hadd.carry]
        omega }

theorem compare_compares (c : Core) (value m : UInt8) : (c.compare value m).Compares value m where
  carry := by
    rw [compare, setZeroNegative_get _ _ (by decide) (by decide)]
    simp [UInt8.le_iff_toNat_le]
  zero := by
    rw [compare, setZeroNegative_zero_iff]
    grind
  negative := by
    have hvalue : value.toNat < 256 := value.toNat_lt
    have hm : m.toNat < 256 := m.toNat_lt
    rw [compare, setZeroNegative_negative_iff, UInt8.toNat_sub]
    omega

/-- A comparison has the flags of a subtraction that has nothing to borrow. -/
theorem compare_get_eq
    (c d : Core) (value m : UInt8) {f : Flag} (hf : f ∈ [Flag.negative, .zero, .carry]) :
    (d.takeSum (subtractWithBorrow value m true)).status.get f =
      (c.compare value m).status.get f := by
  have hvalue : (subtractWithBorrow value m true).value = value - m :=
    UInt8.sub_zero _
  have hcarry : (subtractWithBorrow value m true).carry = decide (m ≤ value) := by
    simp [subtractWithBorrow, UInt8.le_iff_toNat_le]
  simp only [List.mem_cons, List.not_mem_nil, or_false] at hf
  rcases hf with rfl | rfl | rfl
  · simp [takeSum, compare, hvalue, Status.setZeroNegative]
  · simp [takeSum, compare, hvalue, Status.setZeroNegative, Status.get_set_of_ne]
  · simp [takeSum, compare, hcarry, Status.setZeroNegative, Status.get_set_of_ne]

end Core

/-- The register whose value an instruction compares with its operand. -/
def Mnemonic.compared? : Mnemonic → Option Register
  | cmp => some .a
  | cpx => some .x
  | cpy => some .y
  | _ => none

namespace Cpu

section Calls

variable {β : Type} [Bus β] (cpu : Cpu) (bus : β) {request : Request} {entry : Opcode.Entry}

theorem perform_adc (h : cpu.Performs bus request entry .adc) :
    (cpu.perform request bus ()).cpu.toCore =
      (cpu.ready entry.mode).takeSum (addWithCarry cpu.registers.a
        (cpu.operandValue bus entry.mode) (cpu.status.get .carry)) :=
  (cpu.perform_of_load bus () h
    (f := fun c v => c.takeSum (addWithCarry c.registers.a v (c.status.get .carry)))
    fun _ _ => rfl).1

theorem perform_sbc (h : cpu.Performs bus request entry .sbc) :
    (cpu.perform request bus ()).cpu.toCore =
      (cpu.ready entry.mode).takeSum (subtractWithBorrow cpu.registers.a
        (cpu.operandValue bus entry.mode) (cpu.status.get .carry)) :=
  (cpu.perform_of_load bus () h
    (f := fun c v => c.takeSum (subtractWithBorrow c.registers.a v (c.status.get .carry)))
    fun _ _ => rfl).1

theorem perform_compare
    {m : Mnemonic} {register : Register} (h : cpu.Performs bus request entry m)
    (hregister : m.compared? = some register) :
    (cpu.perform request bus ()).cpu.toCore =
      (cpu.ready entry.mode).compare (cpu.registers.get register)
        (cpu.operandValue bus entry.mode) := by
  have haction : m.action = .compare register := by
    cases m <;> simp_all [Mnemonic.compared?, Mnemonic.action]
  have hcore := (cpu.perform_of_load bus () h
    (f := fun c v => c.compare (c.registers.get register) v) fun _ _ => by rw [haction]; rfl).1
  rw [hcore, ready, Core.setPc_get]

end Calls

/-- Additions, subtractions and comparisons agree with whole numbers and with each other, whatever
the mode and the bus.  What is subtracted may be added as its complement, on another processor and
another bus, with the same accumulator and the same flags to come; and a comparison decides zero,
negative and carry as a subtraction does that has nothing to borrow. -/
theorem arithmetic_agrees
    {β : Type} [Bus β] (cpu : Cpu) (bus : β) {request : Request} {entry : Opcode.Entry}
    {m : Mnemonic} (h : cpu.Performs bus request entry m) :
    let place := (cpu.locate bus entry.mode).value.operand
    let v := cpu.operandValue bus entry.mode
    let a := cpu.registers.a
    let carry : Int := (cpu.status.get .carry).toNat
    let sum : Int := a.toNat + v.toNat + carry
    let difference : Int := a.toNat - v.toNat - (1 - carry)
    let x := cpu.perform request bus ()
    x.value.fault? = none ∧ place.Suits entry.mode ∧
    (entry.mode = .relative → place = .relative (cpu.displacementOn bus)) ∧
    (m = .adc →
      x.cpu.Computes sum (Byte.signed a + Byte.signed v + carry) (256 ≤ sum) ∧
      x.cpu.registers = (cpu.ready entry.mode).registers.set .a x.cpu.registers.a ∧
      cpu.status.AgreesOff [.negative, .zero, .carry, .overflow] x.cpu.status) ∧
    (m = .sbc →
      x.cpu.Computes difference (Byte.signed a - Byte.signed v - (1 - carry)) (0 ≤ difference) ∧
      x.cpu.registers = (cpu.ready entry.mode).registers.set .a x.cpu.registers.a ∧
      cpu.status.AgreesOff [.negative, .zero, .carry, .overflow] x.cpu.status ∧
      ∀ {γ : Type} [Bus γ] (other : Cpu) (away : γ) {request' : Request} {entry' : Opcode.Entry},
        other.Performs away request' entry' .adc → other.registers.a = a →
        other.status = cpu.status → other.operandValue away entry'.mode = 255 - v →
        let y := other.perform request' away ()
        y.cpu.registers.a = x.cpu.registers.a ∧ y.cpu.status = x.cpu.status) ∧
    (∀ register, m.compared? = some register →
      x.cpu.Compares (cpu.registers.get register) v ∧
      x.cpu.registers = (cpu.ready entry.mode).registers ∧
      cpu.status.AgreesOff [.negative, .zero, .carry] x.cpu.status) ∧
    (m = .cmp →
      ∀ {γ : Type} [Bus γ] (other : Cpu) (away : γ) {request' : Request} {entry' : Opcode.Entry},
        other.Performs away request' entry' .sbc → other.registers.a = a →
        other.operandValue away entry'.mode = v → other.status.get .carry = true →
        let y := other.perform request' away ()
        ∀ f ∈ [Flag.negative, .zero, .carry], y.cpu.status.get f = x.cpu.status.get f) := by
  intro place v a carry sum difference x
  refine ⟨(cpu.perform_result bus () h).1, cpu.locate_suits bus entry.mode, ?_, ?_, ?_, ?_, ?_⟩
  · intro hmode
    unfold place
    rw [hmode]
    exact cpu.locate_relative bus
  · rintro rfl
    have hx : x.cpu.toCore = _ := cpu.perform_adc bus h
    rw [hx]
    exact ⟨Core.add_computes _ a v _, rfl, Core.takeSum_agreesOff _ _⟩
  · rintro rfl
    have hx : x.cpu.toCore = _ := cpu.perform_sbc bus h
    rw [hx]
    refine ⟨Core.subtract_computes _ a v _, rfl, Core.takeSum_agreesOff _ _, ?_⟩
    intro γ _ other away request' entry' hother ha hstatus hv y
    have hy : y.cpu.toCore = _ := other.perform_adc away hother
    rw [hy, ha, hstatus, hv, ← Byte.not_eq, ← subtractWithBorrow_eq]
    exact ⟨rfl, Core.takeSum_status_congr _ hstatus⟩
  · intro register hregister
    have hx : x.cpu.toCore = _ := cpu.perform_compare bus h hregister
    rw [hx]
    exact ⟨Core.compare_compares _ _ v, rfl, Core.setCarryZeroNegative_agreesOff _ _ _⟩
  · rintro rfl γ _ other away request' entry' hother ha hv hcarry y f hf
    have hx : x.cpu.toCore = _ := cpu.perform_compare bus h rfl
    have hy : y.cpu.toCore = _ := other.perform_sbc away hother
    rw [hx, hy, ha, hv, hcarry]
    exact Core.compare_get_eq _ _ a v hf

/-- A processor in decimal mode with `a` in the accumulator and the carry clear. -/
def holding (a : UInt8) (table : Opcode.Table) : Cpu :=
  { readyAt 0x400 table with registers := ⟨a, 2, 3, 0xFD, 0x400⟩, status := ⟨0x28⟩ }

/-- The accumulator is subtracted from itself with a borrow, and its complement is added to it. -/
theorem subtract_accumulator_from_itself :
    let sbc : Opcode.Entry := ⟨0xE9, "SBC", some .sbc, .accumulator, 1, 2, by decide, by decide⟩
    let adc : Opcode.Entry := ⟨0x69, "ADC", some .adc, .immediate, 2, 2, by decide, by decide⟩
    let cpu := holding 0x40 (Opcode.Table.empty.insert sbc)
    let other := holding 0x40 (Opcode.Table.empty.insert adc)
    let tape : Tape := ⟨[0xE9]⟩
    let away : Tape := ⟨[0x69, 0xBF]⟩
    (cpu.perform .step tape ()).cpu.registers.a = 0xFF ∧
      (cpu.perform .step tape ()).cpu.status.get .carry = false ∧
      (other.perform .execute away ()).cpu.registers.a = 0xFF ∧
      (other.perform .execute away ()).cpu.status = (cpu.perform .step tape ()).cpu.status := by
  intro sbc adc cpu other tape away
  have hsbc : cpu.Performs tape .step sbc .sbc :=
    ⟨rfl, .inr ⟨rfl, rfl⟩, Opcode.Table.lookup_insert_self _ sbc, rfl⟩
  have hadc : other.Performs away .execute adc .adc :=
    ⟨rfl, .inl rfl, Opcode.Table.lookup_insert_self _ adc, rfl⟩
  obtain ⟨-, -, -, -, hsubtract, -⟩ := cpu.arithmetic_agrees tape hsbc
  rcases hsubtract rfl with ⟨hcomputes, -, -, hagrees⟩
  have hcomplement : other.operandValue away adc.mode = 255 - cpu.operandValue tape sbc.mode := by
    decide +kernel
  rcases hagrees other away hadc rfl rfl hcomplement with ⟨hsame, hstatus⟩
  have hdifference : (cpu.registers.a.toNat : Int) - (cpu.operandValue tape sbc.mode).toNat -
      (1 - (cpu.status.get .carry).toNat) = -1 := by decide +kernel
  rw [hdifference] at hcomputes
  have hbyte : (cpu.perform .step tape ()).cpu.registers.a = 0xFF :=
    UInt8.toNat_inj.mp (Int.ofNat.inj hcomputes.accumulator)
  have hborrow : ¬(cpu.perform .step tape ()).cpu.status.get .carry = true :=
    mt hcomputes.carry.mp (by decide)
  exact ⟨hbyte, Bool.eq_false_iff.mpr hborrow, hsame.trans hbyte, hstatus⟩

end Cpu

end Nmos6502
