import Mathlib.Data.Nat.Bitwise
import Mathlib.Data.Nat.Digits.Defs
import Mathlib.Tactic.LinearCombination
import Mathlib.Tactic.Positivity
import Nmos6502.Cpu.Arithmetic
import Nmos6502.Proofs.Numerals

/-!
# Adding with carry

The arithmetic on bytes in whole numbers, and what comes of it when the carry is handed on from byte
to byte: the sum of numbers of any length, least significant byte first, and whether it fits as a
signed number of that length.  A subtraction is the addition of the complement.
-/

namespace Nmos6502

/-! ## One byte -/

namespace Byte

theorem and_bit (b : UInt8) {mask : UInt8} {i : Nat} (hmask : mask.toNat = 2 ^ i) :
    (b &&& mask != 0) = b.toNat.testBit i := by
  have hand : (b &&& mask).toNat = (b.toNat.testBit i).toNat * 2 ^ i := by
    rw [UInt8.toNat_and, hmask]
    exact Nat.and_two_pow b.toNat i
  cases hbit : b.toNat.testBit i with
  | false =>
      have hzero : b &&& mask = 0 := UInt8.toNat_inj.mp (by simpa [hbit] using hand)
      simp [hzero]
  | true =>
      have hne : b &&& mask ≠ 0 := by
        intro hzero
        have hpow : 2 ^ i = 0 := by simpa [hzero, hbit] using hand.symm
        exact absurd hpow (Nat.two_pow_pos i).ne'
      simpa using hne

theorem and_top (b : UInt8) : (b &&& 0x80 != 0) = b.toNat.testBit 7 :=
  and_bit b rfl

theorem testBit_top (b : UInt8) : b.toNat.testBit 7 = decide (128 ≤ b.toNat) := by
  have hlt : b.toNat < 256 := b.toNat_lt
  rw [Nat.testBit_eq_decide_div_mod_eq, decide_eq_decide]
  omega

theorem and_top_iff (b : UInt8) : (b &&& 0x80 != 0) = true ↔ 128 ≤ b.toNat := by
  rw [and_top, testBit_top, decide_eq_true_iff]

theorem signs_differ_iff (w x y z : UInt8) :
    ((w ^^^ x) &&& (y ^^^ z) &&& 0x80 != 0) = true ↔
      (128 ≤ w.toNat ↔ ¬128 ≤ x.toNat) ∧ (128 ≤ y.toNat ↔ ¬128 ≤ z.toNat) := by
  rw [and_top, UInt8.toNat_and, UInt8.toNat_xor, UInt8.toNat_xor, Nat.testBit_and, Nat.testBit_xor,
    Nat.testBit_xor, testBit_top, testBit_top, testBit_top, testBit_top]
  grind

end Byte

theorem Bool.toNat_toUInt8 (b : Bool) : b.toUInt8.toNat = b.toNat := by
  cases b <;> rfl

theorem addWithCarry_toNat (a m : UInt8) (carry : Bool) :
    let sum := addWithCarry a m carry
    sum.value.toNat + 256 * sum.carry.toNat = a.toNat + m.toNat + carry.toNat := by
  have ha : a.toNat < 256 := a.toNat_lt
  have hm : m.toNat < 256 := m.toNat_lt
  have hcarry : carry.toNat ≤ 1 := carry.toNat_le
  have hvalue : (a + m + carry.toUInt8).toNat = (a.toNat + m.toNat + carry.toNat) % 256 := by
    simp [UInt8.toNat_add, Bool.toNat_toUInt8]
  simp only [addWithCarry, hvalue]
  by_cases hout : a.toNat + m.toNat + carry.toNat > 255
  · simp only [hout, decide_true, Bool.toNat_true]
    omega
  · simp only [hout, decide_false, Bool.toNat_false]
    omega

theorem addWithCarry_overflow_iff (a m : UInt8) (carry : Bool) :
    let total := Byte.signed a + Byte.signed m + carry.toNat
    (addWithCarry a m carry).overflow = true ↔ ¬(-128 ≤ total ∧ total < 128) := by
  intro total
  have ha : a.toNat < 256 := a.toNat_lt
  have hm : m.toNat < 256 := m.toNat_lt
  have hcarry : carry.toNat ≤ 1 := carry.toNat_le
  have hsum := addWithCarry_toNat a m carry
  have hsigns : (addWithCarry a m carry).overflow = true ↔ _ :=
    Byte.signs_differ_iff a (addWithCarry a m carry).value m (addWithCarry a m carry).value
  generalize addWithCarry a m carry = sum at hsum hsigns ⊢
  have hvalue : sum.value.toNat < 256 := sum.value.toNat_lt
  have hout : sum.carry.toNat ≤ 1 := sum.carry.toNat_le
  simp only at hsum
  rw [hsigns]
  simp only [total, Byte.signed]
  split <;> split <;> omega

/-- To subtract is to add the complement. -/
theorem subtractWithBorrow_eq (a m : UInt8) (carry : Bool) :
    subtractWithBorrow a m carry = addWithCarry a (~~~m) carry := by
  have ha : a.toNat < 256 := a.toNat_lt
  have hm : m.toNat < 256 := m.toNat_lt
  have hcarry : carry.toNat ≤ 1 := carry.toNat_le
  have hnot : (~~~m).toNat = 255 - m.toNat := m.toNat_not
  have hborrow : (!carry).toNat = 1 - carry.toNat := by
    cases carry <;> rfl
  have hvalue : a - m - (!carry).toUInt8 = a + ~~~m + carry.toUInt8 := by
    apply UInt8.toNat_inj.mp
    simp only [UInt8.toNat_sub, UInt8.toNat_add, Bool.toNat_toUInt8, hborrow, hnot]
    omega
  have hout : m.toNat + (!carry).toNat ≤ a.toNat ↔ a.toNat + (~~~m).toNat + carry.toNat > 255 := by
    rw [hborrow, hnot]
    omega
  simp only [subtractWithBorrow, addWithCarry, hvalue, hout, Sum.mk.injEq, true_and]
  apply Bool.eq_iff_iff.mpr
  rw [Byte.signs_differ_iff, Byte.signs_differ_iff, hnot]
  omega

/-! ## Numbers of any length -/

namespace Bytes

/-- The number with these bytes, the least significant one first. -/
def number (bytes : List UInt8) : Nat := Nat.ofDigits 256 (bytes.map UInt8.toNat)

def signed (bytes : List UInt8) : Int :=
  if 2 * number bytes < 256 ^ bytes.length then number bytes
  else number bytes - 256 ^ bytes.length

theorem number_cons (b : UInt8) (bytes : List UInt8) :
    number (b :: bytes) = b.toNat + 256 * number bytes :=
  Nat.ofDigits_cons

theorem number_lt (bytes : List UInt8) : number bytes < 256 ^ bytes.length := by
  have hdigits : ∀ digit ∈ bytes.map UInt8.toNat, digit < 256 := by
    intro digit hmem
    rcases List.mem_map.mp hmem with ⟨b, -, rfl⟩
    exact b.toNat_lt
  simpa [number] using Nat.ofDigits_lt_base_pow_length (by decide) hdigits

theorem number_append_singleton (low : List UInt8) (top : UInt8) :
    number (low ++ [top]) = number low + 256 ^ low.length * top.toNat := by
  simp [number, Nat.ofDigits_append]

theorem signed_append_singleton (low : List UInt8) (top : UInt8) :
    signed (low ++ [top]) = number low + 256 ^ low.length * Byte.signed top := by
  have hlow := number_lt low
  have hpow : 256 ^ (low ++ [top]).length = 256 * 256 ^ low.length := by
    rw [List.length_append, List.length_singleton, Nat.pow_succ, Nat.mul_comm]
  have hhalf : 2 * number (low ++ [top]) < 256 ^ (low ++ [top]).length ↔ top.toNat < 128 := by
    rw [number_append_singleton, hpow]
    constructor
    · intro hlt
      by_contra htop
      have hle : 256 ^ low.length * 128 ≤ 256 ^ low.length * top.toNat :=
        Nat.mul_le_mul_left _ (Nat.not_lt.mp htop)
      omega
    · intro htop
      have hle : 256 ^ low.length * top.toNat ≤ 256 ^ low.length * 127 :=
        Nat.mul_le_mul_left _ (Nat.le_of_lt_succ htop)
      omega
  unfold signed Byte.signed
  rw [number_append_singleton] at hhalf ⊢
  by_cases htop : top.toNat < 128
  · rw [if_pos (hhalf.mpr htop), if_pos htop]
    push_cast
    rfl
  · rw [if_neg (mt hhalf.mp htop), if_neg htop]
    have hpower : (256 : Int) ^ (low ++ [top]).length = 256 * 256 ^ low.length := by
      exact_mod_cast hpow
    rw [hpower]
    push_cast
    ring

theorem number_complement (bytes : List UInt8) :
    number (bytes.map (~~~·)) + number bytes + 1 = 256 ^ bytes.length := by
  induction bytes with
  | nil => rfl
  | cons b rest ih =>
      have hlt : b.toNat < 256 := b.toNat_lt
      have hnot : (~~~b).toNat = 255 - b.toNat := b.toNat_not
      rw [List.map_cons, number_cons, number_cons, List.length_cons, Nat.pow_succ, ← ih, hnot]
      omega

theorem signed_complement (bytes : List UInt8) (hne : bytes ≠ []) :
    signed (bytes.map (~~~·)) = -1 - signed bytes := by
  have hsum := number_complement bytes
  obtain ⟨half, heven⟩ : ∃ half, 256 ^ bytes.length = 2 * half := by
    have hlength : bytes.length ≠ 0 := mt List.length_eq_zero_iff.mp hne
    exact (Nat.even_pow.mpr ⟨by decide, hlength⟩).two_dvd
  have hpower : (256 : Int) ^ bytes.length = 2 * half := by
    exact_mod_cast heven
  unfold signed
  rw [List.length_map, hpower, heven]
  split <;> split <;> omega

/-- The sum with the complement and one is the difference, and a carry out of it says that nothing
had to be borrowed. -/
theorem sub_of_add_complement
    {size a m complement d : Nat} {carry : Bool} (hcomplement : complement + m + 1 = size)
    (hsum : d + size * carry.toNat = a + complement + 1) (hd : d < size) :
    (d : Int) = (a - m) % size ∧ (carry = true ↔ m ≤ a) := by
  cases carry with
  | false =>
      have hdifference : (a : Int) - m = d + size * -1 := by
        rw [Bool.toNat_false] at hsum
        omega
      rw [hdifference, Int.add_mul_emod_self_left, Int.emod_eq_of_lt (by omega) (by omega)]
      simp only [Bool.toNat_false] at hsum
      exact ⟨rfl, by simp; omega⟩
  | true =>
      rw [Bool.toNat_true] at hsum
      have hdifference : (a : Int) - m = d := by omega
      rw [hdifference, Int.emod_eq_of_lt (by omega) (by omega)]
      exact ⟨rfl, by simp; omega⟩

/-- The sums of the pairs, where the carry is handed on from each to the next. -/
def sums : Bool → List (UInt8 × UInt8) → List UInt8
  | _, [] => []
  | carry, (a, m) :: rest =>
    let sum := addWithCarry a m carry
    sum.value :: sums sum.carry rest

def carryOut : Bool → List (UInt8 × UInt8) → Bool
  | carry, [] => carry
  | carry, (a, m) :: rest => carryOut (addWithCarry a m carry).carry rest

theorem length_sums (carry : Bool) (pairs : List (UInt8 × UInt8)) :
    (sums carry pairs).length = pairs.length := by
  induction pairs generalizing carry with
  | nil => rfl
  | cons pair rest ih => exact congrArg (· + 1) (ih _)

theorem number_sums (carry : Bool) (pairs : List (UInt8 × UInt8)) :
    number (sums carry pairs) + 256 ^ pairs.length * (carryOut carry pairs).toNat =
      number (pairs.map Prod.fst) + number (pairs.map Prod.snd) + carry.toNat := by
  induction pairs generalizing carry with
  | nil => simp [sums, carryOut, number]
  | cons pair rest ih =>
      rcases pair with ⟨a, m⟩
      have hfirst := addWithCarry_toNat a m carry
      have hrest := ih (addWithCarry a m carry).carry
      simp only [sums, carryOut, List.map_cons, number_cons, List.length_cons]
      generalize addWithCarry a m carry = sum at hfirst hrest ⊢
      calc
        sum.value.toNat + 256 * number (sums sum.carry rest) +
              256 ^ (rest.length + 1) * (carryOut sum.carry rest).toNat =
            sum.value.toNat + 256 * (number (sums sum.carry rest) +
              256 ^ rest.length * (carryOut sum.carry rest).toNat) := by
          ring
        _ = sum.value.toNat + 256 * sum.carry.toNat + 256 * (number (rest.map Prod.fst) +
              number (rest.map Prod.snd)) := by
          rw [hrest]
          ring
        _ = _ := by
          rw [hfirst]
          ring

theorem sums_append (carry : Bool) (first second : List (UInt8 × UInt8)) :
    sums carry (first ++ second) = sums carry first ++ sums (carryOut carry first) second := by
  induction first generalizing carry with
  | nil => rfl
  | cons pair rest ih => exact congrArg (_ :: ·) (ih _)

theorem carryOut_append (carry : Bool) (first second : List (UInt8 × UInt8)) :
    carryOut carry (first ++ second) = carryOut (carryOut carry first) second := by
  induction first generalizing carry with
  | nil => rfl
  | cons pair rest ih => exact ih _

def InRange (n : Nat) (z : Int) : Prop := -2 ^ (8 * n - 1) ≤ z ∧ z < 2 ^ (8 * n - 1)

/-- What is below the top bytes has no influence on the range but through the carry. -/
theorem inRange_iff (k : Nat) {low : Nat} (top : Int) (hlow : low < 256 ^ k) :
    InRange (k + 1) (low + 256 ^ k * top) ↔ -128 ≤ top ∧ top < 128 := by
  have hpow : (2 : Int) ^ (8 * (k + 1) - 1) = 256 ^ k * 128 := by
    rw [show 8 * (k + 1) - 1 = 8 * k + 7 by omega, pow_add, pow_mul]
    norm_num
  have hlt : (low : Int) < 256 ^ k := by exact_mod_cast hlow
  have hpos : (0 : Int) < 256 ^ k := by positivity
  have hquotient : (low + 256 ^ k * top) / 256 ^ k = top := by
    rw [Int.add_mul_ediv_left _ _ (ne_of_gt hpos),
      Int.ediv_eq_zero_of_lt (Int.natCast_nonneg low) hlt, zero_add]
  have hleast : -128 ≤ top ↔ -128 * 256 ^ k ≤ low + 256 ^ k * top := by
    rw [← Int.le_ediv_iff_mul_le hpos, hquotient]
  have hmost : top < 128 ↔ low + 256 ^ k * top < 128 * 256 ^ k := by
    rw [← Int.ediv_lt_iff_lt_mul hpos, hquotient]
  rw [InRange, hpow, hleast, hmost, mul_comm, neg_mul]

/-- The last addition overflows exactly if the whole sum is out of range. -/
theorem overflow_iff (carry : Bool) (low : List (UInt8 × UInt8)) (a m : UInt8) :
    let total := signed (low.map Prod.fst ++ [a]) + signed (low.map Prod.snd ++ [m]) + carry.toNat
    (addWithCarry a m (carryOut carry low)).overflow = true ↔ ¬InRange (low.length + 1) total := by
  intro total
  have hsums := number_sums carry low
  have hbound := number_lt (sums carry low)
  rw [length_sums] at hbound
  have hcast : (number (sums carry low) : Int) + 256 ^ low.length * (carryOut carry low).toNat =
      number (low.map Prod.fst) + number (low.map Prod.snd) + carry.toNat := by
    exact_mod_cast hsums
  have htotal : total = number (sums carry low) + 256 ^ low.length *
      (Byte.signed a + Byte.signed m + (carryOut carry low).toNat) := by
    simp only [total, signed_append_singleton, List.length_map]
    linear_combination -hcast
  -- The sums of the lower bytes are too small to matter: only their carry reaches the top.
  rw [htotal, inRange_iff _ _ hbound]
  exact addWithCarry_overflow_iff a m (carryOut carry low)

end Bytes

end Nmos6502
