import Nmos6502.Proofs.Carrying

/-!
# Shifting through the carry

A rotation moves the nine bits of a byte and the carry around by one place.  If each byte of a
number is rotated in turn, and the carry handed on, the whole number is doubled or halved: doubling
begins with the least significant byte and halving with the most significant one.  A shift is a
rotation that takes in a clear carry.
-/

namespace Nmos6502

theorem Bool.eq_of_toNat_eq : ∀ {a b : Bool}, a.toNat = b.toNat → a = b := by
  decide

/-! ## One byte -/

namespace Shift

theorem rotateLeft_toNat (b : UInt8) (carry : Bool) :
    let r := rotateLeft.apply b carry
    r.1.toNat + 256 * r.2.toNat = 2 * b.toNat + carry.toNat := by
  have hb : b.toNat < 256 := b.toNat_lt
  have hcarry : carry.toNat < 2 ^ 1 := Bool.toNat_lt carry
  have hshifted : (b <<< 1).toNat = (b.toNat % 128) <<< 1 := by
    rw [UInt8.toNat_shiftLeft, Nat.shiftLeft_eq, Nat.shiftLeft_eq]
    change b.toNat * 2 % 256 = b.toNat % 128 * 2
    omega
  have hvalue : (b <<< 1 ||| carry.toUInt8).toNat = b.toNat % 128 * 2 + carry.toNat := by
    rw [UInt8.toNat_or, hshifted, Bool.toNat_toUInt8, ← Nat.shiftLeft_add_eq_or_of_lt hcarry,
      Nat.shiftLeft_eq]
  have hout : (b &&& 0x80 != 0).toNat = b.toNat / 128 % 2 := by
    rw [Byte.and_top, Nat.toNat_testBit]
  simp only [apply, hvalue, hout]
  omega

theorem rotateRight_toNat (b : UInt8) (carry : Bool) :
    let r := rotateRight.apply b carry
    2 * r.1.toNat + r.2.toNat = b.toNat + 256 * carry.toNat := by
  have hb : b.toNat < 256 := b.toNat_lt
  have hhalf : b.toNat / 2 < 2 ^ 7 := by omega
  have hshifted : (b >>> 1).toNat = b.toNat / 2 := by
    rw [UInt8.toNat_shiftRight, Nat.shiftRight_eq_div_pow]
    rfl
  have hcarry : (carry.toUInt8 <<< 7).toNat = carry.toNat <<< 7 := by
    cases carry <;> rfl
  have hvalue : (b >>> 1 ||| carry.toUInt8 <<< 7).toNat = carry.toNat * 128 + b.toNat / 2 := by
    rw [UInt8.toNat_or, hshifted, hcarry, Nat.or_comm, ← Nat.shiftLeft_add_eq_or_of_lt hhalf,
      Nat.shiftLeft_eq]
  have hout : (b &&& 0x01 != 0).toNat = b.toNat % 2 := by
    have hbit : (b &&& 0x01 != 0) = b.toNat.testBit 0 := Byte.and_bit b rfl
    rw [hbit, Nat.toNat_testBit, Nat.pow_zero, Nat.div_one]
  simp only [apply, hvalue, hout]
  omega

end Shift

/-- The way in which a number is shifted: to the left it is doubled, to the right it is halved. -/
inductive Turn where
  | left
  | right
deriving DecidableEq, Repr

namespace Turn

def back : Turn → Turn
  | left => right
  | right => left

def shift : Turn → Shift
  | left => .shiftLeft
  | right => .shiftRight

def rotation : Turn → Shift
  | left => .rotateLeft
  | right => .rotateRight

theorem shift_apply (turn : Turn) (b : UInt8) (carry : Bool) :
    turn.shift.apply b carry = turn.rotation.apply b false := by
  cases turn with
  | left => exact congrArg (·, _) UInt8.or_zero.symm
  | right => exact congrArg (·, _) UInt8.or_zero.symm

/-- Nine bits that go around one way come back the other way. -/
theorem rotation_back (turn : Turn) (b : UInt8) (carry : Bool) :
    let r := turn.rotation.apply b carry
    turn.back.rotation.apply r.1 r.2 = (b, carry) := by
  intro r
  have hsame : let s := turn.back.rotation.apply r.1 r.2
      s.1.toNat = b.toNat ∧ s.2.toNat = carry.toNat := by
    intro s
    have hb : b.toNat < 256 := b.toNat_lt
    have hs : s.1.toNat < 256 := s.1.toNat_lt
    have hcarry : carry.toNat ≤ 1 := carry.toNat_le
    have hout : s.2.toNat ≤ 1 := s.2.toNat_le
    cases turn with
    | left =>
        have hthere : r.1.toNat + 256 * r.2.toNat = _ := Shift.rotateLeft_toNat b carry
        have hback : 2 * s.1.toNat + s.2.toNat = _ := Shift.rotateRight_toNat r.1 r.2
        omega
    | right =>
        have hthere : 2 * r.1.toNat + r.2.toNat = _ := Shift.rotateRight_toNat b carry
        have hback : s.1.toNat + 256 * s.2.toNat = _ := Shift.rotateLeft_toNat r.1 r.2
        omega
  exact Prod.ext (UInt8.toNat_inj.mp hsame.1) (Bool.eq_of_toNat_eq hsame.2)

/-! ## Numbers of any length -/

variable (turn : Turn)

/-- The rotated bytes, where the carry is handed on from each to the next. -/
def rotated : Bool → List UInt8 → List UInt8
  | _, [] => []
  | carry, b :: rest =>
    let r := turn.rotation.apply b carry
    r.1 :: rotated r.2 rest

def carryOut : Bool → List UInt8 → Bool
  | carry, [] => carry
  | carry, b :: rest => carryOut (turn.rotation.apply b carry).2 rest

/-- The bytes of a number in the order in which they are rotated, from the least significant one
first, or back. -/
def order {α : Type} (list : List α) : List α :=
  match turn with
  | left => list
  | right => list.reverse

section Order

variable {α γ : Type} {list : List α}

theorem order_order : turn.order (turn.order list) = list := by
  cases turn with
  | left => rfl
  | right => exact List.reverse_reverse list

theorem order_map (f : α → γ) : turn.order (list.map f) = (turn.order list).map f := by
  cases turn with
  | left => rfl
  | right => exact List.map_reverse.symm

theorem order_perm : (turn.order list).Perm list := by
  cases turn with
  | left => exact .refl list
  | right => exact List.reverse_perm list

end Order

theorem length_rotated (carry : Bool) (bytes : List UInt8) :
    (turn.rotated carry bytes).length = bytes.length := by
  induction bytes generalizing carry with
  | nil => rfl
  | cons b rest ih => exact congrArg (· + 1) (ih _)

theorem number_rotated_left (carry : Bool) (bytes : List UInt8) :
    Bytes.number (left.rotated carry bytes) +
        256 ^ bytes.length * (left.carryOut carry bytes).toNat =
      2 * Bytes.number bytes + carry.toNat := by
  induction bytes generalizing carry with
  | nil => simp [rotated, carryOut, Bytes.number]
  | cons b rest ih =>
      have hfirst := Shift.rotateLeft_toNat b carry
      have hrest := ih (Shift.rotateLeft.apply b carry).2
      simp only [rotated, carryOut, rotation, Bytes.number_cons, List.length_cons]
      generalize Shift.rotateLeft.apply b carry = r at hfirst hrest ⊢
      calc
        r.1.toNat + 256 * Bytes.number (left.rotated r.2 rest) +
              256 ^ (rest.length + 1) * (left.carryOut r.2 rest).toNat =
            r.1.toNat + 256 * (Bytes.number (left.rotated r.2 rest) +
              256 ^ rest.length * (left.carryOut r.2 rest).toNat) := by
          ring
        _ = r.1.toNat + 256 * r.2.toNat + 512 * Bytes.number rest := by
          rw [hrest]
          ring
        _ = _ := by
          rw [hfirst]
          ring

theorem number_rotated_right (carry : Bool) (bytes : List UInt8) :
    2 * Bytes.number (right.rotated carry bytes).reverse + (right.carryOut carry bytes).toNat =
      Bytes.number bytes.reverse + 256 ^ bytes.length * carry.toNat := by
  induction bytes generalizing carry with
  | nil => simp [rotated, carryOut, Bytes.number]
  | cons b rest ih =>
      have hfirst := Shift.rotateRight_toNat b carry
      have hrest := ih (Shift.rotateRight.apply b carry).2
      simp only [rotated, carryOut, rotation, List.reverse_cons, Bytes.number_append_singleton,
        List.length_reverse, length_rotated, List.length_cons]
      generalize Shift.rotateRight.apply b carry = r at hfirst hrest ⊢
      calc
        2 * (Bytes.number (right.rotated r.2 rest).reverse + 256 ^ rest.length * r.1.toNat) +
              (right.carryOut r.2 rest).toNat =
            2 * Bytes.number (right.rotated r.2 rest).reverse +
              (right.carryOut r.2 rest).toNat + 256 ^ rest.length * (2 * r.1.toNat) := by
          ring
        _ = Bytes.number rest.reverse + 256 ^ rest.length * (2 * r.1.toNat + r.2.toNat) := by
          rw [hrest]
          ring
        _ = _ := by
          rw [hfirst]
          ring

/-- What becomes of a number of `n` bytes, and of the bit that leaves it. -/
def Shifts (n before after : Nat) (out : Bool) : Prop :=
  match turn with
  | left => after = 2 * before % 256 ^ n ∧ out = before.testBit (8 * n - 1)
  | right => after = before / 2 ∧ out = decide (before % 2 = 1)

theorem shifts_number_left {bytes : List UInt8} (hne : bytes ≠ []) :
    left.Shifts bytes.length (Bytes.number bytes) (Bytes.number (left.rotated false bytes))
      (left.carryOut false bytes) := by
  have hsum := number_rotated_left false bytes
  have hbound := Bytes.number_lt (left.rotated false bytes)
  rw [length_rotated] at hbound
  rw [Bool.toNat_false, Nat.add_zero] at hsum
  generalize Bytes.number (left.rotated false bytes) = doubled at hsum hbound ⊢
  generalize left.carryOut false bytes = out at hsum ⊢
  have hpow : 256 ^ bytes.length = 2 * 2 ^ (8 * bytes.length - 1) := by
    have hlength : 0 < bytes.length := List.length_pos_iff.mpr hne
    have hbits : 8 * bytes.length = 8 * bytes.length - 1 + 1 := by omega
    rw [← Nat.pow_succ', Nat.succ_eq_add_one, ← hbits, Nat.pow_mul]
  have htop : Bytes.number bytes / 2 ^ (8 * bytes.length - 1) = out.toNat := by
    rw [← Nat.mul_div_mul_left _ _ Nat.two_pos, ← hpow, ← hsum,
      Nat.add_mul_div_left _ _ (Nat.zero_lt_of_lt hbound), Nat.div_eq_of_lt hbound, Nat.zero_add]
  refine ⟨?_, Bool.eq_of_toNat_eq ?_⟩
  · rw [← hsum, Nat.add_mul_mod_self_left, Nat.mod_eq_of_lt hbound]
  · rw [Nat.toNat_testBit, htop]
    exact (Nat.mod_eq_of_lt (Bool.toNat_lt out)).symm

theorem shifts_number_right (bytes : List UInt8) :
    right.Shifts bytes.length (Bytes.number bytes.reverse)
      (Bytes.number (right.rotated false bytes).reverse) (right.carryOut false bytes) := by
  have hsum := number_rotated_right false bytes
  rw [Bool.toNat_false, Nat.mul_zero, Nat.add_zero] at hsum
  generalize right.carryOut false bytes = out at hsum ⊢
  have hout : out.toNat ≤ 1 := Bool.toNat_le out
  have hbottom : Bytes.number bytes.reverse % 2 = out.toNat := by omega
  refine ⟨by omega, ?_⟩
  rw [hbottom]
  cases out <;> rfl

/-- Rotated in this order, with the carry clear at first, a number is doubled or halved. -/
theorem shifts_number {bytes : List UInt8} (hne : bytes ≠ []) :
    turn.Shifts bytes.length (Bytes.number bytes)
      (Bytes.number (turn.order (turn.rotated false (turn.order bytes))))
      (turn.carryOut false (turn.order bytes)) := by
  cases turn with
  | left => exact shifts_number_left hne
  | right =>
      have hright := shifts_number_right bytes.reverse
      rw [List.length_reverse, List.reverse_reverse] at hright
      exact hright

end Turn

end Nmos6502
