import Nmos6502.Cpu.Operand

/-!
# Bytes and words as numbers

What the bitwise definitions on bytes and words say in whole numbers: a word from its two bytes, the
page of an address, the next cell on a page, the cells of the stack, and a displacement read as a
signed number.
-/

namespace Nmos6502

namespace Word

theorem toNat_ofBytes (low high : UInt8) :
    (ofBytes low high).toNat = low.toNat + 256 * high.toNat := by
  have hlt : high.toNat < 256 := high.toNat_lt
  have hshift : high.toNat <<< 8 = high.toNat * 256 := Nat.shiftLeft_eq _ 8
  have hfits : high.toNat <<< 8 % 2 ^ 16 = high.toNat <<< 8 := by
    apply Nat.mod_eq_of_lt
    omega
  rw [ofBytes, UInt16.toNat_or, UInt16.toNat_shiftLeft, UInt8.toNat_toUInt16, UInt8.toNat_toUInt16]
  change low.toNat ||| high.toNat <<< 8 % 2 ^ 16 = _
  rw [hfits, Nat.or_comm, ← Nat.shiftLeft_add_eq_or_of_lt low.toNat_lt]
  omega

theorem toNat_low (w : UInt16) : (low w).toNat = w.toNat % 256 := by
  rw [low, UInt16.toNat_toUInt8]

theorem toNat_high (w : UInt16) : (high w).toNat = w.toNat / 256 := by
  have hlt : w.toNat < 65536 := w.toNat_lt
  rw [high, UInt16.toNat_toUInt8, UInt16.toNat_shiftRight]
  change w.toNat >>> 8 % 256 = _
  rw [Nat.shiftRight_eq_div_pow]
  omega

theorem ofBytes_low_high (w : UInt16) : ofBytes (low w) (high w) = w := by
  apply UInt16.toNat_inj.mp
  rw [toNat_ofBytes, toNat_low, toNat_high]
  omega

theorem low_ofBytes (first second : UInt8) : low (ofBytes first second) = first := by
  have hlt : first.toNat < 256 := first.toNat_lt
  apply UInt8.toNat_inj.mp
  rw [toNat_low, toNat_ofBytes]
  omega

theorem high_ofBytes (first second : UInt8) : high (ofBytes first second) = second := by
  have hlt : first.toNat < 256 := first.toNat_lt
  apply UInt8.toNat_inj.mp
  rw [toNat_high, toNat_ofBytes]
  omega

theorem succ_ne_self (w : UInt16) : w + 1 ≠ w := by
  intro heq
  have hnat := congrArg UInt16.toNat heq
  have hlt : w.toNat < 65536 := w.toNat_lt
  rw [UInt16.toNat_add] at hnat
  change (w.toNat + 1) % 65536 = w.toNat at hnat
  omega

theorem succ_add_ofNat (w : UInt16) (n : Nat) : w + 1 + .ofNat n = w + .ofNat (n + 1) := by
  rw [UInt16.ofNat_add, UInt16.add_assoc, UInt16.add_comm 1]
  rfl

theorem toNat_and_high (w : UInt16) : (w &&& 0xFF00).toNat = w.toNat / 256 * 256 := by
  have hlt : w.toNat < 65536 := w.toNat_lt
  have hhigh : (w.toNat &&& 0xFF00) / 2 ^ 8 = w.toNat / 2 ^ 8 &&& 2 ^ 8 - 1 := Nat.and_div_two_pow
  have hlow : (w.toNat &&& 0xFF00) % 2 ^ 8 = w.toNat % 2 ^ 8 &&& 0 := Nat.and_mod_two_pow
  rw [Nat.and_two_pow_sub_one_eq_mod] at hhigh
  rw [Nat.and_zero] at hlow
  rw [UInt16.toNat_and]
  change w.toNat &&& 0xFF00 = _
  omega

theorem toNat_and_low (w : UInt16) : (w &&& 0x00FF).toNat = w.toNat % 256 := by
  rw [UInt16.toNat_and]
  exact Nat.and_two_pow_sub_one_eq_mod w.toNat 8

end Word

/-! ## Pages -/

theorem crossesPage_iff (a b : UInt16) :
    crossesPage a b = true ↔ a.toNat / 256 ≠ b.toNat / 256 := by
  have hpages : a &&& 0xFF00 = b &&& 0xFF00 ↔ a.toNat / 256 = b.toNat / 256 := by
    rw [← UInt16.toNat_inj, Word.toNat_and_high, Word.toNat_and_high]
    omega
  simp [crossesPage, hpages]

/-- Indexing leaves the page exactly if the low bytes carry, also where the sum wraps around. -/
theorem crossesPage_add_iff (base : UInt16) (index : UInt8) :
    crossesPage base (base + index.toUInt16) = true ↔
      256 ≤ base.toNat % 256 + index.toNat := by
  have hbase : base.toNat < 65536 := base.toNat_lt
  have hindex : index.toNat < 256 := index.toNat_lt
  have hsum : (base + index.toUInt16).toNat = (base.toNat + index.toNat) % 65536 := by
    rw [UInt16.toNat_add, UInt8.toNat_toUInt16]
  rw [crossesPage_iff, hsum]
  omega

theorem toNat_nextOnPage (pointer : UInt16) :
    (nextOnPage pointer).toNat = pointer.toNat / 256 * 256 + (pointer.toNat + 1) % 256 := by
  have hnext : (pointer + 1).toNat % 256 = (pointer.toNat + 1) % 256 := by
    rw [UInt16.toNat_add]
    exact Nat.mod_mod_of_dvd _ (by decide)
  have hpage : pointer.toNat / 256 * 256 = (pointer.toNat / 256) <<< 8 :=
    (Nat.shiftLeft_eq _ 8).symm
  have hbyte : (pointer.toNat + 1) % 256 < 2 ^ 8 := Nat.mod_lt _ (by decide)
  rw [nextOnPage, UInt16.toNat_or, Word.toNat_and_high, Word.toNat_and_low, hnext, hpage,
    ← Nat.shiftLeft_add_eq_or_of_lt hbyte]

theorem Core.stackCell_eq (sp : UInt8) : stackCell sp = .ofNat (0x100 + sp.toNat) := by
  have hsp : sp.toNat < 256 := sp.toNat_lt
  apply UInt16.toNat_inj.mp
  rw [stackCell, UInt16.toNat_or, UInt8.toNat_toUInt16, UInt16.toNat_ofNat']
  change 1 <<< 8 ||| sp.toNat = _
  rw [← Nat.shiftLeft_add_eq_or_of_lt hsp]
  omega

/-! ## Signed bytes -/

/-- The byte as a number from -128 to 127. -/
def Byte.signed (byte : UInt8) : Int :=
  if byte.toNat < 128 then byte.toNat else byte.toNat - 256

theorem Word.toNat_displace (w : UInt16) (displacement : UInt8) :
    ((displace w displacement).toNat : Int) = (w.toNat + Byte.signed displacement) % 65536 := by
  have hextended : displacement.toInt8.toInt16.toUInt16.toNat =
      displacement.toNat + if 128 ≤ displacement.toNat then 65280 else 0 := by
    change (displacement.toBitVec.signExtend 16).toNat = _
    rw [BitVec.toNat_signExtend, BitVec.msb_eq_decide]
    simp
  have hw : w.toNat < 65536 := w.toNat_lt
  have hdisplacement : displacement.toNat < 256 := displacement.toNat_lt
  rw [displace, UInt16.toNat_add, hextended, Byte.signed]
  split <;> split <;> omega

end Nmos6502
