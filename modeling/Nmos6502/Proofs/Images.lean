import Mathlib.Data.List.Induction
import Mathlib.Order.Bounds.Basic
import Nmos6502.Memory.Image
import Nmos6502.Proofs.Numerals

/-!
# Images in memory

A loaded image may be longer than the address space, and then comes around to cells that it has
filled before.  Each cell keeps the last byte that comes to it, so that loading is the same in one
go and in pieces.  A word is an image of two bytes, also where it lies across the top of the address
space.
-/

namespace Nmos6502.Memory

/-! ## Images in pieces -/

theorem load_append (m : Memory) (base : UInt16) (first second : List UInt8) :
    m.load base (first ++ second) =
      (m.load base first).load (base + .ofNat first.length) second := by
  induction first generalizing m base with
  | nil => simp
  | cons byte rest ih =>
      rw [List.cons_append, load_cons, ih, Word.succ_add_ofNat, load_cons, List.length_cons]

theorem load_concat (m : Memory) (base : UInt16) (image : List UInt8) (byte : UInt8) :
    m.load base (image ++ [byte]) =
      (m.load base image).write (base + .ofNat image.length) byte := by
  rw [load_append, load_cons, load_nil]

/-! ## The last byte for a cell -/

/-- The places of the bytes that come to `address` out of so many bytes from `base` upwards. -/
def landings (base : UInt16) (length : Nat) (address : UInt16) : Set Nat :=
  {j | j < length ∧ (base.toNat + j) % 65536 = address.toNat}

section Landings

variable {base address : UInt16} {length j : Nat}

theorem add_ofNat_eq_iff :
    base + .ofNat j = address ↔ (base.toNat + j) % 65536 = address.toNat := by
  rw [← UInt16.toNat_inj, UInt16.toNat_add, UInt16.toNat_ofNat']
  change (base.toNat + j % 65536) % 65536 = _ ↔ _
  rw [Nat.add_mod_mod]

theorem isGreatest_landings_succ (hlands : (base.toNat + length) % 65536 = address.toNat) :
    IsGreatest (landings base (length + 1) address) length :=
  ⟨⟨Nat.lt_succ_self _, hlands⟩, fun _ hother => Nat.le_of_lt_succ hother.1⟩

theorem landings_succ_of_ne (haway : (base.toNat + length) % 65536 ≠ address.toNat) :
    landings base (length + 1) address = landings base length address := by
  ext k
  simp only [landings, Set.mem_ofPred_eq, Nat.lt_succ_iff_lt_or_eq]
  grind

end Landings

/-- A cell holds the last byte that comes to it, and what it held before if none does. -/
theorem read_load (m : Memory) (base : UInt16) (image : List UInt8) (address : UInt16) :
    (∃ j, IsGreatest (landings base image.length address) j ∧
        image[j]? = some ((m.load base image).read address)) ∨
      (landings base image.length address = ∅ ∧
        (m.load base image).read address = m.read address) := by
  induction image using List.reverseRecOn with
  | nil => exact .inr ⟨by simp [landings], rfl⟩
  | append_singleton image byte ih =>
      rw [load_concat, List.length_append, List.length_singleton]
      by_cases hlands : (base.toNat + image.length) % 65536 = address.toNat
      · rw [add_ofNat_eq_iff.mpr hlands, read_write_self]
        exact .inl ⟨image.length, isGreatest_landings_succ hlands, by simp⟩
      · have hne : address ≠ base + .ofNat image.length :=
          fun heq => hlands (add_ofNat_eq_iff.mp heq.symm)
        rw [read_write_of_ne _ _ hne, landings_succ_of_ne hlands]
        refine ih.imp_left fun hlast => ?_
        rcases hlast with ⟨j, hgreatest, hbyte⟩
        refine ⟨j, hgreatest, ?_⟩
        rw [List.getElem?_append_left hgreatest.1.1, hbyte]

/-- Outside of its image a fresh memory is zero. -/
theorem read_ofImage (base : UInt16) (image : List UInt8) (address : UInt16) :
    (∃ j, IsGreatest (landings base image.length address) j ∧
        image[j]? = some ((ofImage base image).read address)) ∨
      (landings base image.length address = ∅ ∧ (ofImage base image).read address = 0) := by
  have hread := zeroed.read_load base image address
  rwa [read_zeroed] at hread

/-! ## Words -/

section Words

variable (m : Memory) (address : UInt16)

theorem writeWord_eq_load (w : UInt16) :
    m.writeWord address w = m.load address [Word.low w, Word.high w] := rfl

theorem load_pair (first second : UInt8) :
    m.load address [first, second] = m.writeWord address (Word.ofBytes first second) := by
  rw [writeWord_eq_load, Word.low_ofBytes, Word.high_ofBytes]

theorem read_writeWord_low (w : UInt16) : (m.writeWord address w).read address = Word.low w := by
  rw [writeWord, read_write_of_ne _ _ (Word.succ_ne_self address).symm, read_write_self]

theorem read_writeWord_high (w : UInt16) :
    (m.writeWord address w).read (address + 1) = Word.high w := by
  rw [writeWord, read_write_self]

theorem readWord_writeWord (w : UInt16) : (m.writeWord address w).readWord address = w := by
  rw [readWord, read_writeWord_low, read_writeWord_high, Word.ofBytes_low_high]

theorem read_writeWord_of_ne (w : UInt16) {other : UInt16}
    (hlow : other ≠ address) (hhigh : other ≠ address + 1) :
    (m.writeWord address w).read other = m.read other := by
  rw [writeWord, read_write_of_ne _ _ hhigh, read_write_of_ne _ _ hlow]

end Words

/-- After an image of any length has been loaded, each cell holds the last byte that has come to it,
and a cell that none has come to is as it was; the image may also be loaded in two pieces.  Words
and vectors are images of two bytes, low byte first, wherever they lie. -/
theorem last_byte_of_image_stays (m : Memory) :
    (∀ base image address,
      (∃ j, IsGreatest (landings base image.length address) j ∧
          image[j]? = some ((m.load base image).read address)) ∨
        (landings base image.length address = ∅ ∧
          (m.load base image).read address = m.read address)) ∧
      (∀ base first second,
        m.load base (first ++ second) =
          (m.load base first).load (.ofNat ((base.toNat + first.length) % 65536)) second) ∧
      (∀ address w,
        (m.writeWord address w).readWord address = w ∧
          (∀ other, other ≠ address → other ≠ address + 1 →
            (m.writeWord address w).read other = m.read other) ∧
          m.writeWord address w = m.load address [.ofNat (w.toNat % 256), .ofNat (w.toNat / 256)]) ∧
      (∀ address low high,
        ((m.load address [low, high]).readWord address).toNat = low.toNat + 256 * high.toNat) ∧
      ∀ target,
        m.setResetVector target =
            m.load 0xFFFC [.ofNat (target.toNat % 256), .ofNat (target.toNat / 256)] ∧
          m.setIrqVector target =
            m.load 0xFFFE [.ofNat (target.toNat % 256), .ofNat (target.toNat / 256)] := by
  have hpieces : ∀ (base : UInt16) (n : Nat),
      UInt16.ofNat ((base.toNat + n) % 65536) = base + .ofNat n := by
    intro base n
    symm
    rw [add_ofNat_eq_iff, UInt16.toNat_ofNat']
    exact (Nat.mod_mod _ _).symm
  have hbytes : ∀ (address w : UInt16),
      m.writeWord address w = m.load address [.ofNat (w.toNat % 256), .ofNat (w.toNat / 256)] := by
    intro address w
    rw [writeWord_eq_load, ← Word.toNat_low, ← Word.toNat_high, UInt8.ofNat_toNat,
      UInt8.ofNat_toNat]
  refine ⟨m.read_load, fun base first second => ?_, fun address w => ?_,
    fun address low high => ?_, fun target => ?_⟩
  · rw [hpieces, load_append]
  · exact ⟨m.readWord_writeWord address w, fun other => m.read_writeWord_of_ne address w,
      hbytes address w⟩
  · rw [load_pair, readWord_writeWord, Word.toNat_ofBytes]
  · exact ⟨hbytes resetVector target, hbytes irqVector target⟩

end Nmos6502.Memory
