import Mathlib.Algebra.Group.Nat.Defs
import Mathlib.Logic.Function.Basic
import Nmos6502.Text.Digits

/-!
# Numbers in text

A number can be read off the text that it is written as.  In hexadecimal of fixed width every byte
and every address has a text of its own, and all these texts are of one length.  In decimal the
lengths differ, so that a text ends where the first character follows that is no digit, and begins
after the blanks that align it.
-/

namespace Nmos6502.Text

/-! ## Texts side by side -/

section SideBySide

variable {s t u v : String}

theorem append_inj_of_length_left (hlength : s.length = u.length) (h : s ++ t = u ++ v) :
    s = u ∧ t = v := by
  simp only [← String.toList_inj, ← String.length_toList, String.toList_append] at *
  exact List.append_inj h hlength

theorem append_inj_of_length_right (hlength : t.length = v.length) (h : s ++ t = u ++ v) :
    s = u ∧ t = v := by
  simp only [← String.toList_inj, ← String.length_toList, String.toList_append] at *
  exact List.append_inj' h hlength

end SideBySide

/-! ## Hexadecimal -/

theorem hexDigit_inj {m n : Nat} (h : hexDigit m = hexDigit n) : m % 16 = n % 16 := by
  have hdigits : ∀ a < 16, ∀ b < 16, hexDigit a = hexDigit b → a = b := by decide
  have hmod : ∀ k, hexDigit (k % 16) = hexDigit k := by
    intro k
    rw [hexDigit, Nat.mod_mod, hexDigit]
  exact hdigits _ (Nat.mod_lt m (by decide)) _ (Nat.mod_lt n (by decide))
    ((hmod m).trans (h.trans (hmod n).symm))

theorem hexDigits_inj {m n width : Nat} (h : hexDigits m width = hexDigits n width) :
    m % 16 ^ width = n % 16 ^ width := by
  induction width generalizing m n with
  | zero => simp [Nat.mod_one]
  | succ width ih =>
      rcases List.append_inj' h rfl with ⟨hfront, hlast⟩
      have hhigh := ih hfront
      have hlow := hexDigit_inj (List.cons.inj hlast).1
      rw [Nat.pow_succ', Nat.mod_mul, Nat.mod_mul, hhigh, hlow]

theorem hexByte_injective : Function.Injective hexByte := by
  intro b other h
  have hfits : ∀ byte : UInt8, byte.toNat < 16 ^ 2 := UInt8.toNat_lt
  have hmod := hexDigits_inj (String.ofList_inj.mp h)
  rw [Nat.mod_eq_of_lt (hfits b), Nat.mod_eq_of_lt (hfits other)] at hmod
  exact UInt8.toNat_inj.mp hmod

theorem hexWord_injective : Function.Injective hexWord := by
  intro w other h
  have hfits : ∀ word : UInt16, word.toNat < 16 ^ 4 := UInt16.toNat_lt
  have hmod := hexDigits_inj (String.ofList_inj.mp h)
  rw [Nat.mod_eq_of_lt (hfits w), Nat.mod_eq_of_lt (hfits other)] at hmod
  exact UInt16.toNat_inj.mp hmod

@[simp] theorem length_hexByte (b : UInt8) : (hexByte b).length = 2 := by
  rw [hexByte, String.length_ofList, length_hexDigits]

@[simp] theorem length_hexWord (w : UInt16) : (hexWord w).length = 4 := by
  rw [hexWord, String.length_ofList, length_hexDigits]

/-! ## Decimal -/

theorem toList_toString (n : Nat) : (toString n).toList = Nat.toDigits 10 n := by
  rw [Nat.toString_eq_ofList_toDigits, String.toList_ofList]

theorem toDigits_injective : Function.Injective (Nat.toDigits 10) := by
  intro m n h
  rw [← Nat.ofDigitChars_ten_toDigits (n := m), h, Nat.ofDigitChars_ten_toDigits]

theorem toString_injective : Function.Injective (toString : Nat → String) := by
  intro m n h
  rw [← String.toList_inj, toList_toString, toList_toString] at h
  exact toDigits_injective h

theorem isDigit_of_mem_toDigits {n : Nat} {c : Char} (h : c ∈ Nat.toDigits 10 n) :
    c.isDigit = true :=
  Nat.isDigit_of_mem_toDigits (by decide) (by decide) h

/-- A number that stands before `rest` is over where `rest` begins. -/
def EndsNumber (rest : String) : Prop :=
  ∀ c ∈ rest.toList.head?, c.isDigit = false

theorem takeWhile_isDigit {rest : String} (hrest : EndsNumber rest) (n : Nat) :
    (toString n ++ rest).toList.takeWhile Char.isDigit = Nat.toDigits 10 n := by
  have hnone : rest.toList.takeWhile Char.isDigit = [] := by
    unfold EndsNumber at hrest
    cases hlist : rest.toList with
    | nil => rfl
    | cons c cs =>
        rw [hlist] at hrest
        exact List.takeWhile_cons_of_neg (by simp [hrest c rfl])
  rw [String.toList_append, toList_toString,
    List.takeWhile_append_of_pos fun _ => isDigit_of_mem_toDigits, hnone, List.append_nil]

theorem toString_append_inj
    {m n : Nat} {rest other : String} (hrest : EndsNumber rest) (hother : EndsNumber other)
    (h : toString m ++ rest = toString n ++ other) :
    m = n ∧ rest = other := by
  have hdigits := congrArg (fun s => s.toList.takeWhile Char.isDigit) h
  simp only [takeWhile_isDigit hrest, takeWhile_isDigit hother] at hdigits
  obtain rfl := toDigits_injective hdigits
  exact ⟨rfl, (String.append_right_inj _).mp h⟩

/-- Numbers that outgrow the column cannot be confused with others either. -/
theorem alignRight_toString_inj {width m n : Nat}
    (h : alignRight width (toString m) = alignRight width (toString n)) : m = n := by
  have hunaligned : ∀ k, (alignRight width (toString k)).toList.dropWhile (· == ' ') =
      Nat.toDigits 10 k := by
    intro k
    have hdigits : (Nat.toDigits 10 k).dropWhile (· == ' ') = Nat.toDigits 10 k := by
      cases hlist : Nat.toDigits 10 k with
      | nil => rfl
      | cons c digits =>
          have hdigit : c.isDigit = true := isDigit_of_mem_toDigits (hlist ▸ List.mem_cons_self)
          have hne : c ≠ ' ' := by
            rintro rfl
            exact absurd hdigit (by decide)
          exact List.dropWhile_cons_of_neg (by simpa using hne)
    rw [alignRight, String.toList_append, String.toList_ofList, toList_toString,
      List.dropWhile_append_of_pos (by simp [List.mem_replicate]), hdigits]
  apply toDigits_injective
  rw [← hunaligned m, h, hunaligned n]

end Nmos6502.Text
