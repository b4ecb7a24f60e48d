import Mathlib
import Nmos6502.Opcode.AddressingMode
import Nmos6502.Opcode.Mnemonic

/-!
# What a name denotes

A mode and a mnemonic are found as the first of all that a text fits.  No two modes have one name
and no two mnemonics one spelling, so the order of the search does not matter: a text denotes a mode
if without the white space around it it is the mode's name, and a mnemonic if in upper case it is
the mnemonic's spelling.
-/

namespace Nmos6502

/-! ## Letters in either case -/

namespace Text

theorem isAlpha_iff {c : Char} :
    c.isAlpha = true ↔ 65 ≤ c.toNat ∧ c.toNat ≤ 90 ∨ 97 ≤ c.toNat ∧ c.toNat ≤ 122 := by
  simp only [Char.isAlpha, Char.isUpper, Char.isLower, Bool.or_eq_true, Bool.and_eq_true,
    decide_eq_true_eq, ge_iff_le, UInt32.le_iff_toNat_le, Char.reduceVal, UInt32.reduceToNat,
    Char.toNat_val]

theorem not_isBlank_of_isAlpha {c : Char} (hletter : c.isAlpha = true) : isBlank c = false := by
  rw [isAlpha_iff] at hletter
  simp only [isBlank, Bool.or_eq_false_iff, Bool.and_eq_false_iff, decide_eq_false_iff_not,
    beq_eq_false_iff_ne]
  omega

theorem upper_eq_upper_iff {s t : String} :
    upper s = upper t ↔ s.toList.map Char.toUpper = t.toList.map Char.toUpper := by
  simp only [upper, ← String.toList_inj, String.toList_ofList]

theorem sameLetters_iff {s t : String} : sameLetters s t = true ↔ upper s = upper t := by
  rw [upper_eq_upper_iff, sameLetters, beq_iff_eq]
  constructor
  · intro hlower
    have hboth := congrArg (List.map Char.toUpper) hlower
    simpa only [List.map_map, Function.comp_def, Char.toUpper_toLower_eq_toUpper] using hboth
  · intro hupper
    have hboth := congrArg (List.map Char.toLower) hupper
    simpa only [List.map_map, Function.comp_def, Char.toLower_toUpper_eq_toLower] using hboth

end Text

/-! ## The only one that fits -/

theorem find?_eq_some_iff_of_unique
    {α : Type} {p : α → Bool} {list : List α} {a : α}
    (hmem : ∀ b, b ∈ list) (hunique : ∀ b c, p b = true → p c = true → b = c) :
    list.find? p = some a ↔ p a = true := by
  constructor
  · intro hfound
    exact List.find?_some hfound
  · intro hfits
    cases hfound : list.find? p with
    | none => exact absurd hfits (List.find?_eq_none.mp hfound a (hmem a))
    | some b => rw [hunique b a (List.find?_some hfound) hfits]

namespace AddressingMode

theorem name_injective : Function.Injective name := by
  have hnodup : (all.map name).Nodup := by decide
  intro mode other hname
  exact List.inj_on_of_nodup_map hnodup mode.mem_all other.mem_all hname

theorem trim_name (mode : AddressingMode) : Text.trim mode.name = mode.name := by
  cases mode <;> decide

theorem parse?_eq_some_iff {s : String} {mode : AddressingMode} :
    parse? s = some mode ↔ Text.trim s = mode.name := by
  have hunique : ∀ other third : AddressingMode,
      (other.name == Text.trim s) = true → (third.name == Text.trim s) = true → other = third := by
    intro other third hother hthird
    exact name_injective ((beq_iff_eq.mp hother).trans (beq_iff_eq.mp hthird).symm)
  rw [parse?, find?_eq_some_iff_of_unique mem_all hunique, beq_iff_eq]
  exact eq_comm

theorem parse?_eq_none_iff {s : String} :
    parse? s = none ↔ ∀ mode : AddressingMode, Text.trim s ≠ mode.name := by
  simp only [Option.eq_none_iff_forall_ne_some, ne_eq, parse?_eq_some_iff]

end AddressingMode

namespace Mnemonic

theorem spelling_injective : Function.Injective spelling := by
  have hnodup : (all.map spelling).Nodup := by decide
  intro m other hspelling
  exact List.inj_on_of_nodup_map hnodup m.mem_all other.mem_all hspelling

theorem upper_spelling (m : Mnemonic) : Text.upper m.spelling = m.spelling := by
  cases m <;> rfl

theorem parse?_eq_some_iff {s : String} {m : Mnemonic} :
    parse? s = some m ↔ Text.upper s = m.spelling := by
  have hfits : ∀ other : Mnemonic,
      Text.sameLetters s other.spelling = true ↔ Text.upper s = other.spelling := by
    intro other
    rw [Text.sameLetters_iff, other.upper_spelling]
  have hunique : ∀ other third : Mnemonic, Text.sameLetters s other.spelling = true →
      Text.sameLetters s third.spelling = true → other = third := by
    intro other third hother hthird
    exact spelling_injective (((hfits other).mp hother).symm.trans ((hfits third).mp hthird))
  rw [parse?, find?_eq_some_iff_of_unique mem_all hunique]
  exact hfits m

end Mnemonic

end Nmos6502
