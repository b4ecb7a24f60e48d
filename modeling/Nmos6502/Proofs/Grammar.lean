import Nmos6502.Proofs.Naming
import Nmos6502.Proofs.Spacing

/-!
# Which texts are names

The names of mnemonics and of modes each have a grammar: a mnemonic is written in three letters,
each in either case, and a mode as it is named, with or without white space around it.  Either
search finds exactly what the grammar allows, and would find it in a list of any other order.
-/

namespace Nmos6502

namespace Text

/-! ## The two cases of a letter -/

/-- One character, or the two cases of one of the 26 letters, which are numbered from 0. -/
inductive SameLetter : Char → Char → Prop where
  | same (c : Char) : SameLetter c c
  | capitalFirst {c d : Char} {letter : Nat} (hletter : letter < 26)
      (hcapital : c.toNat = 'A'.toNat + letter) (hsmall : d.toNat = 'a'.toNat + letter) :
      SameLetter c d
  | smallFirst {c d : Char} {letter : Nat} (hletter : letter < 26)
      (hsmall : c.toNat = 'a'.toNat + letter) (hcapital : d.toNat = 'A'.toNat + letter) :
      SameLetter c d

section Letters

variable {c d : Char}

theorem isUpper_iff : c.isUpper = true ↔ 65 ≤ c.toNat ∧ c.toNat ≤ 90 := by
  simp only [Char.isUpper, decide_eq_true_eq, ge_iff_le, UInt32.le_iff_toNat_le, Char.reduceVal,
    UInt32.reduceToNat, Char.toNat_val]

theorem toNat_toLower (hcapital : c.isUpper = true) : c.toLower.toNat = c.toNat + 32 := by
  have hrange := isUpper_iff.mp hcapital
  have hvalid : (c.toNat + 32).isValidChar := .inl (by omega)
  rw [Char.toLower_eq_of_isUpper hcapital, Char.toNat_ofNat, if_pos hvalid]

theorem toUpper_eq_of_toLower_eq (h : c.toLower = d.toLower) : c.toUpper = d.toUpper := by
  rw [← Char.toUpper_toLower_eq_toUpper, h, Char.toUpper_toLower_eq_toUpper]

theorem eq_toUpper_or_eq_toLower (c : Char) : c = c.toUpper ∨ c = c.toLower := by
  by_cases hcapital : c.isUpper = true
  · exact .inl (Char.toUpper_eq_of_not_isLower (Char.not_isLower_of_isUpper hcapital)).symm
  · exact .inr (Char.toLower_eq_of_not_isUpper hcapital).symm

theorem toLower_eq_of_letter {letter : Nat} (hletter : letter < 26)
    (hcapital : c.toNat = 'A'.toNat + letter) (hsmall : d.toNat = 'a'.toNat + letter) :
    c.toLower = d.toLower := by
  simp only [Char.reduceToNat] at hcapital hsmall
  have hupper : c.isUpper = true := isUpper_iff.mpr (by omega)
  have hnot : ¬ d.isUpper = true := fun h => by
    have hrange := isUpper_iff.mp h
    omega
  rw [Char.toLower_eq_of_not_isUpper hnot, ← Char.toNat_inj, toNat_toLower hupper]
  omega

theorem SameLetter.toLower_eq (h : SameLetter c d) : c.toLower = d.toLower := by
  cases h with
  | same => rfl
  | capitalFirst hletter hcapital hsmall => exact toLower_eq_of_letter hletter hcapital hsmall
  | smallFirst hletter hsmall hcapital => exact (toLower_eq_of_letter hletter hcapital hsmall).symm

theorem SameLetter.symm (h : SameLetter c d) : SameLetter d c := by
  cases h with
  | same => exact .same c
  | capitalFirst hletter hcapital hsmall => exact .smallFirst hletter hsmall hcapital
  | smallFirst hletter hsmall hcapital => exact .capitalFirst hletter hcapital hsmall

theorem sameLetter_toLower (c : Char) : SameLetter c c.toLower := by
  by_cases hcapital : c.isUpper = true
  · have hrange := isUpper_iff.mp hcapital
    have hletter : c.toNat - 65 < 26 := by omega
    have hsmall : c.toLower.toNat = 97 + (c.toNat - 65) := by
      rw [toNat_toLower hcapital]
      omega
    exact .capitalFirst hletter (Nat.add_sub_of_le hrange.1).symm hsmall
  · rw [Char.toLower_eq_of_not_isUpper hcapital]
    exact .same c

theorem sameLetter_iff : SameLetter c d ↔ c.toLower = d.toLower := by
  constructor
  · exact SameLetter.toLower_eq
  · intro hlower
    rcases eq_toUpper_or_eq_toLower c with hc | hc
    · rcases eq_toUpper_or_eq_toLower d with hd | hd
      · rw [hc, toUpper_eq_of_toLower_eq hlower, ← hd]
        exact .same d
      · have hletter := sameLetter_toLower c
        rwa [hlower, ← hd] at hletter
    · have hletter := (sameLetter_toLower d).symm
      rwa [← hlower, ← hc] at hletter

theorem SameLetter.eq_toUpper_or_eq_toLower (h : SameLetter c d) :
    c = d.toUpper ∨ c = d.toLower := by
  rw [← h.toLower_eq, ← toUpper_eq_of_toLower_eq h.toLower_eq]
  exact Text.eq_toUpper_or_eq_toLower c

theorem SameLetter.isAlpha_eq (h : SameLetter c d) : c.isAlpha = d.isAlpha := by
  rw [← Char.isAlpha_toLower_eq_isAlpha, h.toLower_eq, Char.isAlpha_toLower_eq_isAlpha]

theorem utf8Size_of_isAlpha (hletter : c.isAlpha = true) : c.utf8Size = 1 := by
  rw [isAlpha_iff] at hletter
  have hascii : c.toNat ≤ 127 := by omega
  exact Char.utf8Size_eq_one_iff.mpr (UInt32.le_iff_toNat_le.mpr hascii)

/-- `c` in the case that is asked for, if it is a letter. -/
def inCase (capital : Bool) (c : Char) : Char :=
  if capital then c.toUpper else c.toLower

theorem sameLetter_inCase (capital : Bool) (c : Char) : SameLetter (inCase capital c) c := by
  rw [sameLetter_iff]
  cases capital with
  | true => exact Char.toLower_toUpper_eq_toLower c
  | false => exact Char.toLower_toLower_eq_toLower c

theorem SameLetter.exists_inCase (h : SameLetter c d) : ∃ capital, inCase capital d = c := by
  rcases h.eq_toUpper_or_eq_toLower with hupper | hlower
  · exact ⟨true, hupper.symm⟩
  · exact ⟨false, hlower.symm⟩

end Letters

/-! ## Texts in either case -/

/-- `s` is as long as `t` and differs from it at most in the case of letters. -/
structure Recased (s t : String) : Prop where
  length : s.length = t.length
  letters : ∀ c d, (c, d) ∈ s.toList.zip t.toList → SameLetter c d

/-- `s` with each of its letters in the case that is chosen for its place. -/
def recase (capital : Nat → Bool) (s : String) : String :=
  String.ofList (s.toList.mapIdx fun place c => inCase (capital place) c)

section Texts

variable {s t : String}

theorem recased_iff_forall₂ : Recased s t ↔ List.Forall₂ SameLetter s.toList t.toList := by
  rw [List.forall₂_iff_zip, String.length_toList, String.length_toList]
  constructor
  · intro h
    exact ⟨h.length, h.letters _ _⟩
  · intro h
    exact ⟨h.1, fun c d => h.2⟩

theorem sameLetters_iff_recased : sameLetters s t = true ↔ Recased s t := by
  have hletter : SameLetter = fun c d => c.toLower = d.toLower := by
    funext c d
    exact propext sameLetter_iff
  rw [recased_iff_forall₂, hletter, sameLetters, beq_iff_eq, ← List.forall₂_eq_eq_eq,
    List.forall₂_map_left_iff, List.forall₂_map_right_iff]

theorem Recased.isAlpha (h : Recased s t) (hletters : ∀ d ∈ t.toList, d.isAlpha = true) :
    ∀ c ∈ s.toList, c.isAlpha = true := by
  intro c hmem
  have hfirst : (s.toList.zip t.toList).map Prod.fst = s.toList :=
    List.map_fst_zip (by simp only [String.length_toList, h.length, le_refl])
  rw [← hfirst] at hmem
  rcases List.mem_map.mp hmem with ⟨⟨c, d⟩, hpair, rfl⟩
  rw [(h.letters c d hpair).isAlpha_eq]
  exact hletters d (List.of_mem_zip hpair).2

theorem utf8ByteSize_of_isAlpha (hletters : ∀ c ∈ s.toList, c.isAlpha = true) :
    s.utf8ByteSize = s.length := by
  have hlen : ∀ cs : List Char, (∀ c ∈ cs, c.isAlpha = true) → String.utf8Len cs = cs.length := by
    intro cs
    induction cs with
    | nil => exact fun _ => rfl
    | cons c rest ih =>
        intro hall
        rw [List.forall_mem_cons] at hall
        rw [String.utf8Len_cons, ih hall.2, utf8Size_of_isAlpha hall.1, List.length_cons]
  have hbytes := String.utf8ByteSize_ofList s.toList
  rw [String.ofList_toList, hlen s.toList hletters, String.length_toList] at hbytes
  exact hbytes

theorem forall₂_mapIdx_inCase (capital : Nat → Bool) (cs : List Char) :
    List.Forall₂ SameLetter (cs.mapIdx fun place c => inCase (capital place) c) cs := by
  induction cs generalizing capital with
  | nil => exact .nil
  | cons c rest ih =>
      rw [List.mapIdx_cons]
      exact .cons (sameLetter_inCase (capital 0) c) (ih fun place => capital (place + 1))

theorem exists_mapIdx_inCase {cs ds : List Char} (h : List.Forall₂ SameLetter cs ds) :
    ∃ capital : Nat → Bool, (ds.mapIdx fun place d => inCase (capital place) d) = cs := by
  induction h with
  | nil => exact ⟨fun _ => true, rfl⟩
  | cons hletter _ ih =>
      rcases hletter.exists_inCase with ⟨first, hfirst⟩
      rcases ih with ⟨later, hlater⟩
      refine ⟨fun place => place.casesOn first later, ?_⟩
      rw [List.mapIdx_cons]
      exact List.cons_eq_cons.mpr ⟨hfirst, hlater⟩

theorem recased_iff_exists_recase : Recased s t ↔ ∃ capital, s = recase capital t := by
  rw [recased_iff_forall₂]
  constructor
  · intro h
    rcases exists_mapIdx_inCase h with ⟨capital, hcapital⟩
    exact ⟨capital, by rw [recase, hcapital, String.ofList_toList]⟩
  · intro h
    rcases h with ⟨capital, rfl⟩
    rw [recase, String.toList_ofList]
    exact forall₂_mapIdx_inCase capital t.toList

end Texts

/-! ## Searches -/

/-- `parse?` finds what a text `Denotes` and nothing else.  No text denotes two values, so that the
first value that it `fits` is the same one in any list of all values, whatever their order. -/
structure FindsExactly {α : Type} (parse? : String → Option α) (fits : String → α → Bool)
    (Denotes : String → α → Prop) : Prop where
  exact : ∀ s a, parse? s = some a ↔ Denotes s a
  unambiguous : ∀ s a b, Denotes s a → Denotes s b → a = b
  any_order : ∀ s (order : List α), (∀ a, a ∈ order) → order.find? (fits s) = parse? s

theorem FindsExactly.of_iff {α : Type} {parse? : String → Option α} {fits : String → α → Bool}
    {Denotes : String → α → Prop} (hparse : ∀ s a, parse? s = some a ↔ Denotes s a)
    (hfits : ∀ s a, fits s a = true ↔ Denotes s a) : FindsExactly parse? fits Denotes := by
  have hunique : ∀ s a b, Denotes s a → Denotes s b → a = b := by
    intro s a b ha hb
    rw [← hparse] at ha hb
    exact Option.some.inj (ha.symm.trans hb)
  refine ⟨hparse, hunique, fun s order hall => ?_⟩
  apply Option.ext
  intro a
  have hone : ∀ b c, fits s b = true → fits s c = true → b = c := by
    intro b c hb hc
    exact hunique s b c ((hfits s b).mp hb) ((hfits s c).mp hc)
  rw [find?_eq_some_iff_of_unique hall hone, hfits, hparse]

end Text

namespace Mnemonic

theorem length_spelling (m : Mnemonic) : m.spelling.length = 3 := by
  cases m <;> rfl

theorem isAlpha_spelling (m : Mnemonic) : ∀ c ∈ m.spelling.toList, c.isAlpha = true := by
  apply List.all_eq_true.mp
  cases m <;> rfl

theorem parse?_eq_some_iff_recased {s : String} {m : Mnemonic} :
    parse? s = some m ↔ Text.Recased s m.spelling := by
  rw [parse?_eq_some_iff, ← Text.sameLetters_iff_recased, Text.sameLetters_iff, upper_spelling]

theorem finds_exactly :
    Text.FindsExactly parse? (fun s m => Text.sameLetters s m.spelling)
      fun s m => Text.Recased s m.spelling :=
  .of_iff (fun _ _ => parse?_eq_some_iff_recased) fun _ _ => Text.sameLetters_iff_recased

theorem letters_of_parse? {s : String} {m : Mnemonic} (hparse : parse? s = some m) :
    s.length = 3 ∧ ∀ c ∈ s.toList, c.isAlpha = true := by
  rw [parse?_eq_some_iff_recased] at hparse
  exact ⟨hparse.length.trans m.length_spelling, hparse.isAlpha m.isAlpha_spelling⟩

end Mnemonic

namespace AddressingMode

theorem parse?_eq_some_iff_trimsTo {s : String} {mode : AddressingMode} :
    parse? s = some mode ↔ Text.TrimsTo s mode.name := by
  rw [parse?_eq_some_iff, Text.trim_eq_iff]

theorem finds_exactly :
    Text.FindsExactly parse? (fun s mode => mode.name == Text.trim s)
      fun s mode => Text.TrimsTo s mode.name := by
  refine .of_iff (fun _ _ => parse?_eq_some_iff_trimsTo) fun s mode => ?_
  rw [beq_iff_eq, eq_comm, Text.trim_eq_iff]

end AddressingMode

/-- A text is a mnemonic exactly if it is the spelling in letters of either case, and a mode exactly
if it is the mode's name with nothing but white space around it; neither depends on the order of the
search. -/
theorem names_are_read_exactly :
    Text.FindsExactly Mnemonic.parse? (fun s m => Text.sameLetters s m.spelling)
        (fun s m => Text.Recased s m.spelling) ∧
      (∀ s m, Mnemonic.parse? s = some m ↔ ∃ capital, s = Text.recase capital m.spelling) ∧
      (∀ s : String,
        (s.length ≠ 3 ∨ s.utf8ByteSize ≠ 3 ∨
          ∃ c ∈ s.toList, c ∈ Text.whiteSpace ∨ 0x7F < c.toNat) →
        Mnemonic.parse? s = none) ∧
      Text.FindsExactly AddressingMode.parse? (fun s mode => mode.name == Text.trim s)
        (fun s mode => Text.TrimsTo s mode.name) ∧
      ∀ s mode, AddressingMode.parse? s = some mode ↔
        ∃ front back, Text.Blank front ∧ Text.Blank back ∧ s = front ++ mode.name ++ back := by
  refine ⟨Mnemonic.finds_exactly, ?_, ?_, AddressingMode.finds_exactly, ?_⟩
  · intro s m
    rw [Mnemonic.parse?_eq_some_iff_recased, Text.recased_iff_exists_recase]
  · intro s hodd
    rw [Option.eq_none_iff_forall_ne_some]
    intro m hparse
    rcases Mnemonic.letters_of_parse? hparse with ⟨hlength, hletters⟩
    rcases hodd with hshort | hbytes | ⟨c, hmem, hblank | hwide⟩
    · exact hshort hlength
    · exact hbytes ((Text.utf8ByteSize_of_isAlpha hletters).trans hlength)
    · rw [Text.mem_whiteSpace_iff, Text.not_isBlank_of_isAlpha (hletters c hmem)] at hblank
      contradiction
    · have hrange := Text.isAlpha_iff.mp (hletters c hmem)
      omega
  · intro s mode
    rw [AddressingMode.parse?_eq_some_iff_trimsTo, Text.trimsTo_iff_of_trim_self mode.trim_name]

example : Mnemonic.parse? "tYa" = some .tya ∧ Mnemonic.parse? " TYA" = none ∧
    Mnemonic.parse? "\u017Fta" = none ∧
    AddressingMode.parse? "\u3000Zero Page\n" = some .zeroPage ∧
    AddressingMode.parse? "Zero  Page" = none := by
  decide +kernel

end Nmos6502
