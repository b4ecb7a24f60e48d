import Mathlib.Data.List.DropRight
import Nmos6502.Text.Blank

/-!
# What trimming leaves

Twenty-five characters have the property White_Space.  A text is white space, what trimming leaves,
and white space again.  What is left neither begins nor ends with any, by which it is determined;
the white space inside it is kept.
-/

namespace Nmos6502.Text

/-! ## The characters -/

def whiteSpace : List Char :=
  [ '\t', '\n', '\x0B', '\x0C', '\r', ' ', '\u0085', '\u00A0', '\u1680', '\u2000', '\u2001',
    '\u2002', '\u2003', '\u2004', '\u2005', '\u2006', '\u2007', '\u2008', '\u2009', '\u200A',
    '\u2028', '\u2029', '\u202F', '\u205F', '\u3000' ]

theorem mem_whiteSpace_iff {c : Char} : c ∈ whiteSpace ↔ isBlank c = true := by
  constructor
  · have hall : whiteSpace.all isBlank = true := rfl
    exact List.all_eq_true.mp hall c
  · intro hblank
    have hlisted : whiteSpace.map Char.toNat =
        [ 0x09, 0x0A, 0x0B, 0x0C, 0x0D, 0x20, 0x85, 0xA0, 0x1680, 0x2000, 0x2001, 0x2002, 0x2003,
          0x2004, 0x2005, 0x2006, 0x2007, 0x2008, 0x2009, 0x200A, 0x2028, 0x2029, 0x202F, 0x205F,
          0x3000 ] := by decide
    rw [← List.mem_map_of_injective fun _ _ => Char.toNat_inj.mp, hlisted]
    simp only [isBlank, Bool.or_eq_true, Bool.and_eq_true, decide_eq_true_eq, beq_iff_eq] at hblank
    simp only [List.mem_cons, List.not_mem_nil, or_false]
    omega

/-! ## Lists of characters -/

theorem dropWhile_eq_self_of_head? {p : Char → Bool} {cs : List Char}
    (hhead : ∀ c ∈ cs.head?, p c = false) : cs.dropWhile p = cs := by
  cases cs with
  | nil => rfl
  | cons c rest => exact List.dropWhile_cons_of_neg (Bool.eq_false_iff.mp (hhead c rfl))

theorem not_of_mem_head?_dropWhile {p : Char → Bool} {cs : List Char} :
    ∀ c ∈ (cs.dropWhile p).head?, p c = false := by
  intro c hhead
  have hnot := List.head?_dropWhile_not p cs
  rw [Option.mem_def.mp hhead] at hnot
  exact hnot

section Strip

variable {front core back : List Char}

theorem strip_append (hfront : ∀ c ∈ front, isBlank c = true) (hback : ∀ c ∈ back, isBlank c = true)
    (hfirst : ∀ c ∈ core.head?, isBlank c = false)
    (hlast : ∀ c ∈ core.getLast?, isBlank c = false) : strip (front ++ core ++ back) = core := by
  have hdrop : ((front ++ core ++ back).dropWhile isBlank).reverse.dropWhile isBlank =
      core.reverse := by
    cases core with
    | nil =>
        -- Nothing but white space, all of which already goes at the front.
        have hall : ∀ c ∈ front ++ back, isBlank c = true :=
          List.forall_mem_append.mpr ⟨hfront, hback⟩
        rw [List.append_nil, List.dropWhile_eq_nil_iff.mpr hall]
        rfl
    | cons first rest =>
        have hstop : ∀ c ∈ (first :: rest ++ back).head?, isBlank c = false := hfirst
        have hturned : ∀ c ∈ back.reverse, isBlank c = true := fun c hmem =>
          hback c (List.mem_reverse.mp hmem)
        rw [List.append_assoc, List.dropWhile_append_of_pos hfront,
          dropWhile_eq_self_of_head? hstop, List.reverse_append,
          List.dropWhile_append_of_pos hturned]
        apply dropWhile_eq_self_of_head?
        rw [List.head?_reverse]
        exact hlast
  rw [strip, hdrop, List.reverse_reverse]

theorem strip_append_rtakeWhile (cs : List Char) :
    strip cs ++ (cs.dropWhile isBlank).rtakeWhile isBlank = cs.dropWhile isBlank :=
  List.rdropWhile_append_rtakeWhile

theorem first_strip (cs : List Char) : ∀ c ∈ (strip cs).head?, isBlank c = false := by
  intro c hfirst
  have hwhole : c ∈ (cs.dropWhile isBlank).head? := by
    rw [← strip_append_rtakeWhile]
    exact List.mem_head?_append_of_mem_head? hfirst
  exact not_of_mem_head?_dropWhile c hwhole

theorem last_strip (cs : List Char) : ∀ c ∈ (strip cs).getLast?, isBlank c = false := by
  rw [strip, List.getLast?_reverse]
  exact not_of_mem_head?_dropWhile

theorem exists_strip (cs : List Char) : ∃ front back,
    (∀ c ∈ front, isBlank c = true) ∧ (∀ c ∈ back, isBlank c = true) ∧
      cs = front ++ strip cs ++ back := by
  refine ⟨cs.takeWhile isBlank, (cs.dropWhile isBlank).rtakeWhile isBlank,
    fun c => List.mem_takeWhile_imp, fun c => List.mem_rtakeWhile_imp, ?_⟩
  rw [List.append_assoc, strip_append_rtakeWhile, List.takeWhile_append_dropWhile]

theorem strip_strip (cs : List Char) : strip (strip cs) = strip cs := by
  have hnone : ∀ c ∈ ([] : List Char), isBlank c = true := by simp
  simpa using strip_append hnone hnone (first_strip cs) (last_strip cs)

end Strip

/-! ## Texts -/

theorem trim_trim (s : String) : trim (trim s) = trim s := by
  simp only [trim, String.toList_ofList, strip_strip]

def Blank (s : String) : Prop :=
  ∀ c ∈ s.toList, c ∈ whiteSpace

/-- `t` is what is left of `s` when the white space at both ends has been removed, all of it and
nothing else. -/
structure TrimsTo (s t : String) : Prop where
  around : ∃ front back, Blank front ∧ Blank back ∧ s = front ++ t ++ back
  first : ∀ c ∈ t.toList.head?, c ∉ whiteSpace
  last : ∀ c ∈ t.toList.getLast?, c ∉ whiteSpace

theorem blank_iff {s : String} : Blank s ↔ ∀ c ∈ s.toList, isBlank c = true := by
  simp only [Blank, mem_whiteSpace_iff]

theorem trim_append {front s back : String} (hfront : Blank front) (hback : Blank back)
    (hfirst : ∀ c ∈ s.toList.head?, c ∉ whiteSpace)
    (hlast : ∀ c ∈ s.toList.getLast?, c ∉ whiteSpace) : trim (front ++ s ++ back) = s := by
  simp only [mem_whiteSpace_iff, Bool.not_eq_true] at hfirst hlast
  rw [trim, String.toList_append, String.toList_append,
    strip_append (blank_iff.mp hfront) (blank_iff.mp hback) hfirst hlast, String.ofList_toList]

theorem trimsTo_trim (s : String) : TrimsTo s (trim s) where
  around := by
    rcases exists_strip s.toList with ⟨front, back, hfront, hback, hsplit⟩
    refine ⟨String.ofList front, String.ofList back, ?_, ?_, ?_⟩
    · simpa [blank_iff] using hfront
    · simpa [blank_iff] using hback
    · rw [← String.toList_inj]
      simpa [trim] using hsplit
  first := by simpa [trim, mem_whiteSpace_iff] using first_strip s.toList
  last := by simpa [trim, mem_whiteSpace_iff] using last_strip s.toList

theorem trim_eq_iff {s t : String} : trim s = t ↔ TrimsTo s t := by
  constructor
  · intro htrim
    rw [← htrim]
    exact trimsTo_trim s
  · intro h
    rcases h.around with ⟨front, back, hfront, hback, hsplit⟩
    rw [hsplit]
    exact trim_append hfront hback h.first h.last

theorem trimsTo_iff_of_trim_self {s t : String} (htrimmed : trim t = t) :
    TrimsTo s t ↔ ∃ front back, Blank front ∧ Blank back ∧ s = front ++ t ++ back := by
  have hself := trim_eq_iff.mp htrimmed
  exact ⟨fun h => h.around, fun haround => ⟨haround, hself.first, hself.last⟩⟩

end Nmos6502.Text
