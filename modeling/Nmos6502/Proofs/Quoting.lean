import Mathlib.Logic.Function.Basic
import Nmos6502.Text.Quoted

/-!
# Reading quoted text back

Each character of a quoted text is written in a way that cannot be taken for anything else,
whichever characters are held to be printable.  Read from the left, the pieces give the characters
back one by one, no piece breaks the line, and the quotes at both ends are the only ones without a
backslash before them.
-/

namespace Nmos6502.Text

/-! ## Ways to write a character -/

/-- The characters with a short escape, and what stands behind the backslash. -/
def shortEscapes : List (Char × Char) :=
  [('"', '"'), ('\\', '\\'), ('\t', 't'), ('\r', 'r'), ('\n', 'n'), ('\x00', '0')]

/-- A character without a short escape is written as it is if it prints, and else as its code point;
both are allowed for here. -/
inductive Spells : Char → List Char → Prop where
  | short {c letter : Char} (hescape : (c, letter) ∈ shortEscapes) : Spells c ['\\', letter]
  | plain {c : Char} (hother : c ∉ shortEscapes.map Prod.fst) : Spells c [c]
  | code {c : Char} (hother : c ∉ shortEscapes.map Prod.fst) : Spells c (codePoint c)

inductive Spelled : List Char → List Char → Prop where
  | nil : Spelled [] []
  | cons {c : Char} {piece cs body : List Char}
      (hpiece : Spells c piece) (hrest : Spelled cs body) : Spelled (c :: cs) (piece ++ body)

theorem spells_escapeChar (c : Char) : Spells c (escapeChar c) := by
  by_cases hescape : c ∈ shortEscapes.map Prod.fst
  · rcases List.mem_map.mp hescape with ⟨⟨c, letter⟩, hmem, rfl⟩
    have hwritten : ∀ pair ∈ shortEscapes, escapeChar pair.1 = ['\\', pair.2] := by decide
    rw [hwritten _ hmem]
    exact .short hmem
  · have hother := hescape
    simp only [shortEscapes, List.map_cons, List.map_nil, List.mem_cons, List.not_mem_nil, or_false,
      not_or] at hother
    rcases hother with ⟨hquote, hbackslash, htab, hreturn, hnewline, hnul⟩
    simp only [escapeChar, hquote, hbackslash, htab, hreturn, hnewline, hnul, if_false]
    split
    · exact .plain hescape
    · exact .code hescape

theorem spelled_escape (cs : List Char) : Spelled cs (escape cs) := by
  induction cs with
  | nil => exact .nil
  | cons c cs ih => exact .cons (spells_escapeChar c) ih

theorem ne_quote_of_plain {c : Char} (hother : c ∉ shortEscapes.map Prod.fst) : c ≠ '"' := by
  rintro rfl
  exact hother (by decide)

theorem ne_backslash_of_plain {c : Char} (hother : c ∉ shortEscapes.map Prod.fst) : c ≠ '\\' := by
  rintro rfl
  exact hother (by decide)

/-! ## Code points -/

/-- The digits and the braces of a code point. -/
def codeMarks : List Char := 'u' :: '\x7b' :: '\x7d' :: (List.range 16).map Nat.digitChar

theorem mem_codeMarks_of_mem_toDigits {n : Nat} {c : Char} (hmem : c ∈ Nat.toDigits 16 n) :
    c ∈ codeMarks := by
  have hdigit : ∀ d < 16, Nat.digitChar d ∈ codeMarks := by decide
  induction n using Nat.strongRecOn with
  | ind n ih =>
      by_cases hlt : n < 16
      · rw [Nat.toDigits_of_lt_base hlt, List.mem_singleton] at hmem
        exact hmem ▸ hdigit n hlt
      · rw [Nat.toDigits_of_base_le (by decide) (Nat.le_of_not_lt hlt), List.mem_append,
          List.mem_singleton] at hmem
        rcases hmem with hfront | rfl
        · exact ih (n / 16) (by omega) hfront
        · exact hdigit _ (Nat.mod_lt _ (by decide))

theorem codePoint_eq (c : Char) :
    ∃ marks, codePoint c = '\\' :: 'u' :: marks ∧ ∀ d ∈ marks, d ∈ codeMarks := by
  refine ⟨'\x7b' :: (Nat.toDigits 16 c.toNat ++ ['\x7d']), by simp [codePoint], fun d hmem => ?_⟩
  rw [List.mem_cons, List.mem_append, List.mem_singleton] at hmem
  rcases hmem with rfl | hdigit | rfl
  · decide
  · exact mem_codeMarks_of_mem_toDigits hdigit
  · decide

/-! ## Decoding -/

theorem readCodePoint?_digitChar {d : Nat} (hd : d < 16) (value : Nat) (rest : List Char) :
    readCodePoint? value (d.digitChar :: rest) = readCodePoint? (16 * value + d) rest := by
  have hvalue : ∀ d < 16, digitValue? (Nat.digitChar d) = some d := by decide
  have hdigit : ∀ d < 16, Nat.digitChar d ≠ '\x7d' := by decide
  rw [readCodePoint?, hvalue d hd, Option.bind_some]
  exact hdigit d hd

theorem readCodePoint?_toDigits (n : Nat) (rest : List Char) :
    readCodePoint? 0 (Nat.toDigits 16 n ++ rest) = readCodePoint? n rest := by
  induction n using Nat.strongRecOn generalizing rest with
  | ind n ih =>
      by_cases hlt : n < 16
      · rw [Nat.toDigits_of_lt_base hlt, List.singleton_append, readCodePoint?_digitChar hlt,
          Nat.mul_zero, Nat.zero_add]
      · rw [Nat.toDigits_of_base_le (by decide) (Nat.le_of_not_lt hlt), List.append_assoc,
          ih (n / 16) (by omega), List.singleton_append,
          readCodePoint?_digitChar (Nat.mod_lt _ (by decide)), Nat.div_add_mod]

theorem Spells.unescape?_append {c : Char} {piece : List Char} (hspells : Spells c piece)
    (rest : List Char) : unescape? (piece ++ rest) = (unescape? rest).map (c :: ·) := by
  cases hspells with
  | @short letter hescape =>
      simp only [shortEscapes, List.mem_cons, Prod.mk.injEq, List.not_mem_nil, or_false] at hescape
      rcases hescape with
        ⟨rfl, rfl⟩ | ⟨rfl, rfl⟩ | ⟨rfl, rfl⟩ | ⟨rfl, rfl⟩ | ⟨rfl, rfl⟩ | ⟨rfl, rfl⟩ <;>
        exact unescape?.eq_def _
  | plain hother =>
      have hne := ne_backslash_of_plain hother
      rw [List.singleton_append, unescape?]
      all_goals simp [hne]
  | code hother =>
      have hread :
          readCodePoint? 0 (Nat.toDigits 16 c.toNat ++ '\x7d' :: rest) = some (c, rest) := by
        rw [readCodePoint?_toDigits, readCodePoint?, Char.ofNat_toNat]
      have happend : codePoint c ++ rest =
          '\\' :: 'u' :: '\x7b' :: (Nat.toDigits 16 c.toNat ++ '\x7d' :: rest) := by
        simp [codePoint]
      rw [happend, unescape?]
      split
      · next hnone => simp [hread] at hnone
      · next other after hsome =>
        obtain ⟨rfl, rfl⟩ : c = other ∧ rest = after := by simpa [hread] using hsome
        rfl

theorem Spelled.unescape? {cs body : List Char} (hspelled : Spelled cs body) :
    Text.unescape? body = some cs := by
  induction hspelled with
  | nil => rw [Text.unescape?]
  | cons hpiece _ ih => rw [hpiece.unescape?_append, ih, Option.map_some]

/-! ## Quotes and line breaks -/

/-- The places of the double quotes that no backslash takes the meaning from. -/
def bareQuotes : List Char → List Nat
  | [] => []
  | '\\' :: _ :: rest => (bareQuotes rest).map (· + 2)
  | c :: rest => (if c = '"' then [0] else []) ++ (bareQuotes rest).map (· + 1)

theorem bareQuotes_cons_of_ne {c : Char} (hbackslash : c ≠ '\\') (rest : List Char) :
    bareQuotes (c :: rest) = (if c = '"' then [0] else []) ++ (bareQuotes rest).map (· + 1) := by
  rw [bareQuotes]
  exact fun _ _ hcontra => absurd hcontra hbackslash

theorem bareQuotes_escape (letter : Char) (rest : List Char) :
    bareQuotes ('\\' :: letter :: rest) = (bareQuotes rest).map (· + 2) := by
  rw [bareQuotes]

theorem bareQuotes_append_of_no_marks {front : List Char}
    (hmarks : ∀ c ∈ front, c ≠ '"' ∧ c ≠ '\\') (rest : List Char) :
    bareQuotes (front ++ rest) = (bareQuotes rest).map (· + front.length) := by
  induction front with
  | nil => simp
  | cons c front ih =>
      rcases hmarks c List.mem_cons_self with ⟨hquote, hbackslash⟩
      have hfront := ih fun d hmem => hmarks d (List.mem_cons_of_mem _ hmem)
      rw [List.cons_append, bareQuotes_cons_of_ne hbackslash, if_neg hquote, hfront, List.map_map]
      rfl

theorem Spells.bareQuotes_append {c : Char} {piece : List Char} (hspells : Spells c piece)
    (rest : List Char) :
    bareQuotes (piece ++ rest) = (bareQuotes rest).map (· + piece.length) := by
  cases hspells with
  | short hescape => exact bareQuotes_escape _ rest
  | plain hother =>
      refine bareQuotes_append_of_no_marks (fun d hmem => ?_) rest
      rw [List.mem_singleton.mp hmem]
      exact ⟨ne_quote_of_plain hother, ne_backslash_of_plain hother⟩
  | code hother =>
      rcases codePoint_eq c with ⟨marks, hpiece, hmarks⟩
      have hquote : '"' ∉ codeMarks := by decide
      have hbackslash : '\\' ∉ codeMarks := by decide
      have hharmless : ∀ d ∈ marks, d ≠ '"' ∧ d ≠ '\\' := fun d hmem =>
        ⟨fun heq => hquote (heq ▸ hmarks d hmem), fun heq => hbackslash (heq ▸ hmarks d hmem)⟩
      have hrest := bareQuotes_append_of_no_marks hharmless rest
      rw [hpiece, List.cons_append, List.cons_append, bareQuotes_escape, hrest, List.map_map]
      rfl

theorem Spelled.bareQuotes_append {cs body : List Char} (hspelled : Spelled cs body)
    (rest : List Char) :
    bareQuotes (body ++ rest) = (bareQuotes rest).map (· + body.length) := by
  induction hspelled with
  | nil => simp
  | @cons c piece cs body hpiece hrest ih =>
      rw [List.append_assoc, hpiece.bareQuotes_append, ih, List.map_map, List.length_append]
      refine List.map_congr_left fun place _ => ?_
      change place + body.length + piece.length = _
      omega

/-- The characters at which a line ends. -/
def lineBreaks : List Char :=
  ['\n', '\x0b', '\x0c', '\r', '\x85', '\u2028', '\u2029']

theorem escapeChar_ne_self {c : Char} (hbreak : c ∈ lineBreaks) : escapeChar c ≠ [c] := by
  have hall : lineBreaks.all (fun c => escapeChar c != [c]) = true := by decide +kernel
  exact bne_iff_ne.mp (List.all_eq_true.mp hall c hbreak)

/-- A line can only break at a character that is written as it is. -/
theorem Spells.eq_of_break {c d : Char} {piece : List Char} (hspells : Spells c piece)
    (hmem : d ∈ piece) (hbreak : d ∈ lineBreaks) :
    c = d ∧ piece = [d] ∧ d ∉ shortEscapes.map Prod.fst := by
  have hescapes : ∀ pair ∈ shortEscapes, '\\' ∉ lineBreaks ∧ pair.2 ∉ lineBreaks := by decide
  have hmarks : lineBreaks.all (fun c => c ∉ '\\' :: codeMarks) = true := by decide
  cases hspells with
  | short hescape =>
      rw [List.mem_cons, List.mem_singleton] at hmem
      rcases hmem with rfl | rfl
      · exact absurd hbreak (hescapes _ hescape).1
      · exact absurd hbreak (hescapes _ hescape).2
  | plain hother =>
      rw [List.mem_singleton] at hmem
      exact ⟨hmem.symm, by rw [hmem], hmem ▸ hother⟩
  | code hother =>
      rcases codePoint_eq c with ⟨marks, hpiece, hcode⟩
      have hu : 'u' ∈ codeMarks := by decide
      have hmark : d ∈ '\\' :: codeMarks := by
        rw [hpiece, List.mem_cons, List.mem_cons] at hmem
        rcases hmem with rfl | rfl | hmem
        · exact List.mem_cons_self
        · exact List.mem_cons_of_mem _ hu
        · exact List.mem_cons_of_mem _ (hcode d hmem)
      exact absurd hmark (of_decide_eq_true (List.all_eq_true.mp hmarks d hbreak))

/-- Line feeds and carriage returns are escaped even if they were held to be printable. -/
theorem Spelled.not_mem_of_short {cs body : List Char} (hspelled : Spelled cs body) :
    '\n' ∉ body ∧ '\r' ∉ body := by
  have hnone : ∀ d ∈ lineBreaks, d ∈ shortEscapes.map Prod.fst → d ∉ body := by
    intro d hbreak hshort
    induction hspelled with
    | nil => exact List.not_mem_nil
    | cons hpiece _ ih =>
        intro hmem
        rcases List.mem_append.mp hmem with hfront | hrest
        · exact (hpiece.eq_of_break hfront hbreak).2.2 hshort
        · exact ih hrest
  exact ⟨hnone _ (by decide) (by decide), hnone _ (by decide) (by decide)⟩

theorem not_mem_escape_of_break {d : Char} (hbreak : d ∈ lineBreaks) (cs : List Char) :
    d ∉ escape cs := by
  intro hmem
  rcases List.mem_flatMap.mp hmem with ⟨c, -, hpiece⟩
  rcases (spells_escapeChar c).eq_of_break hpiece hbreak with ⟨rfl, hself, -⟩
  exact escapeChar_ne_self hbreak hself

/-! ## The whole text between its quotes -/

theorem toList_quote (s : String) : (quote s).toList = '"' :: (escape s.toList ++ ['"']) := by
  rw [quote, String.toList_ofList, List.append_assoc, List.singleton_append]

theorem quote_injective : Function.Injective quote := by
  intro s t hquote
  have hbody := congrArg String.toList hquote
  rw [toList_quote, toList_quote, List.cons.injEq, List.append_left_inj] at hbody
  have hread := congrArg unescape? hbody.2
  rw [(spelled_escape _).unescape?, (spelled_escape _).unescape?, Option.some.injEq] at hread
  exact String.toList_inj.mp hread

/-- Only the first and the last character are quotes that count. -/
theorem bareQuotes_quote (s : String) :
    bareQuotes (quote s).toList = [0, (quote s).length - 1] := by
  have hlength : (quote s).length = (escape s.toList).length + 2 := by
    rw [← String.length_toList, toList_quote, List.length_cons, List.length_append,
      List.length_singleton]
  have hlast : bareQuotes ['"'] = [0] := rfl
  rw [toList_quote, bareQuotes_cons_of_ne (by decide), (spelled_escape _).bareQuotes_append, hlast,
    hlength]
  simp

theorem not_mem_quote_of_break {d : Char} (hbreak : d ∈ lineBreaks) (s : String) :
    d ∉ (quote s).toList := by
  have hquote : '"' ∉ lineBreaks := by decide
  have hne : d ≠ '"' := fun heq => hquote (heq ▸ hbreak)
  rw [toList_quote, List.mem_cons, List.mem_append, List.mem_singleton]
  rintro (heq | hbody | heq)
  · exact hne heq
  · exact not_mem_escape_of_break hbreak _ hbody
  · exact hne heq

end Nmos6502.Text
