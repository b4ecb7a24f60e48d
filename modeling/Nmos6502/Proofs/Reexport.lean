import Nmos6502.Opcode.Documented
import Nmos6502.Proofs.Contents
import Nmos6502.Proofs.Spacing

/-!
# Tables written out as records

The entries of a table can be written out as records again.  A name that has been listed once is
listed as it stands, a mode's name has no white space around it, and the length has been checked
against the mode, so that every entry is what its own record describes.  Hence the records of a
table build that very table, in whatever order they are put.
-/

namespace Nmos6502

/-! ## Listed names -/

namespace Text

theorem isBlank_toUpper (c : Char) : isBlank c.toUpper = isBlank c := by
  by_cases hsmall : c.isLower = true
  · have hletter : c.isAlpha = true := by rw [Char.isAlpha, hsmall, Bool.or_true]
    have hraised : c.toUpper.isAlpha = true := by rw [Char.isAlpha_toUpper_eq_isAlpha, hletter]
    rw [not_isBlank_of_isAlpha hletter, not_isBlank_of_isAlpha hraised]
  · rw [Char.toUpper_eq_of_not_isLower hsmall]

theorem strip_map_toUpper (cs : List Char) :
    strip (cs.map Char.toUpper) = (strip cs).map Char.toUpper := by
  have hblank : isBlank ∘ Char.toUpper = isBlank := funext isBlank_toUpper
  simp only [strip, List.dropWhile_map, hblank, ← List.map_reverse]

theorem upper_upper (s : String) : upper (upper s) = upper s := by
  have htwice : Char.toUpper ∘ Char.toUpper = Char.toUpper :=
    funext Char.toUpper_toUpper_eq_toUpper
  rw [upper_eq_upper_iff, upper, String.toList_ofList, List.map_map, htwice]

theorem trim_upper (s : String) : trim (upper s) = upper (trim s) := by
  simp only [trim, upper, String.toList_ofList, strip_map_toUpper]

end Text

namespace Opcode

theorem trim_listedName (s : String) : Text.trim (listedName s) = listedName s := by
  rw [listedName, Text.trim_upper, Text.trim_trim]

theorem listedName_listedName (s : String) : listedName (listedName s) = listedName s := by
  rw [listedName, trim_listedName, listedName, Text.upper_upper]

theorem listedName_spelling (m : Mnemonic) : listedName m.spelling = m.spelling := by
  cases m <;> decide

theorem parse?_listedName (s : String) :
    Mnemonic.parse? (listedName s) = Mnemonic.parse? (Text.trim s) := by
  apply Option.ext
  intro m
  rw [Mnemonic.parse?_eq_some_iff, Mnemonic.parse?_eq_some_iff, listedName, Text.upper_upper]

/-! ## What an entry's own record says -/

section Describes

variable {r : Record} {e : Entry}

theorem Record.Describes.own_record (h : r.Describes e) : e.record.Describes e where
  opcode := rfl
  name := by
    have hlisted : listedName e.name = e.name := by
      rw [h.name]
      exact listedName_listedName r.mnemonic
    exact hlisted.symm
  mnemonic := h.mnemonic
  mode := e.mode.trim_name
  bytes := rfl
  cycles := rfl

theorem Record.Describes.mnemonic_eq (h : r.Describes e) :
    e.mnemonic = Mnemonic.parse? (listedName r.mnemonic) := by
  apply Option.ext
  intro m
  rw [h.mnemonic m, h.name, parse?_listedName, Mnemonic.parse?_eq_some_iff]

theorem Entry.describes_of_spelling {m : Mnemonic} (hmnemonic : e.mnemonic = some m)
    (hname : e.name = m.spelling) : e.record.Describes e where
  opcode := rfl
  name := by
    change e.name = listedName e.name
    rw [hname, listedName_spelling]
  mnemonic other := by
    rw [hmnemonic, hname, Option.some.injEq, Mnemonic.spelling_injective.eq_iff]
  mode := e.mode.trim_name
  bytes := rfl
  cycles := rfl

/-- The lengths that are listed are those of the modes, row by row. -/
theorem documentedEntries_bytes : ∀ e ∈ documentedEntries, e.bytes = e.mode.instructionLength := by
  decide +kernel

theorem documentedEntries_describe : ∀ e ∈ documentedEntries, e.record.Describes e := by
  have hspelled : ∀ e ∈ documentedEntries, e.mnemonic.map Mnemonic.spelling = some e.name := by
    decide +kernel
  intro e hmem
  rcases Option.map_eq_some_iff.mp (hspelled e hmem) with ⟨m, hmnemonic, hname⟩
  exact Entry.describes_of_spelling hmnemonic hname.symm

end Describes

/-! ## From entries to the table -/

namespace Table

variable {t : Table} {records others : List Record} {entries : List Entry}

theorem holds_ofEntries (hdistinct : (entries.map Entry.opcode).Nodup)
    (hbytes : ∀ e ∈ entries, e.bytes = e.mode.instructionLength)
    (hdescribes : ∀ e ∈ entries, e.record.Describes e) :
    (ofEntries entries).Holds (entries.map Entry.record) := by
  induction entries using List.reverseRecOn with
  | nil => exact holds_empty
  | append_singleton entries last ih =>
      rw [List.map_append, List.nodup_append] at hdistinct
      have hfresh : last.record.opcode ∉ (entries.map Entry.record).map Record.opcode := by
        rw [List.map_map]
        intro hmem
        exact hdistinct.2.2 _ hmem _ (List.mem_singleton_self _) rfl
      have hearlier := ih hdistinct.1 (fun e hmem => hbytes e (List.mem_append_left _ hmem))
        fun e hmem => hdescribes e (List.mem_append_left _ hmem)
      have hlast := hdescribes last (by simp)
      rw [ofEntries_concat, List.map_append]
      exact hearlier.insert hfresh (hlast.wellFormed_iff.mpr (hbytes last (by simp))) hlast

theorem documented_holds : documented.Holds (documentedEntries.map Entry.record) := by
  have hdistinct : ((documentedEntries.map Entry.opcode).map UInt8.toNat).Nodup := by
    decide +kernel
  exact holds_ofEntries hdistinct.of_map documentedEntries_bytes documentedEntries_describe

theorem Holds.bytes_eq (h : t.Holds records) {e : Entry} (hmem : e ∈ t.entries) :
    e.bytes = e.mode.instructionLength := by
  rcases h.mem_entries_iff.mp hmem with ⟨r, hr, hdescribes⟩
  exact hdescribes.wellFormed_iff.mp (h.wellFormed r hr)

theorem Holds.describes_own (h : t.Holds records) {e : Entry} (hmem : e ∈ t.entries) :
    e.record.Describes e := by
  rcases h.mem_entries_iff.mp hmem with ⟨r, -, hdescribes⟩
  exact hdescribes.own_record

theorem Holds.own_records (h : t.Holds records) : t.Holds (t.entries.map Entry.record) where
  wellFormed r hmem := by
    rcases List.mem_map.mp hmem with ⟨e, he, rfl⟩
    exact (h.describes_own he).wellFormed_iff.mpr (h.bytes_eq he)
  described r hmem := by
    rcases List.mem_map.mp hmem with ⟨e, he, rfl⟩
    exact ⟨e, Table.mem_entries_iff.mp he, h.describes_own he⟩
  origin opcode e hlookup := by
    have hopcode := lookup_opcode hlookup
    have he : e ∈ t.entries := by
      rw [Table.mem_entries_iff, hopcode]
      exact hlookup
    exact ⟨e.record, List.mem_map_of_mem he, hopcode, h.describes_own he⟩
  count := by rw [List.length_map, h.count, h.entries]
  entries := (List.length_map _).symm

theorem Holds.admissible_own (h : t.Holds records) : Admissible (t.entries.map Entry.record) where
  distinct := by
    rw [List.map_map, List.nodup_iff_pairwise_ne, List.pairwise_map]
    exact t.entries_pairwise_lt.imp fun hlt => UInt8.ne_of_lt hlt
  wellFormed := h.own_records.wellFormed

theorem Holds.rebuilt (h : t.Holds records) (hperm : (t.entries.map Entry.record).Perm others) :
    ofRecords others = .ok t := by
  rcases ofRecords_accepts_iff.mpr (h.admissible_own.perm hperm) with ⟨u, hbuilt⟩
  rw [hbuilt, h.own_records.eq_of_perm (ofRecords_holds hbuilt) hperm]

/-- The records of the documented table, and those of any table that has been built from records,
build the same table again, in any order.  What is read of a name is settled by the name as it is
listed. -/
theorem own_records_rebuild
    (hmade : t = documented ∨ ∃ records, ofRecords records = .ok t) :
    (∀ others, (t.entries.map Entry.record).Perm others → ofRecords others = .ok t) ∧
      (∀ e ∈ t.entries, e.bytes = 1 + e.mode.operandBytes) ∧
      (∀ records, ofRecords records = .ok t → ∀ r ∈ records,
        ∃ e ∈ t.entries, e.opcode = r.opcode ∧ e.name = listedName r.mnemonic ∧
          e.mnemonic = Mnemonic.parse? (listedName r.mnemonic) ∧
          r.bytes = 1 + e.mode.operandBytes) ∧
      (∀ s, listedName (listedName s) = listedName s) ∧
      ∀ s, Mnemonic.parse? (Text.trim s) = Mnemonic.parse? (listedName s) := by
  have hholds : ∃ records, t.Holds records := by
    rcases hmade with rfl | ⟨records, hbuilt⟩
    · exact ⟨_, documented_holds⟩
    · exact ⟨records, ofRecords_holds hbuilt⟩
  rcases hholds with ⟨_, hholds⟩
  refine ⟨fun others hperm => hholds.rebuilt hperm, fun e he => hholds.bytes_eq he, ?_,
    listedName_listedName, fun s => (parse?_listedName s).symm⟩
  intro records hbuilt r hmem
  rcases (ofRecords_holds hbuilt).described r hmem with ⟨e, hlookup, hdescribes⟩
  have he : e ∈ t.entries := by
    rw [mem_entries_iff, hdescribes.opcode]
    exact hlookup
  exact ⟨e, he, hdescribes.opcode, hdescribes.name, hdescribes.mnemonic_eq,
    hdescribes.bytes.symm.trans (hholds.bytes_eq he)⟩

/-- An unknown name in small letters, one of them not ASCII, with white space around it. -/
theorem padded_names_rebuild :
    let nop : Entry := ⟨0xEA, "NOP", some .nop, .implied, 1, 2, by decide, by decide⟩
    let odd : Entry := ⟨0xA7, "LßX", none, .zeroPage, 2, 3, by decide, by decide⟩
    let table := (empty.insert nop).insert odd
    ofRecords [⟨0xEA, "\tnOp", "Implied", 1, 2⟩, ⟨0xA7, "lßx\u2003", " Zero Page ", 2, 3⟩] =
        .ok table ∧
      ofRecords [⟨0xEA, "NOP", "Implied", 1, 2⟩, ⟨0xA7, "LßX", "Zero Page", 2, 3⟩] =
        .ok table := by
  intro nop odd table
  have hnop : Record.read ⟨0xEA, "\tnOp", "Implied", 1, 2⟩ = .ok nop := by decide +kernel
  have hodd : Record.read ⟨0xA7, "lßx\u2003", " Zero Page ", 2, 3⟩ = .ok odd := by decide +kernel
  have hfree : (empty.insert nop).lookup 0xA7 = none := by
    rw [lookup_insert_of_ne _ _ (by decide), lookup_empty]
  have hbuilt : ofRecords
      [⟨0xEA, "\tnOp", "Implied", 1, 2⟩, ⟨0xA7, "lßx\u2003", " Zero Page ", 2, 3⟩] =
        .ok table := by
    simp [table, ofRecords, addRecord_of_free, hnop, hodd, hfree, Except.map, bind,
      Except.bind, pure, Except.pure]
  have hlisted : table.entries = [odd, nop] := by decide +kernel
  refine ⟨hbuilt, (own_records_rebuild (.inr ⟨_, hbuilt⟩)).1 _ ?_⟩
  rw [hlisted]
  exact .swap _ _ _

end Table

end Opcode

end Nmos6502
