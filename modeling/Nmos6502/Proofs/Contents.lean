import Nmos6502.Proofs.Admission

/-!
# What a built table contains

A table that has been built from records contains what the records describe and nothing else: under
each opcode, in the listing, in the count and in both searches.  The order of the records leaves no
trace, for two tables that hold the same records are equal.
-/

namespace Nmos6502.Opcode.Table

variable {t u : Table} {records others : List Record} {e : Entry}

/-- Everything that can be asked of `t` is answered from `records`. -/
structure Contents (t : Table) (records : List Record) : Prop where
  lookup_isSome : ∀ opcode,
    (t.lookup opcode).isSome = true ↔ ∃ r ∈ records, r.opcode = opcode
  lookup_describes : ∀ opcode e, t.lookup opcode = some e →
    e.opcode = opcode ∧ ∃ r ∈ records, r.opcode = opcode ∧ r.Describes e
  mem_entries : ∀ e, e ∈ t.entries ↔ ∃ r ∈ records, r.Describes e
  ascending : t.entries.Pairwise fun a b => a.opcode < b.opcode
  size_records : t.size = records.length
  size_entries : t.size = t.entries.length
  isEmpty : t.isEmpty = true ↔ records = []
  byMnemonic_sublist : ∀ m, (t.byMnemonic m).Sublist t.entries
  mem_byMnemonic : ∀ m e, e ∈ t.byMnemonic m ↔ e ∈ t.entries ∧ e.mnemonic = some m
  find_some : ∀ m mode e, t.find? m mode = some e ↔
    (e ∈ t.entries ∧ e.mnemonic = some m ∧ e.mode = mode) ∧
      ∀ other ∈ t.entries, other.mnemonic = some m → other.mode = mode → e.opcode ≤ other.opcode
  find_none : ∀ m mode, t.find? m mode = none ↔
    ¬ ∃ e ∈ t.entries, e.mnemonic = some m ∧ e.mode = mode

/-! ## The listing -/

theorem eq_of_mem_entries {other : Entry} (he : e ∈ t.entries) (hother : other ∈ t.entries)
    (hopcode : e.opcode = other.opcode) : e = other := by
  rw [mem_entries_iff, hopcode] at he
  rw [mem_entries_iff] at hother
  exact Option.some.inj (he.symm.trans hother)

theorem ofEntries_concat (entries : List Entry) (last : Entry) :
    ofEntries (entries ++ [last]) = (ofEntries entries).insert last := by
  simp [ofEntries]

theorem mem_of_lookup_ofEntries {entries : List Entry} {opcode : UInt8}
    (hlookup : (ofEntries entries).lookup opcode = some e) : e ∈ entries := by
  induction entries using List.reverseRecOn with
  | nil => simp [ofEntries] at hlookup
  | append_singleton entries last ih =>
      rw [ofEntries_concat] at hlookup
      by_cases heq : opcode = last.opcode
      · rw [heq, lookup_insert_self, Option.some.injEq] at hlookup
        simp [hlookup]
      · rw [lookup_insert_of_ne _ _ heq] at hlookup
        exact List.mem_append_left _ (ih hlookup)

/-- The last of the entries for an opcode is the one that is looked up. -/
theorem lookup_ofEntries (entries : List Entry) (opcode : UInt8) :
    (ofEntries entries).lookup opcode = entries.reverse.find? fun e => e.opcode == opcode := by
  induction entries using List.reverseRecOn with
  | nil => simp [ofEntries]
  | append_singleton entries last ih =>
      rw [ofEntries_concat, List.reverse_append, List.reverse_singleton, List.singleton_append]
      by_cases heq : last.opcode = opcode
      · rw [← heq, lookup_insert_self]
        simp
      · rw [lookup_insert_of_ne _ _ (Ne.symm heq), ih,
          List.find?_cons_of_neg (by simpa using heq)]

theorem le_of_find?_eq_some {p : Entry → Bool} (hfind : t.entries.find? p = some e) :
    ∀ other ∈ t.entries, p other = true → e.opcode ≤ other.opcode := by
  rcases List.find?_eq_some_iff_append.mp hfind with ⟨-, before, after, hsplit, hbefore⟩
  have hsorted := t.entries_pairwise_lt
  rw [hsplit, List.pairwise_append, List.pairwise_cons] at hsorted
  intro other hmem hp
  rw [hsplit, List.mem_append, List.mem_cons] at hmem
  rcases hmem with hearlier | rfl | hlater
  · have hnot := hbefore other hearlier
    rw [hp] at hnot
    contradiction
  · exact UInt8.le_refl _
  · exact UInt8.le_of_lt (hsorted.2.1.1 other hlater)

theorem find?_entries_eq_some_iff {p : Entry → Bool} :
    t.entries.find? p = some e ↔
      (e ∈ t.entries ∧ p e = true) ∧
        ∀ other ∈ t.entries, p other = true → e.opcode ≤ other.opcode := by
  constructor
  · intro hfind
    exact ⟨⟨List.mem_of_find?_eq_some hfind, List.find?_some hfind⟩, le_of_find?_eq_some hfind⟩
  · intro h
    rcases h with ⟨⟨hmem, hp⟩, hleast⟩
    cases hfind : t.entries.find? p with
    | none => exact absurd hp (List.find?_eq_none.mp hfind e hmem)
    | some found =>
        -- Both are matches, so neither stands above the other.
        have hfound := List.mem_of_find?_eq_some hfind
        have hle := hleast found hfound (List.find?_some hfind)
        have hge := le_of_find?_eq_some hfind e hmem hp
        rw [eq_of_mem_entries hfound hmem (UInt8.le_antisymm hge hle)]

theorem find?_eq_some_iff {m : Mnemonic} {mode : AddressingMode} :
    t.find? m mode = some e ↔
      (e ∈ t.entries ∧ e.mnemonic = some m ∧ e.mode = mode) ∧
        ∀ other ∈ t.entries, other.mnemonic = some m → other.mode = mode →
          e.opcode ≤ other.opcode := by
  simp only [find?, find?_entries_eq_some_iff, Bool.and_eq_true, beq_iff_eq, and_imp]

theorem find?_eq_none_iff {m : Mnemonic} {mode : AddressingMode} :
    t.find? m mode = none ↔ ¬ ∃ e ∈ t.entries, e.mnemonic = some m ∧ e.mode = mode := by
  simp only [find?, List.find?_eq_none, Bool.and_eq_true, beq_iff_eq, not_exists, not_and]

/-! ## Tables that hold records -/

theorem Holds.mem_entries_iff (h : t.Holds records) :
    e ∈ t.entries ↔ ∃ r ∈ records, r.Describes e := by
  rw [Table.mem_entries_iff]
  constructor
  · intro hlookup
    rcases h.origin e.opcode e hlookup with ⟨r, hr, -, hdescribes⟩
    exact ⟨r, hr, hdescribes⟩
  · intro hrecord
    rcases hrecord with ⟨r, hr, hdescribes⟩
    rcases h.described r hr with ⟨found, hlookup, hfound⟩
    rw [hdescribes.opcode, hlookup, hfound.unique hdescribes]

theorem Holds.lookup_isSome_iff (h : t.Holds records) {opcode : UInt8} :
    (t.lookup opcode).isSome = true ↔ ∃ r ∈ records, r.opcode = opcode := by
  rw [Option.isSome_iff_ne_none, ne_eq, h.lookup_eq_none_iff, not_not, List.mem_map]

theorem Holds.contents (h : t.Holds records) : t.Contents records where
  lookup_isSome opcode := h.lookup_isSome_iff
  lookup_describes opcode e hlookup := ⟨lookup_opcode hlookup, h.origin opcode e hlookup⟩
  mem_entries e := h.mem_entries_iff
  ascending := t.entries_pairwise_lt
  size_records := h.count
  size_entries := h.count.trans h.entries.symm
  isEmpty := by
    rw [isEmpty, h.count, beq_iff_eq]
    exact List.length_eq_zero_iff
  byMnemonic_sublist m := List.filter_sublist
  mem_byMnemonic m e := by rw [byMnemonic, List.mem_filter, beq_iff_eq]
  find_some m mode e := find?_eq_some_iff
  find_none m mode := find?_eq_none_iff

theorem Holds.eq_of_perm (ht : t.Holds records) (hu : u.Holds others)
    (hperm : records.Perm others) : t = u := by
  have hcount : t.count = u.count := by
    rw [ht.count, hu.count, hperm.length_eq]
  refine ext_lookup hcount fun opcode => ?_
  cases hlookup : t.lookup opcode with
  | none =>
      have hfresh := ht.lookup_eq_none_iff.mp hlookup
      rw [(hperm.map Record.opcode).mem_iff] at hfresh
      exact (hu.lookup_eq_none_iff.mpr hfresh).symm
  | some e =>
      -- The record that `e` came from is among the others too, wherever it stands there.
      rcases ht.origin opcode e hlookup with ⟨r, hr, rfl, hdescribes⟩
      rcases hu.described r (hperm.mem_iff.mp hr) with ⟨other, hother, hsame⟩
      rw [hother, hdescribes.unique hsame]

/-- A table built from records contains exactly these records, and the same records in any other
order build the same table. -/
theorem built_table_is_its_records (hbuilt : ofRecords records = .ok t) :
    t.Contents records ∧ ∀ others, records.Perm others → ofRecords others = .ok t := by
  have hholds := ofRecords_holds hbuilt
  refine ⟨hholds.contents, fun others hperm => ?_⟩
  have hadmissible := ofRecords_accepts_iff.mp ⟨t, hbuilt⟩
  rcases ofRecords_accepts_iff.mpr (hadmissible.perm hperm) with ⟨u, hother⟩
  rw [hother, hholds.eq_of_perm (ofRecords_holds hother) hperm]

theorem lax_and_nop_in_either_order :
    let nop : Entry := ⟨0xEA, "NOP", some .nop, .implied, 1, 2, by decide, by decide⟩
    let lax : Entry := ⟨0xA7, "LAX", none, .zeroPage, 2, 3, by decide, by decide⟩
    let table := (empty.insert nop).insert lax
    let records : List Record :=
      [⟨0xEA, "nop", "Implied", 1, 2⟩, ⟨0xA7, " lax", " Zero Page ", 2, 3⟩]
    ofRecords records = .ok table ∧ table.Contents records ∧ table.entries = [lax, nop] ∧
      ofRecords records.reverse = .ok table := by
  intro nop lax table records
  have hnop : Record.read ⟨0xEA, "nop", "Implied", 1, 2⟩ = .ok nop := by decide +kernel
  have hlax : Record.read ⟨0xA7, " lax", " Zero Page ", 2, 3⟩ = .ok lax := by decide +kernel
  have hfree : (empty.insert nop).lookup 0xA7 = none := by
    rw [lookup_insert_of_ne _ _ (by decide), lookup_empty]
  have hbuilt : ofRecords records = .ok table := by
    simp [records, table, ofRecords, addRecord_of_free, hnop, hlax, hfree, Except.map, bind,
      Except.bind, pure, Except.pure]
  have hcontents := built_table_is_its_records hbuilt
  exact ⟨hbuilt, hcontents.1, by decide +kernel,
    hcontents.2 records.reverse (List.reverse_perm records).symm⟩

end Nmos6502.Opcode.Table
