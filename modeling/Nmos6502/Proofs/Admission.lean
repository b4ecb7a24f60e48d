import Mathlib.Data.List.Induction
import Nmos6502.Opcode.Table
import Nmos6502.Proofs.Naming

/-!
# Which records make a table

Records make a table if no opcode is described twice and each record is well formed by itself.
Otherwise the defect is that of the first record which repeats an opcode or is malformed, and it is
the first check that this record fails; the records after it are not looked at.  Along the way the
table holds exactly the records that have been added.
-/

namespace Nmos6502.Opcode

namespace Record

/-- What `r` says, as an entry says it. -/
structure Describes (r : Record) (e : Entry) : Prop where
  opcode : e.opcode = r.opcode
  name : e.name = Text.upper (Text.trim r.mnemonic)
  mnemonic : ∀ m : Mnemonic, e.mnemonic = some m ↔ e.name = m.spelling
  mode : Text.trim r.mode = e.mode.name
  bytes : e.bytes = r.bytes
  cycles : e.cycles = r.cycles

def WellFormed (r : Record) : Prop :=
  ∃ mode : AddressingMode,
    Text.trim r.mode = mode.name ∧ r.bytes = mode.instructionLength ∧
      1 ≤ r.cycles ∧ r.cycles ≤ 253

/-- The first check that a record fails by itself. -/
inductive Malformed (r : Record) : Defect → Prop
  | unknownMode
      (hmode : ∀ mode : AddressingMode, Text.trim r.mode ≠ mode.name) :
      Malformed r (.unknownMode r.opcode r.mode)
  | lengthMismatch {mode : AddressingMode}
      (hmode : Text.trim r.mode = mode.name) (hbytes : r.bytes ≠ mode.instructionLength) :
      Malformed r (.lengthMismatch r.opcode r.bytes mode.instructionLength)
  | zeroCycles {mode : AddressingMode}
      (hmode : Text.trim r.mode = mode.name) (hbytes : r.bytes = mode.instructionLength)
      (hcycles : r.cycles = 0) :
      Malformed r (.zeroCycles r.opcode)
  | excessiveCycles {mode : AddressingMode}
      (hmode : Text.trim r.mode = mode.name) (hbytes : r.bytes = mode.instructionLength)
      (hcycles : 253 < r.cycles) :
      Malformed r (.excessiveCycles r.opcode r.cycles 253)

/-- The first check that a record fails where the records `earlier` stand before it. -/
inductive Fails (earlier : List Record) (r : Record) : Defect → Prop
  | duplicateOpcode (hseen : r.opcode ∈ earlier.map opcode) :
      Fails earlier r (.duplicateOpcode r.opcode)
  | malformed {d : Defect}
      (hfresh : r.opcode ∉ earlier.map opcode) (hmalformed : r.Malformed d) :
      Fails earlier r d

/-! ## Reading one record -/

variable {r : Record} {e : Entry} {d : Defect}

theorem maxBaseCycles_eq : maxBaseCycles = 253 := rfl

/-- The cost of an entry is within bounds as it stands, so that only the length is left to check. -/
theorem Describes.wellFormed_iff (h : r.Describes e) :
    r.WellFormed ↔ e.bytes = e.mode.instructionLength := by
  constructor
  · intro hwell
    rcases hwell with ⟨mode, hmode, hbytes, -, -⟩
    obtain rfl : e.mode = mode := AddressingMode.name_injective (h.mode.symm.trans hmode)
    exact h.bytes.trans hbytes
  · intro hbytes
    refine ⟨e.mode, h.mode, h.bytes.symm.trans hbytes, ?_, ?_⟩
    · rw [← h.cycles]
      exact e.cycles_pos
    · rw [← h.cycles]
      exact e.cycles_le

theorem Describes.unique {other : Entry} (h : r.Describes e) (hother : r.Describes other) :
    e = other := by
  have hopcode : e.opcode = other.opcode := h.opcode.trans hother.opcode.symm
  have hname : e.name = other.name := h.name.trans hother.name.symm
  have hmnemonic : e.mnemonic = other.mnemonic := by
    apply Option.ext
    intro m
    rw [h.mnemonic m, hother.mnemonic m, hname]
  have hmode : e.mode = other.mode :=
    AddressingMode.name_injective (h.mode.symm.trans hother.mode)
  have hbytes : e.bytes = other.bytes := h.bytes.trans hother.bytes.symm
  have hcycles : e.cycles = other.cycles := h.cycles.trans hother.cycles.symm
  cases e
  cases other
  simp only at hopcode hname hmnemonic hmode hbytes hcycles
  subst hopcode hname hmnemonic hmode hbytes hcycles
  rfl

theorem Malformed.not_wellFormed (h : r.Malformed d) : ¬ r.WellFormed := by
  intro hwell
  rcases hwell with ⟨mode, hmode, hbytes, hpos, hle⟩
  cases h with
  | unknownMode hunknown => exact hunknown mode hmode
  | @lengthMismatch other hother hlength =>
      obtain rfl : other = mode := AddressingMode.name_injective (hother.symm.trans hmode)
      exact hlength hbytes
  | zeroCycles _ _ hzero =>
      rw [hzero] at hpos
      exact absurd hpos (by decide)
  | excessiveCycles _ _ hexcess => exact absurd hle (UInt8.not_le.mpr hexcess)

theorem describes_of_checks
    {mode : AddressingMode} (hmode : Text.trim r.mode = mode.name) (hpos : 0 < r.cycles)
    (hle : r.cycles ≤ maxBaseCycles) :
    r.Describes ⟨r.opcode, listedName r.mnemonic, Mnemonic.parse? (Text.trim r.mnemonic), mode,
      r.bytes, r.cycles, hpos, hle⟩ where
  opcode := rfl
  name := rfl
  mnemonic m := by simp only [Mnemonic.parse?_eq_some_iff, listedName]
  mode := hmode
  bytes := rfl
  cycles := rfl

theorem Malformed.read_eq (h : r.Malformed d) : r.read = .error d := by
  cases h with
  | unknownMode hmode => simp [read, AddressingMode.parse?_eq_none_iff.mpr hmode]
  | lengthMismatch hmode hbytes =>
      simp [read, AddressingMode.parse?_eq_some_iff.mpr hmode, hbytes]
  | zeroCycles hmode hbytes hcycles =>
      simp [read, AddressingMode.parse?_eq_some_iff.mpr hmode, hbytes, hcycles]
  | excessiveCycles hmode hbytes hcycles =>
      have hpos : 0 < r.cycles := UInt8.lt_trans (by decide) hcycles
      have hle : ¬ r.cycles ≤ maxBaseCycles := UInt8.not_le.mpr hcycles
      rw [← maxBaseCycles_eq]
      simp [read, AddressingMode.parse?_eq_some_iff.mpr hmode, hbytes, hpos, hle]

theorem describes_or_malformed (r : Record) :
    (r.WellFormed ∧ ∃ e, r.read = .ok e ∧ r.Describes e) ∨ ∃ d, r.Malformed d := by
  cases hparse : AddressingMode.parse? r.mode with
  | none => exact .inr ⟨_, .unknownMode (AddressingMode.parse?_eq_none_iff.mp hparse)⟩
  | some mode =>
      have hmode := AddressingMode.parse?_eq_some_iff.mp hparse
      by_cases hbytes : r.bytes = mode.instructionLength
      · by_cases hpos : 0 < r.cycles
        · by_cases hle : r.cycles ≤ maxBaseCycles
          · left
            have hdescribes := describes_of_checks hmode hpos hle
            refine ⟨hdescribes.wellFormed_iff.mpr hbytes, _, ?_, hdescribes⟩
            simp [read, hparse, hbytes, hpos, hle]
          · exact .inr ⟨_, .excessiveCycles hmode hbytes (UInt8.not_le.mp hle)⟩
        · have hzero : r.cycles = 0 := by simpa [UInt8.pos_iff_ne_zero] using hpos
          exact .inr ⟨_, .zeroCycles hmode hbytes hzero⟩
      · exact .inr ⟨_, .lengthMismatch hmode hbytes⟩

theorem wellFormed_iff : r.WellFormed ↔ ∃ e, r.read = .ok e := by
  rcases r.describes_or_malformed with ⟨hwell, e, hread, -⟩ | ⟨d, hmalformed⟩
  · exact iff_of_true hwell ⟨e, hread⟩
  · refine iff_of_false hmalformed.not_wellFormed ?_
    rw [hmalformed.read_eq]
    simp

theorem Describes.of_read (hread : r.read = .ok e) : r.Describes e := by
  rcases r.describes_or_malformed with ⟨-, other, hother, hdescribes⟩ | ⟨d, hmalformed⟩
  · rw [hread] at hother
    exact Except.ok.inj hother ▸ hdescribes
  · rw [hmalformed.read_eq] at hread
    contradiction

theorem read_eq_error_iff : r.read = .error d ↔ r.Malformed d := by
  constructor
  · intro hread
    rcases r.describes_or_malformed with ⟨-, e, hok, -⟩ | ⟨other, hmalformed⟩
    · rw [hread] at hok
      contradiction
    · rw [hmalformed.read_eq, Except.error.injEq] at hread
      exact hread ▸ hmalformed
  · intro hmalformed
    exact hmalformed.read_eq

end Record

/-- No opcode is described twice, and each record is well formed by itself. -/
structure Admissible (records : List Record) : Prop where
  distinct : (records.map Record.opcode).Nodup
  wellFormed : ∀ r ∈ records, r.WellFormed

theorem admissible_nil : Admissible [] := ⟨List.nodup_nil, by simp⟩

theorem admissible_concat_iff {records : List Record} {r : Record} :
    Admissible (records ++ [r]) ↔
      Admissible records ∧ r.opcode ∉ records.map Record.opcode ∧ r.WellFormed := by
  constructor
  · intro h
    have hdistinct := h.distinct
    rw [List.map_append, List.nodup_append] at hdistinct
    refine ⟨⟨hdistinct.1, fun other hmem => h.wellFormed other (by simp [hmem])⟩, ?_,
      h.wellFormed r (by simp)⟩
    intro hmem
    exact hdistinct.2.2 _ hmem r.opcode (by simp) rfl
  · intro h
    rcases h with ⟨hrecords, hfresh, hwell⟩
    constructor
    · rw [List.map_append, List.nodup_append]
      refine ⟨hrecords.distinct, by simp, ?_⟩
      intro opcode hmem other hother heq
      obtain rfl : other = r.opcode := by simpa using hother
      exact hfresh (heq ▸ hmem)
    · intro other hmem
      rcases List.mem_append.mp hmem with hold | hnew
      · exact hrecords.wellFormed other hold
      · obtain rfl : other = r := by simpa using hnew
        exact hwell

theorem Admissible.perm
    {records others : List Record} (h : Admissible records) (hperm : records.Perm others) :
    Admissible others where
  distinct := (hperm.map Record.opcode).nodup_iff.mp h.distinct
  wellFormed r hmem := h.wellFormed r (hperm.mem_iff.mpr hmem)

namespace Table

/-- The table has been built from exactly these records. -/
structure Holds (t : Table) (records : List Record) : Prop where
  wellFormed : ∀ r ∈ records, r.WellFormed
  described : ∀ r ∈ records, ∃ e, t.lookup r.opcode = some e ∧ r.Describes e
  origin : ∀ opcode e, t.lookup opcode = some e →
    ∃ r ∈ records, r.opcode = opcode ∧ r.Describes e
  count : t.count = records.length
  entries : t.entries.length = records.length

variable {t u : Table} {records : List Record} {r : Record} {d : Defect}

theorem holds_empty : empty.Holds [] where
  wellFormed := by simp
  described := by simp
  origin := by simp
  count := rfl
  entries := by simp

theorem Holds.lookup_eq_none_iff (h : t.Holds records) {opcode : UInt8} :
    t.lookup opcode = none ↔ opcode ∉ records.map Record.opcode := by
  constructor
  · intro hfree hmem
    rcases List.mem_map.mp hmem with ⟨r, hr, rfl⟩
    rcases h.described r hr with ⟨e, hlookup, -⟩
    rw [hfree] at hlookup
    contradiction
  · intro hfresh
    cases hlookup : t.lookup opcode with
    | none => rfl
    | some e =>
        rcases h.origin opcode e hlookup with ⟨r, hr, hopcode, -⟩
        exact absurd (List.mem_map.mpr ⟨r, hr, hopcode⟩) hfresh

/-! ## Adding one record -/

theorem addRecord_of_seen (hseen : t.lookup r.opcode ≠ none) :
    t.addRecord r = .error (.duplicateOpcode r.opcode) := by
  have hsome : (t.lookup r.opcode).isSome = true := Option.isSome_iff_ne_none.mpr hseen
  rw [addRecord, if_pos hsome]

theorem addRecord_of_free (hfree : t.lookup r.opcode = none) :
    t.addRecord r = r.read.map t.insert := by
  simp [addRecord, hfree]

theorem Holds.insert (h : t.Holds records) {e : Entry}
    (hfresh : r.opcode ∉ records.map Record.opcode) (hwell : r.WellFormed)
    (hdescribes : r.Describes e) :
    (t.insert e).Holds (records ++ [r]) := by
  have hfree : t.lookup e.opcode = none := by
    rw [hdescribes.opcode]
    exact h.lookup_eq_none_iff.mpr hfresh
  constructor
  · intro other hmem
    rcases List.mem_append.mp hmem with hold | hnew
    · exact h.wellFormed other hold
    · obtain rfl : other = r := by simpa using hnew
      exact hwell
  · intro other hmem
    rcases List.mem_append.mp hmem with hold | hnew
    · rcases h.described other hold with ⟨found, hlookup, hother⟩
      have hne : other.opcode ≠ e.opcode := by
        intro heq
        rw [heq, hfree] at hlookup
        contradiction
      exact ⟨found, (t.lookup_insert_of_ne e hne).trans hlookup, hother⟩
    · obtain rfl : other = r := by simpa using hnew
      refine ⟨e, ?_, hdescribes⟩
      rw [← hdescribes.opcode]
      exact t.lookup_insert_self e
  · intro opcode found hlookup
    by_cases heq : opcode = e.opcode
    · subst heq
      rw [lookup_insert_self, Option.some.injEq] at hlookup
      subst hlookup
      exact ⟨r, by simp, hdescribes.opcode.symm, hdescribes⟩
    · rw [t.lookup_insert_of_ne e heq] at hlookup
      rcases h.origin opcode found hlookup with ⟨other, hother, hopcode⟩
      exact ⟨other, List.mem_append_left _ hother, hopcode⟩
  · rw [List.length_append, ← h.count]
    rfl
  · rw [List.length_append, ← h.entries]
    exact t.length_entries_insert hfree

theorem Holds.addRecord (h : t.Holds records) (hadd : t.addRecord r = .ok u) :
    u.Holds (records ++ [r]) := by
  by_cases hfree : t.lookup r.opcode = none
  · rw [addRecord_of_free hfree] at hadd
    cases hread : r.read with
    | error d =>
        rw [hread] at hadd
        contradiction
    | ok e =>
        rw [hread] at hadd
        obtain rfl : t.insert e = u := Except.ok.inj hadd
        exact h.insert (h.lookup_eq_none_iff.mp hfree) (Record.wellFormed_iff.mpr ⟨e, hread⟩)
          (.of_read hread)
  · rw [addRecord_of_seen hfree] at hadd
    contradiction

theorem Holds.addRecord_accepts_iff (h : t.Holds records) :
    (∃ u, t.addRecord r = .ok u) ↔ r.opcode ∉ records.map Record.opcode ∧ r.WellFormed := by
  rw [← h.lookup_eq_none_iff, Record.wellFormed_iff]
  by_cases hfree : t.lookup r.opcode = none
  · rw [addRecord_of_free hfree]
    cases hread : r.read with
    | error d => simp [Except.map]
    | ok e => simp [Except.map, hfree]
  · rw [addRecord_of_seen hfree]
    simp [hfree]

theorem Holds.addRecord_eq_error_iff (h : t.Holds records) :
    t.addRecord r = .error d ↔ r.Fails records d := by
  by_cases hfree : t.lookup r.opcode = none
  · have hfresh := h.lookup_eq_none_iff.mp hfree
    have herror : t.addRecord r = .error d ↔ r.read = .error d := by
      rw [addRecord_of_free hfree]
      cases r.read <;> simp [Except.map]
    rw [herror, Record.read_eq_error_iff]
    constructor
    · intro hmalformed
      exact .malformed hfresh hmalformed
    · intro hfails
      cases hfails with
      | duplicateOpcode hseen => exact absurd hseen hfresh
      | malformed _ hmalformed => exact hmalformed
  · have hseen : r.opcode ∈ records.map Record.opcode := by
      by_contra hfresh
      exact hfree (h.lookup_eq_none_iff.mpr hfresh)
    rw [addRecord_of_seen hfree, Except.error.injEq]
    constructor
    · intro heq
      exact heq ▸ .duplicateOpcode hseen
    · intro hfails
      cases hfails with
      | duplicateOpcode _ => rfl
      | malformed hfresh _ => exact absurd hseen hfresh

/-! ## Adding all records -/

theorem ofRecords_concat (records : List Record) (r : Record) :
    ofRecords (records ++ [r]) = ofRecords records >>= fun t => t.addRecord r := by
  simp [ofRecords, List.foldlM_append]

theorem ofRecords_holds (hbuilt : ofRecords records = .ok t) : t.Holds records := by
  induction records using List.reverseRecOn generalizing t with
  | nil =>
      obtain rfl : empty = t := Except.ok.inj hbuilt
      exact holds_empty
  | append_singleton records r ih =>
      rw [ofRecords_concat] at hbuilt
      cases hearlier : ofRecords records with
      | error d =>
          rw [hearlier] at hbuilt
          contradiction
      | ok earlier =>
          rw [hearlier] at hbuilt
          exact (ih hearlier).addRecord hbuilt

theorem ofRecords_accepts_iff : (∃ t, ofRecords records = .ok t) ↔ Admissible records := by
  induction records using List.reverseRecOn with
  | nil => exact iff_of_true ⟨empty, rfl⟩ admissible_nil
  | append_singleton records r ih =>
      rw [admissible_concat_iff, ← ih, ofRecords_concat]
      cases hearlier : ofRecords records with
      | error d =>
          refine iff_of_false ?_ (by simp)
          intro hok
          rcases hok with ⟨t, hok⟩
          contradiction
      | ok earlier =>
          have hstep := (ofRecords_holds hearlier).addRecord_accepts_iff (r := r)
          have haccepted : ∃ t, (Except.ok earlier : Except Defect Table) = .ok t := ⟨earlier, rfl⟩
          exact hstep.trans (and_iff_right haccepted).symm

theorem ofRecords_append_cons (before after : List Record) (r : Record) :
    ofRecords (before ++ r :: after) =
      ofRecords (before ++ [r]) >>= fun t => after.foldlM addRecord t := by
  simp [ofRecords, List.foldlM_append]

/-- A list of records makes a table if and only if it is admissible.  If it does not, the defect is
that of the first record that repeats an opcode of an earlier one or is malformed, and the first
check that this record fails, whatever comes after it. -/
theorem records_are_judged_in_order (records : List Record) :
    ((∃ t, ofRecords records = .ok t) ↔ Admissible records) ∧
    ∀ d, ofRecords records = .error d ↔
      ∃ before r after, records = before ++ r :: after ∧ Admissible before ∧ r.Fails before d := by
  refine ⟨ofRecords_accepts_iff, fun d => ?_⟩
  constructor
  · intro hrefused
    induction records using List.reverseRecOn with
    | nil => contradiction
    | append_singleton records r ih =>
        rw [ofRecords_concat] at hrefused
        cases hearlier : ofRecords records with
        | error other =>
            rw [hearlier] at hrefused
            obtain rfl : other = d := Except.error.inj hrefused
            rcases ih hearlier with ⟨before, first, after, rfl, hbefore, hfails⟩
            exact ⟨before, first, after ++ [r], by simp, hbefore, hfails⟩
        | ok earlier =>
            rw [hearlier] at hrefused
            have hfails := (ofRecords_holds hearlier).addRecord_eq_error_iff.mp hrefused
            exact ⟨records, r, [], rfl, ofRecords_accepts_iff.mp ⟨earlier, hearlier⟩, hfails⟩
  · intro hfirst
    rcases hfirst with ⟨before, r, after, rfl, hbefore, hfails⟩
    rcases ofRecords_accepts_iff.mpr hbefore with ⟨t, hbuilt⟩
    have hstep := (ofRecords_holds hbuilt).addRecord_eq_error_iff.mpr hfails
    rw [ofRecords_append_cons, ofRecords_concat, hbuilt]
    change (t.addRecord r >>= _) = _
    rw [hstep]
    rfl

end Table

end Nmos6502.Opcode
