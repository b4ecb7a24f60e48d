import Nmos6502.Opcode.Entry

/-!
# Opcode tables

A table has one slot per opcode and counts what is put in.  `Table.lookup` is the view; entries are
listed in opcode order.  Building a table from records stops at the first record with a defect,
where an opcode that an earlier record has taken counts as a defect of the later one.
-/

namespace Nmos6502.Opcode

structure Table where
  slots : Vector (Option Entry) 256
  count : Nat
  opcode_eq : ∀ (i : Nat) (hi : i < 256) (e : Entry), slots[i] = some e → e.opcode.toNat = i
deriving DecidableEq

namespace Table

def empty : Table where
  slots := Vector.replicate 256 none
  count := 0
  opcode_eq := by simp

def lookup (t : Table) (opcode : UInt8) : Option Entry :=
  have : opcode.toNat < 256 := opcode.toNat_lt
  t.slots[opcode.toNat]

/-- Puts `e` into its slot and counts it. -/
def insert (t : Table) (e : Entry) : Table where
  slots := t.slots.set e.opcode.toNat (some e) e.opcode.toNat_lt
  count := t.count + 1
  opcode_eq := by
    intro i hi entry h
    rw [Vector.getElem_set] at h
    split at h
    · next heq => exact Option.some.inj h ▸ heq
    · exact t.opcode_eq i hi entry h

def ofEntries (entries : List Entry) : Table :=
  entries.foldl insert empty

def addRecord (t : Table) (r : Record) : Except Defect Table :=
  if (t.lookup r.opcode).isSome then .error (.duplicateOpcode r.opcode)
  else r.read.map t.insert

def ofRecords (records : List Record) : Except Defect Table :=
  records.foldlM addRecord empty

/-- The entries in opcode order. -/
def entries (t : Table) : List Entry :=
  t.slots.toList.filterMap id

def size (t : Table) : Nat := t.count

def isEmpty (t : Table) : Bool := t.count == 0

def byMnemonic (t : Table) (mnemonic : Mnemonic) : List Entry :=
  t.entries.filter fun e => e.mnemonic == some mnemonic

/-- The entry of the lowest opcode with this mnemonic and mode. -/
def find? (t : Table) (mnemonic : Mnemonic) (mode : AddressingMode) : Option Entry :=
  t.entries.find? fun e => e.mnemonic == some mnemonic && e.mode == mode

theorem lookup_opcode {t : Table} {opcode : UInt8} {e : Entry} (h : t.lookup opcode = some e) :
    e.opcode = opcode :=
  UInt8.toNat_inj.mp (t.opcode_eq opcode.toNat opcode.toNat_lt e h)

@[simp] theorem lookup_empty (opcode : UInt8) : empty.lookup opcode = none := by
  simp [lookup, empty]

@[simp] theorem lookup_insert_self (t : Table) (e : Entry) :
    (t.insert e).lookup e.opcode = some e := by
  simp [lookup, insert]

theorem lookup_insert_of_ne
    (t : Table) (e : Entry) {opcode : UInt8}
    (hne : opcode ≠ e.opcode) :
    (t.insert e).lookup opcode = t.lookup opcode := by
  have hnat : e.opcode.toNat ≠ opcode.toNat := fun h => hne (UInt8.toNat_inj.mp h).symm
  simp [lookup, insert, Vector.getElem_set_ne, hnat]

theorem ext_lookup
    {t u : Table} (hcount : t.count = u.count)
    (h : ∀ opcode, t.lookup opcode = u.lookup opcode) :
    t = u := by
  obtain ⟨ts, tn, _⟩ := t
  obtain ⟨us, un, _⟩ := u
  obtain rfl : tn = un := hcount
  congr
  ext1 i hi
  have hread := h (UInt8.ofNat i)
  have hmod : (UInt8.ofNat i).toNat = i := by
    simp [UInt8.toNat_ofNat', Nat.mod_eq_of_lt hi]
  simpa [lookup, hmod] using hread

theorem mem_entries_iff {t : Table} {e : Entry} : e ∈ t.entries ↔ t.lookup e.opcode = some e := by
  simp only [entries, List.mem_filterMap, id_eq, exists_eq_right, Vector.mem_toList_iff]
  constructor
  · intro hmem
    rcases Vector.mem_iff_getElem.mp hmem with ⟨i, hi, hslot⟩
    have hopcode := t.opcode_eq i hi e hslot
    simpa [lookup, hopcode] using hslot
  · intro hlookup
    exact Vector.mem_iff_getElem.mpr ⟨e.opcode.toNat, e.opcode.toNat_lt, hlookup⟩

@[simp] theorem entries_empty : empty.entries = [] := by
  apply List.eq_nil_iff_forall_not_mem.mpr
  intro e hmem
  have hlookup := mem_entries_iff.mp hmem
  simp at hlookup

theorem entries_pairwise_lt (t : Table) : t.entries.Pairwise fun a b => a.opcode < b.opcode := by
  rw [entries, List.pairwise_filterMap, List.pairwise_iff_getElem]
  intro i j hi hj hlt a ha b hb
  have hslots : t.slots.toList.length = 256 := t.slots.length_toList
  have hfirst := t.opcode_eq i (by omega) a (by simpa using ha)
  have hsecond := t.opcode_eq j (by omega) b (by simpa using hb)
  apply UInt8.lt_iff_toNat_lt.mpr
  rw [hfirst, hsecond]
  exact hlt

theorem length_entries_insert
    (t : Table) {e : Entry} (hfree : t.lookup e.opcode = none) :
    (t.insert e).entries.length = t.entries.length + 1 := by
  have hi : e.opcode.toNat < t.slots.toList.length := by simpa using e.opcode.toNat_lt
  have hslot : t.slots.toList[e.opcode.toNat] = none := by simpa [lookup] using hfree
  simp only [entries, insert, Vector.toList_set, List.length_filterMap_eq_countP]
  rw [List.countP_set hi, hslot]
  rfl

end Table

end Nmos6502.Opcode
