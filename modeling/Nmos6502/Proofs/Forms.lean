import Mathlib.Data.List.Nodup
import Mathlib.Data.List.Perm.Basic
import Nmos6502.Proofs.Naming
import Nmos6502.Serial.Shape

/-!
# Written forms

What it means that the written values of a type are those of a form and no others: whatever is
written is read back, whatever is read has the form, and writing it again gives what was read, less
the fields that the form does not know.  Flags, texts, numbers and words are exact in this sense,
and an object that is written and read field by field is if each of its fields is.
-/

namespace Nmos6502.Serial

/-! ## Forms -/

/-- Equal up to the order of the fields of objects. -/
inductive Same : Value → Value → Prop where
  | refl (v : Value) : Same v v
  | object {fields others : List (String × Value)}
      (keys : (fields.map Prod.fst).Perm (others.map Prod.fst))
      (values : ∀ key x y, (key, x) ∈ fields → (key, y) ∈ others → Same x y) :
      Same (.object fields) (.object others)

structure Form where
  /-- Holds if the value, where it is looked at, is not one of those that are read although they are
  not of the form: lists for objects, objects for words, and objects that repeat a key. -/
  Plain : Value → Prop
  Fits : Value → Prop
  /-- The value without the fields that the form does not know. -/
  restrict : Value → Value

namespace Form

def flag : Form where
  Plain _ := True
  Fits v := ∃ b, v = .bool b
  restrict := id

def text : Form where
  Plain _ := True
  Fits v := ∃ s, v = .text s
  restrict := id

def number (bound : Nat) : Form where
  Plain _ := True
  Fits v := ∃ n : Nat, n < bound ∧ v = .integer n
  restrict := id

def word (choices : List String) : Form where
  Plain v := ∀ fields, v ≠ .object fields
  Fits v := ∃ s ∈ choices, v = .text s
  restrict := id

/-- The fields that the schema names, in the order in which they stand. -/
def restrictFields (schema : List (String × Form)) (fields : List (String × Value)) :
    List (String × Value) :=
  fields.filterMap fun field =>
    (schema.lookup field.1).map fun form => (field.1, form.restrict field.2)

def record (schema : List (String × Form)) : Form where
  Plain
    | .list _ => False
    | .object fields =>
      (fields.map Prod.fst).Nodup ∧
        ∀ part ∈ schema, ∀ x, (part.1, x) ∈ fields → part.2.Plain x
    | _ => True
  Fits v :=
    ∃ fields, v = .object fields ∧ ∀ part ∈ schema, ∃ x, (part.1, x) ∈ fields ∧ part.2.Fits x
  restrict
    | .object fields => .object (restrictFields schema fields)
    | v => v

end Form

/-- The written values of `α` are those of the form. -/
structure Exact (α : Type) [Shape α] (form : Form) : Prop where
  decode_encode : ∀ a : α, decode? (encode a) = some a
  decodes_iff : ∀ v, form.Plain v → ((∃ a : α, decode? v = some a) ↔ form.Fits v)
  encode_of_decode : ∀ v (a : α), form.Plain v → decode? v = some a →
    Same (encode a) (form.restrict v)

/-! ## Flags, texts and numbers -/

/-- A value without fields is read exactly if it is what is written. -/
theorem exact_of_leaf {α : Type} [Shape α] {form : Form}
    (hwhole : ∀ v, form.restrict v = v) (hplain : ∀ a : α, form.Plain (encode a))
    (hdecode : ∀ v (a : α), form.Plain v → (decode? v = some a ↔ v = encode a))
    (hfits : ∀ v, form.Fits v ↔ ∃ a : α, v = encode a) :
    Exact α form where
  decode_encode a := (hdecode _ a (hplain a)).mpr rfl
  decodes_iff v hv := by
    simp only [hdecode v _ hv, hfits]
  encode_of_decode v a hv ha := by
    rw [hwhole, (hdecode v a hv).mp ha]
    exact .refl _

theorem exact_bool : Exact Bool .flag := by
  refine exact_of_leaf (fun _ => rfl) (fun _ => trivial) (fun v b _ => ?_) (fun _ => Iff.rfl)
  cases v <;> simp [decode?, encode]

theorem exact_string : Exact String .text := by
  refine exact_of_leaf (fun _ => rfl) (fun _ => trivial) (fun v s _ => ?_) (fun _ => Iff.rfl)
  cases v <;> simp [decode?, encode]

theorem Value.natBelow?_eq_some_iff {bound n : Nat} {v : Value} :
    v.natBelow? bound = some n ↔ n < bound ∧ v = .integer n := by
  cases v with
  | integer k =>
      simp only [natBelow?, Value.integer.injEq]
      split
      · next hrange =>
          rw [Option.some_inj]
          omega
      · next hrange =>
          simp only [reduceCtorEq, false_iff]
          omega
  | _ => simp [natBelow?]

/-- A type of numbers, given by their values. -/
theorem exact_number
    {α : Type} [Shape α] {bound : Nat} {toNat : α → Nat} {ofNat : Nat → α}
    (hlt : ∀ a, toNat a < bound) (hof : ∀ a, ofNat (toNat a) = a)
    (hto : ∀ n < bound, toNat (ofNat n) = n)
    (hencode : ∀ a : α, encode a = .integer (toNat a))
    (hdecode : ∀ v, (decode? v : Option α) = (v.natBelow? bound).map ofNat) :
    Exact α (.number bound) := by
  refine exact_of_leaf (fun _ => rfl) (fun _ => trivial) (fun v a _ => ?_) (fun v => ?_)
  · rw [hdecode, hencode, Option.map_eq_some_iff]
    constructor
    · rintro ⟨n, hread, rfl⟩
      rcases Value.natBelow?_eq_some_iff.mp hread with ⟨hn, hv⟩
      rw [hto n hn, hv]
    · intro hv
      exact ⟨toNat a, Value.natBelow?_eq_some_iff.mpr ⟨hlt a, hv⟩, hof a⟩
  · constructor
    · rintro ⟨n, hn, hv⟩
      exact ⟨ofNat n, by rw [hencode, hto n hn, hv]⟩
    · rintro ⟨a, hv⟩
      exact ⟨toNat a, hlt a, by rw [hv, hencode]⟩

theorem exact_uint8 : Exact UInt8 (.number UInt8.size) :=
  exact_number UInt8.toNat_lt_size (fun _ => UInt8.ofNat_toNat)
    (fun _ => UInt8.toNat_ofNat_of_lt') (fun _ => rfl) (fun _ => rfl)

theorem exact_uint16 : Exact UInt16 (.number UInt16.size) :=
  exact_number UInt16.toNat_lt_size (fun _ => UInt16.ofNat_toNat)
    (fun _ => UInt16.toNat_ofNat_of_lt') (fun _ => rfl) (fun _ => rfl)

theorem exact_uint64 : Exact UInt64 (.number UInt64.size) :=
  exact_number UInt64.toNat_lt_size (fun _ => UInt64.ofNat_toNat)
    (fun _ => UInt64.toNat_ofNat_of_lt') (fun _ => rfl) (fun _ => rfl)

/-! ## Words -/

section Words

variable {α : Type} {all : List α} {identifier : α → String}

theorem decodeCase?_text (hall : ∀ a, a ∈ all) (hnames : (all.map identifier).Nodup)
    {s : String} {a : α} :
    decodeCase? all identifier (.text s) = some a ↔ identifier a = s := by
  have hunique : ∀ b c, (identifier b == s) = true → (identifier c == s) = true → b = c := by
    intro b c hb hc
    exact List.inj_on_of_nodup_map hnames (hall b) (hall c)
      ((beq_iff_eq.mp hb).trans (beq_iff_eq.mp hc).symm)
  exact (find?_eq_some_iff_of_unique hall hunique).trans beq_iff_eq

theorem decodeCase?_eq_some_iff (hall : ∀ a, a ∈ all) (hnames : (all.map identifier).Nodup)
    {v : Value} (hplain : ∀ fields, v ≠ .object fields) {a : α} :
    decodeCase? all identifier v = some a ↔ v = .text (identifier a) := by
  cases v with
  | text s =>
      rw [decodeCase?_text hall hnames, Value.text.injEq]
      exact eq_comm
  | object fields => exact absurd rfl (hplain fields)
  | _ => simp [decodeCase?, Value.word?]

theorem exact_word [Shape α] (hall : ∀ a, a ∈ all) (hnames : (all.map identifier).Nodup)
    (hencode : ∀ a : α, encode a = .text (identifier a))
    (hdecode : ∀ v, (decode? v : Option α) = decodeCase? all identifier v) :
    Exact α (.word (all.map identifier)) := by
  refine exact_of_leaf (fun _ => rfl) (fun a fields => ?_) (fun v a hplain => ?_) (fun v => ?_)
  · rw [hencode]
    exact nofun
  · rw [hdecode, hencode, decodeCase?_eq_some_iff hall hnames hplain]
  · constructor
    · rintro ⟨s, hs, hv⟩
      rcases List.mem_map.mp hs with ⟨a, -, rfl⟩
      exact ⟨a, by rw [hencode, hv]⟩
    · rintro ⟨a, hv⟩
      exact ⟨identifier a, List.mem_map_of_mem (hall a), by rw [hv, hencode]⟩

end Words

/-! ## Objects -/

theorem lookup_eq_some_iff_mem {β : Type} {key : String} {x : β} {pairs : List (String × β)}
    (hkeys : (pairs.map Prod.fst).Nodup) : pairs.lookup key = some x ↔ (key, x) ∈ pairs := by
  induction pairs with
  | nil => simp
  | cons pair pairs ih =>
      rcases pair with ⟨first, y⟩
      rw [List.map_cons, List.nodup_cons] at hkeys
      rw [List.lookup_cons, List.mem_cons, Prod.mk.injEq]
      by_cases hfirst : key = first
      · subst hfirst
        have habsent : (key, x) ∉ pairs := fun hmem =>
          hkeys.1 (List.mem_map.mpr ⟨(key, x), hmem, rfl⟩)
        simp only [beq_self_eq_true, Option.some_inj, true_and, habsent, or_false]
        exact eq_comm
      · have hother : (key == first) = false := beq_eq_false_iff_ne.mpr hfirst
        simp only [hother, hfirst, false_and, false_or]
        exact ih hkeys.2

theorem Value.field?_eq_lookup (name : String) (fields : List (String × Value)) :
    field? name fields = fields.lookup name := by
  induction fields with
  | nil => rfl
  | cons field fields ih =>
      rcases field with ⟨key, x⟩
      rw [field?, List.lookup_cons, ih]
      by_cases hkey : key = name
      · simp only [hkey, if_true, beq_self_eq_true]
      · have hother : (name == key) = false := beq_eq_false_iff_ne.mpr (Ne.symm hkey)
        simp only [hkey, if_false, hother]

theorem Value.field?_eq_some_iff {name : String} {x : Value} {fields : List (String × Value)}
    (hkeys : (fields.map Prod.fst).Nodup) : field? name fields = some x ↔ (name, x) ∈ fields := by
  rw [field?_eq_lookup, lookup_eq_some_iff_mem hkeys]

namespace Form

theorem mem_restrictFields
    {schema : List (String × Form)} {fields : List (String × Value)} {key : String} {y : Value} :
    (key, y) ∈ restrictFields schema fields ↔
      ∃ x form, (key, x) ∈ fields ∧ schema.lookup key = some form ∧ form.restrict x = y := by
  simp only [restrictFields, List.mem_filterMap, Option.map_eq_some_iff, Prod.mk.injEq]
  constructor
  · rintro ⟨⟨_, x⟩, hmem, form, hform, rfl, hy⟩
    exact ⟨x, form, hmem, hform, hy⟩
  · rintro ⟨x, form, hmem, hform, hy⟩
    exact ⟨(key, x), hmem, form, hform, rfl, hy⟩

theorem keys_restrictFields (schema : List (String × Form)) (fields : List (String × Value)) :
    (restrictFields schema fields).map Prod.fst =
      (fields.map Prod.fst).filter fun key => (schema.lookup key).isSome := by
  induction fields with
  | nil => rfl
  | cons field fields ih =>
      rw [restrictFields, List.filterMap_cons, List.map_cons, List.filter_cons]
      cases hform : schema.lookup field.1 with
      | none => exact ih
      | some form => exact congrArg (field.1 :: ·) ih

end Form

/-- Looks up a part of an object and reads it. -/
def readPart? {β : Type} [Shape β] (name : String) (parts : List (String × Value)) : Option β :=
  (Value.field? name parts).bind decode?

/-- One of the fields that a type is written as. -/
structure Field (α : Type) where
  {Content : Type}
  [shape : Shape Content]
  name : String
  form : Form
  get : α → Content
  law : Exact Content form

namespace Field

variable {α : Type}

attribute [instance] shape

def schema (field : Field α) : String × Form := (field.name, field.form)

def written (field : Field α) (a : α) : String × Value := (field.name, encode (field.get a))

def read? (field : Field α) (parts : List (String × Value)) : Option field.Content :=
  readPart? field.name parts

theorem read?_eq_some_iff {field : Field α} {parts : List (String × Value)} {b : field.Content}
    (hkeys : (parts.map Prod.fst).Nodup) :
    field.read? parts = some b ↔ ∃ x, (field.name, x) ∈ parts ∧ decode? x = some b := by
  simp only [read?, readPart?, Option.bind_eq_some_iff, Value.field?_eq_some_iff hkeys]

/-- The field as one of the larger value that `parts` takes apart. -/
def along {β : Type} (field : Field α) (parts : β → α) : Field β :=
  { field with get := field.get ∘ parts }

end Field

/-- A type that is written as an object of these fields, and read from one if each of them is. -/
structure Layout (α : Type) [Shape α] where
  fields : List (Field α)
  names_nodup : (fields.map Field.name).Nodup
  encode_eq : ∀ a : α, encode a = .object (fields.map fun field => field.written a)
  decode?_eq_some_iff : ∀ parts (a : α),
    decode? (.object parts) = some a ↔ ∀ field ∈ fields, field.read? parts = some (field.get a)
  exists_of_read : ∀ parts, (∀ field ∈ fields, (field.read? parts).isSome = true) →
    ∃ a : α, decode? (.object parts) = some a
  decode?_eq_none : ∀ v : Value, (∀ names, v.fields? names = none) → (decode? v : Option α) = none

namespace Layout

variable {α : Type} [Shape α] (layout : Layout α)

def form : Form := .record (layout.fields.map Field.schema)

variable {layout}

theorem keys_written (a : α) :
    ((layout.fields.map fun field => field.written a).map Prod.fst) =
      layout.fields.map Field.name := by
  rw [List.map_map]
  rfl

theorem lookup_schema {field : Field α} (hfield : field ∈ layout.fields) :
    (layout.fields.map Field.schema).lookup field.name = some field.form := by
  have hkeys : ((layout.fields.map Field.schema).map Prod.fst).Nodup := by
    rw [List.map_map]
    exact layout.names_nodup
  exact (lookup_eq_some_iff_mem hkeys).mpr (List.mem_map_of_mem hfield)

theorem isSome_lookup_schema_iff {key : String} :
    ((layout.fields.map Field.schema).lookup key).isSome = true ↔
      key ∈ layout.fields.map Field.name := by
  constructor
  · intro hknown
    rcases List.lookup_isSome_iff.mp hknown with ⟨_, hpart, hkey⟩
    rcases List.mem_map.mp hpart with ⟨field, hfield, rfl⟩
    exact List.mem_map.mpr ⟨field, hfield, (beq_iff_eq.mp hkey).symm⟩
  · intro hkey
    rcases List.mem_map.mp hkey with ⟨field, hfield, rfl⟩
    rw [lookup_schema hfield, Option.isSome_some]

theorem plain_object_iff {parts : List (String × Value)} :
    layout.form.Plain (.object parts) ↔
      (parts.map Prod.fst).Nodup ∧
        ∀ field ∈ layout.fields, ∀ x, (field.name, x) ∈ parts → field.form.Plain x := by
  simp only [form, Form.record, List.forall_mem_map]
  rfl

theorem fits_object_iff {parts : List (String × Value)} :
    layout.form.Fits (.object parts) ↔
      ∀ field ∈ layout.fields, ∃ x, (field.name, x) ∈ parts ∧ field.form.Fits x := by
  simp only [form, Form.record, List.forall_mem_map, Value.object.injEq, exists_eq_left']
  rfl

theorem decode?_encode (layout : Layout α) (a : α) : decode? (encode a) = some a := by
  rw [layout.encode_eq, layout.decode?_eq_some_iff]
  intro field hfield
  have hkeys := layout.names_nodup
  rw [← keys_written a] at hkeys
  exact (Field.read?_eq_some_iff hkeys).mpr
    ⟨_, List.mem_map_of_mem hfield, field.law.decode_encode _⟩

theorem decodes_object_iff {parts : List (String × Value)}
    (hplain : layout.form.Plain (.object parts)) :
    (∃ a : α, decode? (.object parts) = some a) ↔ layout.form.Fits (.object parts) := by
  rcases plain_object_iff.mp hplain with ⟨hkeys, hparts⟩
  rw [fits_object_iff]
  constructor
  · rintro ⟨a, ha⟩ field hfield
    have hread := (layout.decode?_eq_some_iff parts a).mp ha field hfield
    rcases (Field.read?_eq_some_iff hkeys).mp hread with ⟨x, hx, hdecode⟩
    exact ⟨x, hx, (field.law.decodes_iff x (hparts field hfield x hx)).mp ⟨_, hdecode⟩⟩
  · intro hfits
    apply layout.exists_of_read
    intro field hfield
    rcases hfits field hfield with ⟨x, hx, hfit⟩
    rcases (field.law.decodes_iff x (hparts field hfield x hx)).mpr hfit with ⟨b, hb⟩
    rw [(Field.read?_eq_some_iff hkeys).mpr ⟨x, hx, hb⟩, Option.isSome_some]

section Written

variable {parts : List (String × Value)} (hkeys : (parts.map Prod.fst).Nodup)

include hkeys

/-- If all fields are there, those are left that are written. -/
theorem keys_restrictFields_perm
    (hpresent : ∀ field ∈ layout.fields, field.name ∈ parts.map Prod.fst) :
    (layout.fields.map Field.name).Perm
      ((Form.restrictFields (layout.fields.map Field.schema) parts).map Prod.fst) := by
  rw [Form.keys_restrictFields,
    List.perm_ext_iff_of_nodup layout.names_nodup (hkeys.filter _)]
  intro key
  rw [List.mem_filter, isSome_lookup_schema_iff]
  constructor
  · intro hkey
    rcases List.mem_map.mp hkey with ⟨field, hfield, rfl⟩
    exact ⟨hpresent field hfield, hkey⟩
  · exact And.right

/-- What is left of a field is the field that stood there, restricted to its own form. -/
theorem restrict_of_mem_restrictFields
    {field : Field α} (hfield : field ∈ layout.fields) {x y : Value}
    (hx : (field.name, x) ∈ parts)
    (hy : (field.name, y) ∈ Form.restrictFields (layout.fields.map Field.schema) parts) :
    field.form.restrict x = y := by
  rcases Form.mem_restrictFields.mp hy with ⟨z, form, hz, hform, rfl⟩
  obtain rfl : field.form = form := Option.some_inj.mp ((lookup_schema hfield).symm.trans hform)
  have hsame : some x = some z :=
    ((Value.field?_eq_some_iff hkeys).mpr hx).symm.trans ((Value.field?_eq_some_iff hkeys).mpr hz)
  rw [Option.some_inj.mp hsame]

end Written

theorem encode_of_decode_object {parts : List (String × Value)} {a : α}
    (hplain : layout.form.Plain (.object parts)) (ha : decode? (.object parts) = some a) :
    Same (encode a) (layout.form.restrict (.object parts)) := by
  rcases plain_object_iff.mp hplain with ⟨hkeys, hparts⟩
  have hread : ∀ field ∈ layout.fields,
      ∃ x, (field.name, x) ∈ parts ∧ decode? x = some (field.get a) := fun field hfield =>
    (Field.read?_eq_some_iff hkeys).mp ((layout.decode?_eq_some_iff parts a).mp ha field hfield)
  have hpresent : ∀ field ∈ layout.fields, field.name ∈ parts.map Prod.fst := by
    intro field hfield
    rcases hread field hfield with ⟨x, hx, -⟩
    exact List.mem_map.mpr ⟨_, hx, rfl⟩
  rw [layout.encode_eq]
  refine .object ?_ ?_
  · rw [keys_written]
    exact keys_restrictFields_perm hkeys hpresent
  · intro key x y hx hy
    rcases List.mem_map.mp hx with ⟨field, hfield, hwritten⟩
    rcases Prod.mk.inj hwritten with ⟨rfl, rfl⟩
    rcases hread field hfield with ⟨z, hz, hdecode⟩
    rw [← restrict_of_mem_restrictFields hkeys hfield hz hy]
    exact field.law.encode_of_decode z _ (hparts field hfield z hz) hdecode

theorem exact (layout : Layout α) : Exact α layout.form where
  decode_encode := layout.decode?_encode
  decodes_iff v hplain := by
    cases v with
    | object parts => exact decodes_object_iff hplain
    | list items => exact absurd hplain id
    | _ =>
        rw [layout.decode?_eq_none _ fun _ => rfl]
        simp [form, Form.record]
  encode_of_decode v a hplain ha := by
    cases v with
    | object parts => exact encode_of_decode_object hplain ha
    | list items => exact absurd hplain id
    | _ => exact nomatch ha.symm.trans (layout.decode?_eq_none _ fun _ => rfl)

end Layout

/-! ## Field by field -/

namespace Fields

variable {α β : Type} {fields : Fields α}

def readParts? (fields : Fields α) (parts : List (String × Value)) : Option α :=
  ((Value.object parts).fields? fields.names).bind fields.read?

theorem readParts?_single (name : String) [Shape α] (parts : List (String × Value)) :
    (single name : Fields α).readParts? parts = readPart? name parts := by
  simp only [readParts?, single, Value.fields?, List.mapM_cons, List.mapM_nil, readPart?]
  cases Value.field? name parts <;> rfl

/-- All fields are looked up before the first of them is read.  To read each as it is found comes to
the same, and makes the fields independent of one another. -/
theorem readParts?_cons (name : String) [Shape α] (rest : Fields β)
    (parts : List (String × Value)) :
    (cons name rest : Fields (α × β)).readParts? parts = do
      return (← readPart? name parts, ← rest.readParts? parts) := by
  simp only [readParts?, cons, Value.fields?, List.mapM_cons, readPart?]
  cases Value.field? name parts with
  | none => rfl
  | some value =>
      cases rest.names.mapM fun name => Value.field? name parts with
      | none => simp
      | some values => rfl

theorem readParts?_of (parts : β → α) (make : α → β) (entries : List (String × Value)) :
    (fields.of parts make).readParts? entries = (fields.readParts? entries).map make := by
  rw [readParts?, readParts?, Option.map_bind]
  rfl

/-- The listed fields are those that are written and read. -/
structure Lists (fields : Fields α) (listed : List (Field α)) : Prop where
  names_eq : fields.names = listed.map Field.name
  write_eq : ∀ a, fields.write a = listed.map fun field => encode (field.get a)
  readParts?_eq_some_iff : ∀ parts a,
    fields.readParts? parts = some a ↔ ∀ field ∈ listed, field.read? parts = some (field.get a)
  exists_of_read : ∀ parts, (∀ field ∈ listed, (field.read? parts).isSome = true) →
    ∃ a, fields.readParts? parts = some a

namespace Lists

variable {listed : List (Field α)} {form : Form} {name : String}

theorem single [Shape α] (law : Exact α form) :
    (Fields.single name : Fields α).Lists [⟨name, form, id, law⟩] where
  names_eq := rfl
  write_eq _ := rfl
  readParts?_eq_some_iff parts a := by
    rw [readParts?_single, List.forall_mem_singleton]
    rfl
  exists_of_read parts hread := by
    rw [readParts?_single]
    exact Option.isSome_iff_exists.mp (hread _ (List.mem_singleton_self _))

theorem cons [Shape β] (law : Exact β form) (h : fields.Lists listed) :
    (Fields.cons name fields : Fields (β × α)).Lists
      (⟨name, form, Prod.fst, law⟩ :: listed.map fun field => field.along Prod.snd) where
  names_eq := by
    rw [List.map_cons, List.map_map]
    exact congrArg (name :: ·) h.names_eq
  write_eq p := by
    rw [List.map_cons, List.map_map]
    exact congrArg (encode p.1 :: ·) (h.write_eq p.2)
  readParts?_eq_some_iff parts p := by
    rw [readParts?_cons, List.forall_mem_cons, List.forall_mem_map]
    have hrest := h.readParts?_eq_some_iff parts p.2
    simp only [Option.bind_eq_bind, Option.bind_eq_some_iff, Option.pure_def, Option.some_inj]
    constructor
    · rintro ⟨b, hb, a, ha, rfl⟩
      exact ⟨hb, hrest.mp ha⟩
    · rintro ⟨hb, ha⟩
      exact ⟨p.1, hb, p.2, hrest.mpr ha, rfl⟩
  exists_of_read parts hread := by
    rw [List.forall_mem_cons, List.forall_mem_map] at hread
    rcases Option.isSome_iff_exists.mp hread.1 with ⟨b, hb⟩
    rcases h.exists_of_read parts hread.2 with ⟨a, ha⟩
    refine ⟨(b, a), ?_⟩
    have hfirst : readPart? name parts = some b := hb
    simp [readParts?_cons, hfirst, ha]

theorem of {parts : β → α} {make : α → β} (h : fields.Lists listed)
    (hmake : ∀ b, make (parts b) = b) (hparts : ∀ a, parts (make a) = a) :
    (fields.of parts make).Lists (listed.map fun field => field.along parts) where
  names_eq := by
    rw [List.map_map]
    exact h.names_eq
  write_eq b := by
    rw [List.map_map]
    exact h.write_eq (parts b)
  readParts?_eq_some_iff entries b := by
    rw [readParts?_of, List.forall_mem_map, Option.map_eq_some_iff]
    refine Iff.trans ?_ (h.readParts?_eq_some_iff entries (parts b))
    constructor
    · rintro ⟨a, ha, rfl⟩
      rw [hparts, ha]
    · intro ha
      exact ⟨parts b, ha, hmake b⟩
  exists_of_read entries hread := by
    rw [List.forall_mem_map] at hread
    rcases h.exists_of_read entries hread with ⟨a, ha⟩
    exact ⟨make a, by rw [readParts?_of, ha, Option.map_some]⟩

def layout (h : fields.Lists listed) (hnames : (listed.map Field.name).Nodup) :
    @Layout α fields.shape :=
  letI := fields.shape
  { fields := listed
    names_nodup := hnames
    encode_eq := fun a => by
      change Value.object (fields.names.zip (fields.write a)) = _
      rw [h.names_eq, h.write_eq, List.zip_map']
      rfl
    decode?_eq_some_iff := h.readParts?_eq_some_iff
    exists_of_read := h.exists_of_read
    decode?_eq_none := fun v hv => by
      change (v.fields? fields.names).bind fields.read? = none
      rw [hv, Option.bind_none] }

end Lists

end Fields

end Nmos6502.Serial
