import Colloquy.Proofs.Schema.Names

/-!
What a schema document has to say to describe a schema, what is found wrong with it first, and the
schema that it describes.
-/

namespace Colloquy

section

variable {ε α β : Type}

def fault? : Except ε α → Option ε
  | .ok _ => none
  | .error e => some e

theorem fault?_eq_some_iff {x : Except ε α} {e : ε} : fault? x = some e ↔ x = .error e := by
  cases x <;> simp [fault?]

theorem fault?_eq_none_iff {x : Except ε α} : fault? x = none ↔ ∃ a, x = .ok a := by
  cases x <;> simp [fault?]

theorem fault?_map {f : α → β} {x : Except ε α} : fault? (f <$> x) = fault? x := by
  cases x <;> rfl

theorem fault?_bind {f : α → Except ε β} {x : Except ε α}
    (total : ∀ a, x = .ok a → fault? (f a) = none) : fault? (x >>= f) = fault? x := by
  cases x with
  | error e => rfl
  | ok a => exact total a rfl

theorem fault?_mapM {f : α → Except ε β} {xs : List α} :
    fault? (xs.mapM f) = xs.findSome? fun x => fault? (f x) := by
  induction xs with
  | nil => rfl
  | cons x rest ih =>
    rw [List.mapM_cons, List.findSome?_cons, ← ih]
    cases f x with
    | error e => rfl
    | ok y => cases rest.mapM f <;> rfl

theorem findSome?_flatMap {γ : Type} {f : β → Option γ} {g : α → List β} {xs : List α} :
    (xs.flatMap g).findSome? f = xs.findSome? fun x => (g x).findSome? f := by
  simp only [← List.head?_filterMap, List.filterMap_flatMap, List.head?_flatMap]

theorem findSome?_congr {f g : α → Option β} {xs : List α} (same : ∀ x ∈ xs, f x = g x) :
    xs.findSome? f = xs.findSome? g := by
  induction xs with
  | nil => rfl
  | cons x rest ih =>
    obtain ⟨head, tail⟩ := List.forall_mem_cons.mp same
    rw [List.findSome?_cons, List.findSome?_cons, head, ih tail]

end

/-- A field document in its place: the object schema around it, and the field that it is for. -/
structure Occurrence where
  schema : String
  field : String
  document : FieldDocument

def FieldDocument.objectName (document : FieldDocument) (field : String) : String :=
  document.name.getD field

namespace Occurrence

def ofEntries (schema : String) (entries : List (String × FieldDocument)) : List Occurrence :=
  entries.map fun entry => ⟨schema, entry.1, entry.2⟩

def parts (whole : Occurrence) : List Occurrence :=
  match whole.document.word with
  | .array => whole.document.items.toList.map fun item => ⟨whole.schema, whole.field, item⟩
  | .object =>
    ofEntries (whole.document.objectName whole.field) (whole.document.fields.elim [] (·.entries))
  | _ => []

theorem sizeOf_part {whole part : Occurrence} (member : part ∈ whole.parts) :
    sizeOf part.document < sizeOf whole.document := by
  obtain ⟨schema, field, word, description, required, items, name, fields⟩ := whole
  cases word with
  | string | integer | number | boolean => cases member
  | array =>
    obtain ⟨item, held, rfl⟩ := List.mem_map.mp member
    obtain rfl := Option.mem_toList.mp held
    simp
    omega
  | object =>
    cases fields with
    | none => cases member
    | some map =>
      obtain ⟨entry, held, rfl⟩ := List.mem_map.mp member
      have inside := List.sizeOf_lt_of_mem held
      obtain ⟨entries⟩ := map
      obtain ⟨name, document⟩ := entry
      simp at inside ⊢
      omega

/-- The occurrence and everything reached from it, depth first and in document order. -/
def walk (whole : Occurrence) : List Occurrence :=
  whole :: whole.parts.attach.flatMap fun part => walk part.1
termination_by sizeOf whole.document
decreasing_by exact sizeOf_part part.2

theorem walk_eq (whole : Occurrence) : whole.walk = whole :: whole.parts.flatMap walk := by
  rw [walk, List.flatMap_subtype, List.unattach_attach]
  simp

@[elab_as_elim]
theorem induct {motive : Occurrence → Prop}
    (step : ∀ whole, (∀ part ∈ whole.parts, motive part) → motive whole) (whole : Occurrence) :
    motive whole :=
  step whole fun part member =>
    have := sizeOf_part member
    induct step part
termination_by sizeOf whole.document

abbrev Reaches : Occurrence → Occurrence → Prop :=
  Relation.ReflTransGen fun whole part => part ∈ whole.parts

theorem mem_walk_iff {whole inner : Occurrence} : inner ∈ whole.walk ↔ whole.Reaches inner := by
  induction whole using induct with
  | step whole each =>
    rw [walk_eq, List.mem_cons, List.mem_flatMap, Reaches, Relation.ReflTransGen.cases_head_iff]
    apply or_congr eq_comm
    apply exists_congr
    intro part
    constructor
    · rintro ⟨member, inside⟩
      exact ⟨member, (each part member).mp inside⟩
    · rintro ⟨member, reached⟩
      exact ⟨member, (each part member).mpr reached⟩

structure Sound (occurrence : Occurrence) : Prop where
  items : occurrence.document.word = .array → ∃ item, occurrence.document.items = some item
  fields : occurrence.document.word = .object →
    ∃ map, occurrence.document.fields = some map ∧ map.isEmpty = false

def lacks? (occurrence : Occurrence) : Option SchemaProblem :=
  match occurrence.document.word with
  | .array =>
    if occurrence.document.items.isNone then some (.noItems occurrence.schema occurrence.field)
    else none
  | .object =>
    match occurrence.document.fields with
    | none => some (.noObjectFields occurrence.schema occurrence.field)
    | some map =>
      if map.isEmpty then some (.noFields (occurrence.document.objectName occurrence.field))
      else none
  | _ => none

theorem sound_iff {occurrence : Occurrence} : occurrence.Sound ↔ occurrence.lacks? = none := by
  obtain ⟨schema, field, word, description, required, items, name, fields⟩ := occurrence
  constructor
  · rintro ⟨itemed, fielded⟩
    cases word with
    | string | integer | number | boolean => rfl
    | array =>
      obtain ⟨item, held⟩ := itemed rfl
      simp_all [lacks?]
    | object =>
      obtain ⟨map, held, full⟩ := fielded rfl
      simp_all [lacks?]
  · intro nothing
    refine ⟨?_, ?_⟩
    · rintro ⟨⟩
      simpa [lacks?, Option.ne_none_iff_exists'] using nothing
    · rintro ⟨⟩
      cases fields with
      | none => simp [lacks?] at nothing
      | some map => exact ⟨map, rfl, by simpa [lacks?] using nothing⟩

def type (occurrence : Occurrence) : Except SchemaProblem FieldType :=
  occurrence.document.toType occurrence.schema occurrence.field

end Occurrence

def FieldDocument.toField (entry : String × FieldDocument) (type : FieldType) : Field :=
  ⟨entry.1, type, entry.2.description, entry.2.required⟩

namespace FieldDocument

theorem toFields_eq_mapM {schema : String} {entries : List (String × FieldDocument)} :
    toFields schema entries =
      entries.mapM fun entry => toField entry <$> entry.2.toType schema entry.1 := by
  induction entries with
  | nil => rfl
  | cons entry rest ih =>
    obtain ⟨name, word, description, required, items, objectName, fields⟩ := entry
    rw [List.mapM_cons, ← ih, toFields]
    cases toType schema name ⟨word, description, required, items, objectName, fields⟩ <;> rfl

theorem fault?_toFields {schema : String} {entries : List (String × FieldDocument)} :
    fault? (toFields schema entries) =
      (Occurrence.ofEntries schema entries).findSome? (fault? ·.type) := by
  rw [toFields_eq_mapM, fault?_mapM, Occurrence.ofEntries, List.findSome?_map]
  simp only [fault?_map]
  rfl

end FieldDocument

namespace Occurrence

/-- What an occurrence lacks is found before anything that its parts lack. -/
theorem fault?_type (occurrence : Occurrence) :
    fault? occurrence.type = occurrence.lacks?.or (occurrence.parts.findSome? (fault? ·.type)) := by
  obtain ⟨schema, field, word, description, required, items, name, fields⟩ := occurrence
  rw [type]
  cases word with
  | string | integer | number | boolean => rfl
  | array =>
    cases items with
    | none => rfl
    | some item =>
      rw [FieldDocument.toType, fault?_map]
      simp [lacks?, parts, type]
  | object =>
    cases fields with
    | none => rfl
    | some map =>
      obtain ⟨entries⟩ := map
      rw [FieldDocument.toType]
      cases entries with
      | nil => rfl
      | cons entry rest =>
        rw [if_neg (by simp), fault?_bind (fun _ _ => rfl), FieldDocument.fault?_toFields]
        rfl

theorem fault?_type_eq_findSome? (occurrence : Occurrence) :
    fault? occurrence.type = occurrence.walk.findSome? lacks? := by
  induction occurrence using induct with
  | step whole each =>
    rw [fault?_type, walk_eq, List.findSome?_cons, findSome?_flatMap]
    cases whole.lacks? with
    | some problem => rfl
    | none => exact findSome?_congr each

end Occurrence

structure FieldOf.Labels (entry : String × FieldDocument) (field : Field) : Prop where
  name : field.name = entry.1
  description : field.description = entry.2.description
  required : field.required = entry.2.required

namespace FieldDocument

/-- The type is what the document says, at every depth. -/
inductive Mirrors : (field : String) → FieldDocument → FieldType → Prop
  | string {field : String} {document : FieldDocument} (word : document.word = .string) :
      Mirrors field document .string
  | integer {field : String} {document : FieldDocument} (word : document.word = .integer) :
      Mirrors field document .integer
  | number {field : String} {document : FieldDocument} (word : document.word = .number) :
      Mirrors field document .number
  | boolean {field : String} {document : FieldDocument} (word : document.word = .boolean) :
      Mirrors field document .boolean
  | array {field : String} {document item : FieldDocument} {type : FieldType}
      (word : document.word = .array) (items : document.items = some item)
      (inner : Mirrors field item type) : Mirrors field document (.array type)
  | object {field : String} {document : FieldDocument} {map : OrderedMap FieldDocument}
      {schema : Schema} (word : document.word = .object) (fields : document.fields = some map)
      (name : schema.name = document.objectName field)
      (labels : List.Forall₂ FieldOf.Labels map.entries schema.fields)
      (types : List.Forall₂ (fun entry field => Mirrors entry.1 entry.2 field.type)
        map.entries schema.fields) : Mirrors field document (.object schema)

theorem toFields_mirrors {schema : String} {entries : List (String × FieldDocument)}
    {fields : List Field} (each : ∀ entry ∈ entries, ∀ type,
      entry.2.toType schema entry.1 = .ok type → Mirrors entry.1 entry.2 type)
    (described : toFields schema entries = .ok fields) :
    List.Forall₂ FieldOf.Labels entries fields ∧
      List.Forall₂ (fun entry field => Mirrors entry.1 entry.2 field.type) entries fields := by
  rw [toFields_eq_mapM, mapM_ok_iff] at described
  induction described with
  | nil => exact ⟨.nil, .nil⟩
  | @cons entry field entries fields head tail ih =>
    obtain ⟨first, later⟩ := List.forall_mem_cons.mp each
    obtain ⟨labels, types⟩ := ih later
    cases typed : entry.2.toType schema entry.1 with
    | error problem => cases typed ▸ head
    | ok type =>
      cases typed ▸ head
      exact ⟨.cons ⟨rfl, rfl, rfl⟩ labels, .cons (first type typed) types⟩

theorem toType_mirrors (occurrence : Occurrence) {type : FieldType}
    (described : occurrence.type = .ok type) :
    Mirrors occurrence.field occurrence.document type := by
  induction occurrence using Occurrence.induct generalizing type with
  | step whole each =>
    obtain ⟨schema, field, word, description, required, items, name, fields⟩ := whole
    rw [Occurrence.type] at described
    cases word with
    | string => cases described; exact .string rfl
    | integer => cases described; exact .integer rfl
    | number => cases described; exact .number rfl
    | boolean => cases described; exact .boolean rfl
    | array =>
      cases items with
      | none => cases described
      | some item =>
        rw [toType] at described
        cases typed : item.toType schema field with
        | error problem => cases typed ▸ described
        | ok inner =>
          cases typed ▸ described
          exact .array rfl rfl (each ⟨schema, field, item⟩ List.mem_cons_self typed)
    | object =>
      cases fields with
      | none => cases described
      | some map =>
        obtain ⟨entries⟩ := map
        rw [toType] at described
        split at described
        · cases described
        · obtain ⟨inner, listed, ⟨⟩⟩ := bind_ok_iff.mp described
          obtain ⟨labels, types⟩ := toFields_mirrors (fun entry member type typed =>
            each ⟨name.getD field, entry.1, entry.2⟩ (List.mem_map_of_mem member) typed) listed
          exact .object rfl rfl rfl labels types

end FieldDocument

namespace SchemaDocument

def parts (document : SchemaDocument) : List Occurrence :=
  Occurrence.ofEntries document.name document.fields.entries

def Reaches (document : SchemaDocument) (occurrence : Occurrence) : Prop :=
  ∃ part ∈ document.parts, part.Reaches occurrence

/-- All that the document lacks: its own name and fields first, then what is lacking inside, depth
first and in document order. -/
def lacking (document : SchemaDocument) : List SchemaProblem :=
  (if Text.isBlankText document.name then [.blankName] else []) ++
    (if document.fields.isEmpty then [.noFields document.name] else []) ++
      (document.parts.flatMap Occurrence.walk).filterMap Occurrence.lacks?

structure Mirrors (document : SchemaDocument) (schema : Schema) : Prop where
  name : schema.name = document.name
  labels : List.Forall₂ FieldOf.Labels document.fields.entries schema.fields
  types : List.Forall₂ (fun entry field => entry.2.Mirrors entry.1 field.type)
    document.fields.entries schema.fields

variable {document : SchemaDocument}

theorem fault?_toSchema : fault? document.toSchema = document.lacking.head? := by
  rw [toSchema, lacking]
  split
  · rfl
  · split
    · rfl
    · rw [fault?_bind (fun _ _ => rfl), FieldDocument.fault?_toFields, List.nil_append,
        List.nil_append, List.head?_filterMap, findSome?_flatMap]
      exact findSome?_congr fun part _ => part.fault?_type_eq_findSome?

theorem toSchema_mirrors {schema : Schema} (described : document.toSchema = .ok schema) :
    document.Mirrors schema := by
  rw [toSchema] at described
  split at described
  · cases described
  · split at described
    · cases described
    · obtain ⟨fields, listed, ⟨⟩⟩ := bind_ok_iff.mp described
      obtain ⟨labels, types⟩ := FieldDocument.toFields_mirrors
        (fun entry _ type => FieldDocument.toType_mirrors ⟨document.name, entry.1, entry.2⟩) listed
      exact ⟨rfl, labels, types⟩

theorem lacking_eq_nil_iff : document.lacking = [] ↔ Text.isBlankText document.name = false ∧
    document.fields.isEmpty = false ∧ ∀ inner, document.Reaches inner → inner.Sound := by
  have inside : (document.parts.flatMap Occurrence.walk).filterMap Occurrence.lacks? = [] ↔
      ∀ inner, document.Reaches inner → inner.Sound := by
    rw [List.filterMap_eq_nil_iff]
    apply forall_congr'
    intro inner
    rw [List.mem_flatMap, Occurrence.sound_iff]
    simp only [Occurrence.mem_walk_iff]
    rfl
  rw [lacking, List.append_eq_nil_iff, List.append_eq_nil_iff, inside, and_assoc]
  simp

/-- Of every document that is read: it describes a schema if and only if it has a name and fields,
every array that is reached says what its items are and every object that is reached has fields;
otherwise the first thing lacking is reported; and the schema is what the document says. -/
theorem toSchema_of_read {json : Json} (parsed : read json = .ok document) :
    ((∃ schema, document.toSchema = .ok schema) ↔ Text.isBlankText document.name = false ∧
      document.fields.isEmpty = false ∧ ∀ inner, document.Reaches inner → inner.Sound) ∧
    (∀ problem, document.toSchema = .error problem ↔ document.lacking.head? = some problem) ∧
    ∀ schema, document.toSchema = .ok schema → document.Mirrors schema ∧ schema.DistinctNames := by
  refine ⟨?_, ?_, ?_⟩
  · rw [← fault?_eq_none_iff, fault?_toSchema, List.head?_eq_none_iff, lacking_eq_nil_iff]
  · intro problem
    rw [← fault?_eq_some_iff, fault?_toSchema]
  · intro schema described
    exact ⟨toSchema_mirrors described, toSchema_distinct (read_distinct parsed) described⟩

def dayText (inner : Members) : Json :=
  .obj [("name", .str "Day"), ("fields", .obj [
    ("entries", .obj [("type", .str "array"),
      ("items", .obj [("type", .str "object"), ("fields", .obj inner)])]),
    ("moods", .obj [("items", .obj [("type", .str "string")]), ("type", .str "array")])])]

def day (inner : List (String × FieldDocument)) : SchemaDocument :=
  ⟨"Day", ⟨[
    ("entries", { word := .array, items := some { word := .object, fields := some ⟨inner⟩ } }),
    ("moods", { word := .array, items := some { word := .string } })]⟩⟩

theorem day_described :
    (∃ schema, (day [("minutes", { word := .integer, required := false })]).Mirrors schema ∧
      schema.DistinctNames) ∧
    (day []).lacking.head? = some (.noFields "entries") := by
  have minutes : read (dayText [("minutes", .obj [("type", .str "integer"),
      ("required", .bool false)])]) = .ok (day [("minutes",
        { word := .integer, required := false })]) := rfl
  have nothing : read (dayText []) = .ok (day []) := rfl
  exact ⟨⟨_, (toSchema_of_read minutes).2.2 _ rfl⟩, ((toSchema_of_read nothing).2.1 _).mp rfl⟩

end SchemaDocument

end Colloquy
