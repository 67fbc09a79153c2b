import Colloquy.Proofs.Json.Records
import Colloquy.Proofs.Schema.Described

/-!
Schema documents and field documents as records and maps, and the order of the fields that they
describe.
-/

namespace Colloquy

namespace FieldDocument

def reader : RecordReader FieldKey FieldDraft where
  keyOf? := FieldKey.ofSpelling?
  positions := FieldKey.all
  put draft key value := draft.put key value (fun _ => read value) (fun _ => readMap value)
  closed := some (FieldKey.all.map (·.spelling))
  wanted := "struct FieldConfig"

theorem readMembers_eq {draft : FieldDraft} {members : Members} :
    readMembers draft members = reader.readMembers draft members := by
  induction members generalizing draft with
  | nil => rfl
  | cons member rest ih =>
    obtain ⟨name, value⟩ := member
    rw [readMembers, RecordReader.readMembers]
    cases known : FieldKey.ofSpelling? name with
    | none => simp [reader, known]
    | some key => simp only [reader, known] at ih ⊢; simp only [ih]

theorem readElements_eq {draft : FieldDraft} {keys : List FieldKey} {items : List Json} :
    readElements draft keys items = reader.readElements draft keys items := by
  induction items generalizing draft keys with
  | nil => cases keys <;> rfl
  | cons value rest ih =>
    cases keys with
    | nil => rfl
    | cons key keys =>
      rw [readElements, RecordReader.readElements]
      simp only [ih]
      rfl

theorem readEntries_eq {earlier : OrderedMap FieldDocument} {members : Members} :
    readEntries earlier members = Read.entries read earlier members := by
  induction members generalizing earlier with
  | nil => rfl
  | cons member rest ih =>
    obtain ⟨name, value⟩ := member
    rw [readEntries, Read.entries]
    simp only [ih]

theorem readMap_eq (json : Json) : readMap json = Read.orderedMap read json := by
  cases json with
  | obj members => exact readEntries_eq
  | null | bool | num | str | arr => rfl

theorem read_eq (json : Json) :
    read json = reader.read {} json >>= fun (draft, arrangement) => draft.finish arrangement := by
  cases json with
  | obj members =>
    rw [read, readMembers_eq, RecordReader.read]
    cases reader.readMembers {} members <;> rfl
  | arr items =>
    have places : reader.positions = FieldKey.all := rfl
    rw [read, readElements_eq, RecordReader.read, places]
    cases reader.readElements {} FieldKey.all items <;> rfl
  | null | bool | num | str => rfl

def Held : FieldKey → Type
  | .type => TypeWord
  | .description => Option String
  | .required => Bool
  | .items => Option FieldDocument
  | .name => Option String
  | .fields => Option (OrderedMap FieldDocument)

def slots : reader.Slots where
  closed := rfl
  blank := {}
  Value := Held
  content
    | .type => Read.unitVariant TypeWord.spellings
    | .description => Read.optional Read.text
    | .required => Read.flag
    | .items => Read.optional read
    | .name => Read.optional Read.text
    | .fields => Read.optional readMap
  get draft
    | .type => draft.word
    | .description => draft.description
    | .required => draft.required
    | .items => draft.items
    | .name => draft.name
    | .fields => draft.fields
  set draft
    | .type => fun held => { draft with word := some held }
    | .description => fun held => { draft with description := some held }
    | .required => fun held => { draft with required := some held }
    | .items => fun held => { draft with items := some held }
    | .name => fun held => { draft with name := some held }
    | .fields => fun held => { draft with fields := some held }
  put_ok_iff := by
    intro draft key value next
    cases key with
    | type | description | required | name => exact Read.fill_ok_iff
    | items | fields =>
      simp only [Read.optional_eq]
      exact Read.fill_ok_iff
  get_blank key := by cases key <;> rfl
  get_set draft key held := by cases key <;> rfl
  get_set_of_ne draft key held other apart := by
    cases key <;> cases other <;> first | rfl | exact absurd rfl apart
  ext draft next same := by
    obtain ⟨word, description, required, items, name, fields⟩ := draft
    obtain rfl : word = next.word := same .type
    obtain rfl : description = next.description := same .description
    obtain rfl : required = next.required := same .required
    obtain rfl : items = next.items := same .items
    obtain rfl : name = next.name := same .name
    obtain rfl : fields = next.fields := same .fields
    rfl

theorem read_ok_iff {json : Json} {document : FieldDocument} : read json = .ok document ↔
    ∃ draft word, reader.Reads slots.blank json draft ∧ draft.word = some word ∧
      document = ⟨word, draft.description.join, draft.required.getD true, draft.items.join,
        draft.name.join, draft.fields.join⟩ := by
  rw [read_eq, bind_ok_iff]
  constructor
  · rintro ⟨⟨draft, arrangement⟩, accepted, finish⟩
    cases typed : draft.word with
    | none => simp [FieldDraft.finish, typed, throw, throwThe, MonadExceptOf.throw] at finish
    | some word =>
      simp only [FieldDraft.finish, typed] at finish
      obtain ⟨_, ends, ⟨⟩⟩ := bind_ok_iff.mp finish
      exact ⟨draft, word, ⟨arrangement, accepted, ends⟩, typed, rfl⟩
  · rintro ⟨draft, word, ⟨arrangement, accepted, ends⟩, typed, rfl⟩
    refine ⟨(draft, arrangement), accepted, ?_⟩
    simp only [FieldDraft.finish, typed]
    exact bind_ok_iff.mpr ⟨(), ends, rfl⟩

end FieldDocument

namespace SchemaDocument

def Held : Key → Type
  | .name => String
  | .fields => OrderedMap FieldDocument

def slots : reader.Slots where
  closed := rfl
  blank := {}
  Value := Held
  content
    | .name => Read.text
    | .fields => FieldDocument.readMap
  get draft
    | .name => draft.name
    | .fields => draft.fields
  set draft
    | .name => fun held => { draft with name := some held }
    | .fields => fun held => { draft with fields := some held }
  put_ok_iff := by
    intro draft key value next
    cases key with
    | name | fields => exact Read.fill_ok_iff
  get_blank key := by cases key <;> rfl
  get_set draft key held := by cases key <;> rfl
  get_set_of_ne draft key held other apart := by
    cases key <;> cases other <;> first | rfl | exact absurd rfl apart
  ext draft next same := by
    obtain ⟨name, fields⟩ := draft
    obtain rfl : name = next.name := same .name
    obtain rfl : fields = next.fields := same .fields
    rfl

theorem read_ok_iff {json : Json} {document : SchemaDocument} : read json = .ok document ↔
    ∃ draft, reader.Reads slots.blank json draft ∧ draft.name = some document.name ∧
      draft.fields = some document.fields := by
  rw [read, bind_ok_iff]
  constructor
  · rintro ⟨⟨draft, arrangement⟩, accepted, finish⟩
    cases named : draft.name with
    | none => simp [named, throw, throwThe, MonadExceptOf.throw] at finish
    | some name =>
      cases listed : draft.fields with
      | none => simp [named, listed, throw, throwThe, MonadExceptOf.throw] at finish
      | some fields =>
        simp only [named, listed] at finish
        obtain ⟨_, ends, ⟨⟩⟩ := bind_ok_iff.mp finish
        exact ⟨draft, ⟨arrangement, accepted, ends⟩, named, listed⟩
  · rintro ⟨draft, ⟨arrangement, accepted, ends⟩, named, listed⟩
    refine ⟨(draft, arrangement), accepted, ?_⟩
    simp only [named, listed]
    exact bind_ok_iff.mpr ⟨(), ends, rfl⟩

end SchemaDocument

/-! ### Order -/

inductive FieldType.Follows : FieldType → Json → Prop
  | string {json : Json} : Follows .string json
  | integer {json : Json} : Follows .integer json
  | number {json : Json} : Follows .number json
  | boolean {json : Json} : Follows .boolean json
  | array {json items : Json} {item : FieldType}
      (held : FieldDocument.reader.Holds json .items items) (inner : Follows item items) :
      Follows (.array item) json
  | object {json : Json} {members : Members} {schema : Schema}
      (held : FieldDocument.reader.Holds json .fields (.obj members))
      (names : schema.fields.map (·.name) = members.map (·.1))
      (types : List.Forall₂ (fun member field => Follows field.type member.2)
        members schema.fields) : Follows (.object schema) json

def Schema.Follows (schema : Schema) (json : Json) : Prop :=
  ∃ members, SchemaDocument.reader.Holds json .fields (.obj members) ∧
    schema.fields.map (·.name) = members.map (·.1) ∧
    List.Forall₂ (fun member field => field.type.Follows member.2) members schema.fields

namespace FieldDocument

theorem follows_of_rows {members : Members} {entries : List (String × FieldDocument)}
    {fields : List Field}
    (rows : List.Forall₂ (fun member entry => entry.1 = member.1 ∧ read member.2 = .ok entry.2)
      members entries)
    (each : ∀ member ∈ members, ∀ name document type, read member.2 = .ok document →
      Mirrors name document type → type.Follows member.2)
    (labels : List.Forall₂ FieldOf.Labels entries fields)
    (types : List.Forall₂ (fun entry field => Mirrors entry.1 entry.2 field.type) entries fields) :
    fields.map (·.name) = members.map (·.1) ∧
      List.Forall₂ (fun member field => field.type.Follows member.2) members fields := by
  induction rows generalizing fields with
  | nil =>
    cases labels
    exact ⟨rfl, .nil⟩
  | @cons member entry members entries head tail ih =>
    obtain ⟨field, later, label, others, rfl⟩ := List.forall₂_cons_left_iff.mp labels
    obtain ⟨typed, types⟩ := List.forall₂_cons.mp types
    obtain ⟨first, rest⟩ := List.forall_mem_cons.mp each
    obtain ⟨names, follow⟩ := ih rest others types
    refine ⟨?_, .cons (first _ _ _ head.2 typed) follow⟩
    rw [List.map_cons, List.map_cons, label.name, head.1, names]

/-- The induction is on the value, which is the document of a field or the fields of an object. -/
theorem follows_of_mirrors (json : Json) :
    (∀ name document type, read json = .ok document → Mirrors name document type →
      type.Follows json) ∧
    ∀ map fields, readMap json = .ok map → List.Forall₂ FieldOf.Labels map.entries fields →
      List.Forall₂ (fun entry field => Mirrors entry.1 entry.2 field.type) map.entries fields →
      ∃ members, json = .obj members ∧ fields.map (·.name) = members.map (·.1) ∧
        List.Forall₂ (fun member field => field.type.Follows member.2) members fields := by
  induction json using Json.inductChildren with
  | step json each =>
    constructor
    · intro name document type accepted mirrors
      obtain ⟨draft, word, reads, -, told⟩ := read_ok_iff.mp accepted
      cases mirrors with
      | string => exact .string
      | integer => exact .integer
      | number => exact .number
      | boolean => exact .boolean
      | array _ items inner =>
        obtain ⟨value, held, content⟩ :=
          slots.holds_of_get .items reads (Option.join_eq_some_iff.mp (told ▸ items))
        have read := Read.eq_of_optional content
        exact .array held ((each value held.mem_children).1 _ _ _ read inner)
      | object _ fields _ labels types =>
        obtain ⟨value, held, content⟩ :=
          slots.holds_of_get .fields reads (Option.join_eq_some_iff.mp (told ▸ fields))
        obtain ⟨members, rfl, names, follow⟩ :=
          (each value held.mem_children).2 _ _ (Read.eq_of_optional content) labels types
        exact .object held names follow
    · intro map fields accepted labels types
      rw [readMap_eq] at accepted
      obtain ⟨members, rfl, -, rows⟩ := Read.orderedMap_ok_iff.mp accepted
      refine ⟨members, rfl, follows_of_rows rows ?_ labels types⟩
      exact fun member there => (each _ (List.mem_map_of_mem there)).1

end FieldDocument

theorem Schema.read_ok_iff {json : Json} {schema : Schema} : Schema.read json = .ok schema ↔
    ∃ document, SchemaDocument.read json = .ok document ∧ document.toSchema = .ok schema := by
  rw [Schema.read, bind_ok_iff]
  apply exists_congr
  intro document
  apply and_congr_right
  intro read
  cases document.toSchema with
  | ok described => simp [pure, Except.pure]
  | error problem => exact ⟨nofun, nofun⟩

theorem Schema.follows_of_read {json : Json} {schema : Schema}
    (accepted : Schema.read json = .ok schema) : schema.Follows json := by
  obtain ⟨document, read, described⟩ := Schema.read_ok_iff.mp accepted
  obtain ⟨draft, reads, -, listed⟩ := SchemaDocument.read_ok_iff.mp read
  obtain ⟨value, held, content⟩ := SchemaDocument.slots.holds_of_get .fields reads listed
  have mirrors := SchemaDocument.toSchema_mirrors described
  obtain ⟨members, rfl, names, follow⟩ :=
    (FieldDocument.follows_of_mirrors value).2 _ _ content mirrors.labels mirrors.types
  exact ⟨members, held, names, follow⟩

end Colloquy
