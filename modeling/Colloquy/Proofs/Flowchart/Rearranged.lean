import Colloquy.Flowchart.Document
import Colloquy.Proofs.Schema.Reading

/-!
The parts of a flowchart document, and documents that differ only in the order and the spelling of
keys where neither means anything. Whatever one of them is read as, so is the other.
-/

namespace Colloquy

namespace NodeDraft

def Held : NodeKey → Type
  | .text => String
  | .connections => OrderedMap NodeId
  | .schema => Option Schema
  | .temperature => Option Floating
  | .kind => Option KindHint
  | .iterator => Option String
  | .collection => Option String
  | .loopStart => Option NodeId

def slots : reader.Slots where
  closed := rfl
  blank := {}
  Value := Held
  content
    | .text => Read.text
    | .connections => Read.orderedMap Read.text
    | .schema => Read.optional Schema.read
    | .temperature => Read.optional (Read.floating .single "f32")
    | .kind => Read.optional KindHint.read
    | .iterator => Read.optional Read.text
    | .collection => Read.optional Read.text
    | .loopStart => Read.optional Read.text
  get draft
    | .text => draft.text
    | .connections => draft.connections
    | .schema => draft.schema
    | .temperature => draft.temperature
    | .kind => draft.kind
    | .iterator => draft.iterator
    | .collection => draft.collection
    | .loopStart => draft.loopStart
  set draft
    | .text => fun held => { draft with text := some held }
    | .connections => fun held => { draft with connections := some held }
    | .schema => fun held => { draft with schema := some held }
    | .temperature => fun held => { draft with temperature := some held }
    | .kind => fun held => { draft with kind := some held }
    | .iterator => fun held => { draft with iterator := some held }
    | .collection => fun held => { draft with collection := some held }
    | .loopStart => fun held => { draft with loopStart := some held }
  put_ok_iff := by
    intro draft key value next
    cases key with
    | text | connections | schema | temperature | kind | iterator | collection | loopStart =>
      exact Read.fill_ok_iff
  get_blank key := by cases key <;> rfl
  get_set draft key held := by cases key <;> rfl
  get_set_of_ne draft key held other apart := by
    cases key <;> cases other <;> first | rfl | exact absurd rfl apart
  ext draft next same := by
    obtain ⟨text, connections, schema, temperature, kind, iterator, collection, loopStart⟩ := draft
    obtain rfl : text = next.text := same .text
    obtain rfl : connections = next.connections := same .connections
    obtain rfl : schema = next.schema := same .schema
    obtain rfl : temperature = next.temperature := same .temperature
    obtain rfl : kind = next.kind := same .kind
    obtain rfl : iterator = next.iterator := same .iterator
    obtain rfl : collection = next.collection := same .collection
    obtain rfl : loopStart = next.loopStart := same .loopStart
    rfl

theorem read_ok_iff {json : Json} {draft : NodeDraft} :
    read json = .ok draft ↔ reader.Reads slots.blank json draft := by
  rw [read, bind_ok_iff]
  constructor
  · rintro ⟨⟨_, arrangement⟩, accepted, finish⟩
    obtain ⟨_, ends, ⟨⟩⟩ := bind_ok_iff.mp finish
    exact ⟨arrangement, accepted, ends⟩
  · rintro ⟨arrangement, accepted, ends⟩
    exact ⟨(draft, arrangement), accepted, bind_ok_iff.mpr ⟨(), ends, rfl⟩⟩

end NodeDraft

/-! ### The parts of a document -/

inductive DocumentPart where
  | nodes
  | node
  | connections
  | kind
  | schema
  | fields
  | field
  | other

namespace DocumentPart

def Value : DocumentPart → Type
  | nodes => OrderedMap NodeDraft
  | node => NodeDraft
  | connections => OrderedMap NodeId
  | kind => KindHint
  | schema => Schema
  | fields => OrderedMap FieldDocument
  | field => FieldDocument
  | other => Json

def read : (part : DocumentPart) → Json → Read part.Value
  | nodes => Read.orderedMap NodeDraft.read
  | node => NodeDraft.read
  | connections => Read.orderedMap Read.text
  | kind => KindHint.read
  | schema => Schema.read
  | fields => FieldDocument.readMap
  | field => FieldDocument.read
  | other => .ok

def ofNodeKey : NodeKey → DocumentPart
  | .connections => connections
  | .schema => schema
  | .kind => kind
  | _ => other

def ofSchemaKey : SchemaDocument.Key → DocumentPart
  | .name => other
  | .fields => fields

def ofFieldKey : FieldKey → DocumentPart
  | .items => field
  | .fields => fields
  | _ => other

def inside : DocumentPart → String → DocumentPart
  | nodes, _ => node
  | node, name => (NodeKey.ofSpelling? name).elim other ofNodeKey
  | schema, name => (SchemaDocument.keyOf? name).elim other ofSchemaKey
  | fields, _ => field
  | field, name => (FieldKey.ofSpelling? name).elim other ofFieldKey
  | _, _ => other

def places : DocumentPart → List DocumentPart
  | node => NodeDraft.reader.positions.map ofNodeKey
  | schema => SchemaDocument.reader.positions.map ofSchemaKey
  | field => FieldDocument.reader.positions.map ofFieldKey
  | _ => []

def Ordered : DocumentPart → Prop
  | nodes | connections | fields => True
  | _ => False

def SameKey : DocumentPart → String → String → Prop
  | node, a, b => ∃ key, NodeKey.ofSpelling? a = some key ∧ NodeKey.ofSpelling? b = some key
  | kind, _, _ | other, _, _ => False
  | _, a, b => a = b

end DocumentPart

inductive KindHint.Spelled (hint : KindHint) : Json → Prop
  | word {word : String} (listed : (word, hint) ∈ spellings) : Spelled hint (.str word)
  | key {word : String} (listed : (word, hint) ∈ spellings) : Spelled hint (.obj [(word, .null)])

/-- The same document with the keys of nodes, schemas and fields in another order, and keys of nodes
and kinds under other spellings, at any depth. -/
inductive Rearranged : DocumentPart → Json → Json → Prop
  | same (part : DocumentPart) (json : Json) : Rearranged part json json
  | kind {hint : KindHint} {a b : Json} (first : hint.Spelled a) (second : hint.Spelled b) :
      Rearranged .kind a b
  | obj {part : DocumentPart} {members : Members} {pairs : List ((String × Json) × (String × Json))}
      (perm : members.Perm (pairs.map (·.1))) (ordered : part.Ordered → members = pairs.map (·.1))
      (keys : ∀ pair ∈ pairs, part.SameKey pair.1.1 pair.2.1)
      (values : ∀ pair ∈ pairs, Rearranged (part.inside pair.1.1) pair.1.2 pair.2.2) :
      Rearranged part (.obj members) (.obj (pairs.map (·.2)))
  | arr {part : DocumentPart} {pairs : List (Json × Json)}
      (short : pairs.length ≤ part.places.length)
      (values : ∀ slot ∈ part.places.zip pairs, Rearranged slot.1 slot.2.1 slot.2.2) :
      Rearranged part (.arr (pairs.map (·.1))) (.arr (pairs.map (·.2)))

theorem KindHint.Spelled.not_null {hint : KindHint} {json : Json} (spelled : hint.Spelled json) :
    json ≠ .null := by
  cases spelled <;> nofun

theorem KindHint.Spelled.read {hint : KindHint} {json : Json} (spelled : hint.Spelled json) :
    KindHint.read json = .ok hint := by
  have words : ∀ entry ∈ spellings, Read.variant spellings entry.1 = .ok entry.2 := by
    simp [spellings, Read.variant]
  cases spelled with
  | word listed => exact words _ listed
  | key listed =>
    rw [KindHint.read, Read.unitVariant, words _ listed]
    rfl

structure DocumentPart.Agree (part : DocumentPart) (a b : Json) : Prop where
  null : a = .null ↔ b = .null
  read : ∀ value, part.read a = .ok value → part.read b = .ok value

namespace DocumentPart.Agree

variable {a b : Json}

theorem eq (agree : other.Agree a b) : b = a := Except.ok.inj (agree.read a rfl)

theorem optional {α : Type} {read : Json → Read α} (null : a = .null ↔ b = .null)
    (same : ∀ value, read a = .ok value → read b = .ok value) :
    ∀ held, Read.optional read a = .ok held → Read.optional read b = .ok held := by
  intro held accepted
  rw [Read.optional_ok_iff, ← null]
  exact (Read.optional_ok_iff.mp accepted).imp_right fun ⟨apart, value, read, told⟩ =>
    ⟨fun absent => apart (null.mpr absent), value, same value read, told⟩

theorem nodeKey {key : NodeKey} (agree : (ofNodeKey key).Agree a b) :
    NodeDraft.slots.Alike key a b := by
  cases key with
  | text | temperature | iterator | collection | loopStart =>
    rw [agree.eq]
    exact fun _ read => read
  | connections => exact agree.read
  | schema | kind => exact optional agree.null agree.read

theorem schemaKey {key : SchemaDocument.Key} (agree : (ofSchemaKey key).Agree a b) :
    SchemaDocument.slots.Alike key a b := by
  cases key with
  | name =>
    rw [agree.eq]
    exact fun _ read => read
  | fields => exact agree.read

theorem fieldKey {key : FieldKey} (agree : (ofFieldKey key).Agree a b) :
    FieldDocument.slots.Alike key a b := by
  cases key with
  | type | description | required | name =>
    rw [agree.eq]
    exact fun _ read => read
  | items | fields => exact optional agree.null agree.read

end DocumentPart.Agree

section

variable {Key Draft : Type} {reader : RecordReader Key Draft} {slots : reader.Slots}
  {ofKey : Key → DocumentPart} {draft : Draft}
  (alike : ∀ {key : Key} {a b : Json}, (ofKey key).Agree a b → slots.Alike key a b)
include alike

theorem RecordReader.Slots.reads_rearranged {members : Members}
    {pairs : List ((String × Json) × (String × Json))} (perm : members.Perm (pairs.map (·.1)))
    (keys : ∀ pair ∈ pairs, reader.keyOf? pair.2.1 = reader.keyOf? pair.1.1)
    (values : ∀ pair ∈ pairs,
      ((reader.keyOf? pair.1.1).elim .other ofKey).Agree pair.1.2 pair.2.2)
    (reads : reader.Reads slots.blank (.obj members) draft) :
    reader.Reads slots.blank (.obj (pairs.map (·.2))) draft := by
  refine Slots.reads_obj_alike reads perm ?_
  rw [List.forall₂_map_left_iff, List.forall₂_map_right_iff, List.forall₂_same]
  refine fun pair member => ⟨keys pair member, fun key known => alike ?_⟩
  have agree := values pair member
  rwa [known] at agree

theorem RecordReader.Slots.alike_of_places {positions : List Key} {pairs : List (Json × Json)}
    (short : pairs.length ≤ positions.length)
    (values : ∀ slot ∈ (positions.map ofKey).zip pairs, slot.1.Agree slot.2.1 slot.2.2) :
    List.Forall₂ (fun slot b => slots.Alike slot.1 slot.2 b) (positions.zip (pairs.map (·.1)))
      (pairs.map (·.2)) := by
  induction pairs generalizing positions with
  | nil => simp
  | cons pair rest ih =>
    cases positions with
    | nil => cases short
    | cons key positions =>
      simp only [List.map_cons, List.zip_cons_cons, List.forall_mem_cons] at values ⊢
      exact .cons (alike values.1) (ih (Nat.le_of_succ_le_succ short) values.2)

end

namespace DocumentPart

variable {a b : Json}

theorem read_node (same : ∀ draft, NodeDraft.reader.Reads NodeDraft.slots.blank a draft →
    NodeDraft.reader.Reads NodeDraft.slots.blank b draft) :
    ∀ value, node.read a = .ok value → node.read b = .ok value :=
  fun value accepted => NodeDraft.read_ok_iff.mpr (same value (NodeDraft.read_ok_iff.mp accepted))

theorem read_schema
    (same : ∀ draft, SchemaDocument.reader.Reads SchemaDocument.slots.blank a draft →
      SchemaDocument.reader.Reads SchemaDocument.slots.blank b draft) :
    ∀ value, schema.read a = .ok value → schema.read b = .ok value := by
  intro value accepted
  obtain ⟨document, read, described⟩ := Schema.read_ok_iff.mp accepted
  obtain ⟨draft, reads, told⟩ := SchemaDocument.read_ok_iff.mp read
  exact Schema.read_ok_iff.mpr
    ⟨document, SchemaDocument.read_ok_iff.mpr ⟨draft, same draft reads, told⟩, described⟩

theorem read_field
    (same : ∀ draft, FieldDocument.reader.Reads FieldDocument.slots.blank a draft →
      FieldDocument.reader.Reads FieldDocument.slots.blank b draft) :
    ∀ value, field.read a = .ok value → field.read b = .ok value := by
  intro value accepted
  obtain ⟨draft, word, reads, told⟩ := FieldDocument.read_ok_iff.mp accepted
  exact FieldDocument.read_ok_iff.mpr ⟨draft, word, same draft reads, told⟩

theorem orderedMap_rearranged {α : Type} {read : Json → Read α}
    {pairs : List ((String × Json) × (String × Json))}
    (keys : ∀ pair ∈ pairs, pair.1.1 = pair.2.1)
    (values : ∀ pair ∈ pairs, ∀ value, read pair.1.2 = .ok value → read pair.2.2 = .ok value)
    {map : OrderedMap α} (accepted : Read.orderedMap read (.obj (pairs.map (·.1))) = .ok map) :
    Read.orderedMap read (.obj (pairs.map (·.2))) = .ok map := by
  obtain ⟨_, ⟨⟩, distinct, rows⟩ := Read.orderedMap_ok_iff.mp accepted
  have names : (pairs.map (·.2)).map (·.1) = (pairs.map (·.1)).map (·.1) := by
    rw [List.map_map, List.map_map]
    exact List.map_congr_left fun pair member => (keys pair member).symm
  refine Read.orderedMap_ok_iff.mpr ⟨_, rfl, names ▸ distinct, ?_⟩
  rw [List.forall₂_map_left_iff] at rows ⊢
  have known := (List.forall₂_and_left _ _).mpr
    ⟨fun pair member => And.intro (keys pair member) (values pair member), rows⟩
  exact known.imp fun pair entry ⟨⟨same, reads⟩, named, held⟩ => ⟨named.trans same, reads _ held⟩

end DocumentPart

theorem Rearranged.agree {part : DocumentPart} {a b : Json} (rearranged : Rearranged part a b) :
    part.Agree a b := by
  induction rearranged with
  | same => exact ⟨Iff.rfl, fun _ read => read⟩
  | kind first second =>
    refine ⟨iff_of_false first.not_null second.not_null, fun value read => ?_⟩
    exact second.read.trans (first.read.symm.trans read)
  | @obj part members pairs perm ordered keys _ agree =>
    refine ⟨iff_of_false nofun nofun, ?_⟩
    cases part with
    | nodes =>
      obtain rfl := ordered trivial
      exact fun _ => DocumentPart.orderedMap_rearranged keys fun pair member =>
        (agree pair member).read
    | connections =>
      obtain rfl := ordered trivial
      refine fun _ => DocumentPart.orderedMap_rearranged keys fun pair member => ?_
      rw [(agree pair member).eq]
      exact fun _ read => read
    | fields =>
      obtain rfl := ordered trivial
      simp only [DocumentPart.read, FieldDocument.readMap_eq]
      exact fun _ => DocumentPart.orderedMap_rearranged keys fun pair member =>
        (agree pair member).read
    | node =>
      refine DocumentPart.read_node fun draft => ?_
      refine RecordReader.Slots.reads_rearranged DocumentPart.Agree.nodeKey perm ?_ agree
      intro pair member
      obtain ⟨key, first, second⟩ := keys pair member
      exact second.trans first.symm
    | schema =>
      refine DocumentPart.read_schema fun draft => ?_
      refine RecordReader.Slots.reads_rearranged DocumentPart.Agree.schemaKey perm ?_ agree
      exact fun pair member => congrArg _ (keys pair member).symm
    | field =>
      refine DocumentPart.read_field fun draft => ?_
      refine RecordReader.Slots.reads_rearranged DocumentPart.Agree.fieldKey perm ?_ agree
      exact fun pair member => congrArg _ (keys pair member).symm
    | kind | other =>
      obtain rfl : pairs = [] := List.eq_nil_iff_forall_not_mem.mpr keys
      obtain rfl : members = [] := List.perm_nil.mp perm
      exact fun _ read => read
  | @arr part pairs short _ agree =>
    refine ⟨iff_of_false nofun nofun, ?_⟩
    cases part with
    | nodes | connections | fields | kind | other =>
      obtain rfl : pairs = [] := List.length_eq_zero_iff.mp (Nat.le_zero.mp short)
      exact fun _ read => read
    | node =>
      refine DocumentPart.read_node fun draft reads => RecordReader.Slots.reads_arr_alike reads ?_
      exact RecordReader.Slots.alike_of_places DocumentPart.Agree.nodeKey short agree
    | schema =>
      refine DocumentPart.read_schema fun draft reads => RecordReader.Slots.reads_arr_alike reads ?_
      exact RecordReader.Slots.alike_of_places DocumentPart.Agree.schemaKey short agree
    | field =>
      refine DocumentPart.read_field fun draft reads => RecordReader.Slots.reads_arr_alike reads ?_
      exact RecordReader.Slots.alike_of_places DocumentPart.Agree.fieldKey short agree

end Colloquy
