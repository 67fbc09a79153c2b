import Colloquy.Proofs.Checks
import Colloquy.Proofs.Json.Members
import Colloquy.Proofs.Schema.Conformance
import Colloquy.Schema.Document

/-!
No object of a schema declares a name twice: fields that are added replace their namesakes, and a
document that repeats one is refused.
-/

namespace Colloquy

inductive FieldType.DistinctNames : FieldType → Prop
  | string : DistinctNames .string
  | integer : DistinctNames .integer
  | number : DistinctNames .number
  | boolean : DistinctNames .boolean
  | array {item : FieldType} (inner : DistinctNames item) : DistinctNames (.array item)
  | object {schema : Schema} (names : (schema.fields.map (·.name)).Nodup)
      (inner : ∀ field ∈ schema.fields, DistinctNames field.type) : DistinctNames (.object schema)

namespace Schema

def DistinctNames (schema : Schema) : Prop := (FieldType.object schema).DistinctNames

theorem distinctNames_empty (name : String) : (empty name).DistinctNames :=
  .object .nil (by simp [empty])

theorem replaceField_names (field : Field) (fields : List Field) :
    (replaceField field fields).map (·.name) = fields.map (·.name) := by
  induction fields with
  | nil => rfl
  | cons held rest ih =>
    rw [replaceField]
    split
    · rename_i same
      simp [same]
    · simp [ih]

theorem eq_or_mem_of_mem_replaceField {field other : Field} {fields : List Field}
    (member : other ∈ replaceField field fields) : other = field ∨ other ∈ fields := by
  induction fields with
  | nil => cases member
  | cons held rest ih =>
    rw [replaceField] at member
    split at member
    · exact (List.mem_cons.mp member).imp_right (List.mem_cons_of_mem _)
    · rcases List.mem_cons.mp member with rfl | later
      · exact .inr List.mem_cons_self
      · exact (ih later).imp_right (List.mem_cons_of_mem _)

theorem distinctNames_withField {schema : Schema} {field : Field} (distinct : schema.DistinctNames)
    (type : field.type.DistinctNames) : (schema.withField field).DistinctNames := by
  cases distinct with | object names inner
  rw [withField]
  split
  · refine .object (by rwa [replaceField_names]) fun other member => ?_
    rcases eq_or_mem_of_mem_replaceField member with rfl | member
    · exact type
    · exact inner other member
  · rename_i fresh
    have absent : ∀ held ∈ schema.fields, held.name ≠ field.name := by simpa [declares] using fresh
    refine .object ?_ ?_
    · simpa [List.nodup_append, names] using absent
    · simpa [or_imp, forall_and, type] using inner

end Schema

/-! ### Documents -/

inductive FieldDocument.Distinct : FieldDocument → Prop
  | intro {document : FieldDocument} (items : ∀ item, document.items = some item → Distinct item)
      (names : ∀ map, document.fields = some map → map.Distinct)
      (fields : ∀ map, document.fields = some map → ∀ entry ∈ map.entries, Distinct entry.2) :
      Distinct document

def FieldDocument.DistinctMap (map : OrderedMap FieldDocument) : Prop :=
  map.Distinct ∧ ∀ entry ∈ map.entries, entry.2.Distinct

structure FieldDraft.Distinct (draft : FieldDraft) : Prop where
  items : ∀ item, draft.items = some (some item) → item.Distinct
  fields : ∀ map, draft.fields = some (some map) → FieldDocument.DistinctMap map

theorem Read.once_ok {α : Type} {slot next : Option α} {field : String} {read : Read α}
    (once : Read.once slot field read = .ok next) :
    ∃ value, read = .ok value ∧ next = some value := by
  rw [Read.once] at once
  split at once
  · cases once
  · cases outcome : read with
    | error problem => cases outcome ▸ once
    | ok value => exact ⟨value, rfl, by cases outcome ▸ once; rfl⟩

namespace FieldDraft

variable {draft next : FieldDraft} {key : FieldKey} {value : Json}
  {items : Unit → Read FieldDocument} {fields : Unit → Read (OrderedMap FieldDocument)}

theorem put_distinct (distinct : draft.Distinct)
    (items_distinct : ∀ item, items () = .ok item → item.Distinct)
    (fields_distinct : ∀ map, fields () = .ok map → FieldDocument.DistinctMap map)
    (put : draft.put key value items fields = .ok next) : next.Distinct := by
  obtain ⟨known, knownFields⟩ := distinct
  cases key with
  | type | description | required | name =>
    obtain ⟨_, _, ⟨⟩⟩ := bind_ok_iff.mp put
    exact ⟨known, knownFields⟩
  | items =>
    obtain ⟨_, once, ⟨⟩⟩ := bind_ok_iff.mp put
    obtain ⟨held, read, rfl⟩ := Read.once_ok once
    refine ⟨?_, knownFields⟩
    rintro item ⟨⟩
    split at read
    · cases read
    · cases outcome : items () with
      | error problem => cases outcome ▸ read
      | ok item => cases outcome ▸ read; exact items_distinct item outcome
  | fields =>
    obtain ⟨_, once, ⟨⟩⟩ := bind_ok_iff.mp put
    obtain ⟨held, read, rfl⟩ := Read.once_ok once
    refine ⟨known, ?_⟩
    rintro map ⟨⟩
    split at read
    · cases read
    · cases outcome : fields () with
      | error problem => cases outcome ▸ read
      | ok map => cases outcome ▸ read; exact fields_distinct map outcome

theorem finish_distinct {arrangement : Arrangement} {document : FieldDocument}
    (distinct : draft.Distinct) (finish : draft.finish arrangement = .ok document) :
    document.Distinct := by
  rw [FieldDraft.finish] at finish
  cases word : draft.word with
  | none => simp [word, throw, throwThe, MonadExceptOf.throw] at finish
  | some word =>
    simp only [word] at finish
    obtain ⟨_, -, ⟨⟩⟩ := bind_ok_iff.mp finish
    refine .intro ?_ ?_ ?_
    · exact fun item held => distinct.items item (Option.join_eq_some_iff.mp held)
    · exact fun map held => (distinct.fields map (Option.join_eq_some_iff.mp held)).1
    · exact fun map held => (distinct.fields map (Option.join_eq_some_iff.mp held)).2

end FieldDraft

namespace FieldDocument

def ReadsDistinct (json : Json) : Prop :=
  (∀ document, read json = .ok document → document.Distinct) ∧
    ∀ map, readMap json = .ok map → DistinctMap map

theorem readMembers_distinct {members : Members} (each : ∀ entry ∈ members, ReadsDistinct entry.2)
    {draft next : FieldDraft} (distinct : draft.Distinct)
    (read : readMembers draft members = .ok next) : next.Distinct := by
  induction members generalizing draft with
  | nil => cases read; exact distinct
  | cons entry rest ih =>
    obtain ⟨name, value⟩ := entry
    obtain ⟨first, later⟩ := List.forall_mem_cons.mp each
    rw [readMembers] at read
    split at read
    · cases read
    · obtain ⟨filled, put, read⟩ := bind_ok_iff.mp read
      exact ih later (FieldDraft.put_distinct distinct first.1 first.2 put) read

theorem readElements_distinct {keys : List FieldKey} {items : List Json}
    (each : ∀ item ∈ items, ReadsDistinct item) {draft next : FieldDraft}
    (distinct : draft.Distinct) (read : readElements draft keys items = .ok next) :
    next.Distinct := by
  induction items generalizing draft keys with
  | nil => cases keys <;> (cases read; exact distinct)
  | cons value rest ih =>
    obtain ⟨first, later⟩ := List.forall_mem_cons.mp each
    cases keys with
    | nil => cases read; exact distinct
    | cons key keys =>
      rw [readElements] at read
      obtain ⟨filled, put, read⟩ := bind_ok_iff.mp read
      exact ih later (FieldDraft.put_distinct distinct first.1 first.2 put) read

theorem readEntries_distinct {members : Members} (each : ∀ entry ∈ members, ReadsDistinct entry.2)
    {earlier map : OrderedMap FieldDocument} (distinct : DistinctMap earlier)
    (read : readEntries earlier members = .ok map) : DistinctMap map := by
  induction members generalizing earlier with
  | nil => cases read; exact distinct
  | cons entry rest ih =>
    obtain ⟨name, value⟩ := entry
    obtain ⟨first, later⟩ := List.forall_mem_cons.mp each
    rw [readEntries] at read
    obtain ⟨field, held, read⟩ := bind_ok_iff.mp read
    obtain ⟨fresh, read⟩ := refuse_ok_iff.mp read
    have absent : ∀ entry ∈ earlier.entries, entry.1 ≠ name := by
      simpa [OrderedMap.contains] using fresh
    refine ih later ⟨?_, ?_⟩ read
    · have names : earlier.keys.Nodup := distinct.1
      simp only [OrderedMap.keys] at names
      simpa [OrderedMap.Distinct, OrderedMap.keys, OrderedMap.push, List.nodup_append, names]
        using absent
    · simpa [OrderedMap.push, or_imp, forall_and, first.1 field held] using distinct.2

theorem reads_distinct (json : Json) : ReadsDistinct json := by
  have blank : ({} : FieldDraft).Distinct :=
    ⟨fun _ none => (by cases none), fun _ none => (by cases none)⟩
  induction json using Json.induct with
  | null | bool | num | str => exact ⟨fun _ none => (by cases none), fun _ none => (by cases none)⟩
  | arr items each =>
    refine ⟨fun document accepted => ?_, fun _ none => by cases none⟩
    rw [read] at accepted
    obtain ⟨draft, elements, finish⟩ := bind_ok_iff.mp accepted
    exact FieldDraft.finish_distinct (readElements_distinct each blank elements) finish
  | obj members each =>
    refine ⟨fun document accepted => ?_, fun map accepted => ?_⟩
    · rw [read] at accepted
      obtain ⟨draft, fields, finish⟩ := bind_ok_iff.mp accepted
      exact FieldDraft.finish_distinct (readMembers_distinct each blank fields) finish
    · have blank : DistinctMap .empty := ⟨List.nodup_nil, by simp [OrderedMap.empty]⟩
      exact readEntries_distinct each blank accepted

theorem toFields_distinct {schema : String} {entries : List (String × FieldDocument)}
    {fields : List Field} (each : ∀ entry ∈ entries, ∀ schema name type,
      entry.2.toType schema name = .ok type → type.DistinctNames)
    (described : toFields schema entries = .ok fields) :
    fields.map (·.name) = entries.map (·.1) ∧ ∀ field ∈ fields, field.type.DistinctNames := by
  induction entries generalizing fields with
  | nil => cases described; simp
  | cons entry rest ih =>
    obtain ⟨name, word, description, required, items, objectName, map⟩ := entry
    obtain ⟨first, later⟩ := List.forall_mem_cons.mp each
    rw [toFields] at described
    obtain ⟨type, typed, described⟩ := bind_ok_iff.mp described
    obtain ⟨others, listed, ⟨⟩⟩ := bind_ok_iff.mp described
    obtain ⟨names, distinct⟩ := ih later listed
    exact ⟨by simp [names], List.forall_mem_cons.mpr ⟨first _ _ _ typed, distinct⟩⟩

theorem toFields_object_distinct {schema name : String} {map : OrderedMap FieldDocument}
    {fields : List Field} (distinct : map.Distinct) (each : ∀ entry ∈ map.entries,
      ∀ schema name type, entry.2.toType schema name = .ok type → type.DistinctNames)
    (described : toFields schema map.entries = .ok fields) :
    Schema.DistinctNames ⟨name, fields⟩ := by
  obtain ⟨names, inner⟩ := toFields_distinct each described
  exact .object (by rw [names]; exact distinct) inner

theorem toType_distinct {document : FieldDocument} (distinct : document.Distinct)
    {schema field : String} {type : FieldType}
    (described : document.toType schema field = .ok type) : type.DistinctNames := by
  induction distinct generalizing schema field type with
  | @intro document items names fields itemsTyped fieldsTyped =>
    obtain ⟨word, description, required, item, name, map⟩ := document
    cases word with
    | string | integer | number | boolean => cases described; constructor
    | array =>
      cases item with
      | none => cases described
      | some item =>
        rw [toType] at described
        cases typed : item.toType schema field with
        | error problem => cases typed ▸ described
        | ok inner =>
          cases typed ▸ described
          exact .array (itemsTyped item rfl typed)
    | object =>
      cases map with
      | none => cases described
      | some map =>
        obtain ⟨entries⟩ := map
        rw [toType] at described
        split at described
        · cases described
        · obtain ⟨inner, listed, ⟨⟩⟩ := bind_ok_iff.mp described
          exact toFields_object_distinct (names _ rfl)
            (fun entry member schema name type => fieldsTyped _ rfl entry member) listed

end FieldDocument

namespace RecordReader

variable {Key Draft : Type} {reader : RecordReader Key Draft} {P : Draft → Prop}

theorem read_keeps (kept : ∀ {draft key value next}, P draft →
      reader.put draft key value = .ok next → P next) {json : Json} {draft : Draft}
    {result : Draft × Arrangement} (initial : P draft)
    (accepted : reader.read draft json = .ok result) : P result.1 := by
  have members : ∀ {members : Members} {draft next}, P draft →
      reader.readMembers draft members = .ok next → P next := by
    intro members
    induction members with
    | nil => rintro draft next holds ⟨⟩; exact holds
    | cons entry rest ih =>
      obtain ⟨name, value⟩ := entry
      intro draft next holds read
      rw [readMembers] at read
      split at read
      · obtain ⟨filled, put, read⟩ := bind_ok_iff.mp read
        exact ih (kept holds put) read
      · cases read
      · exact ih holds read
  have elements : ∀ {items : List Json} {keys draft next}, P draft →
      reader.readElements draft keys items = .ok next → P next := by
    intro items
    induction items with
    | nil => intro keys; cases keys <;> (rintro draft next holds ⟨⟩; exact holds)
    | cons value rest ih =>
      intro keys draft next holds read
      cases keys with
      | nil => cases read; exact holds
      | cons key keys =>
        rw [readElements] at read
        obtain ⟨filled, put, read⟩ := bind_ok_iff.mp read
        exact ih (kept holds put) read
  cases json with
  | obj given =>
    obtain ⟨next, read, ⟨⟩⟩ := bind_ok_iff.mp accepted
    exact members initial read
  | arr items =>
    obtain ⟨next, read, ⟨⟩⟩ := bind_ok_iff.mp accepted
    exact elements initial read
  | null | bool | num | str => cases accepted

end RecordReader

namespace SchemaDocument

theorem put_distinct {draft next : Draft} {key : Key} {value : Json}
    (distinct : ∀ map, draft.fields = some map → FieldDocument.DistinctMap map)
    (accepted : put draft key value = .ok next) :
    ∀ map, next.fields = some map → FieldDocument.DistinctMap map := by
  cases key with
  | name =>
    obtain ⟨_, _, ⟨⟩⟩ := bind_ok_iff.mp accepted
    exact distinct
  | fields =>
    obtain ⟨_, once, ⟨⟩⟩ := bind_ok_iff.mp accepted
    obtain ⟨held, read, rfl⟩ := Read.once_ok once
    rintro _ ⟨⟩
    exact (FieldDocument.reads_distinct value).2 _ read

theorem read_distinct {json : Json} {document : SchemaDocument}
    (accepted : read json = .ok document) : FieldDocument.DistinctMap document.fields := by
  obtain ⟨⟨draft, arrangement⟩, drafted, accepted⟩ := bind_ok_iff.mp accepted
  have distinct : ∀ map, draft.fields = some map → FieldDocument.DistinctMap map :=
    RecordReader.read_keeps put_distinct (by simp) drafted
  cases named : draft.name with
  | none => simp [named, throw, throwThe, MonadExceptOf.throw] at accepted
  | some name =>
    cases listed : draft.fields with
    | none => simp [named, listed, throw, throwThe, MonadExceptOf.throw] at accepted
    | some fields =>
      simp only [named, listed] at accepted
      obtain ⟨_, -, ⟨⟩⟩ := bind_ok_iff.mp accepted
      exact distinct _ listed

theorem toSchema_distinct {document : SchemaDocument} {schema : Schema}
    (distinct : FieldDocument.DistinctMap document.fields)
    (described : document.toSchema = .ok schema) : schema.DistinctNames := by
  rw [toSchema] at described
  split at described
  · cases described
  · split at described
    · cases described
    · obtain ⟨fields, listed, ⟨⟩⟩ := bind_ok_iff.mp described
      refine FieldDocument.toFields_object_distinct distinct.1 ?_ listed
      exact fun entry member schema name type =>
        FieldDocument.toType_distinct (distinct.2 entry member)

end SchemaDocument

theorem Schema.distinctNames_of_read {json : Json} {schema : Schema}
    (accepted : Schema.read json = .ok schema) : schema.DistinctNames := by
  obtain ⟨document, read, accepted⟩ := bind_ok_iff.mp accepted
  cases described : document.toSchema with
  | error problem => simp [described, throw, throwThe, MonadExceptOf.throw] at accepted
  | ok result =>
    simp only [described] at accepted
    cases accepted
    exact SchemaDocument.toSchema_distinct (SchemaDocument.read_distinct read) described

end Colloquy
