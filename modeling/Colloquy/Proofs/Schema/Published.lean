import Colloquy.Proofs.Schema.Pruning
import Colloquy.Schema.Published

/-!
Published schemas mean what the check decides. JSON Schema knows no field that makes do with null,
so the two agree on values without such fields: a value passes the check exactly when what is left
of it after pruning is accepted.
-/

namespace Colloquy

namespace JsonSchema

def HasType (word : String) : Json → Prop
  | .null => word = "null"
  | .bool _ => word = "boolean"
  | .num n => word = "number" ∨ word = "integer" ∧ ∃ k : ℤ, n.value = k
  | .str _ => word = "string"
  | .arr _ => word = "array"
  | .obj _ => word = "object"

variable {value : Json}

theorem hasType_array : HasType "array" value ↔ ∃ items, value = .arr items := by
  cases value <;> simp [HasType]

theorem hasType_object : HasType "object" value ↔ ∃ members, value = .obj members := by
  cases value <;> simp [HasType]

/-- The value satisfies the schema: every keyword that says something of values of its kind is
satisfied. Titles and descriptions say nothing. -/
inductive Accepts : Json → Json → Prop
  | all (value : Json) : Accepts (.bool true) value
  | keywords {keywords : Members} {value : Json}
      (type : ∀ word, keywords.get? "type" = some (.str word) → HasType word value)
      (items : ∀ schema, keywords.get? "items" = some schema →
        ∀ elements, value = .arr elements → ∀ element ∈ elements, Accepts schema element)
      (properties : ∀ schemas : Members, keywords.get? "properties" = some (.obj schemas) →
        ∀ members : Members, value = .obj members → ∀ name schema held,
          schemas.get? name = some schema → members.get? name = some held → Accepts schema held)
      (required : ∀ names, keywords.get? "required" = some (.arr names) →
        ∀ members : Members, value = .obj members →
          ∀ name, .str name ∈ names → members.get? name ≠ none)
      (additional : ∀ schema, keywords.get? "additionalProperties" = some schema →
        ∀ members : Members, value = .obj members → ∀ entry ∈ members,
          (∀ schemas : Members, keywords.get? "properties" = some (.obj schemas) →
            schemas.get? entry.1 = none) → Accepts schema entry.2) :
      Accepts (.obj keywords) value

variable {keywords others : Members} {schema : Json} {word name : String}
  {description : Option String} {properties : Members} {required : List String}

theorem accepts_congr
    (same : ∀ keyword ∈ ["type", "items", "properties", "required", "additionalProperties"],
      keywords.get? keyword = others.get? keyword) :
    Accepts (.obj keywords) value ↔ Accepts (.obj others) value := by
  simp only [List.forall_mem_cons, List.not_mem_nil, false_implies, implies_true, and_true] at same
  obtain ⟨type, items, properties, required, additional⟩ := same
  constructor
  · rintro ⟨⟩
    constructor <;> simp only [← type, ← items, ← properties, ← required, ← additional]
    all_goals assumption
  · rintro ⟨⟩
    constructor <;> simp only [type, items, properties, required, additional]
    all_goals assumption

theorem accepts_describe : Accepts (describe description schema) value ↔ Accepts schema value := by
  cases schema with
  | obj keywords =>
    cases description with
    | none => exact Iff.rfl
    | some text => exact accepts_congr (by simp [Members.get?_set_of_ne])
  | null | bool | num | str | arr => exact Iff.rfl

theorem accepts_word : Accepts (.obj [("type", .str word)]) value ↔ HasType word value := by
  constructor
  · rintro ⟨⟩
    rename_i type _ _ _ _
    exact type word (by simp [Members.get?_cons])
  · intro fits
    constructor <;> simp [Members.get?_nil, Members.get?_cons, fits]

theorem accepts_array :
    Accepts (.obj [("items", schema), ("type", .str "array")]) value ↔
      ∃ items, value = .arr items ∧ ∀ element ∈ items, Accepts schema element := by
  constructor
  · rintro ⟨⟩
    rename_i type items _ _ _
    obtain ⟨elements, rfl⟩ := hasType_array.mp (type "array" (by simp [Members.get?_cons]))
    exact ⟨elements, rfl, items schema (by simp [Members.get?_cons]) elements rfl⟩
  · rintro ⟨items, rfl, each⟩
    constructor <;> simp [Members.get?_nil, Members.get?_cons, HasType]
    exact each

theorem accepts_object (distinct : (properties.map (·.1)).Nodup) :
    Accepts (objectSchema name properties required) value ↔
      ∃ members : Members, value = .obj members ∧
        (∀ entry ∈ properties, ∀ held, members.get? entry.1 = some held → Accepts entry.2 held) ∧
        (∀ name ∈ required, members.get? name ≠ none) ∧
        ∀ entry ∈ members, ∃ property ∈ properties, property.1 = entry.1 := by
  have perm := Members.sorted_perm distinct
  have sorted := (perm.map (·.1)).nodup_iff.mpr distinct
  have holds : ∀ name schema,
      properties.sorted.get? name = some schema ↔ (name, schema) ∈ properties := by
    intro name schema
    rw [Members.get?_eq_some_iff sorted, perm.mem_iff]
  have lacks : ∀ name, properties.sorted.get? name = none ↔
      ∀ property ∈ properties, property.1 ≠ name := fun name => by
    simp only [Members.get?_eq_none_iff, perm.mem_iff]
  rw [objectSchema]
  constructor
  · rintro ⟨⟩
    rename_i type _ typed present closed
    simp only [Members.get?_cons, String.reduceEq, if_true, if_false, Option.some.injEq,
      Json.obj.injEq, Json.str.injEq, forall_eq'] at type typed present closed
    obtain ⟨members, rfl⟩ := hasType_object.mp type
    refine ⟨members, rfl, ?_, ?_, ?_⟩
    · rintro ⟨name, schema⟩ member held found
      exact typed members rfl name schema held ((holds name schema).mpr member) found
    · intro name member
      exact present _ rfl members rfl name (List.mem_map_of_mem member)
    · intro entry member
      by_contra unknown
      push Not at unknown
      cases closed members rfl entry member ((lacks entry.1).mpr unknown)
  · rintro ⟨members, rfl, typed, present, closed⟩
    constructor <;>
      simp only [Members.get?_cons, String.reduceEq, if_true, if_false, Option.some.injEq,
        Json.obj.injEq, Json.str.injEq, forall_eq', HasType]
    · simp
    · intro name schema held listed found
      exact typed (name, schema) ((holds name schema).mp listed) held found
    · intro names listed name member
      obtain rfl : required.map Json.str = names := by simpa [Json.ofTexts] using listed
      exact present name (by simpa using member)
    · intro entry member unknown
      obtain ⟨property, declared, same⟩ := closed entry member
      exact absurd same ((lacks entry.1).mp unknown property declared)

end JsonSchema

open JsonSchema

theorem mem_propertySchemas {fields : List Field} {property : String × Json} :
    property ∈ propertySchemas fields ↔
      ∃ field ∈ fields,
        property = (field.name, describe field.description field.type.toJsonSchema) := by
  induction fields with
  | nil => simp [propertySchemas]
  | cons field rest ih => simp [propertySchemas, ih]

theorem propertySchemas_names (fields : List Field) :
    (propertySchemas fields).map (·.1) = fields.map (·.name) := by
  induction fields with
  | nil => rfl
  | cons field rest ih => simp [propertySchemas, ih]

theorem accepts_toJsonSchema_object {schema : Schema} (names : (schema.fields.map (·.name)).Nodup)
    {value : Json} :
    Accepts (FieldType.object schema).toJsonSchema value ↔
      ∃ members : Members, value = .obj members ∧
        (∀ field ∈ schema.fields, ∀ held, members.get? field.name = some held →
          Accepts field.type.toJsonSchema held) ∧
        (∀ field ∈ schema.fields, field.required = true → members.get? field.name ≠ none) ∧
        ∀ entry ∈ members, ∃ field ∈ schema.fields, field.name = entry.1 := by
  rw [FieldType.toJsonSchema, accepts_object (by rwa [propertySchemas_names])]
  simp only [mem_propertySchemas, List.mem_map, List.mem_filter]
  constructor
  · rintro ⟨members, rfl, typed, present, closed⟩
    refine ⟨members, rfl, ?_, ?_, ?_⟩
    · intro field declared held found
      exact accepts_describe.mp (typed _ ⟨field, declared, rfl⟩ held found)
    · intro field declared required
      exact present field.name ⟨field, ⟨declared, required⟩, rfl⟩
    · intro entry member
      obtain ⟨_, ⟨field, declared, rfl⟩, same⟩ := closed entry member
      exact ⟨field, declared, same⟩
  · rintro ⟨members, rfl, typed, present, closed⟩
    refine ⟨members, rfl, ?_, ?_, ?_⟩
    · rintro _ ⟨field, declared, rfl⟩ held found
      exact accepts_describe.mpr (typed field declared held found)
    · rintro _ ⟨field, ⟨declared, required⟩, rfl⟩
      exact present field declared required
    · intro entry member
      obtain ⟨field, declared, same⟩ := closed entry member
      exact ⟨_, ⟨field, declared, rfl⟩, same⟩

theorem conforms_iff_hasType {type : FieldType} (leaf : ∀ item, type ≠ .array item)
    (flat : ∀ schema, type ≠ .object schema) {value : Json} :
    Conforms type value ↔ HasType type.name value := by
  constructor
  · rintro ⟨⟩
    case integer whole => exact .inr ⟨rfl, whole⟩
    case number => exact .inl rfl
    case array => exact absurd rfl (leaf _)
    case object => exact absurd rfl (flat _)
    all_goals rfl
  · intro fits
    cases type with
    | array item => exact absurd rfl (leaf item)
    | object schema => exact absurd rfl (flat schema)
    | string | integer | number | boolean =>
      cases value <;> simp [HasType, FieldType.name] at fits
      all_goals constructor
      try assumption

theorem conforms_iff_accepts_object {schema : Schema} (names : (schema.fields.map (·.name)).Nodup)
    {members : Members} (distinct : (members.map (·.1)).Nodup)
    (ih : ∀ field ∈ schema.fields, ∀ held, members.get? field.name = some held →
      (Conforms field.type held ↔ Accepts field.type.toJsonSchema (field.type.prune held))) :
    Conforms (.object schema) (.obj members) ↔
      Accepts (FieldType.object schema).toJsonSchema
        ((FieldType.object schema).prune (.obj members)) := by
  rw [accepts_toJsonSchema_object names, prune_object]
  constructor
  · rintro ⟨⟩
    rename_i present typed closed
    refine ⟨_, rfl, ?_, ?_, ?_⟩
    · intro field declared _ found
      obtain ⟨held, holds, owed, rfl⟩ :=
        (get?_pruneMembers_eq_some_iff names distinct declared).mp found
      exact (ih field declared held holds).mp (typed field declared held holds owed)
    · intro field declared required none
      cases found : members.get? field.name with
      | none => cases required.symm.trans (present field declared found)
      | some held =>
        have owed : ¬ field.Waives held := fun waived => by cases required.symm.trans waived.1
        cases none.symm.trans
          ((get?_pruneMembers_eq_some_iff names distinct declared).mpr ⟨held, found, owed, rfl⟩)
    · intro entry member
      obtain ⟨origin, member, same⟩ := exists_of_mem_pruneMembers member
      exact same ▸ closed origin member
  · rintro ⟨_, ⟨⟩, typed, present, closed⟩
    constructor
    · intro field declared absent
      refine Bool.eq_false_iff.mpr fun required => present field declared required ?_
      rw [get?_pruneMembers distinct, absent, Option.bind_none]
    · intro field declared held found owed
      have kept :=
        (get?_pruneMembers_eq_some_iff names distinct declared).mpr ⟨held, found, owed, rfl⟩
      exact (ih field declared held found).mpr (typed field declared _ kept)
    · intro entry member
      by_contra unknown
      push Not at unknown
      obtain ⟨field, declared, same⟩ := closed entry (mem_pruneMembers_of_unknown unknown member)
      exact unknown field declared same

theorem conforms_iff_accepts {type : FieldType} (distinct : type.DistinctNames) {value : Json}
    (canonical : value.Canonical) :
    Conforms type value ↔ Accepts type.toJsonSchema (type.prune value) := by
  induction type using FieldType.induct generalizing value with
  | string | integer | number | boolean =>
    rw [conforms_iff_hasType (by simp) (by simp), FieldType.toJsonSchema, accepts_word,
      FieldType.prune]
    all_goals simp
  | array item ih =>
    cases distinct with | array inner
    rw [FieldType.toJsonSchema, accepts_array]
    cases value with
    | arr items =>
      have each := Json.canonicalItems_iff.mp canonical
      simp only [FieldType.prune, Json.arr.injEq, exists_eq_left', List.forall_mem_map]
      constructor
      · rintro ⟨⟩
        rename_i conforms
        exact fun element member => (ih inner (each element member)).mp (conforms element member)
      · intro accepts
        refine .array fun element member => ?_
        exact (ih inner (each element member)).mpr (accepts element member)
    | null | bool | num | str | obj =>
      constructor
      · rintro ⟨⟩
      · rintro ⟨_, ⟨⟩, _⟩
  | object schema ih =>
    cases distinct with | object names inner
    cases value with
    | obj members =>
      obtain ⟨increasing, each⟩ := canonical
      refine conforms_iff_accepts_object names increasing.nodup fun field declared held found => ?_
      exact ih field declared (inner field declared)
        (Json.canonicalMembers_iff.mp each _ (Members.mem_of_get? found))
    | null | bool | num | str | arr =>
      rw [accepts_toJsonSchema_object names]
      constructor
      · rintro ⟨⟩
      · rintro ⟨_, ⟨⟩, _⟩

theorem accepts_ne_null {type : FieldType} (distinct : type.DistinctNames) {value : Json}
    (accepts : Accepts type.toJsonSchema value) : value ≠ .null := by
  rintro rfl
  cases distinct with
  | string | integer | number | boolean =>
    exact absurd (accepts_word.mp accepts) (by simp [HasType, FieldType.name])
  | array inner =>
    rw [FieldType.toJsonSchema] at accepts
    obtain ⟨_, ⟨⟩, _⟩ := accepts_array.mp accepts
  | object names inner =>
    obtain ⟨_, ⟨⟩, _⟩ := (accepts_toJsonSchema_object names).mp accepts

/-- Published schemas know no null, so a value that they accept has none to prune. -/
theorem prune_of_accepts {type : FieldType} (distinct : type.DistinctNames) {value : Json}
    (canonical : value.Canonical) (accepts : Accepts type.toJsonSchema value) :
    type.prune value = value := by
  induction type using FieldType.induct generalizing value with
  | string | integer | number | boolean => simp [FieldType.prune]
  | array item ih =>
    cases distinct with | array inner
    rw [FieldType.toJsonSchema] at accepts
    obtain ⟨items, rfl, each⟩ := accepts_array.mp accepts
    have canonical := Json.canonicalItems_iff.mp canonical
    rw [FieldType.prune, List.map_congr_left fun element member =>
      ih inner (canonical element member) (each element member), List.map_id']
  | object schema ih =>
    cases distinct with | object names inner
    obtain ⟨members, rfl, typed, -, closed⟩ := (accepts_toJsonSchema_object names).mp accepts
    obtain ⟨increasing, canonical⟩ := canonical
    have kept : ∀ entry ∈ members, pruneMember schema.fields entry.1 entry.2 = some entry := by
      rintro ⟨key, held⟩ member
      obtain ⟨field, declared, rfl⟩ := closed _ member
      have fits := typed field declared held
        ((Members.get?_eq_some_iff increasing.nodup).mpr member)
      have owed : ¬ field.Waives held := fun waived =>
        accepts_ne_null (inner field declared) fits waived.2
      rw [(pruneMember_of_declared names declared held).2 owed,
        ih field declared (inner field declared) (Json.canonicalMembers_iff.mp canonical _ member)
          fits]
    rw [prune_object, pruneMembers, List.filterMap_congr kept, List.filterMap_some]

/-- The check accepts a value exactly when the published schema accepts what is left of it without
the optional fields that are null; and whatever the published schema accepts passes the check. -/
theorem validate_agrees_with_published (schema : Schema) (distinct : schema.DistinctNames)
    {json : Json} (canonical : json.Canonical) :
    ((∃ value, schema.validate json = .ok value) ↔
        Accepts schema.toJsonSchema ((FieldType.object schema).prune json)) ∧
      (Accepts schema.toJsonSchema json → ∃ value, schema.validate json = .ok value) := by
  rw [Schema.validate_succeeds_iff, Schema.toJsonSchema, conforms_iff_accepts distinct canonical]
  refine ⟨Iff.rfl, fun accepts => ?_⟩
  rwa [prune_of_accepts distinct canonical accepts]

namespace Diary

theorem page_agrees : (∃ value, diary.validate (.obj page) = .ok value) ∧
    Accepts diary.toJsonSchema (.obj prunedPage) :=
  have passes : ∃ value, diary.validate (.obj page) = .ok value := ⟨⟨diary, page⟩, by rfl⟩
  ⟨passes, prune_page ▸
    (validate_agrees_with_published diary diary_distinctNames page_canonical).1.mp passes⟩

end Diary

end Colloquy
