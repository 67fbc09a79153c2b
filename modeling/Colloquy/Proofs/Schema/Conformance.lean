import Colloquy.Proofs.Json.Members
import Colloquy.Proofs.Number
import Colloquy.Proofs.Schema.Check

/-!
Conformance of values to types, and the ways in which a value fails one. The check accepts exactly
the values that conform, and of all that is wrong with a value it reports what comes first.
-/

namespace Colloquy

@[elab_as_elim]
theorem FieldType.induct {motive : FieldType → Prop} (string : motive .string)
    (integer : motive .integer) (number : motive .number) (boolean : motive .boolean)
    (array : ∀ item, motive item → motive (.array item))
    (object : ∀ schema : Schema, (∀ field ∈ schema.fields, motive field.type) →
      motive (.object schema)) (type : FieldType) : motive type :=
  @FieldType.rec motive (fun schema => ∀ field ∈ schema.fields, motive field.type)
    (fun fields => ∀ field ∈ fields, motive field.type) (fun field => motive field.type)
    string integer number boolean array object (fun _ _ each => each)
    (fun _ none => absurd none List.not_mem_nil)
    (fun _ _ first rest => List.forall_mem_cons.mpr ⟨first, rest⟩) (fun _ _ _ _ fits => fits) type

def FieldOf.Waives (field : Field) (value : Json) : Prop := field.required = false ∧ value = .null

inductive Conforms : FieldType → Json → Prop
  | string (text : String) : Conforms .string (.str text)
  | integer {n : Number} (whole : ∃ k : ℤ, n.value = k) : Conforms .integer (.num n)
  | number (n : Number) : Conforms .number (.num n)
  | boolean (flag : Bool) : Conforms .boolean (.bool flag)
  | array {item : FieldType} {items : List Json} (each : ∀ element ∈ items, Conforms item element) :
      Conforms (.array item) (.arr items)
  | object {schema : Schema} {members : Members}
      (present : ∀ field ∈ schema.fields, members.get? field.name = none → field.required = false)
      (typed : ∀ field ∈ schema.fields, ∀ value, members.get? field.name = some value →
        ¬ field.Waives value → Conforms field.type value)
      (closed : ∀ entry ∈ members, ∃ field ∈ schema.fields, field.name = entry.1) :
      Conforms (.object schema) (.obj members)

inductive FieldType.Fits : FieldType → Json → Prop
  | string (text : String) : Fits .string (.str text)
  | integer {n : Number} (whole : ∃ k : ℤ, n.value = k) : Fits .integer (.num n)
  | number (n : Number) : Fits .number (.num n)
  | boolean (flag : Bool) : Fits .boolean (.bool flag)
  | array (item : FieldType) (items : List Json) : Fits (.array item) (.arr items)
  | object (schema : Schema) (members : Members) : Fits (.object schema) (.obj members)

def FieldType.mismatch : FieldType → (found : String) → Mismatch
  | .array _, found => .notAnArray found
  | .object schema, found => .notAnObject schema.name found
  | type, found => .wrongType type.name found

/-- All that is wrong with a value, each with the way that leads there. -/
inductive Violates : FieldType → Json → Violation → Prop
  | unfit {type : FieldType} {value : Json} (unfit : ¬ type.Fits value) :
      Violates type value (.here (type.mismatch value.kindName))
  | element {item : FieldType} {items : List Json} {i : Nat} {value : Json} {violation : Violation}
      (found : items[i]? = some value) (inner : Violates item value violation) :
      Violates (.array item) (.arr items) (violation.within (.index i))
  | field {schema : Schema} {members : Members} {field : Field} {value : Json}
      {violation : Violation} (declared : field ∈ schema.fields)
      (found : members.get? field.name = some value) (owed : ¬ field.Waives value)
      (inner : Violates field.type value violation) :
      Violates (.object schema) (.obj members) (violation.within (.field field.name))
  | missing {schema : Schema} {members : Members} {field : Field} (declared : field ∈ schema.fields)
      (absent : members.get? field.name = none) (required : field.required = true) :
      Violates (.object schema) (.obj members) ⟨[.field field.name], .missing⟩
  | undeclared {schema : Schema} {members : Members} {entry : String × Json}
      (member : entry ∈ members) (unknown : ∀ field ∈ schema.fields, field.name ≠ entry.1) :
      Violates (.object schema) (.obj members) ⟨[.field entry.1], .undeclared schema.name⟩

/-- The order of places in depth: elements by index, declared fields as they are declared, and after
them the keys that no field declares, sorted. -/
inductive Earlier : FieldType → List PathStep → List PathStep → Prop
  | element {item : FieldType} {i j : Nat} {path other : List PathStep} (less : i < j) :
      Earlier (.array item) (.index i :: path) (.index j :: other)
  | inElement {item : FieldType} {i : Nat} {path other : List PathStep}
      (inner : Earlier item path other) :
      Earlier (.array item) (.index i :: path) (.index i :: other)
  | field {schema : Schema} {field later : Field} {path other : List PathStep}
      (order : [field, later].Sublist schema.fields) :
      Earlier (.object schema) (.field field.name :: path) (.field later.name :: other)
  | inField {schema : Schema} {field : Field} {path other : List PathStep}
      (declared : field ∈ schema.fields) (inner : Earlier field.type path other) :
      Earlier (.object schema) (.field field.name :: path) (.field field.name :: other)
  | declared {schema : Schema} {field : Field} {key : String} {path other : List PathStep}
      (declared : field ∈ schema.fields) (unknown : ∀ field ∈ schema.fields, field.name ≠ key) :
      Earlier (.object schema) (.field field.name :: path) (.field key :: other)
  | undeclared {schema : Schema} {key later : String} {path other : List PathStep}
      (unknown : ∀ field ∈ schema.fields, field.name ≠ key)
      (unknownToo : ∀ field ∈ schema.fields, field.name ≠ later) (less : key < later) :
      Earlier (.object schema) (.field key :: path) (.field later :: other)

namespace FieldType

variable {type : FieldType} {value : Json} {violation : Violation}

theorem violation_of_unfit (unfit : ¬ type.Fits value) :
    type.violation? value = some (.here (type.mismatch value.kindName)) := by
  cases type with
  | integer =>
    cases value with
    | num n =>
      have fraction : n.isWhole = false :=
        eq_false_of_ne_true fun whole => unfit (.integer (n.isWhole_iff.mp whole))
      cases n with
      | int n => cases fraction
      | float d => simp [violation?, fraction, mismatch, Json.kindName, FieldType.name]
    | null | bool | str | arr | obj => rfl
  | string | number | boolean | array | object =>
    cases value <;> first | rfl | exact absurd (by constructor) unfit

theorem leaf_violation_eq_none_iff (leaf : ∀ item, type ≠ .array item)
    (flat : ∀ schema, type ≠ .object schema) :
    type.violation? value = none ↔ type.Fits value := by
  constructor
  · intro none
    by_contra unfit
    cases none.symm.trans (violation_of_unfit unfit)
  · intro fits
    cases fits with
    | string | number | boolean => rfl
    | integer whole => simp [violation?, Number.isWhole_iff, whole]
    | array item => exact absurd rfl (leaf item)
    | object schema => exact absurd rfl (flat schema)

end FieldType

theorem Json.isNull_iff {value : Json} : value.isNull = true ↔ value = .null := by
  cases value <;> simp [isNull]

theorem FieldOf.passes_iff {field : Field} {members : Members} :
    field.Passes members ↔
      (members.get? field.name = none → field.required = false) ∧
        ∀ value, members.get? field.name = some value → ¬ field.Waives value →
          field.type.violation? value = none := by
  rw [Passes]
  cases found : members.get? field.name with
  | none => simp
  | some value =>
    simp only [Json.isNull_iff, Waives, reduceCtorEq, false_implies, Option.some.injEq, true_and,
      forall_eq']
    tauto

theorem Schema.declares_iff {schema : Schema} {key : String} :
    schema.declares key = true ↔ ∃ field ∈ schema.fields, field.name = key := by
  simp [declares]

theorem FieldType.violation_eq_none_iff {type : FieldType} {value : Json} :
    type.violation? value = none ↔ Conforms type value := by
  induction type using FieldType.induct generalizing value with
  | string | integer | number | boolean =>
    rw [leaf_violation_eq_none_iff (by simp) (by simp)]
    constructor
    · rintro ⟨⟩
      constructor
      try assumption
    · rintro ⟨⟩
      constructor
      try assumption
  | array item ih =>
    rw [array_violation_eq_none_iff]
    simp only [ih]
    constructor
    · rintro ⟨items, rfl, each⟩
      exact .array each
    · rintro ⟨⟩
      exact ⟨_, rfl, ‹_›⟩
  | object schema ih =>
    cases value with
    | obj members =>
      simp only [object_violation_eq_none_iff, FieldOf.passes_iff, Schema.declares_iff]
      constructor
      · rintro ⟨fields, closed⟩
        exact .object (fun field declared => (fields field declared).1)
          (fun field declared value found owed =>
            (ih field declared).mp ((fields field declared).2 value found owed)) closed
      · rintro ⟨⟩
        rename_i present typed closed
        exact ⟨fun field declared => ⟨present field declared, fun value found owed =>
          (ih field declared).mpr (typed field declared value found owed)⟩, closed⟩
    | null | bool | num | str | arr =>
      constructor
      · intro none
        simp [violation?] at none
      · rintro ⟨⟩

theorem Violates.violation_ne_none {type : FieldType} {value : Json} {violation : Violation}
    (violates : Violates type value violation) : type.violation? value ≠ none := by
  intro none
  induction violates with
  | unfit unfit => cases none.symm.trans (FieldType.violation_of_unfit unfit)
  | element found inner ih =>
    obtain ⟨_, ⟨⟩, each⟩ := FieldType.array_violation_eq_none_iff.mp none
    exact ih (each _ (List.mem_of_getElem? found))
  | field declared found owed inner ih =>
    have passes := (FieldType.object_violation_eq_none_iff.mp none).1 _ declared
    exact ih ((FieldOf.passes_iff.mp passes).2 _ found owed)
  | missing declared absent required =>
    have passes := (FieldType.object_violation_eq_none_iff.mp none).1 _ declared
    cases required.symm.trans ((FieldOf.passes_iff.mp passes).1 absent)
  | undeclared member unknown =>
    have declares := (FieldType.object_violation_eq_none_iff.mp none).2 _ member
    obtain ⟨field, declared, same⟩ := Schema.declares_iff.mp declares
    exact unknown field declared same

inductive FieldOf.Fails (field : Field) (members : Members) : Violation → Prop
  | missing (absent : members.get? field.name = none) (required : field.required = true) :
      Fails field members (.here .missing)
  | value {value : Json} {violation : Violation} (found : members.get? field.name = some value)
      (owed : ¬ field.Waives value) (fails : field.type.violation? value = some violation) :
      Fails field members violation

theorem fieldsViolation_cons {field : Field} {rest : List Field} {members : Members} :
    (field.Passes members ∧
        fieldsViolation? (field :: rest) members = fieldsViolation? rest members) ∨
      ∃ violation, field.Fails members violation ∧
        fieldsViolation? (field :: rest) members = some (violation.within (.field field.name)) := by
  obtain ⟨name, type, description, required⟩ := field
  simp only [FieldOf.passes_iff, fieldsViolation?]
  cases found : members.get? name with
  | none =>
    cases required with
    | false => exact .inl (by simp)
    | true => exact .inr ⟨_, .missing found rfl, rfl⟩
  | some value =>
    by_cases waived : value.isNull = true ∧ required = false
    · refine .inl ⟨⟨by simp, ?_⟩, by simp [waived]⟩
      rintro _ ⟨⟩ owed
      exact absurd ⟨waived.2, Json.isNull_iff.mp waived.1⟩ owed
    · have checked : (value.isNull && !required) = false := by simpa using waived
      cases fails : type.violation? value with
      | none =>
        refine .inl ⟨⟨by simp, ?_⟩, by simp [checked, fails]⟩
        rintro _ ⟨⟩ -
        exact fails
      | some violation =>
        refine .inr ⟨violation, .value found ?_ fails, by simp [checked, fails]⟩
        rintro ⟨optional, null⟩
        exact waived ⟨Json.isNull_iff.mpr null, optional⟩

theorem fieldsViolation_eq_some {fields : List Field} {members : Members} {violation : Violation}
    (found : fieldsViolation? fields members = some violation) :
    ∃ before field after inner, fields = before ++ field :: after ∧
      (∀ earlier ∈ before, earlier.Passes members) ∧ field.Fails members inner ∧
      violation = inner.within (.field field.name) := by
  induction fields with
  | nil => simp [fieldsViolation?] at found
  | cons field rest ih =>
    rcases @fieldsViolation_cons field rest members with
      ⟨passes, onwards⟩ | ⟨inner, fails, stops⟩
    · obtain ⟨before, failing, after, inner, rfl, pass, fails, same⟩ := ih (onwards ▸ found)
      exact ⟨field :: before, failing, after, inner, rfl,
        List.forall_mem_cons.mpr ⟨passes, pass⟩, fails, same⟩
    · exact ⟨[], field, rest, inner, rfl, by simp, fails,
        Option.some.inj (found.symm.trans stops)⟩

theorem array_violation_eq_some {item : FieldType} {items : List Json} {violation : Violation}
    (found : (FieldType.array item).violation? (.arr items) = some violation) :
    ∃ before value after inner, items = before ++ value :: after ∧
      (∀ earlier ∈ before, item.violation? earlier = none) ∧ item.violation? value = some inner ∧
      violation = inner.within (.index before.length) := by
  rw [FieldType.violation?, List.findSome?_eq_some_iff] at found
  obtain ⟨front, ⟨value, i⟩, back, split, fails, passes⟩ := found
  obtain ⟨before, rest, rfl, rfl, last⟩ := List.zipIdx_eq_append_iff.mp split
  obtain ⟨first, after, rfl, same, -⟩ := List.zipIdx_eq_cons_iff.mp last.symm
  obtain ⟨rfl, rfl⟩ := Prod.mk.inj same
  obtain ⟨inner, fault, rfl⟩ := Option.map_eq_some_iff.mp fails
  refine ⟨before, _, after, inner, rfl, fun earlier member => ?_, fault, by simp⟩
  obtain ⟨i, bound, rfl⟩ := List.mem_iff_getElem.mp member
  have none := passes (before[i], i) (List.mem_zipIdx_iff_getElem?.mpr (by simp))
  exact Option.map_eq_none_iff.mp none

theorem undeclared_eq_some {schema : Schema} {members : Members} {violation : Violation}
    (found : undeclared? schema.name schema.fields members = some violation) :
    ∃ before entry after, members = before ++ entry :: after ∧
      (∀ earlier ∈ before, ∃ field ∈ schema.fields, field.name = earlier.1) ∧
      (∀ field ∈ schema.fields, field.name ≠ entry.1) ∧
      violation = ⟨[.field entry.1], .undeclared schema.name⟩ := by
  obtain ⟨entry, first, rfl⟩ := Option.map_eq_some_iff.mp found
  obtain ⟨unknown, before, after, split, known⟩ := List.find?_eq_some_iff_append.mp first
  refine ⟨before, entry, after, split, ?_, by simpa using unknown, rfl⟩
  intro earlier member
  simpa using known earlier member

/-- The violation is one of the value's, and every other one stands later in depth-first order. -/
def IsFirst (type : FieldType) (value : Json) (violation : Violation) : Prop :=
  Violates type value violation ∧
    ∀ other, Violates type value other → other = violation ∨ Earlier type violation.path other.path

theorem isFirst_of_array {item : FieldType} {items : List Json} {violation : Violation}
    (ih : ∀ value inner, item.violation? value = some inner → value ∈ items →
      IsFirst item value inner)
    (found : (FieldType.array item).violation? (.arr items) = some violation) :
    IsFirst (.array item) (.arr items) violation := by
  obtain ⟨before, value, after, inner, rfl, passes, fails, rfl⟩ := array_violation_eq_some found
  obtain ⟨violates, first⟩ := ih value inner fails (by simp)
  refine ⟨.element (by simp) violates, fun other violates => ?_⟩
  cases violates with
  | unfit unfit => exact absurd (.array _ _) unfit
  | @element _ _ i element violation holds violates =>
    rcases Nat.lt_trichotomy i before.length with low | rfl | high
    · rw [List.getElem?_append_left low] at holds
      exact absurd (passes element (List.mem_of_getElem? holds)) violates.violation_ne_none
    · obtain rfl : value = element := by simpa using holds
      rcases first violation violates with same | later
      · exact .inl (by rw [same])
      · exact .inr (.inElement later)
    · exact .inr (.element high)

/-- Where a field fails, the fields before it pass, and what else is wrong with the object is at
the field itself, at a later one or at a key that no field declares. -/
theorem isFirst_of_field {schema : Schema} {members : Members} {before after : List Field}
    {field : Field} {inner : Violation} (split : schema.fields = before ++ field :: after)
    (ih : ∀ value, members.get? field.name = some value →
      field.type.violation? value = some inner → IsFirst field.type value inner)
    (passes : ∀ earlier ∈ before, earlier.Passes members) (fails : field.Fails members inner) :
    IsFirst (.object schema) (.obj members) (inner.within (.field field.name)) := by
  have declared : field ∈ schema.fields := by simp [split]
  have later : ∀ other ∈ after, [field, other].Sublist schema.fields := by
    intro other member
    rw [split]
    have rest : [field, other].Sublist (field :: after) :=
      (List.singleton_sublist.mpr member).cons_cons field
    exact rest.trans (List.sublist_append_right before _)
  refine ⟨?_, fun other violates => ?_⟩
  · cases fails with
    | missing absent required => exact .missing declared absent required
    | value found owed fails => exact .field declared found owed (ih _ found fails).1
  · cases violates with
    | unfit unfit => exact absurd (.object _ _) unfit
    | undeclared member unknown => exact .inr (.declared declared unknown)
    | @missing _ _ lacking listed absent required =>
      rcases List.mem_append.mp (split ▸ listed) with early | late
      · have optional := (FieldOf.passes_iff.mp (passes lacking early)).1 absent
        cases required.symm.trans optional
      · rcases List.mem_cons.mp late with rfl | late
        · cases fails with
          | missing => exact .inl rfl
          | value found => cases absent.symm.trans found
        · exact .inr (.field (later lacking late))
    | @field _ _ lacking value violation listed found owed violates =>
      rcases List.mem_append.mp (split ▸ listed) with early | late
      · have none := (FieldOf.passes_iff.mp (passes lacking early)).2 value found owed
        exact absurd none violates.violation_ne_none
      · rcases List.mem_cons.mp late with rfl | late
        · cases fails with
          | missing absent => cases absent.symm.trans found
          | value held _ fails =>
            obtain rfl := Option.some.inj (held.symm.trans found)
            rcases (ih _ found fails).2 violation violates with same | behind
            · exact .inl (by rw [same])
            · exact .inr (.inField declared behind)
        · exact .inr (.field (later lacking late))

theorem isFirst_of_undeclared {schema : Schema} {members : Members} {violation : Violation}
    (increasing : members.Increasing) (passes : ∀ field ∈ schema.fields, field.Passes members)
    (found : undeclared? schema.name schema.fields members = some violation) :
    IsFirst (.object schema) (.obj members) violation := by
  obtain ⟨before, entry, after, rfl, known, unknown, rfl⟩ := undeclared_eq_some found
  refine ⟨.undeclared (by simp) unknown, fun other violates => ?_⟩
  cases violates with
  | unfit unfit => exact absurd (.object _ _) unfit
  | @missing _ _ lacking listed absent required =>
    have optional := (FieldOf.passes_iff.mp (passes lacking listed)).1 absent
    cases required.symm.trans optional
  | @field _ _ lacking value violation listed found owed violates =>
    have none := (FieldOf.passes_iff.mp (passes lacking listed)).2 value found owed
    exact absurd none violates.violation_ne_none
  | @undeclared _ _ extra member unknownToo =>
    rcases List.mem_append.mp member with early | late
    · obtain ⟨field, declared, same⟩ := known extra early
      exact absurd same (unknownToo field declared)
    · rcases List.mem_cons.mp late with rfl | late
      · exact .inl rfl
      · rw [Members.Increasing, List.map_append, List.map_cons] at increasing
        have order := (List.pairwise_cons.mp (List.pairwise_append.mp increasing).2.1).1
        exact .inr (.undeclared unknown unknownToo (order extra.1 (List.mem_map_of_mem late)))

theorem isFirst_of_unfit {type : FieldType} {value : Json} {violation : Violation}
    (unfit : ¬ type.Fits value) (found : type.violation? value = some violation) :
    IsFirst type value violation := by
  obtain rfl := Option.some.inj (found.symm.trans (FieldType.violation_of_unfit unfit))
  refine ⟨.unfit unfit, fun other violates => ?_⟩
  cases violates with
  | unfit => exact .inl rfl
  | element | field | missing | undeclared => exact absurd (by constructor) unfit

theorem FieldType.violation_isFirst {type : FieldType} {value : Json} {violation : Violation}
    (canonical : value.Canonical) (found : type.violation? value = some violation) :
    IsFirst type value violation := by
  induction type using FieldType.induct generalizing value violation with
  | string | integer | number | boolean =>
    refine isFirst_of_unfit (fun fits => ?_) found
    cases found.symm.trans ((leaf_violation_eq_none_iff (by simp) (by simp)).mpr fits)
  | array item ih =>
    by_cases fits : (array item).Fits value
    · cases fits
      have each := Json.canonicalItems_iff.mp canonical
      exact isFirst_of_array (fun value inner fails member => ih (each value member) fails) found
    · exact isFirst_of_unfit fits found
  | object schema ih =>
    by_cases fits : (object schema).Fits value
    · cases fits with | object _ members
      obtain ⟨increasing, each⟩ := canonical
      rw [violation?] at found
      cases failing : fieldsViolation? schema.fields members with
      | some failure =>
        obtain ⟨before, field, after, inner, split, passes, fails, rfl⟩ :=
          fieldsViolation_eq_some failing
        obtain rfl : inner.within (.field field.name) = violation := by simpa [failing] using found
        refine isFirst_of_field split (fun value held fault => ?_) passes fails
        have canonical := Json.canonicalMembers_iff.mp each _ (Members.mem_of_get? held)
        exact ih field (by simp [split]) canonical fault
      | none =>
        exact isFirst_of_undeclared increasing (fieldsViolation_eq_none_iff.mp failing)
          (by simpa [failing] using found)
    · exact isFirst_of_unfit fits found

theorem Schema.validate_error_iff {schema : Schema} {json : Json} {violation : Violation} :
    schema.validate json = .error violation ↔
      (FieldType.object schema).violation? json = some violation := by
  cases json with
  | obj members =>
    cases fails : (FieldType.object schema).violation? (.obj members) <;> simp [validate, fails]
  | null | bool | num | str | arr => simp [validate, FieldType.violation?]

theorem Schema.validate_succeeds_iff {schema : Schema} {json : Json} :
    (∃ value, schema.validate json = .ok value) ↔ Conforms (.object schema) json := by
  rw [← FieldType.violation_eq_none_iff]
  cases outcome : schema.validate json with
  | ok value =>
    have none : (FieldType.object schema).violation? json = none := by
      refine Option.eq_none_iff_forall_not_mem.mpr fun violation fails => ?_
      cases outcome.symm.trans (validate_error_iff.mpr fails)
    simp [none]
  | error violation => simp [validate_error_iff.mp outcome]

/-- The check succeeds exactly on the values that conform, which it keeps as they are; on any other
it reports the violation that comes first. -/
theorem validate_decides_conformance (schema : Schema) {json : Json} (canonical : json.Canonical) :
    ((∃ value, schema.validate json = .ok value) ↔ Conforms (.object schema) json) ∧
      (∀ value, schema.validate json = .ok value → value.schema = schema ∧ value.toJson = json) ∧
      ∀ violation, schema.validate json = .error violation →
        IsFirst (.object schema) json violation := by
  refine ⟨Schema.validate_succeeds_iff, fun value => Schema.validate_ok, fun violation fails => ?_⟩
  exact FieldType.violation_isFirst canonical (Schema.validate_error_iff.mp fails)

namespace Logging

def entry : Schema :=
  ((Schema.empty "Entry").withField { name := "activity", type := .string }).withField
    { name := "quantity", type := .integer }

def log : Schema :=
  (Schema.empty "Log").withField { name := "entries", type := .array (.object entry) }

def day : Json :=
  .obj [("entries", .arr [.obj [("activity", .str "run"), ("quantity", .num (.int 3))],
    .obj [("activity", .str "swim"), ("quantity", .str "two"), ("secret", .null)]]),
    ("weather", .str "fair")]

def fault : Violation :=
  ⟨[.field "entries", .index 1, .field "quantity"], .wrongType "integer" "string"⟩

theorem day_faults : day.Canonical ∧ log.validate day = .error fault ∧
    IsFirst (.object log) day fault ∧
    fault.message = "entries[1].quantity: expected integer, found string" :=
  have canonical : day.Canonical := by
    simp only [day, Json.Canonical, Json.CanonicalMembers, Json.CanonicalItems, Members.Increasing]
    decide
  have fails : log.validate day = .error fault := by rfl
  ⟨canonical, fails, (validate_decides_conformance log canonical).2.2 fault fails, by decide⟩

end Logging

end Colloquy
