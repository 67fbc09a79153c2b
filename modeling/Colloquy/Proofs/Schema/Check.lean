import Colloquy.Schema.Value

/-!
What passes the check of a schema: an object whose members are all declared and whose fields each
pass by themselves.
-/

namespace Colloquy

def FieldOf.Passes (field : Field) (members : Members) : Prop :=
  match members.get? field.name with
  | none => field.required = false
  | some value => value.isNull = true ∧ field.required = false ∨ field.type.violation? value = none

theorem FieldOf.Passes.of_required {field : Field} {members : Members}
    (passes : field.Passes members) (required : field.required = true) :
    ∃ value, members.get? field.name = some value ∧ field.type.violation? value = none := by
  unfold Passes at passes
  split at passes
  · cases required.symm.trans passes
  · rename_i value found
    rcases passes with ⟨-, optional⟩ | fits
    · cases required.symm.trans optional
    · exact ⟨value, found, fits⟩

theorem fieldsViolation_eq_none_iff {fields : List Field} {members : Members} :
    fieldsViolation? fields members = none ↔ ∀ field ∈ fields, field.Passes members := by
  induction fields with
  | nil => simp [fieldsViolation?]
  | cons field rest ih =>
    obtain ⟨name, type, description, required⟩ := field
    rw [List.forall_mem_cons, ← ih, fieldsViolation?, FieldOf.Passes]
    cases found : members.get? name with
    | none => cases required <;> simp
    | some value =>
      by_cases skipped : value.isNull = true ∧ required = false
      · simp [skipped]
      · have checked : (value.isNull && !required) = false := by simpa using skipped
        cases fits : type.violation? value <;> simp [checked, skipped, fits]

theorem undeclared_eq_none_iff {schema : Schema} {members : Members} :
    undeclared? schema.name schema.fields members = none ↔
      ∀ entry ∈ members, schema.declares entry.1 = true := by
  simp [undeclared?, Schema.declares, List.find?_eq_none]

theorem FieldType.array_violation_eq_none_iff {item : FieldType} {value : Json} :
    (FieldType.array item).violation? value = none ↔
      ∃ items, value = .arr items ∧ ∀ element ∈ items, item.violation? element = none := by
  cases value with
  | arr items =>
    simp only [violation?, List.findSome?_eq_none_iff, Option.map_eq_none_iff, Json.arr.injEq,
      exists_eq_left']
    constructor
    · intro each element member
      obtain ⟨i, bound, rfl⟩ := List.mem_iff_getElem.mp member
      exact each (_, i) (List.mem_zipIdx_iff_getElem?.mpr (by simp))
    · intro each entry member
      exact each _ (List.fst_mem_of_mem_zipIdx member)
  | null | bool | num | str | obj => simp [violation?]

theorem FieldType.object_violation_eq_none_iff {schema : Schema} {members : Members} :
    (FieldType.object schema).violation? (.obj members) = none ↔
      (∀ field ∈ schema.fields, field.Passes members) ∧
        ∀ entry ∈ members, schema.declares entry.1 = true := by
  rw [← fieldsViolation_eq_none_iff, ← undeclared_eq_none_iff, violation?]
  cases fieldsViolation? schema.fields members <;> simp

theorem Schema.validate_ok_iff {schema : Schema} {json : Json} {value : StructuredValue} :
    schema.validate json = .ok value ↔
      value.schema = schema ∧ value.toJson = json ∧
      (∀ field ∈ schema.fields, field.Passes value.members) ∧
      ∀ entry ∈ value.members, schema.declares entry.1 = true := by
  rw [← FieldType.object_violation_eq_none_iff]
  obtain ⟨declared, members⟩ := value
  cases json with
  | obj given =>
    cases fits : (FieldType.object schema).violation? (.obj given) with
    | none =>
      simp only [validate, fits, Except.ok.injEq, StructuredValue.mk.injEq, StructuredValue.toJson,
        Json.obj.injEq]
      constructor
      · rintro ⟨rfl, rfl⟩
        exact ⟨rfl, rfl, fits⟩
      · rintro ⟨rfl, rfl, -⟩
        exact ⟨rfl, rfl⟩
    | some violation =>
      simp only [validate, fits, reduceCtorEq, StructuredValue.toJson, Json.obj.injEq, false_iff]
      rintro ⟨-, rfl, passes⟩
      cases fits.symm.trans passes
  | null | bool | num | str | arr => simp [validate, StructuredValue.toJson]

theorem Schema.validate_ok {schema : Schema} {json : Json} {value : StructuredValue}
    (conforms : schema.validate json = .ok value) : value.schema = schema ∧ value.toJson = json :=
  have ⟨declared, given, _⟩ := validate_ok_iff.mp conforms
  ⟨declared, given⟩

end Colloquy
