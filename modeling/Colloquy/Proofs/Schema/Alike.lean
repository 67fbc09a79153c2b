import Colloquy.Extraction
import Colloquy.Proofs.Schema.Rendering
import Colloquy.Run.Scope

/-!
Values that are the same but for optional fields which one has as null and the other has not. The
check and the rendering see no difference. A lookup does: null is found where nothing else is.
-/

namespace Colloquy

/-- The same value of a type, but for optional fields, at any depth, that one of the two has as null
and the other has not. -/
inductive AlikeAs : FieldType → Json → Json → Prop
  | same {type : FieldType} (value : Json) : AlikeAs type value value
  | items {item : FieldType} {items others : List Json} (length : items.length = others.length)
      (each : ∀ i (inside : i < items.length) (within : i < others.length),
        AlikeAs item items[i] others[i]) :
      AlikeAs (.array item) (.arr items) (.arr others)
  | members {schema : Schema} {members others : Members}
      (both : ∀ field ∈ schema.fields, ∀ value other, members.get? field.name = some value →
        others.get? field.name = some other → AlikeAs field.type value other)
      (left : ∀ field ∈ schema.fields, ∀ value, members.get? field.name = some value →
        others.get? field.name = none → field.Waives value)
      (right : ∀ field ∈ schema.fields, ∀ other, members.get? field.name = none →
        others.get? field.name = some other → field.Waives other)
      (undeclared : members.filter (!schema.declares ·.1) = others.filter (!schema.declares ·.1)) :
      AlikeAs (.object schema) (.obj members) (.obj others)

inductive FieldOf.HeldAlike (field : Field) : Option Json → Option Json → Prop
  | neither : HeldAlike field none none
  | both {value other : Json} (alike : AlikeAs field.type value other) :
      HeldAlike field (some value) (some other)
  | left {value : Json} (waives : field.Waives value) : HeldAlike field (some value) none
  | right {other : Json} (waives : field.Waives other) : HeldAlike field none (some other)

section

variable {α β : Type} {R : α → β → Prop} {xs : List α} {ys : List β}

theorem findSome_zipIdx_congr {γ : Type} {f : α × Nat → Option γ} {g : β × Nat → Option γ}
    (pairs : List.Forall₂ (fun x y => ∀ i, f (x, i) = g (y, i)) xs ys) (first : Nat) :
    (xs.zipIdx first).findSome? f = (ys.zipIdx first).findSome? g := by
  induction pairs generalizing first with
  | nil => rfl
  | cons head _ ih =>
    simp only [List.zipIdx_cons, List.findSome?_cons, head first, ih (first + 1)]

theorem mapM_congr_of_forall₂ {γ : Type} {f : α → Option γ} {g : β → Option γ}
    (pairs : List.Forall₂ (fun x y => f x = g y) xs ys) : xs.mapM f = ys.mapM g := by
  induction pairs with
  | nil => rfl
  | cons head _ ih => rw [List.mapM_cons, List.mapM_cons, head, ih]

end

namespace AlikeAs

variable {type item : FieldType} {schema : Schema} {value other : Json} {items rest : List Json}
  {members others : Members}

theorem forall₂ (length : items.length = rest.length)
    (each : ∀ i (inside : i < items.length) (within : i < rest.length),
      AlikeAs item items[i] rest[i]) : List.Forall₂ (AlikeAs item) items rest :=
  List.forall₂_iff_get.mpr ⟨length, each⟩

theorem symm (alike : AlikeAs type value other) : AlikeAs type other value := by
  induction alike with
  | same value => exact .same value
  | items length each ih => exact .items length.symm fun i inside within => ih i within inside
  | members both left right undeclared ih =>
    exact .members
      (fun field declared value other here there => ih field declared other value there here)
      (fun field declared value here there => right field declared value there here)
      (fun field declared other here there => left field declared other there here) undeclared.symm

theorem held (alike : AlikeAs (.object schema) (.obj members) (.obj others)) {field : Field}
    (declared : field ∈ schema.fields) :
    field.HeldAlike (members.get? field.name) (others.get? field.name) := by
  cases alike with
  | same =>
    cases members.get? field.name with
    | none => exact .neither
    | some value => exact .both (.same value)
  | members both left right =>
    cases here : members.get? field.name with
    | none =>
      cases there : others.get? field.name with
      | none => exact .neither
      | some other => exact .right (right field declared other here there)
    | some value =>
      cases there : others.get? field.name with
      | none => exact .left (left field declared value here there)
      | some other => exact .both (both field declared value other here there)

theorem undeclared (alike : AlikeAs (.object schema) (.obj members) (.obj others)) :
    members.filter (!schema.declares ·.1) = others.filter (!schema.declares ·.1) := by
  cases alike with
  | same => rfl
  | members _ _ _ undeclared => exact undeclared

theorem null_iff (alike : AlikeAs type value other) : value = .null ↔ other = .null := by
  cases alike with
  | same => exact Iff.rfl
  | items | members => simp

theorem element_eq (alike : AlikeAs type value other) :
    LoopScope.element? value = LoopScope.element? other := by
  cases alike <;> rfl

theorem elements_eq (alike : AlikeAs type value other) :
    LoopScope.elements? value = LoopScope.elements? other := by
  cases alike with
  | same => rfl
  | items length each =>
    exact mapM_congr_of_forall₂ ((forall₂ length each).imp fun _ _ alike => alike.element_eq)
  | members => rfl

end AlikeAs

section

variable {fields : List Field} {schema : Schema} {members others : Members}

theorem undeclared_eq (schema : Schema) (members : Members) :
    undeclared? schema.name schema.fields members =
      (members.filter (!schema.declares ·.1)).head?.map fun entry =>
        ⟨[.field entry.1], .undeclared schema.name⟩ := by
  rw [List.head?_filter]
  rfl

theorem get?_congr_of_undeclared {key : String} (unknown : schema.declares key = false)
    (same : members.filter (!schema.declares ·.1) = others.filter (!schema.declares ·.1)) :
    members.get? key = others.get? key := by
  have kept (members : Members) :
      members.find? (·.1 == key) = (members.filter (!schema.declares ·.1)).find? (·.1 == key) := by
    rw [List.find?_filter]
    congr 1
    funext entry
    by_cases named : entry.1 = key
    · simp [named, unknown]
    · simp [named]
  unfold Members.get?
  rw [kept members, kept others, same]

theorem fieldsViolation_congr
    (held : ∀ field ∈ fields, field.HeldAlike (members.get? field.name) (others.get? field.name))
    (same : ∀ field ∈ fields, ∀ value other, AlikeAs field.type value other →
      field.type.violation? value = field.type.violation? other) :
    fieldsViolation? fields members = fieldsViolation? fields others := by
  induction fields with
  | nil => rfl
  | cons field rest ih =>
    obtain ⟨first, later⟩ := List.forall_mem_cons.mp held
    obtain ⟨checked, rest⟩ := List.forall_mem_cons.mp same
    obtain ⟨name, type, description, required⟩ := field
    rw [fieldsViolation?, fieldsViolation?, ih later rest]
    dsimp only at first
    generalize members.get? name = here at first
    generalize others.get? name = there at first
    cases first with
    | neither => rfl
    | @both value other alike =>
      have null : value.isNull = other.isNull := by
        rw [Bool.eq_iff_iff, Json.isNull_iff, Json.isNull_iff, alike.null_iff]
      simp only [null, checked value other alike]
    | left waives | right waives =>
      obtain ⟨optional, rfl⟩ := waives
      obtain rfl : required = false := optional
      rfl

theorem AlikeAs.violation_eq {type : FieldType} {value other : Json}
    (alike : AlikeAs type value other) : type.violation? value = type.violation? other := by
  induction type using FieldType.induct generalizing value other with
  | string | integer | number | boolean =>
    cases alike
    rfl
  | array item ih =>
    cases alike with
    | same => rfl
    | items length each =>
      rw [FieldType.violation?, FieldType.violation?]
      apply findSome_zipIdx_congr
      refine (AlikeAs.forall₂ length each).imp fun value other alike i => ?_
      dsimp only
      rw [ih alike]
  | object schema ih =>
    cases alike with
    | same => rfl
    | members both left right undeclared =>
      have alike := AlikeAs.members both left right undeclared
      rw [FieldType.violation?, FieldType.violation?, undeclared_eq, undeclared_eq, undeclared,
        fieldsViolation_congr (fun _ => alike.held) fun field declared _ _ => ih field declared]

theorem renderField_congr {field : Field}
    (held : field.HeldAlike (members.get? field.name) (others.get? field.name))
    (same : ∀ value other, AlikeAs field.type value other →
      field.type.render value = field.type.render other) :
    field.type.render ((members.get? field.name).getD .null) =
      field.type.render ((others.get? field.name).getD .null) := by
  generalize members.get? field.name = here at held
  generalize others.get? field.name = there at held
  cases held with
  | neither => rfl
  | both alike => exact same _ _ alike
  | left waives | right waives =>
    obtain ⟨-, rfl⟩ := waives
    rfl

theorem AlikeAs.render_eq {type : FieldType} {value other : Json}
    (alike : AlikeAs type value other) : type.render value = type.render other := by
  induction type using FieldType.induct generalizing value other with
  | string | integer | number | boolean =>
    cases alike
    rfl
  | array item ih =>
    cases alike with
    | same => rfl
    | items length each =>
      rw [FieldType.render, FieldType.render,
        forall₂_map_eq item.render item.render (AlikeAs.forall₂ length each)
          fun _ _ alike => (ih alike).symm]
  | object schema ih =>
    cases alike with
    | same => rfl
    | members both left right undeclared =>
      have alike := AlikeAs.members both left right undeclared
      rw [FieldType.render, FieldType.render, renderMembers_eq, renderMembers_eq]
      congr 3
      refine List.map_congr_left fun field declared => ?_
      rw [renderField_congr (alike.held declared) fun _ _ => ih field declared]

end

structure StructuredValue.Alike (value other : StructuredValue) : Prop where
  schema : other.schema = value.schema
  members : AlikeAs (.object value.schema) value.toJson other.toJson

/-- What lookups of a key in two such values find: null in one may be nothing in the other. -/
inductive FoundAlike : Option Json → Option Json → Prop
  | neither : FoundAlike none none
  | both {value other : Json} (same : LoopScope.elements? value = LoopScope.elements? other) :
      FoundAlike (some value) (some other)
  | left : FoundAlike (some .null) none
  | right : FoundAlike none (some .null)

theorem FieldOf.HeldAlike.found {field : Field} {here there : Option Json}
    (held : field.HeldAlike here there) : FoundAlike here there := by
  cases held with
  | neither => exact .neither
  | both alike => exact .both alike.elements_eq
  | left waives =>
    obtain ⟨-, rfl⟩ := waives
    exact .left
  | right waives =>
    obtain ⟨-, rfl⟩ := waives
    exact .right

theorem FoundAlike.refl (found : Option Json) : FoundAlike found found := by
  cases found with
  | none => exact .neither
  | some value => exact .both rfl

namespace StructuredValue.Alike

variable {value other : StructuredValue}

theorem symm (alike : value.Alike other) : other.Alike value :=
  ⟨alike.schema.symm, alike.schema ▸ alike.members.symm⟩

theorem found (alike : value.Alike other) (key : String) :
    FoundAlike (value.get? key) (other.get? key) := by
  cases declares : value.schema.declares key with
  | true =>
    obtain ⟨field, declared, rfl⟩ := Schema.declares_iff.mp declares
    exact (alike.members.held declared).found
  | false =>
    have same : value.get? key = other.get? key :=
      get?_congr_of_undeclared declares alike.members.undeclared
    rw [same]
    exact .refl _

theorem renderFields_eq (alike : value.Alike other) : value.renderFields = other.renderFields := by
  rw [renderFields, renderFields, alike.schema]
  congr 3
  refine List.map_congr_left fun field declared => ?_
  have same := renderField_congr (alike.members.held declared) fun _ _ alike => alike.render_eq
  exact congrArg (field.name ++ ": " ++ ·) same

end StructuredValue.Alike

theorem Schema.validate_alike {schema : Schema} {json other : Json}
    (alike : AlikeAs (.object schema) json other) :
    (∃ violation, schema.validate json = .error violation ∧
      schema.validate other = .error violation) ∨
    ∃ value twin, schema.validate json = .ok value ∧ schema.validate other = .ok twin ∧
      value.Alike twin := by
  cases json with
  | obj members =>
    obtain ⟨others, rfl⟩ : ∃ others, other = .obj others := by
      cases alike with
      | same | members => exact ⟨_, rfl⟩
    rw [validate, validate, alike.violation_eq]
    cases (FieldType.object schema).violation? (.obj others) with
    | some violation => exact .inl ⟨violation, rfl, rfl⟩
    | none => exact .inr ⟨⟨schema, members⟩, ⟨schema, others⟩, rfl, rfl, rfl, alike⟩
  | null | bool | num | str | arr =>
    cases alike
    exact .inl ⟨_, rfl, rfl⟩

end Colloquy
