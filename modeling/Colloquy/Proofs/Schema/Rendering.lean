import Colloquy.Proofs.Json.Parser
import Colloquy.Proofs.Json.Printer
import Colloquy.Proofs.Json.Reread
import Colloquy.Proofs.Schema.Pruning

/-!
Rendering keeps all that matters of a value: a rendered value is one line of JSON for every field,
arranged as the fields are declared, and values that render the same differ at most in optional
fields that one has as null and the other has not.
-/

namespace Colloquy

mutual

/-- The value with all declared members, and no others, in declaration order; absent ones are
null. -/
def FieldType.arrange : FieldType → Json → Json
  | .array item, .arr items => .arr (items.map item.arrange)
  | .object ⟨_, fields⟩, .obj members => .obj (arrangeMembers fields members)
  | _, value => value

def arrangeMembers : List Field → Members → Members
  | [], _ => []
  | ⟨name, type, _, _⟩ :: rest, members =>
    (name, type.arrange ((members.get? name).getD .null)) :: arrangeMembers rest members

end

section

variable {members others : Members} {value : Json}

theorem arrangeMembers_eq (fields : List Field) (members : Members) :
    arrangeMembers fields members = fields.map fun field =>
      (field.name, field.type.arrange ((members.get? field.name).getD .null)) := by
  induction fields with
  | nil => rfl
  | cons field rest ih => rw [arrangeMembers, ih, List.map_cons]

theorem renderMembers_eq (fields : List Field) (members : Members) :
    renderMembers fields members = fields.map fun field =>
      Json.textLiteral field.name ++ ":" ++
        field.type.render ((members.get? field.name).getD .null) := by
  induction fields with
  | nil => rfl
  | cons field rest ih => rw [renderMembers, ih, List.map_cons]

theorem render_eq_compact (type : FieldType) (value : Json) :
    type.render value = (type.arrange value).compact := by
  induction type using FieldType.induct generalizing value with
  | string | integer | number | boolean => simp [FieldType.render, FieldType.arrange]
  | array item ih =>
    cases value with
    | arr items =>
      rw [FieldType.render, FieldType.arrange, Json.compact, Json.compactItems_eq, List.map_map,
        List.map_congr_left fun item _ => ih item]
      rfl
    | null | bool | num | str | obj => rfl
  | object schema ih =>
    cases value with
    | obj members =>
      rw [FieldType.render, FieldType.arrange, Json.compact, Json.compactMembers_eq,
        renderMembers_eq, arrangeMembers_eq, List.map_map]
      congr 3
      exact List.map_congr_left fun field declared => by simp [ih field declared]
    | null | bool | num | str | arr => rfl

theorem arrange_eq_null_iff {type : FieldType} : type.arrange value = .null ↔ value = .null := by
  cases type <;> cases value <;> simp [FieldType.arrange]

theorem arrange_proper {type : FieldType} (proper : value.Proper) :
    (type.arrange value).Proper := by
  induction type using FieldType.induct generalizing value with
  | string | integer | number | boolean => simpa [FieldType.arrange] using proper
  | array item ih =>
    cases value with
    | arr items =>
      rw [Json.proper_arr] at proper
      rw [FieldType.arrange]
      exact .arr (List.forall_mem_map.mpr fun element member => ih (proper element member))
    | null | bool | num | str | obj => exact proper
  | object schema ih =>
    cases value with
    | obj members =>
      rw [Json.proper_obj] at proper
      rw [FieldType.arrange, arrangeMembers_eq]
      refine .obj (List.forall_mem_map.mpr fun field declared => ih field declared ?_)
      cases found : Members.get? members field.name with
      | none => exact .null
      | some held => exact proper _ (Members.mem_of_get? found)
    | null | bool | num | str | arr => exact proper

/-! ### Pruned values -/

theorem Conforms.ne_null {type : FieldType} (conforms : Conforms type value) : value ≠ .null := by
  rintro rfl
  cases conforms

theorem map_eq_map_of {α β γ : Type} {f : α → β} {g : α → γ} {xs ys : List α}
    (same : xs.map f = ys.map f) (implies : ∀ x ∈ xs, ∀ y ∈ ys, f x = f y → g x = g y) :
    xs.map g = ys.map g := by
  induction xs generalizing ys with
  | nil => cases ys <;> simp_all
  | cons x xs ih =>
    cases ys with
    | nil => cases same
    | cons y ys =>
      obtain ⟨first, rest⟩ := List.cons.inj same
      rw [List.map_cons, List.map_cons, implies x (by simp) y (by simp) first,
        ih rest fun x member y memberToo => implies x (by simp [member]) y (by simp [memberToo])]

theorem get?_pruneMembers_of_arrange_eq {schema : Schema} {field : Field}
    (names : (schema.fields.map (·.name)).Nodup) (declared : field ∈ schema.fields)
    (distinct : (members.map (·.1)).Nodup) (distinctToo : (others.map (·.1)).Nodup)
    (same : field.type.arrange ((members.get? field.name).getD .null) =
      field.type.arrange ((others.get? field.name).getD .null))
    (typed : ∀ held, members.get? field.name = some held → ¬ field.Waives held →
      Conforms field.type held)
    (ih : ∀ held other, members.get? field.name = some held → ¬ field.Waives held →
      others.get? field.name = some other → ¬ field.Waives other →
      field.type.arrange held = field.type.arrange other →
      field.type.prune held = field.type.prune other)
    (found : (pruneMembers schema.fields members).get? field.name = some value) :
    (pruneMembers schema.fields others).get? field.name = some value := by
  obtain ⟨held, holds, owed, rfl⟩ :=
    (get?_pruneMembers_eq_some_iff names distinct declared).mp found
  rw [holds, Option.getD_some] at same
  have nonnull : field.type.arrange held ≠ .null :=
    mt arrange_eq_null_iff.mp (typed held holds owed).ne_null
  cases holdsToo : others.get? field.name with
  | none =>
    rw [holdsToo, Option.getD_none] at same
    exact absurd (same.trans (arrange_eq_null_iff.mpr rfl)) nonnull
  | some other =>
    rw [holdsToo, Option.getD_some] at same
    have owedToo : ¬ field.Waives other := by
      rintro ⟨-, rfl⟩
      exact nonnull (same.trans (arrange_eq_null_iff.mpr rfl))
    exact (get?_pruneMembers_eq_some_iff names distinctToo declared).mpr
      ⟨other, holdsToo, owedToo, (ih held other holds owed holdsToo owedToo same).symm⟩

theorem prune_eq_of_arrange_eq {type : FieldType} (distinct : type.DistinctNames)
    {value other : Json} (canonical : value.Canonical) (canonicalToo : other.Canonical)
    (conforms : Conforms type value) (conformsToo : Conforms type other)
    (same : type.arrange value = type.arrange other) : type.prune value = type.prune other := by
  induction type using FieldType.induct generalizing value other with
  | string | integer | number | boolean =>
    simp only [FieldType.arrange] at same
    rw [same]
  | array item ih =>
    cases distinct with | array inner
    cases conforms with | array each
    cases conformsToo with | array eachToo
    rw [Json.Canonical, Json.canonicalItems_iff] at canonical canonicalToo
    simp only [FieldType.arrange, FieldType.prune, Json.arr.injEq] at same ⊢
    refine map_eq_map_of same fun x member y memberToo => ?_
    exact ih inner (canonical x member) (canonicalToo y memberToo) (each x member)
      (eachToo y memberToo)
  | object schema ih =>
    cases distinct with | object names inner
    cases conforms with | object present typed closed
    cases conformsToo with | object presentToo typedToo closedToo
    rename_i members others
    obtain ⟨increasing, canonical⟩ := canonical
    obtain ⟨increasingToo, canonicalToo⟩ := canonicalToo
    simp only [FieldType.arrange, arrangeMembers_eq, Json.obj.injEq, List.map_inj_left,
      Prod.mk.injEq, true_and] at same
    have agree : ∀ field ∈ schema.fields, ∀ held other, members.get? field.name = some held →
        ¬ field.Waives held → others.get? field.name = some other → ¬ field.Waives other →
        field.type.arrange held = field.type.arrange other →
        field.type.prune held = field.type.prune other := by
      intro field declared held other holds owed holdsToo owedToo
      exact ih field declared (inner field declared)
        (Json.canonicalMembers_iff.mp canonical _ (Members.mem_of_get? holds))
        (Json.canonicalMembers_iff.mp canonicalToo _ (Members.mem_of_get? holdsToo))
        (typed field declared held holds owed) (typedToo field declared other holdsToo owedToo)
    rw [prune_object, prune_object, Json.obj.injEq]
    refine Members.Increasing.ext (pruneMembers_increasing _ increasing)
      (pruneMembers_increasing _ increasingToo) fun key => ?_
    by_cases known : ∃ field ∈ schema.fields, field.name = key
    · obtain ⟨field, declared, rfl⟩ := known
      refine Option.ext fun value => ⟨fun found => ?_, fun found => ?_⟩
      · exact get?_pruneMembers_of_arrange_eq names declared increasing.nodup increasingToo.nodup
          (same field declared) (typed field declared) (agree field declared) found
      · refine get?_pruneMembers_of_arrange_eq names declared increasingToo.nodup increasing.nodup
          (same field declared).symm (typedToo field declared) ?_ found
        exact fun held other holds owed holdsToo owedToo alike =>
          (agree field declared other held holdsToo owedToo holds owed alike.symm).symm
    · push Not at known
      rw [get?_pruneMembers_eq_none increasing.nodup closed known,
        get?_pruneMembers_eq_none increasingToo.nodup closedToo known]

/-! ### Rendered values -/

def renderedMember (entry : String × Json) : List Char :=
  entry.1.toList ++ ':' :: ' ' :: entry.2.compact.toList

theorem renderFields_eq (value : StructuredValue) : value.renderFields =
    "\x7b" ++ ", ".intercalate (value.schema.fields.map fun field => field.name ++ ": " ++
      (field.type.arrange ((value.members.get? field.name).getD .null)).compact) ++ "\x7d" := by
  rw [StructuredValue.renderFields]
  congr 3
  refine List.map_congr_left fun field _ => ?_
  rw [StructuredValue.renderField, render_eq_compact]
  rfl

theorem renderFields_toList (value : StructuredValue) : value.renderFields.toList =
    '{' :: ([',', ' '].intercalate
      ((arrangeMembers value.schema.fields value.members).map renderedMember) ++ ['}']) := by
  rw [renderFields_eq, arrangeMembers_eq]
  simp [renderedMember, Function.comp_def]

theorem arrange_eq_of_renderFields_eq {schema : Schema} (proper : (Json.obj members).Proper)
    (properToo : (Json.obj others).Proper)
    (same : StructuredValue.renderFields ⟨schema, members⟩ =
      StructuredValue.renderFields ⟨schema, others⟩) :
    (FieldType.object schema).arrange (.obj members) =
      (FieldType.object schema).arrange (.obj others) := by
  have arranged : ((FieldType.object schema).arrange (.obj members)).Proper := arrange_proper proper
  have arrangedToo : ((FieldType.object schema).arrange (.obj others)).Proper :=
    arrange_proper properToo
  rw [FieldType.arrange, Json.proper_obj] at arranged arrangedToo
  rw [FieldType.arrange, FieldType.arrange]
  have ends : PartsEnd renderedMember (arrangeMembers schema.fields members)
      (arrangeMembers schema.fields others) := by
    intro i x y first second s t stops stopsToo same
    have named : x.1 = y.1 := by
      simp only [arrangeMembers_eq, List.getElem?_map, Option.map_eq_some_iff] at first second
      obtain ⟨field, declared, rfl⟩ := first
      obtain ⟨_, declaredToo, rfl⟩ := second
      rw [Option.some.inj (declared.symm.trans declaredToo)]
    simp only [renderedMember, List.append_assoc, List.cons_append, named,
      List.append_cancel_left_eq, List.cons.injEq, true_and] at same
    obtain ⟨held, rest⟩ := Json.compact_cancel (arranged x (List.mem_of_getElem? first))
      (arrangedToo y (List.mem_of_getElem? second)) stops stopsToo same
    exact ⟨Prod.ext named held, rest⟩
  have read := congrArg String.toList same
  rw [renderFields_toList, renderFields_toList] at read
  have none : arrangeMembers schema.fields members = [] ↔
      arrangeMembers schema.fields others = [] := by
    simp [arrangeMembers_eq]
  rw [(joined_cancel ends (by decide) (by decide) none (List.cons.inj read).2).1]

end

/-- Values that pass the check and render the same differ at most in optional fields that are null
in one and absent in the other. A rendered field is one line of JSON, arranged as it is declared. -/
theorem rendering_keeps_value (schema : Schema) (distinct : schema.DistinctNames)
    {json other : Json} (canonical : json.Canonical) (canonicalToo : other.Canonical)
    (proper : json.Proper) (properToo : other.Proper) {value otherValue : StructuredValue}
    (valid : schema.validate json = .ok value) (validToo : schema.validate other = .ok otherValue) :
    (value.renderFields = otherValue.renderFields →
        (FieldType.object schema).prune json = (FieldType.object schema).prune other) ∧
      value.renderFields =
        "\x7b" ++ ", ".intercalate (schema.fields.map fun field => field.name ++ ": " ++
          (field.type.arrange ((json.get? field.name).getD .null)).compact) ++ "\x7d" := by
  have conforms := Schema.validate_succeeds_iff.mp ⟨value, valid⟩
  have conformsToo := Schema.validate_succeeds_iff.mp ⟨otherValue, validToo⟩
  obtain ⟨rfl, rfl⟩ := Schema.validate_ok valid
  obtain ⟨same, rfl⟩ := Schema.validate_ok validToo
  obtain ⟨schema, members⟩ := value
  obtain ⟨_, others⟩ := otherValue
  obtain rfl : _ = schema := same
  refine ⟨fun rendered => ?_, renderFields_eq _⟩
  exact prune_eq_of_arrange_eq distinct canonical canonicalToo conforms conformsToo
    (arrange_eq_of_renderFields_eq proper properToo rendered)

namespace Diary

def document : Json :=
  .obj [("name", .str "Diary"), ("fields", .obj [
    ("entries", .obj [("type", .str "array"), ("items", .obj [
      ("type", .str "object"), ("name", .str "Entry"), ("fields", .obj [
        ("activity", .obj [("type", .str "string")]),
        ("hours", .obj [("type", .str "number"), ("required", .bool false)])])])]),
    ("mood", .obj [("type", .str "string"), ("required", .bool false)])])]

theorem document_read : Schema.read document = .ok diary := by rfl

def writtenPage : Json :=
  .obj [("mood", .null), ("entries", .arr [
    .obj [("hours", .null), ("activity", .str "run")],
    .obj [("hours", .num oneAndAHalf), ("activity", .str "swim")]])]

def writtenAgain : Json :=
  .obj [("entries", .arr [
    .obj [("activity", .str "run")],
    .obj [("hours", .num oneAndAHalf), ("activity", .str "swim")]])]

theorem oneAndAHalf_plain {depth : ℕ} : Json.Plain depth (.num oneAndAHalf) := by
  have literal : (Json.numberLiteral oneAndAHalf).toList = ['1', '.', '5'] := by rfl
  have digits : Decimal.cut false ['1'] ['5'] 0 = ⟨false, 15, -1⟩ := by rfl
  have scaled : Decimal.scaled? ⟨false, 15, -1⟩ = some ⟨false, 3 * 2 ^ 51, -52⟩ := by decide
  refine .num ?_
  rw [literal, oneAndAHalf]
  simp [Json.numeral?, spanDigits, Json.isWholePart, exponent?, digits, scaled]

theorem swim_plain {depth : ℕ} :
    Json.Plain (depth + 1) (.obj [("hours", .num oneAndAHalf), ("activity", .str "swim")]) :=
  .obj (List.forall_mem_cons.mpr ⟨oneAndAHalf_plain, List.forall_mem_singleton.mpr (.str "swim")⟩)

theorem writtenPage_read : Json.parseValue? writtenPage.compact = some (.obj page) := by
  have run {depth : ℕ} :
      Json.Plain (depth + 1) (.obj [("hours", .null), ("activity", .str "run")]) :=
    .obj (List.forall_mem_cons.mpr ⟨.null, List.forall_mem_singleton.mpr (.str "run")⟩)
  have plain : Json.Plain Form.maxDepth writtenPage :=
    .obj (List.forall_mem_cons.mpr ⟨.null, List.forall_mem_singleton.mpr
      (.arr (List.forall_mem_cons.mpr ⟨run, List.forall_mem_singleton.mpr swim_plain⟩))⟩)
  rw [Json.parseValue?_compact plain]
  rfl

theorem writtenAgain_read : Json.parseValue? writtenAgain.compact = some (.obj prunedPage) := by
  have run {depth : ℕ} : Json.Plain (depth + 1) (.obj [("activity", .str "run")]) :=
    .obj (List.forall_mem_singleton.mpr (.str "run"))
  have plain : Json.Plain Form.maxDepth writtenAgain :=
    .obj (List.forall_mem_singleton.mpr
      (.arr (List.forall_mem_cons.mpr ⟨run, List.forall_mem_singleton.mpr swim_plain⟩)))
  rw [Json.parseValue?_compact plain]
  rfl

theorem pages_render_alike :
    StructuredValue.renderFields ⟨diary, page⟩ =
      "\x7bentries: [\x7b\"activity\":\"run\",\"hours\":null\x7d," ++
        "\x7b\"activity\":\"swim\",\"hours\":1.5\x7d], mood: null\x7d" ∧
    (FieldType.object diary).prune (.obj page) =
      (FieldType.object diary).prune (.obj prunedPage) :=
  have valid : diary.validate (.obj page) = .ok ⟨diary, page⟩ := by rfl
  have validToo : diary.validate (.obj prunedPage) = .ok ⟨diary, prunedPage⟩ := by rfl
  have ⟨canonical, proper⟩ := Json.parseValue?_wellFormed writtenPage_read
  have ⟨canonicalToo, properToo⟩ := Json.parseValue?_wellFormed writtenAgain_read
  have kept := rendering_keeps_value diary (Schema.distinctNames_of_read document_read)
    canonical canonicalToo proper properToo valid validToo
  ⟨by rfl, kept.1 (by rfl)⟩

end Diary

end Colloquy
