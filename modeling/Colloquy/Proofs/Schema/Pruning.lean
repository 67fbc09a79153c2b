import Colloquy.Proofs.Schema.Names

/-!
Values without the optional fields that hold null. A field that may be absent may just as well be
null, and values that differ in nothing else are the same once they are pruned.
-/

namespace Colloquy

mutual

/-- The value without the optional fields that are null, at any depth. -/
def FieldType.prune : FieldType → Json → Json
  | .array item, .arr items => .arr (items.map item.prune)
  | .object ⟨_, fields⟩, .obj members =>
    .obj (members.filterMap fun (key, value) => pruneMember fields key value)
  | _, value => value

def pruneMember : List Field → String → Json → Option (String × Json)
  | [], key, value => some (key, value)
  | ⟨name, type, _, required⟩ :: rest, key, value =>
    if name = key then if value.isNull && !required then none else some (key, type.prune value)
    else pruneMember rest key value

end

section

variable {fields : List Field} {field : Field} {key : String} {value : Json} {members : Members}
  {entry : String × Json}

theorem pruneMember_key (kept : pruneMember fields key value = some entry) : entry.1 = key := by
  induction fields with
  | nil => cases kept; rfl
  | cons field rest ih =>
    obtain ⟨name, type, description, required⟩ := field
    rw [pruneMember] at kept
    split at kept
    · split at kept
      · cases kept
      · cases kept; rfl
    · exact ih kept

theorem pruneMember_of_unknown (unknown : ∀ field ∈ fields, field.name ≠ key) :
    pruneMember fields key value = some (key, value) := by
  induction fields with
  | nil => rfl
  | cons field rest ih =>
    obtain ⟨first, others⟩ := List.forall_mem_cons.mp unknown
    rw [pruneMember, if_neg first]
    exact ih others

theorem pruneMember_of_declared (names : (fields.map (·.name)).Nodup) (declared : field ∈ fields)
    (value : Json) :
    (field.Waives value → pruneMember fields field.name value = none) ∧
      (¬ field.Waives value →
        pruneMember fields field.name value = some (field.name, field.type.prune value)) := by
  induction fields with
  | nil => cases declared
  | cons first rest ih =>
    obtain ⟨fresh, names⟩ := List.nodup_cons.mp names
    rcases List.mem_cons.mp declared with rfl | later
    · rw [pruneMember, if_pos rfl]
      constructor
      · rintro ⟨optional, rfl⟩
        simp [optional, Json.isNull]
      · intro owed
        rw [if_neg]
        intro waived
        simp only [Bool.and_eq_true, Bool.not_eq_true', Json.isNull_iff] at waived
        exact owed ⟨waived.2, waived.1⟩
    · have apart : first.name ≠ field.name := fun same =>
        fresh (List.mem_map.mpr ⟨field, later, same.symm⟩)
      rw [pruneMember, if_neg apart]
      exact ih names later

def pruneMembers (fields : List Field) (members : Members) : Members :=
  members.filterMap fun (key, value) => pruneMember fields key value

theorem prune_object {schema : Schema} :
    (FieldType.object schema).prune (.obj members) = .obj (pruneMembers schema.fields members) := by
  rw [FieldType.prune, pruneMembers]

theorem get?_pruneMembers (distinct : (members.map (·.1)).Nodup) (key : String) :
    (pruneMembers fields members).get? key =
      (members.get? key).bind fun value => (pruneMember fields key value).map (·.2) := by
  induction members with
  | nil => rfl
  | cons entry rest ih =>
    obtain ⟨name, held⟩ := entry
    obtain ⟨fresh, distinct⟩ := List.nodup_cons.mp distinct
    rw [pruneMembers] at ih ⊢
    simp only [Members.get?_cons, List.filterMap_cons]
    cases kept : pruneMember fields name held with
    | none =>
      simp only [ih distinct]
      split
      · rename_i same
        subst same
        have absent : Members.get? rest name = none :=
          Members.get?_eq_none_iff.mpr fun entry member same =>
            fresh (List.mem_map.mpr ⟨entry, member, same⟩)
        simp [absent, kept]
      · rfl
    | some pruned =>
      have same := pruneMember_key kept
      simp only [Members.get?_cons, same, ih distinct]
      split
      · rename_i asked
        subst asked
        simp [kept]
      · rfl

theorem get?_pruneMembers_eq_some_iff (names : (fields.map (·.name)).Nodup)
    (distinct : (members.map (·.1)).Nodup) (declared : field ∈ fields) :
    (pruneMembers fields members).get? field.name = some value ↔
      ∃ held, members.get? field.name = some held ∧ ¬ field.Waives held ∧
        field.type.prune held = value := by
  rw [get?_pruneMembers distinct, Option.bind_eq_some_iff]
  refine exists_congr fun held => and_congr_right fun _ => ?_
  obtain ⟨spared, kept⟩ := pruneMember_of_declared names declared held
  by_cases waived : field.Waives held
  · simp [spared waived, waived]
  · simp [kept waived, waived]

theorem get?_pruneMembers_eq_none (distinct : (members.map (·.1)).Nodup)
    (closed : ∀ entry ∈ members, ∃ field ∈ fields, field.name = entry.1)
    (unknown : ∀ field ∈ fields, field.name ≠ key) :
    (pruneMembers fields members).get? key = none := by
  have absent : members.get? key = none := Members.get?_eq_none_iff.mpr fun entry member same =>
    have ⟨field, declared, named⟩ := closed entry member
    unknown field declared (named.trans same)
  rw [get?_pruneMembers distinct, absent, Option.bind_none]

theorem mem_pruneMembers_of_unknown (unknown : ∀ field ∈ fields, field.name ≠ entry.1)
    (member : entry ∈ members) : entry ∈ pruneMembers fields members :=
  List.mem_filterMap.mpr ⟨entry, member, pruneMember_of_unknown unknown⟩

theorem exists_of_mem_pruneMembers (member : entry ∈ pruneMembers fields members) :
    ∃ origin ∈ members, origin.1 = entry.1 := by
  obtain ⟨origin, member, kept⟩ := List.mem_filterMap.mp member
  exact ⟨origin, member, (pruneMember_key kept).symm⟩

theorem pruneMembers_increasing (fields : List Field) (increasing : members.Increasing) :
    (pruneMembers fields members).Increasing := by
  have keys : ∀ members : Members,
      ((pruneMembers fields members).map (·.1)).Sublist (members.map (·.1)) := by
    intro members
    induction members with
    | nil => exact .slnil
    | cons entry rest ih =>
      rw [pruneMembers, List.filterMap_cons]
      split
      · exact ih.cons _
      · rename_i kept
        rw [List.map_cons, List.map_cons, pruneMember_key kept]
        exact ih.cons_cons _
  exact List.Pairwise.sublist (keys members) increasing

end

/-! ### Pages of a diary -/

namespace Diary

def entry : Schema :=
  ((Schema.empty "Entry").withField { name := "activity", type := .string }).withField
    { name := "hours", type := .number, required := false }

def diary : Schema :=
  ((Schema.empty "Diary").withField { name := "entries", type := .array (.object entry) }).withField
    { name := "mood", type := .string, required := false }

def oneAndAHalf : Number := .float ⟨false, 3 * 2 ^ 51, -52⟩

def page : Members :=
  [("entries", .arr [.obj [("activity", .str "run"), ("hours", .null)],
    .obj [("activity", .str "swim"), ("hours", .num oneAndAHalf)]]), ("mood", .null)]

def prunedPage : Members :=
  [("entries", .arr [.obj [("activity", .str "run")],
    .obj [("activity", .str "swim"), ("hours", .num oneAndAHalf)]])]

theorem diary_distinctNames : diary.DistinctNames :=
  Schema.distinctNames_withField
    (Schema.distinctNames_withField (Schema.distinctNames_empty "Diary")
      (.array (Schema.distinctNames_withField
        (Schema.distinctNames_withField (Schema.distinctNames_empty "Entry") .string) .number)))
    .string

theorem page_canonical : (Json.obj page).Canonical := by
  simp only [page, Json.Canonical, Json.CanonicalMembers, Json.CanonicalItems, Members.Increasing]
  decide

theorem prune_page : (FieldType.object diary).prune (.obj page) = .obj prunedPage := by rfl

end Diary

end Colloquy
