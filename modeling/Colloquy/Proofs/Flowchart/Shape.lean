import Colloquy.Proofs.Checks
import Colloquy.Proofs.Flowchart.WellFormed
import Mathlib.Data.List.Perm.Subperm

/-!
What each check of ids, connections, start and shape finds out, one statement for each check.
-/

namespace Colloquy

namespace NodeSpec

theorem checkConnections_ok_iff {declared : List NodeId} {node : NodeId} {seen : List String}
    {connections : List (String × NodeId)} :
    checkConnections declared node seen connections = .ok () ↔
      (connections.map (·.1)).Nodup ∧ (∀ label ∈ connections.map (·.1), label ∉ seen) ∧
        ∀ target ∈ connections.map (·.2), target ∈ declared := by
  induction connections generalizing seen with
  | nil => simp [checkConnections]
  | cons connection rest ih =>
    obtain ⟨label, target⟩ := connection
    simp only [checkConnections, List.map_cons, List.nodup_cons, List.forall_mem_cons]
    by_cases repeated : label ∈ seen
    · simp [repeated]
    · by_cases dangling : target ∉ declared
      · simp [repeated, dangling]
      · rw [if_neg repeated, if_neg dangling, ih]
        rw [not_not] at dangling
        constructor
        · rintro ⟨distinct, fresh, there⟩
          refine ⟨⟨?_, distinct⟩, ⟨repeated, ?_⟩, dangling, there⟩
          · intro again
            exact fresh label again List.mem_cons_self
          · intro other member
            exact List.not_mem_of_not_mem_cons (fresh other member)
        · rintro ⟨⟨fresh, distinct⟩, ⟨-, unseen⟩, -, there⟩
          refine ⟨distinct, fun other member =>
            List.not_mem_cons_of_ne_of_not_mem ?_ (unseen other member), there⟩
          rintro rfl
          exact fresh member

theorem mem_startCandidates {specs : List NodeSpec} {id : NodeId} :
    id ∈ startCandidates specs ↔
      id ∈ specs.map (·.id) ∧ ∀ spec ∈ specs, id ∉ spec.targets := by
  simp [startCandidates]

theorem findStart_ok_iff {specs : List NodeSpec} (distinct : (specs.map (·.id)).Nodup)
    {start : NodeId} :
    findStart specs = .ok start ↔
      ∀ id, (id ∈ specs.map (·.id) ∧ ∀ spec ∈ specs, id ∉ spec.targets) ↔ id = start := by
  have once : (startCandidates specs).Nodup := distinct.filter _
  have single : findStart specs = .ok start ↔ startCandidates specs = [start] := by
    unfold findStart
    split
    · rename_i none
      simp [none]
    · rename_i only one
      simp [one]
    · rename_i candidates some several
      simp only [reduceCtorEq, false_iff]
      exact several start
  rw [single, eq_singleton_iff_of_nodup once]
  simp only [mem_startCandidates]

theorem checkTemperature_ok_iff {spec : NodeSpec} :
    spec.checkTemperature = .ok () ↔ ∀ temperature, spec.temperature = some temperature →
      ∃ value, temperature = .finite value ∧ (value.negative = true → value.significand = 0) := by
  unfold checkTemperature
  cases spec.temperature with
  | none => simp
  | some temperature =>
    cases temperature with
    | finite value =>
      simp [isValidTemperature, Floating.isFinite, Floating.isBelowZero, Dyadic.isZero]
    | infinite negative => simp [isValidTemperature, Floating.isFinite]
    | nan => simp [isValidTemperature, Floating.isFinite]

def readAs (spec : NodeSpec) (hint : KindHint) : KindHint :=
  if hint = .plain ∧ spec.schema.isSome then .extraction else hint

theorem comesTo_iff {spec : NodeSpec} {kind : KindHint} :
    spec.ComesTo kind ↔ spec.readAs spec.resolvedHint = kind := by
  unfold readAs
  constructor
  · intro comes
    cases comes with
    | asked asks other =>
      have resolved : spec.resolvedHint = kind := by simp [resolvedHint, asks]
      rw [resolved, if_neg]
      rintro ⟨plain, structured⟩
      rw [other plain] at structured
      cases structured
    | structured asks schema =>
      simp [resolvedHint, asks, Option.isSome_iff_ne_none.mpr schema]
    | loopStart silent binds =>
      have resolved : spec.resolvedHint = .loopStart := by
        simp [resolvedHint, silent, Option.isSome_iff_ne_none, binds]
      simp [resolved]
    | decision silent unbound several =>
      have resolved : spec.resolvedHint = .decision := by
        simp [resolvedHint, silent, unbound, several]
      simp [resolved]
    | extraction silent unbound few schema =>
      have resolved : spec.resolvedHint = .extraction := by
        simp [resolvedHint, silent, unbound, Nat.not_lt_of_le few,
          Option.isSome_iff_ne_none.mpr schema]
      simp [resolved]
    | plain silent unbound few schema =>
      have resolved : spec.resolvedHint = .plain := by
        simp [resolvedHint, silent, unbound, Nat.not_lt_of_le few, schema]
      simp [resolved, schema]
  · rintro rfl
    cases asks : spec.kind with
    | some hint =>
      have resolved : spec.resolvedHint = hint := by simp [resolvedHint, asks]
      rw [resolved]
      split
      · rename_i plain
        exact .structured (asks.trans (congrArg some plain.1))
          (Option.isSome_iff_ne_none.mp plain.2)
      · rename_i other
        refine .asked asks fun plain => ?_
        simpa [plain] using other
    | none =>
      by_cases binds : spec.iterator ≠ none ∨ spec.collection ≠ none
      · have resolved : spec.resolvedHint = .loopStart := by
          simp [resolvedHint, asks, Option.isSome_iff_ne_none, binds]
        simpa [resolved] using .loopStart asks binds
      · have unbound : spec.iterator = none ∧ spec.collection = none := by simpa using binds
        by_cases several : 1 < spec.connections.length
        · have resolved : spec.resolvedHint = .decision := by
            simp [resolvedHint, asks, unbound, several]
          simpa [resolved] using .decision asks unbound several
        · cases schema : spec.schema with
          | some _ =>
            have resolved : spec.resolvedHint = .extraction := by
              simp [resolvedHint, asks, unbound, several, schema]
            simpa [resolved] using
              .extraction asks unbound (Nat.le_of_not_lt several) (by simp [schema])
          | none =>
            have resolved : spec.resolvedHint = .plain := by
              simp [resolvedHint, asks, unbound, several, schema]
            simpa [resolved] using .plain asks unbound (Nat.le_of_not_lt several) schema

theorem ComesTo.unique {spec : NodeSpec} {kind other : KindHint} (comes : spec.ComesTo kind)
    (again : spec.ComesTo other) : kind = other :=
  (comesTo_iff.mp comes).symm.trans (comesTo_iff.mp again)

theorem nonBlank_some_iff {text : Option String} {trimmed : String} :
    nonBlank? text = some trimmed ↔
      ∃ content, text = some content ∧ Text.trim content = trimmed ∧ trimmed ≠ "" := by
  cases text with
  | none => simp [nonBlank?]
  | some content =>
    simp only [nonBlank?, Option.map_some, Option.filter_eq_some_iff, Option.some.injEq,
      exists_eq_left', Bool.not_eq_true', ← Bool.not_eq_true, String.isEmpty_iff]

theorem nonBlank_none_iff {text : Option String} : nonBlank? text = none ↔ ¬ NonBlank text := by
  rw [← not_iff_not, not_not, ← ne_eq, Option.ne_none_iff_exists']
  simp only [nonBlank_some_iff, NonBlank]
  constructor
  · rintro ⟨_, content, there, rfl, more⟩
    exact ⟨content, there, more⟩
  · rintro ⟨content, there, more⟩
    exact ⟨_, content, there, rfl, more⟩

theorem hasContinueLabels_iff {spec : NodeSpec} :
    spec.hasContinueLabels = true ↔ spec.labels.Perm [hasMoreLabel, completeLabel] := by
  have count : spec.connections.length = spec.labels.length := by simp [labels]
  simp only [hasContinueLabels, Bool.and_eq_true, beq_iff_eq, List.contains_iff_mem, count]
  constructor
  · rintro ⟨⟨two, more⟩, complete⟩
    have both : List.Subperm [hasMoreLabel, completeLabel] spec.labels := by
      apply List.subperm_of_subset (by decide)
      simp [more, complete]
    exact (both.perm_of_length_le (by simp [two])).symm
  · intro same
    exact ⟨⟨same.length_eq, same.mem_iff.mpr (by simp)⟩, same.mem_iff.mpr (by simp)⟩

def ShapeOf (spec : NodeSpec) : KindHint → Shape → Prop
  | .plain, shape => shape = .plain
  | .decision, shape => shape = .decision
  | .extraction, shape => shape = .extraction
  | .loopStart, shape => ∃ iterator collection, spec.iterator = some iterator ∧
      spec.collection = some collection ∧
        shape = .loopStart (Text.trim iterator) (Text.trim collection)
  | .loopContinue, shape => shape = .loopContinue spec.loopStart

theorem loopStartShape_ok_iff {spec : NodeSpec} {shape : Shape} :
    spec.loopStartShape = .ok shape ↔
      spec.MeetsRule .loopStart ∧ spec.ShapeOf .loopStart shape := by
  simp only [loopStartShape, MeetsRule, ShapeOf]
  split
  · rename_i none
    simp [nonBlank_none_iff.mp none]
  · rename_i none
    simp [nonBlank_none_iff.mp none]
  · rename_i iterator collection bound ranges
    obtain ⟨name, binds, rfl, named⟩ := nonBlank_some_iff.mp bound
    obtain ⟨field, sequence, rfl, given⟩ := nonBlank_some_iff.mp ranges
    have nonBlank : NonBlank (some name) ∧ NonBlank (some field) :=
      ⟨⟨name, rfl, named⟩, ⟨field, rfl, given⟩⟩
    by_cases schema : spec.schema.isSome
    · simp [schema, Option.isSome_iff_ne_none.mp schema]
    · by_cases single : spec.connections.length = 1
      · have unstructured : spec.schema = none := by simpa using schema
        rw [if_neg schema, if_neg (not_not.mpr single)]
        simp [nonBlank, binds, sequence, unstructured, single, eq_comm (a := shape)]
      · simp [schema, single]

theorem shapeFor_ok_iff {spec : NodeSpec} {hint : KindHint} {shape : Shape}
    (few : spec.schema ≠ none → spec.connections.length ≤ 1) :
    spec.shapeFor hint = .ok shape ↔
      spec.MeetsRule (spec.readAs hint) ∧ spec.ShapeOf (spec.readAs hint) shape := by
  cases hint with
  | decision =>
    have read : spec.readAs .decision = .decision := by simp [readAs]
    rw [read, shapeFor, MeetsRule, ShapeOf]
    by_cases options : spec.connections.length < 2
    · simp [options, Nat.not_le_of_lt options]
    · simp [options, Nat.le_of_not_lt options, eq_comm (a := shape)]
  | extraction =>
    have read : spec.readAs .extraction = .extraction := by simp [readAs]
    rw [read, shapeFor, MeetsRule, ShapeOf]
    cases schema : spec.schema with
    | none => simp
    | some _ => simp [eq_comm (a := shape)]
  | plain =>
    cases schema : spec.schema with
    | none =>
      have read : spec.readAs .plain = .plain := by simp [readAs, schema]
      rw [read, shapeFor, MeetsRule, ShapeOf]
      by_cases several : 1 < spec.connections.length
      · simp [several, Nat.not_le_of_lt several]
      · simp [several, schema, Nat.le_of_not_lt several, eq_comm (a := shape)]
    | some _ =>
      have read : spec.readAs .plain = .extraction := by simp [readAs, schema]
      have single : spec.connections.length ≤ 1 := few (by simp [schema])
      rw [read, shapeFor, MeetsRule, ShapeOf]
      simp [schema, Nat.not_lt_of_le single, eq_comm (a := shape)]
  | loopStart =>
    have read : spec.readAs .loopStart = .loopStart := by simp [readAs]
    rw [read, ← loopStartShape_ok_iff]
    exact mapError_ok_iff
  | loopContinue =>
    have read : spec.readAs .loopContinue = .loopContinue := by simp [readAs]
    rw [read, shapeFor, MeetsRule, ShapeOf, ← hasContinueLabels_iff]
    by_cases labelled : spec.hasContinueLabels = true
    · simp [labelled, eq_comm (a := shape)]
    · simp [labelled]

theorem shape_ok_iff {spec : NodeSpec} {shape : Shape} :
    spec.shape = .ok shape ↔
      spec.WellShaped ∧ ∃ kind, spec.ComesTo kind ∧ spec.ShapeOf kind shape := by
  have checked : spec.shape = .ok shape ↔ spec.checkTemperature = .ok () ∧
      (spec.schema ≠ none → spec.connections.length ≤ 1) ∧
        spec.shapeFor spec.resolvedHint = .ok shape := by
    rw [NodeSpec.shape, bind_ok_iff]
    simp only [refuse_ok_iff, Bool.and_eq_false_iff, decide_eq_false_iff_not, Nat.not_lt,
      Option.isSome_eq_false_iff, Option.isNone_iff_eq_none, ← or_iff_not_imp_left]
    exact ⟨fun ⟨_, known, rest⟩ => ⟨known, rest⟩, fun ⟨known, rest⟩ => ⟨(), known, rest⟩⟩
  rw [checked, checkTemperature_ok_iff]
  constructor
  · rintro ⟨temperature, few, shaped⟩
    obtain ⟨rule, shapeOf⟩ := (shapeFor_ok_iff few).mp shaped
    have comes : spec.ComesTo (spec.readAs spec.resolvedHint) := comesTo_iff.mpr rfl
    exact ⟨⟨temperature, few, _, comes, rule⟩, _, comes, shapeOf⟩
  · rintro ⟨⟨temperature, few, kind, comes, rule⟩, other, again, shapeOf⟩
    obtain rfl := comes.unique again
    obtain rfl := comesTo_iff.mp comes
    exact ⟨temperature, few, (shapeFor_ok_iff few).mpr ⟨rule, shapeOf⟩⟩

end NodeSpec

end Colloquy
