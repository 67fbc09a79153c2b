import Colloquy.Proofs.Run.Replay
import Colloquy.Proofs.Schema.Check

/-!
Schemas guard loops. Only values that have passed the check of their schema are recorded, and none
of them has a field that its schema does not declare. Where every schema that declares a field asks
for an array of scalars, whatever a loop finds in that field is a sequence.
-/

namespace Colloquy

def FieldType.isScalar : FieldType → Bool
  | string | integer | number | boolean => true
  | array _ | object _ => false

/-- If the schema declares the field, it is a required array of scalars. -/
def Schema.Guards (schema : Schema) (field : String) : Prop :=
  ∀ declared, schema.field? field = some declared →
    declared.required = true ∧ ∃ item, declared.type = .array item ∧ item.isScalar = true

def Flowchart.Guards (flowchart : Flowchart) (field : String) : Prop :=
  ∀ node ∈ flowchart.nodes, ∀ schema, node.schema = some schema → schema.Guards field

/-- The text that a scalar is bound to: a text itself, and a number or a truth value as written. -/
inductive Json.Spells : Json → String → Prop
  | text {text : String} : Spells (.str text) text
  | number {n : Number} : Spells (.num n) (numberLiteral n)
  | yes : Spells (.bool true) "true"
  | no : Spells (.bool false) "false"

def Flowchart.Checked (flowchart : Flowchart) (told : NodeId × StructuredValue) : Prop :=
  ∃ node, flowchart.node? told.1 = some node ∧ node.schema = some told.2.schema ∧
    told.2.schema.validate told.2.toJson = .ok told.2

theorem LoopScope.element_spells {item : FieldType} {value : Json} (scalar : item.isScalar = true)
    (fits : item.violation? value = none) :
    ∃ text, element? value = some text ∧ value.Spells text := by
  cases value with
  | str text => exact ⟨text, rfl, .text⟩
  | num n => exact ⟨_, rfl, .number⟩
  | bool b => cases b <;> exact ⟨_, rfl, by constructor⟩
  | null | arr | obj => cases item <;> simp [FieldType.isScalar, FieldType.violation?] at scalar fits

theorem LoopScope.elements_spell {item : FieldType} {items : List Json}
    (scalar : item.isScalar = true) (fit : ∀ value ∈ items, item.violation? value = none) :
    ∃ texts, elements? (.arr items) = some texts ∧ List.Forall₂ Json.Spells items texts := by
  induction items with
  | nil => exact ⟨[], rfl, .nil⟩
  | cons value rest ih =>
    obtain ⟨head, others⟩ := List.forall_mem_cons.mp fit
    obtain ⟨text, read, spells⟩ := element_spells scalar head
    obtain ⟨texts, tail, spell⟩ := ih others
    refine ⟨text :: texts, ?_, .cons spells spell⟩
    rw [elements?] at tail ⊢
    rw [List.mapM_cons, read, tail]
    rfl

section

variable {flowchart : Flowchart} {field : String} {value : Json}

/-- Objects are closed, so whatever a value has is declared and has passed. -/
theorem Flowchart.Checked.declares {told : NodeId × StructuredValue}
    (checked : flowchart.Checked told) (found : told.2.get? field = some value) :
    ∃ declared, told.2.schema.field? field = some declared ∧ declared.name = field ∧
      declared.Passes told.2.members := by
  obtain ⟨node, -, -, valid⟩ := checked
  obtain ⟨-, -, passes, closed⟩ := Schema.validate_ok_iff.mp valid
  obtain ⟨entry, first, rfl⟩ := Option.map_eq_some_iff.mp found
  have named : entry.1 = field := by simpa using List.find?_some first
  obtain ⟨declared, asks⟩ : ∃ declared, told.2.schema.field? field = some declared := by
    rw [← Option.isSome_iff_exists, Schema.field?, List.find?_isSome]
    simpa [Schema.declares, named] using closed entry (List.mem_of_find?_eq_some first)
  exact ⟨declared, asks, by simpa using List.find?_some asks,
    passes declared (List.mem_of_find?_eq_some asks)⟩

theorem Flowchart.Checked.sequence {told : NodeId × StructuredValue}
    (checked : flowchart.Checked told) (guards : flowchart.Guards field)
    (found : told.2.get? field = some value) :
    ∃ items texts, value = .arr items ∧ LoopScope.elements? value = some texts ∧
      List.Forall₂ Json.Spells items texts := by
  obtain ⟨declared, asks, rfl, passes⟩ := checked.declares found
  obtain ⟨node, known, schema, -⟩ := checked
  obtain ⟨required, item, array, scalar⟩ :=
    guards node (List.mem_of_find?_eq_some known) _ schema declared asks
  obtain ⟨held, again, fits⟩ := passes.of_required required
  cases found.symm.trans again
  rw [array, FieldType.array_violation_eq_none_iff] at fits
  obtain ⟨items, shape, fit⟩ := fits
  obtain ⟨texts, read, spell⟩ := LoopScope.elements_spell scalar fit
  rw [shape]
  exact ⟨items, texts, rfl, read, spell⟩

theorem Flowchart.Guards.sequence (guards : flowchart.Guards field) {extractions : Extractions}
    (checked : ∀ told ∈ extractions.log, flowchart.Checked told)
    (found : extractions.findField? field = some value) :
    ∃ items texts, value = .arr items ∧ LoopScope.elements? value = some texts ∧
      List.Forall₂ Json.Spells items texts := by
  obtain ⟨earlier, told, later, split, got, -⟩ := Extractions.findField_some_iff.mp found
  exact (checked told (by simp [split])).sequence guards got

end

section

variable {engine : Engine} {client : Client}

theorem Settles.checked {earlier : List Request} {step : Nat} {node : Node} {state : RunState}
    {visited : Visited} (settles : Settles engine client earlier step node state visited)
    (found : engine.flowchart.node? node.id = some node) :
    ∀ told, engine.flowchart.value? visited.entry = some told → engine.flowchart.Checked told := by
  intro told tells
  cases settles with
  | passed passes => cases passes <;> rw [value_eq_none_of_extracted rfl] at tells <;> cases tells
  | asked _ _ _ heeds =>
    cases heeds with
    | decided => rw [value_eq_none_of_extracted rfl] at tells; cases tells
    | extracted _ _ declared conforms =>
      obtain ⟨rfl, given⟩ := Schema.validate_ok conforms
      rw [value_eq_some rfl found declared rfl] at tells
      cases tells
      exact ⟨node, found, declared, given ▸ conforms⟩
    | concluded | replied => rw [value_eq_none_of_last rfl] at tells; cases tells

theorem Fails.noSequence (valid : engine.flowchart.Valid) {node : Node} {state : RunState}
    {sent : Option Request} {owner : NodeId} {field : String}
    (member : node ∈ engine.flowchart.nodes)
    (fails : Fails engine node state (.configuration (.collectionNotSequence owner field)) sent) :
    node.id = owner ∧ (∃ iterator, node.kind = .loopStart iterator field) ∧
      ∃ value, state.extracted.findField? field = some value ∧
        LoopScope.elements? value = none := by
  cases fails with
  | refused refuses =>
    cases refuses with
    | entering kind enters =>
      cases enters with
      | noSequence _ found other => exact ⟨rfl, ⟨_, kind⟩, _, found, other⟩
    | advancing _ advances => cases advances
    | prompting _ unbuilt =>
      obtain ⟨name, -, ⟨⟩⟩ := valid.unbuilt member unbuilt

/-- A loop start goes back into its own loop, or takes up the texts of the elements that the field
holds: the loop is opened at the first of them, and passed over if there are none. -/
inductive TakesUp (start : Node) (iterator field : String) (before : RunState)
    (after : List LoopScope) : Prop
  | again (innermost : Innermost start.id before.scopes) (same : after = before.scopes)
  | fresh {items : List Json} {texts : List String} (other : ¬ Innermost start.id before.scopes)
      (latest : before.extracted.Latest field (.arr items))
      (spelled : List.Forall₂ Json.Spells items texts)
      (opened : after = if texts = [] then before.scopes
        else ⟨start.id, iterator, texts, 0⟩ :: before.scopes)

theorem Enters.takesUp {node : Node} {iterator field : String} {state : RunState} {next : NodeId}
    {after : List LoopScope} (guards : engine.flowchart.Guards field)
    (checked : ∀ told ∈ state.extracted.log, engine.flowchart.Checked told)
    (enters : Enters engine.flowchart node iterator field state (.ok (next, after))) :
    TakesUp node iterator field state after := by
  cases enters with
  | again innermost => exact .again innermost rfl
  | skips fresh found empty =>
    obtain ⟨items, texts, rfl, read, spelled⟩ := guards.sequence checked found
    obtain rfl := Option.some.inj (read.symm.trans empty)
    exact .fresh fresh (Extractions.findField_some_iff.mp found) spelled rfl
  | opens fresh found elements nonempty =>
    obtain ⟨items, texts, rfl, read, spelled⟩ := guards.sequence checked found
    obtain rfl := Option.some.inj (read.symm.trans elements)
    exact .fresh fresh (Extractions.findField_some_iff.mp found) spelled (if_neg nonempty).symm

theorem Settles.takesUp {earlier : List Request} {step : Nat} {start : Node} {state : RunState}
    {visited : Visited} {iterator field : String}
    (settles : Settles engine client earlier step start state visited)
    (kind : start.kind = .loopStart iterator field) (guards : engine.flowchart.Guards field)
    (checked : ∀ told ∈ state.extracted.log, engine.flowchart.Checked told) :
    TakesUp start iterator field state visited.state.scopes := by
  have loop : start.kind.isLoop = true := by rw [kind]; rfl
  cases settles with
  | asked _ asks =>
    rw [start.mode_eq_none_of_isLoop loop] at asks
    cases asks
  | passed passes =>
    cases passes with
    | entered same enters =>
      cases kind.symm.trans same
      exact enters.takesUp guards checked
    | advanced other => cases kind.symm.trans other
    | prompted other =>
      rw [loop] at other
      cases other

namespace Engine.Course

variable {runId : RunId} {remaining : Nat} {current : NodeId} {state : RunState}
  {journal final : Journal} {strides : List Stride} {ending : Ending}

theorem checked (valid : engine.flowchart.Valid)
    (course : engine.Course client runId remaining current state journal strides ending final) :
    ∀ told ∈ (strides.map (·.visited.entry)).filterMap engine.flowchart.value?,
      engine.flowchart.Checked told := by
  intro told member
  obtain ⟨entry, there, tells⟩ := List.mem_filterMap.mp member
  obtain ⟨stride, taken, rfl⟩ := List.mem_map.mp there
  obtain ⟨found, _, _, settles⟩ := course.settles_of_mem valid taken
  exact settles.checked found told tells

theorem checked_before (valid : engine.flowchart.Valid) {input : String}
    (course : engine.Course client runId remaining current { input } journal strides ending final) :
    ∀ earlier later, strides = earlier ++ later →
      ∀ told ∈ ((earlier.map (·.visited.entry)).foldl (RunState.after engine.flowchart)
        { input }).extracted.log, engine.flowchart.Checked told := by
  rintro earlier later rfl told member
  rw [log_foldl_after] at member
  apply course.checked valid
  rw [List.map_append, List.filterMap_append]
  exact List.mem_append_left _ member

theorem sequence_of_guards (valid : engine.flowchart.Valid) {input : String} {start : Node}
    (course : engine.Course client runId remaining current { input } journal strides ending final)
    (member : start ∈ engine.flowchart.nodes) {iterator field other : String}
    (kind : start.kind = .loopStart iterator field) (guards : engine.flowchart.Guards field) :
    ending.result engine.config.maxSteps ≠
      .error (.configuration (.collectionNotSequence start.id other)) := by
  intro failed
  cases ending with
  | capped | completed => cases failed
  | failed stop error =>
    cases failed
    obtain ⟨node, sent, found, fails, -⟩ := course.replays_failure valid
    have declared := List.mem_of_find?_eq_some found
    obtain ⟨named, ⟨again, same⟩, value, lookup, none⟩ := fails.noSequence valid declared
    obtain rfl := List.inj_on_of_nodup_map valid.ids declared member named
    cases kind.symm.trans same
    have checked := course.checked_before valid _ [] (List.append_nil _).symm
    obtain ⟨items, texts, -, read, -⟩ := guards.sequence checked lookup
    cases read.symm.trans none

end Engine.Course

/-- A loop whose field no schema declares but as a required array of scalars never fails for want of
a sequence, whatever the model answers. What it binds are the texts of the elements of the most
recent value that the trace tells of the field. -/
theorem guarded_loops_open {specs : List NodeSpec} {start : Node} {iterator field : String}
    (compiled : Flowchart.compile specs = .ok engine.flowchart)
    (member : start ∈ engine.flowchart.nodes) (kind : start.kind = .loopStart iterator field)
    (guards : engine.flowchart.Guards field) (client : Client) (stamp : RunStamp)
    (input : String) :
    (∀ other, (engine.run client stamp input).result ≠
      .error (.configuration (.collectionNotSequence start.id other))) ∧
    (engine.run client stamp input).record.traversal =
      (engine.strides client input).map (·.visited.entry) ∧
    ∀ earlier stride later, engine.strides client input = earlier ++ stride :: later →
      stride.node = start →
      stride.before.extracted.log =
        (earlier.map (·.visited.entry)).filterMap engine.flowchart.value? ∧
      TakesUp start iterator field stride.before stride.visited.state.scopes := by
  have valid := compile_valid compiled
  obtain ⟨ending, final, course, -, result⟩ := Engine.run_course valid client stamp input
  refine ⟨?_, engine.run_trace client stamp input, ?_⟩
  · intro other failed
    exact course.sequence_of_guards valid member kind guards ((result _).mp failed)
  · rintro earlier stride later split rfl
    obtain ⟨-, settles⟩ := course.settles valid earlier stride later split
    have before := course.replays valid earlier stride later split
    have checked := course.checked_before valid earlier _ split
    rw [← before] at checked
    exact ⟨by rw [before, log_foldl_after]; rfl, settles.takesUp kind guards checked⟩

end

/-! Readings are drafted, reviewed, and read out one by one. -/

def readings : Schema := ⟨"Readings", [{ name := "readings", type := .array .number }]⟩

def ledger : List NodeSpec := [
  { id := "draft", schema := some readings, connections := [(defaultLabel, "review")] },
  { id := "review", schema := some readings, connections := [(defaultLabel, "each")] },
  { id := "each", iterator := some "reading", collection := some "readings",
    connections := [(defaultLabel, "read")] },
  { id := "read", text := Template.hole "reading", connections := [(defaultLabel, "next")] },
  { id := "next", kind := some .loopContinue,
    connections := [(hasMoreLabel, "read"), (completeLabel, "end")] },
  { id := "end" }]

namespace Ledger

def each : Node := .unstructured "each" "" [⟨defaultLabel, "read"⟩] (.loopStart "reading" "readings")

def flowchart : Flowchart where
  nodes := [
    { Node.unstructured "draft" "" [⟨defaultLabel, "review"⟩] .extraction with
      schema := some readings },
    { Node.unstructured "review" "" [⟨defaultLabel, "each"⟩] .extraction with
      schema := some readings },
    each,
    .unstructured "read" (Template.hole "reading") [⟨defaultLabel, "next"⟩] .plain,
    .unstructured "next" "" [⟨hasMoreLabel, "read"⟩, ⟨completeLabel, "end"⟩]
      (.loopContinue "each"),
    .unstructured "end" "" [] .plain]
  start := "draft"

def engine : Engine := { flowchart }

theorem compiles : Flowchart.compile ledger = .ok engine.flowchart := by
  simp only [Flowchart.compile, bind_ok_iff]
  refine ⟨(), rfl, (), rfl, _, rfl, _, rfl, _, rfl, (), rfl, (), ?_, (), rfl, rfl⟩
  exact Flowchart.checkCycles_of_order ["draft", "review", "each", "read", "next", "end"]
    (by decide)

theorem guards : flowchart.Guards "readings" := by
  intro node member schema declares declared asks
  have same : schema = readings := by
    simp only [flowchart, List.mem_cons, List.not_mem_nil, or_false] at member
    rcases member with rfl | rfl | rfl | rfl | rfl | rfl <;> cases declares <;> rfl
  subst same
  cases asks
  exact ⟨rfl, .number, rfl, rfl⟩

def client : Client := fun earlier _ =>
  let read : List Json := if earlier.length = 0 then [.num (.int 1)]
    else [.num (.int 3), .num (.int (-1))]
  { content := .ok (.structured (.obj [("readings", .arr read)])) }

end Ledger

theorem ledger_reads_review :
    Flowchart.compile ledger = .ok Ledger.engine.flowchart ∧
    Ledger.each ∈ Ledger.engine.flowchart.nodes ∧
    Ledger.each.kind = .loopStart "reading" "readings" ∧
    Ledger.engine.flowchart.Guards "readings" ∧
    ∃ earlier stride later,
      Ledger.engine.strides Ledger.client "" = earlier ++ stride :: later ∧
      stride.node = Ledger.each ∧ earlier.map (·.node.id) = ["draft", "review"] ∧
      TakesUp Ledger.each "reading" "readings" stride.before stride.visited.state.scopes ∧
      stride.visited.state.scopes = [⟨"each", "reading", ["3", "-1"], 0⟩] := by
  have declared : Ledger.each ∈ Ledger.engine.flowchart.nodes := by
    simp [Ledger.engine, Ledger.flowchart]
  let strides := Ledger.engine.strides Ledger.client ""
  have third : (strides[2]?).map (fun stride => (stride.node, stride.visited.state.scopes)) =
      some (Ledger.each, [⟨"each", "reading", ["3", "-1"], 0⟩]) := by rfl
  obtain ⟨stride, found, same⟩ := Option.map_eq_some_iff.mp third
  obtain ⟨node, scopes⟩ := Prod.mk.inj same
  have split : strides = strides.take 2 ++ stride :: strides.drop 3 := by
    obtain ⟨bound, there⟩ := List.getElem?_eq_some_iff.mp found
    rw [← there, List.getElem_cons_drop, List.take_append_drop]
  obtain ⟨-, takes⟩ := (guarded_loops_open Ledger.compiles declared rfl Ledger.guards
    Ledger.client RollCall.stamp "").2.2 _ stride _ split node
  exact ⟨Ledger.compiles, declared, rfl, Ledger.guards, strides.take 2, stride, strides.drop 3,
    split, node, rfl, takes, scopes⟩

end Colloquy
