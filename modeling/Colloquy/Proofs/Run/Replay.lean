import Colloquy.Proofs.Extraction
import Colloquy.Proofs.Run.Course
import Colloquy.Proofs.Template

/-!
Runs replayed from their traces. Before every visit a run holds what its entries so far tell: the
values that they have extracted, the loops that they have opened and not closed, and the labels that
they have followed.
-/

namespace Colloquy

/-- What an entry adds to the values extracted. The value that ends a run is not among them. -/
def Flowchart.value? (flowchart : Flowchart) (entry : TraceEntry) :
    Option (NodeId × StructuredValue) :=
  match entry.nextNode, (flowchart.node? entry.node).bind (·.schema), entry.extracted with
  | some _, some schema, some (.obj members) => some (entry.node, ⟨schema, members⟩)
  | _, _, _ => none

namespace TraceEntry

def ofDecision? (entry : TraceEntry) (told : Option String) : Option (NodeId × String) :=
  if entry.kind = NodeKind.decision.name then told.map (entry.node, ·) else none

def followed? (entry : TraceEntry) : Option (NodeId × String) :=
  entry.ofDecision? (if entry.decisionFallback then entry.options.head? else entry.decision)

def reasoned? (entry : TraceEntry) : Option (NodeId × String) := entry.ofDecision? entry.reasoning

end TraceEntry

namespace LoopScope

/-- Open loops after the loop start of `owner`: it opens a loop unless its own is the innermost one
or there are no elements. -/
def afterStart (owner : NodeId) (iterator : String) (elements : Option (List String))
    (scopes : List LoopScope) : List LoopScope :=
  if scopes.head?.any (·.owner == owner) then scopes
  else match elements with
    | some (first :: others) => ⟨owner, iterator, first :: others, 0⟩ :: scopes
    | _ => scopes

def afterContinue (followed : Option String) : List LoopScope → List LoopScope
  | [] => []
  | scope :: outer => if followed = some hasMoreLabel then scope.advance :: outer else outer

end LoopScope

def Flowchart.scopesAfter (flowchart : Flowchart) (state : RunState) (entry : TraceEntry) :
    List LoopScope :=
  match flowchart.node? entry.node with
  | none => state.scopes
  | some node =>
    match node.kind with
    | .loopStart iterator field =>
      LoopScope.afterStart entry.node iterator
        ((state.extracted.findField? field).bind LoopScope.elements?) state.scopes
    | .loopContinue _ => LoopScope.afterContinue entry.decision state.scopes
    | _ => state.scopes

def RunState.after (flowchart : Flowchart) (state : RunState) (entry : TraceEntry) : RunState where
  input := state.input
  extracted := state.extracted.recordAll (flowchart.value? entry).toList
  scopes := flowchart.scopesAfter state entry
  decisions := state.decisions.upsertAll entry.followed?.toList
  reasoning := state.reasoning.upsertAll entry.reasoned?.toList

/-- What a run with this trace has gathered. -/
def Flowchart.replay (flowchart : Flowchart) (input : String) (trace : Trace) : RunState :=
  trace.foldl (RunState.after flowchart) { input }

section

variable {flowchart : Flowchart} {entry : TraceEntry}

theorem value_eq_none_of_extracted (none : entry.extracted = none) :
    flowchart.value? entry = .none := by
  unfold Flowchart.value?
  split
  · rename_i extracted
    cases none.symm.trans extracted
  · rfl

theorem value_eq_none_of_last (last : entry.nextNode = none) :
    flowchart.value? entry = none := by
  unfold Flowchart.value?
  split
  · rename_i leads _ _
    cases last.symm.trans leads
  · rfl

theorem value_eq_some {node : Node} {next : NodeId} {value : StructuredValue}
    (leads : entry.nextNode = some next) (found : flowchart.node? entry.node = some node)
    (declared : node.schema = some value.schema) (extracted : entry.extracted = some value.toJson) :
    flowchart.value? entry = some (entry.node, value) := by
  simp [Flowchart.value?, leads, found, declared, extracted, StructuredValue.toJson]

namespace RunState

variable {state : RunState}

theorem after_eq (unvalued : flowchart.value? entry = none)
    (undecided : entry.kind ≠ NodeKind.decision.name) :
    state.after flowchart entry = { state with scopes := flowchart.scopesAfter state entry } := by
  simp [after, unvalued, TraceEntry.followed?, TraceEntry.reasoned?, TraceEntry.ofDecision?,
    undecided, OrderedMap.upsertAll, Extractions.recordAll]

theorem after_eq_extraction {value : StructuredValue}
    (valued : flowchart.value? entry = some (entry.node, value))
    (undecided : entry.kind ≠ NodeKind.decision.name)
    (scopes : flowchart.scopesAfter state entry = state.scopes) :
    state.after flowchart entry = state.recordExtraction entry.node value := by
  simp [after, valued, TraceEntry.followed?, TraceEntry.reasoned?, TraceEntry.ofDecision?,
    undecided, scopes, OrderedMap.upsertAll, recordExtraction, Extractions.recordAll]

theorem after_eq_decision {label reasoning : String} (unvalued : flowchart.value? entry = none)
    (followed : entry.followed? = some (entry.node, label))
    (reasoned : entry.reasoned? = some (entry.node, reasoning))
    (scopes : flowchart.scopesAfter state entry = state.scopes) :
    state.after flowchart entry = state.recordDecision entry.node label reasoning := by
  simp [after, unvalued, followed, reasoned, scopes, OrderedMap.upsertAll, Extractions.recordAll,
    recordDecision]

end RunState

theorem log_foldl_after (trace : Trace) (state : RunState) :
    (trace.foldl (RunState.after flowchart) state).extracted.log =
      state.extracted.log ++ trace.filterMap flowchart.value? := by
  induction trace generalizing state with
  | nil => simp
  | cons entry rest ih =>
    rw [List.foldl_cons, ih, filterMap_cons_toList, ← List.append_assoc, RunState.after,
      Extractions.log_recordAll]

theorem decisions_foldl_after (trace : Trace) (state : RunState) :
    (trace.foldl (RunState.after flowchart) state).decisions =
      state.decisions.upsertAll (trace.filterMap TraceEntry.followed?) := by
  induction trace generalizing state with
  | nil => rfl
  | cons entry rest ih =>
    rw [List.foldl_cons, ih, filterMap_cons_toList, OrderedMap.upsertAll_append]
    rfl

theorem reasoning_foldl_after (trace : Trace) (state : RunState) :
    (trace.foldl (RunState.after flowchart) state).reasoning =
      state.reasoning.upsertAll (trace.filterMap TraceEntry.reasoned?) := by
  induction trace generalizing state with
  | nil => rfl
  | cons entry rest ih =>
    rw [List.foldl_cons, ih, filterMap_cons_toList, OrderedMap.upsertAll_append]
    rfl

theorem input_foldl_after (trace : Trace) (state : RunState) :
    (trace.foldl (RunState.after flowchart) state).input = state.input := by
  induction trace generalizing state with
  | nil => rfl
  | cons entry rest ih => rw [List.foldl_cons, ih]; rfl

end

theorem NodeKind.name_eq_decision_iff {kind : NodeKind} :
    kind.name = NodeKind.decision.name ↔ kind = .decision := by
  cases kind <;> simp [name]

theorem NodeKind.name_ne_decision {kind : NodeKind} (other : kind ≠ .decision) :
    kind.name ≠ NodeKind.decision.name := mt name_eq_decision_iff.mp other

theorem Advances.scopes_eq {node : Node} {owner : NodeId} {scopes after : List LoopScope}
    {label : String} {next : NodeId}
    (advances : Advances node owner scopes (.ok (label, next, after))) :
    after = LoopScope.afterContinue (some label) scopes := by
  cases advances with
  | repeats innermost => simp [LoopScope.afterContinue, innermost]
  | closes innermost =>
    simp [LoopScope.afterContinue, innermost, hasMoreLabel, completeLabel]

section

variable {engine : Engine} {client : Client} {earlier : List Request} {step : Nat} {node : Node}
  {state : RunState} {visited : Visited}

theorem Enters.scopes_eq {iterator field : String} {next : NodeId} {after : List LoopScope}
    (enters : Enters engine.flowchart node iterator field state (.ok (next, after))) :
    after = LoopScope.afterStart node.id iterator
      ((state.extracted.findField? field).bind LoopScope.elements?) state.scopes := by
  unfold LoopScope.afterStart
  cases enters with
  | again innermost => rw [if_pos (innermost_iff.mpr innermost)]
  | skips fresh found empty =>
    rw [if_neg (mt innermost_iff.mp fresh), found, Option.bind_some, empty]
  | @opens value collection fresh found elements nonempty =>
    rw [if_neg (mt innermost_iff.mp fresh), found, Option.bind_some, elements]
    cases collection with
    | nil => contradiction
    | cons first others => rfl

theorem Node.isLoop_eq_false_of_mode {mode : Mode} (asks : node.mode? = some mode) :
    node.kind.isLoop = false := by
  cases kind : node.kind.isLoop with
  | false => rfl
  | true => simp [node.mode_eq_none_of_isLoop kind] at asks

theorem scopesAfter_of_isLoop_eq_false (state : RunState)
    (found : engine.flowchart.node? node.id = some node) (kind : node.kind.isLoop = false)
    {entry : TraceEntry} (named : entry.node = node.id) :
    engine.flowchart.scopesAfter state entry = state.scopes := by
  simp only [Flowchart.scopesAfter, named, found]
  cases same : node.kind with
  | loopStart | loopContinue => simp [same, NodeKind.isLoop] at kind
  | plain | decision | extraction => rfl

theorem Node.not_decides_of_silent (silent : node.mode? = none) : node.kind ≠ .decision := by
  intro kind
  simp [mode?, kind, NodeKind.isLoop] at silent

structure TraceEntry.Decides (entry : TraceEntry) (node : Node) (connection : Connection)
    (reasoning : String) : Prop where
  declared : connection ∈ node.connections
  label : if entry.decisionFallback then node.labels.head? = some connection.label
    else entry.decision = some connection.label
  leads : entry.nextNode = node.target? connection.label
  followed : entry.followed? = some (entry.node, connection.label)
  reasons : entry.reasoning = some reasoning
  reasoned : entry.reasoned? = some (entry.node, reasoning)

theorem Heeds.decides {prompt : Prompt} {response : Response}
    (heeds : Heeds node (node.framed step prompt) state response visited)
    (kind : node.kind = .decision) :
    ∃ connection reasoning, visited.entry.Decides node connection reasoning ∧
      visited.entry.extracted = none ∧
      visited.state = state.recordDecision visited.entry.node connection.label reasoning := by
  cases heeds with
  | @decided label reasoning connection notices _ follows =>
    have follows := Engine.followLabel_follows follows
    have named := follows.label
    refine ⟨connection, reasoning, ?_, rfl, rfl⟩
    exact {
      declared := follows.target.1
      label := by cases notices <;> simpa using named
      leads := follows.target.2.symm
      followed := by
        simp [TraceEntry.followed?, TraceEntry.ofDecision?, Node.framed, Node.entry, kind, ← named]
      reasons := rfl
      reasoned := by
        simp [TraceEntry.reasoned?, TraceEntry.ofDecision?, Node.framed, Node.entry, kind] }
  | extracted other | concluded other | replied other => exact absurd kind other

/-- What a visit leaves gathered is what its entry adds to what was gathered before it. -/
theorem Settles.replayed (settles : Settles engine client earlier step node state visited)
    (found : engine.flowchart.node? node.id = some node) :
    visited.state = state.after engine.flowchart visited.entry := by
  have undecided (other : node.kind ≠ .decision) :
      visited.entry.kind ≠ NodeKind.decision.name :=
    settles.entry.2.2 ▸ NodeKind.name_ne_decision other
  cases settles with
  | passed passes =>
    have other := undecided (Node.not_decides_of_silent passes.silent)
    cases passes with
    | entered kind enters =>
      rw [RunState.after_eq (value_eq_none_of_extracted rfl) other]
      simp [Flowchart.scopesAfter, Node.entry, found, kind, ← enters.scopes_eq]
    | advanced kind advances =>
      rw [RunState.after_eq (value_eq_none_of_extracted rfl) other]
      simp [Flowchart.scopesAfter, Node.entry, found, kind, ← advances.scopes_eq]
    | prompted kind =>
      rw [RunState.after_eq (value_eq_none_of_extracted rfl) other]
      rw [scopesAfter_of_isLoop_eq_false state found kind rfl]
  | asked built asks answers heeds =>
    have scopes := scopesAfter_of_isLoop_eq_false state found (Node.isLoop_eq_false_of_mode asks)
      (heeds.keeps.2.1.trans rfl)
    -- Decisions alone set labels, and set nothing else.
    by_cases kind : node.kind = .decision
    · obtain ⟨connection, reasoning, decides, unvalued, after⟩ := heeds.decides kind
      rw [after, RunState.after_eq_decision (value_eq_none_of_extracted unvalued) decides.followed
        decides.reasoned scopes]
    · have other := undecided kind
      cases heeds with
      | decided => contradiction
      | extracted _ _ declared conforms =>
        obtain ⟨rfl, -⟩ := Schema.validate_ok conforms
        exact (RunState.after_eq_extraction (value_eq_some rfl found declared rfl) other
          scopes).symm
      | concluded | replied =>
        rw [RunState.after_eq (value_eq_none_of_last rfl) other, scopes]

theorem Settles.input_eq (settles : Settles engine client earlier step node state visited)
    (found : engine.flowchart.node? node.id = some node) :
    visited.state.input = state.input := by
  rw [settles.replayed found]
  rfl

end

namespace Engine.Course

variable {engine : Engine} {client : Client} {runId : RunId} {remaining : Nat} {current : NodeId}
  {state : RunState} {journal final : Journal} {strides : List Stride} {ending : Ending}

theorem replays (valid : engine.flowchart.Valid)
    (course : engine.Course client runId remaining current state journal strides ending final) :
    ∀ earlier stride later, strides = earlier ++ stride :: later → stride.before =
      (earlier.map (·.visited.entry)).foldl (RunState.after engine.flowchart) state := by
  induction course with
  | capped | failed => simp
  | completed => exact forall_place_cons rfl (by simp)
  | step found settled leads rest ih =>
    obtain ⟨settles, -⟩ := settle_ok valid found settled
    refine forall_place_cons rfl ?_
    intro earlier stride later split
    rw [ih earlier stride later split, settles.replayed found]
    rfl

theorem replays_gathered (valid : engine.flowchart.Valid) {output : Output} {gathered : RunState}
    (course : engine.Course client runId remaining current state journal strides
      (.completed output gathered) final) :
    gathered = (strides.map (·.visited.entry)).foldl (RunState.after engine.flowchart) state := by
  generalize whole : Ending.completed output gathered = ending at course
  induction course with
  | capped | failed => cases whole
  | completed found settled last =>
    cases whole
    obtain ⟨settles, -⟩ := settle_ok valid found settled
    exact settles.replayed found
  | step found settled leads rest ih =>
    obtain ⟨settles, -⟩ := settle_ok valid found settled
    rw [ih whole, settles.replayed found]
    rfl

/-- A visit that fails is one of a run that holds what its whole trace tells, and what it has sent
comes after the requests that the trace tells of. -/
theorem replays_failure (valid : engine.flowchart.Valid) {stop : NodeId} {error : RunError}
    (course : engine.Course client runId remaining current state journal strides
      (.failed stop error) final) :
    ∃ node sent, engine.flowchart.node? stop = some node ∧
      Fails engine node
        ((strides.map (·.visited.entry)).foldl (RunState.after engine.flowchart) state) error sent ∧
      final.requests = journal.requests ++
        (strides.map (·.visited.entry)).filterMap engine.request? ++ sent.toList := by
  generalize broken : Ending.failed stop error = ending at course
  induction course with
  | capped | completed => cases broken
  | failed found settled =>
    cases broken
    obtain ⟨sent, fails, rfl⟩ := settle_error valid found settled
    exact ⟨_, sent, found, fails, by simp [Journal.asked_requests]⟩
  | step found settled leads rest ih =>
    obtain ⟨settles, rfl⟩ := settle_ok valid found settled
    obtain ⟨node, sent, known, fails, requests⟩ := ih broken
    rw [settles.replayed found] at fails
    refine ⟨node, sent, known, fails, ?_⟩
    simpa [Journal.asked_requests, filterMap_cons_toList] using requests

end Engine.Course

end Colloquy
