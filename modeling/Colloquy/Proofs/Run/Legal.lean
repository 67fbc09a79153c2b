import Colloquy.Proofs.Run.Course
import Colloquy.Proofs.Run.Progress

/-!
The trace of a run is a legal walk of its flowchart: every entry leads where the kind of its node
allows, the next entry is of the node that it leads to, and the last one tells how the run ended.
-/

namespace Colloquy

/-- A decision follows the label that the model answers with, and its first connection where there
is no such label. -/
structure Stride.Chooses (engine : Engine) (client : Client) (earlier : List Request)
    (stride : Stride) (label : String) : Prop where
  told : ∃ request reasoning, engine.request? stride.visited.entry = some request ∧
    engine.answer client earlier request = .ok (.decision label reasoning)
  records : stride.visited.entry.decision = some label
  options : stride.visited.entry.options = stride.node.labels
  fallback : stride.visited.entry.decisionFallback = true ↔ label ∉ stride.node.labels
  declared : label ∈ stride.node.labels → stride.visited.entry.nextNode = stride.node.target? label
  undeclared : label ∉ stride.node.labels →
    stride.visited.entry.nextNode = stride.node.firstTarget?

def Stride.FindsNone (stride : Stride) (field : String) : Prop :=
  ¬ Innermost stride.node.id stride.before.scopes ∧
    ∃ value, stride.before.extracted.findField? field = some value ∧
      LoopScope.elements? value = some []

structure Stride.Legal (engine : Engine) (client : Client) (earlier : List Request)
    (stride : Stride) : Prop where
  found : engine.flowchart.node? stride.visited.entry.node = some stride.node
  kind : stride.visited.entry.kind = stride.node.kind.name
  terminal : stride.visited.entry.nextNode = none ↔ stride.node.isTerminal = true
  straight : stride.node.kind = .plain ∨ stride.node.kind = .extraction →
    ∀ connection ∈ stride.node.connections, stride.node.connections = [connection] ∧
      stride.visited.entry.nextNode = some connection.target
  decision : stride.node.kind = .decision → ∃ label, stride.Chooses engine client earlier label
  undecided : stride.node.kind ≠ .decision →
    stride.visited.entry.options = [] ∧ stride.visited.entry.decisionFallback = false
  body : ∀ iterator field, stride.node.kind = .loopStart iterator field →
    ¬ stride.FindsNone field → stride.visited.entry.nextNode = stride.node.firstTarget?
  skips : ∀ iterator field, stride.node.kind = .loopStart iterator field →
    stride.FindsNone field → ∃ target,
      (engine.flowchart.closer? stride.node.id).bind Node.completeTarget? = some target ∧
        stride.visited.entry.nextNode = some target
  advances : ∀ owner, stride.node.kind = .loopContinue owner → ∃ label,
    (label = hasMoreLabel ∨ label = completeLabel) ∧
      stride.visited.entry.decision = some label ∧
      stride.visited.entry.nextNode = stride.node.target? label

namespace Engine

theorem followLabel_found {node : Node} {label : String} {connection : Connection}
    {notices : List Diagnostic} (follows : followLabel node label = .ok (connection, notices)) :
    (label ∈ node.labels ∧ node.target? label = some connection.target ∧ notices = []) ∨
      (label ∉ node.labels ∧ node.firstTarget? = some connection.target ∧ notices ≠ []) := by
  cases followLabel_follows follows with
  | own found =>
    have named : connection.label = label := by simpa using List.find?_some found
    have declared := List.mem_map_of_mem (f := (·.label)) (List.mem_of_find?_eq_some found)
    exact .inl ⟨named ▸ declared, by simp [Node.target?, found], rfl⟩
  | first unknown head =>
    exact .inr ⟨unknown, by simp [Node.firstTarget?, head], List.cons_ne_nil _ _⟩

end Engine

namespace Settles

variable {engine : Engine} {client : Client} {earlier : List Request} {step : Nat} {node : Node}
  {state : RunState} {visited : Visited}

theorem next (settles : Settles engine client earlier step node state visited)
    (valid : engine.flowchart.Valid) (member : node ∈ engine.flowchart.nodes) :
    (∃ next, visited.next = .node next ∧ visited.entry.nextNode = some next ∧
      node.isTerminal = false) ∨
    ∃ output, visited.next = .finish output ∧ visited.entry.nextNode = none ∧
      node.isTerminal = true := by
  cases settles with
  | passed passes =>
    cases passes with
    | entered kind => exact .inl ⟨_, rfl, rfl, valid.start_continues member kind⟩
    | advanced kind => exact .inl ⟨_, rfl, rfl, valid.continue_continues member kind⟩
    | prompted _ _ _ continues => exact .inl ⟨_, rfl, rfl, continues⟩
  | asked _ _ _ heeds =>
    cases heeds with
    | decided kind => exact .inl ⟨_, rfl, rfl, valid.decision_continues member kind⟩
    | extracted _ continues => exact .inl ⟨_, rfl, rfl, continues⟩
    | concluded _ last | replied _ last => exact .inr ⟨_, rfl, rfl, last⟩

theorem nextNode_of_node (settles : Settles engine client earlier step node state visited)
    (valid : engine.flowchart.Valid) (member : node ∈ engine.flowchart.nodes) {next : NodeId}
    (leads : visited.next = .node next) : visited.entry.nextNode = some next := by
  rcases settles.next valid member with ⟨other, goes, records, -⟩ | ⟨output, ends, -⟩
  · cases goes.symm.trans leads
    exact records
  · cases ends.symm.trans leads

theorem nextNode_of_finish (settles : Settles engine client earlier step node state visited)
    (valid : engine.flowchart.Valid) (member : node ∈ engine.flowchart.nodes) {output : Output}
    (last : visited.next = .finish output) :
    visited.entry.nextNode = none ∧ node.isTerminal = true := by
  rcases settles.next valid member with ⟨other, goes, -⟩ | ⟨_, -, ends⟩
  · cases goes.symm.trans last
  · exact ends

theorem terminal (settles : Settles engine client earlier step node state visited)
    (valid : engine.flowchart.Valid) (member : node ∈ engine.flowchart.nodes) :
    visited.entry.nextNode = none ↔ node.isTerminal = true := by
  rcases settles.next valid member with ⟨next, -, leads, continues⟩ | ⟨output, -, none, last⟩
  · simp [leads, continues]
  · simp [none, last]

theorem straight (settles : Settles engine client earlier step node state visited)
    (valid : engine.flowchart.Valid) (member : node ∈ engine.flowchart.nodes)
    (kind : node.kind = .plain ∨ node.kind = .extraction) :
    ∀ connection ∈ node.connections,
      node.connections = [connection] ∧ visited.entry.nextNode = some connection.target := by
  intro connection declared
  have few : node.connections.length ≤ 1 := by
    have fits := valid.fits node member
    rcases kind with kind | kind <;> rw [kind] at fits <;> exact fits.1
  have only : node.connections = [connection] := by
    cases connections : node.connections with
    | nil => simp [connections] at declared
    | cons first rest =>
      simp only [connections, List.length_cons, List.mem_cons] at few declared
      obtain rfl := List.length_eq_zero_iff.mp (Nat.le_zero.mp (Nat.le_of_succ_le_succ few))
      rcases declared with rfl | none
      · rfl
      · cases none
  have first : node.firstTarget?.getD "" = connection.target := by simp [Node.firstTarget?, only]
  refine ⟨only, ?_⟩
  cases settles with
  | passed passes =>
    cases passes with
    | entered other | advanced other => simp [other] at kind
    | prompted => exact congrArg some first
  | asked _ _ _ heeds =>
    cases heeds with
    | decided other => simp [other] at kind
    | extracted => exact congrArg some first
    | concluded _ last | replied _ last => simp [Node.isTerminal, only] at last

theorem chooses (settles : Settles engine client earlier step node state visited)
    (found : engine.flowchart.node? node.id = some node) (kind : node.kind = .decision) :
    ∃ label, Stride.Chooses engine client earlier ⟨node, state, visited⟩ label := by
  cases settles with
  | passed passes =>
    cases passes with
    | entered other | advanced other => cases kind.symm.trans other
    | prompted _ silent => simp [Node.mode?, kind, NodeKind.isLoop] at silent
  | asked _ asks answers heeds =>
    have told : engine.request? visited.entry = some _ :=
      Engine.request_eq_some found asks heeds
    cases heeds with
    | @decided label reasoning connection notices _ follows =>
      refine ⟨label, ?_⟩
      rcases Engine.followLabel_found follows with ⟨known, leads, none⟩ | ⟨unknown, leads, some⟩
      · exact {
          told := ⟨_, reasoning, told, answers⟩
          records := rfl
          options := rfl
          fallback := by simp [known, none]
          declared := fun _ => leads.symm
          undeclared := fun unknown => absurd known unknown }
      · exact {
          told := ⟨_, reasoning, told, answers⟩
          records := rfl
          options := rfl
          fallback := by simpa [unknown] using some
          declared := fun known => absurd known unknown
          undeclared := fun _ => leads.symm }
    | extracted other | concluded other | replied other => exact absurd kind other

theorem undecided (settles : Settles engine client earlier step node state visited)
    (other : node.kind ≠ .decision) :
    visited.entry.options = [] ∧ visited.entry.decisionFallback = false := by
  cases settles with
  | passed passes => cases passes <;> exact ⟨rfl, rfl⟩
  | asked _ _ _ heeds =>
    cases heeds with
    | decided kind => exact absurd kind other
    | extracted | concluded | replied => exact ⟨rfl, rfl⟩

theorem starts (settles : Settles engine client earlier step node state visited)
    (valid : engine.flowchart.Valid) (member : node ∈ engine.flowchart.nodes)
    {iterator field : String} (kind : node.kind = .loopStart iterator field) :
    (¬ Stride.FindsNone ⟨node, state, visited⟩ field ∧
      visited.entry.nextNode = node.firstTarget?) ∨
    Stride.FindsNone ⟨node, state, visited⟩ field ∧ ∃ target,
      (engine.flowchart.closer? node.id).bind Node.completeTarget? = some target ∧
        visited.entry.nextNode = some target := by
  obtain ⟨body, -, first⟩ := valid.exists_firstTarget member (.inr ⟨_, _, kind⟩)
  cases settles with
  | passed passes =>
    cases passes with
    | entered same enters =>
      cases kind.symm.trans same
      cases enters with
      | again innermost =>
        refine .inl ⟨?_, by rw [first, Option.getD_some]⟩
        intro none
        exact none.1 innermost
      | skips fresh found empty complete =>
        exact .inr ⟨⟨fresh, _, found, empty⟩, _, complete, rfl⟩
      | opens fresh found elements nonempty =>
        refine .inl ⟨?_, by rw [first, Option.getD_some]⟩
        rintro ⟨-, value, again, empty⟩
        cases found.symm.trans again
        cases elements.symm.trans empty
        contradiction
    | advanced other => cases kind.symm.trans other
    | prompted other => simp [kind, NodeKind.isLoop] at other
  | asked _ asks => simp [Node.mode?, kind, NodeKind.isLoop] at asks

theorem advances (settles : Settles engine client earlier step node state visited)
    {owner : NodeId} (kind : node.kind = .loopContinue owner) :
    ∃ label, (label = hasMoreLabel ∨ label = completeLabel) ∧
      visited.entry.decision = some label ∧ visited.entry.nextNode = node.target? label := by
  cases settles with
  | passed passes =>
    cases passes with
    | entered other => cases kind.symm.trans other
    | advanced _ advances =>
      cases advances with
      | repeats _ _ _ back => exact ⟨_, .inl rfl, rfl, back.symm⟩
      | closes _ _ _ on => exact ⟨_, .inr rfl, rfl, on.symm⟩
    | prompted other => simp [kind, NodeKind.isLoop] at other
  | asked _ asks => simp [Node.mode?, kind, NodeKind.isLoop] at asks

theorem legal (settles : Settles engine client earlier step node state visited)
    (valid : engine.flowchart.Valid) (found : engine.flowchart.node? node.id = some node) :
    Stride.Legal engine client earlier ⟨node, state, visited⟩ := by
  have member := List.mem_of_find?_eq_some found
  obtain ⟨-, named, kind⟩ := settles.entry
  refine {
    found := named ▸ found
    kind
    terminal := settles.terminal valid member
    straight := settles.straight valid member
    decision := settles.chooses found
    undecided := settles.undecided
    body := ?_
    skips := ?_
    advances := fun owner => settles.advances }
  · intro iterator field starts some
    rcases settles.starts valid member starts with ⟨-, leads⟩ | ⟨none, -⟩
    · exact leads
    · exact absurd none some
  · intro iterator field starts none
    rcases settles.starts valid member starts with ⟨some, -⟩ | ⟨-, leads⟩
    · exact absurd none some
    · exact leads

end Settles

/-- The strides of a run in a row, up to how it ends. -/
structure LegalWalk (engine : Engine) (client : Client) (strides : List Stride) (ending : Ending) :
    Prop where
  start : ∀ stride, strides.head? = some stride → stride.node.id = engine.flowchart.start
  steps : ∀ earlier stride later, strides = earlier ++ stride :: later →
    stride.visited.entry.step = earlier.length ∧ stride.Legal engine client
      ((earlier.map (·.visited.entry)).filterMap engine.request?)
  chain : strides.IsChain fun stride later =>
    stride.visited.entry.nextNode = some later.visited.entry.node
  completed : ending.stop? = none ↔ ∃ stride, strides.getLast? = some stride ∧
    stride.node.isTerminal = true ∧ stride.visited.entry.nextNode = none
  stopped : ∀ stop, ending.stop? = some stop →
    (∀ stride ∈ strides, stride.visited.entry.nextNode ≠ none) ∧
    strides.getLast?.elim (some engine.flowchart.start) (·.visited.entry.nextNode) = some stop

namespace Engine.Course

variable {engine : Engine} {client : Client} {runId : RunId} {remaining : Nat} {current : NodeId}
  {state : RunState} {journal final : Journal} {strides : List Stride} {ending : Ending}

theorem head (course : engine.Course client runId remaining current state journal strides ending
    final) : ∀ stride, strides.head? = some stride → stride.node.id = current := by
  intro stride first
  cases course with
  | capped | failed => cases first
  | completed | step =>
    cases first
    rfl

theorem chain (valid : engine.flowchart.Valid)
    (course : engine.Course client runId remaining current state journal strides ending final) :
    strides.IsChain fun stride later =>
      stride.visited.entry.nextNode = some later.visited.entry.node := by
  induction course with
  | capped | failed => exact .nil
  | completed => exact .singleton _
  | step found settled leads rest ih =>
    have member := List.mem_of_find?_eq_some found
    obtain ⟨settles, -⟩ := settle_ok valid found settled
    refine List.isChain_cons.mpr ⟨?_, ih⟩
    intro later first
    obtain ⟨-, _, _, follows⟩ := rest.settles_of_mem valid (List.mem_of_mem_head? first)
    rw [follows.entry.2.1, rest.head later first]
    exact settles.nextNode_of_node valid member leads

theorem completes (valid : engine.flowchart.Valid)
    (course : engine.Course client runId remaining current state journal strides ending final)
    (whole : ending.stop? = none) : ∃ stride, strides.getLast? = some stride ∧
      stride.node.isTerminal = true ∧ stride.visited.entry.nextNode = none := by
  induction course with
  | capped | failed => cases whole
  | completed found settled last =>
    have member := List.mem_of_find?_eq_some found
    obtain ⟨settles, -⟩ := settle_ok valid found settled
    obtain ⟨none, terminal⟩ := settles.nextNode_of_finish valid member last
    exact ⟨_, rfl, terminal, none⟩
  | step found settled leads rest ih =>
    obtain ⟨stride, last, ends⟩ := ih whole
    exact ⟨stride, by rw [List.getLast?_cons, last]; rfl, ends⟩

theorem stops (valid : engine.flowchart.Valid)
    (course : engine.Course client runId remaining current state journal strides ending final)
    {stop : NodeId} (short : ending.stop? = some stop) :
    (∀ stride ∈ strides, stride.visited.entry.nextNode ≠ none) ∧
      strides.getLast?.elim (some current) (·.visited.entry.nextNode) = some stop := by
  induction course with
  | capped | failed =>
    cases short
    exact ⟨by simp, rfl⟩
  | completed => cases short
  | step found settled leads rest ih =>
    have member := List.mem_of_find?_eq_some found
    obtain ⟨settles, -⟩ := settle_ok valid found settled
    obtain ⟨others, last⟩ := ih short
    have records := settles.nextNode_of_node valid member leads
    refine ⟨List.forall_mem_cons.mpr ⟨by simp [records], others⟩, ?_⟩
    rw [List.getLast?_cons]
    cases final : List.getLast? _ with
    | none => simpa [final, records] using last
    | some stride => simpa [final] using last

theorem legal (valid : engine.flowchart.Valid)
    (course : engine.Course client runId remaining engine.flowchart.start state {} strides ending
      final) : LegalWalk engine client strides ending := by
  have stops : ∀ stop, ending.stop? = some stop →
      (∀ stride ∈ strides, stride.visited.entry.nextNode ≠ none) ∧
      strides.getLast?.elim (some engine.flowchart.start) (·.visited.entry.nextNode) =
        some stop := fun _ => course.stops valid
  refine ⟨course.head, ?_, course.chain valid, ⟨course.completes valid, ?_⟩, stops⟩
  · intro earlier stride later split
    obtain ⟨found, settles⟩ := course.settles valid earlier stride later split
    simp only [List.nil_append, List.length_nil, Nat.zero_add] at settles
    exact ⟨settles.entry.1, settles.legal valid found⟩
  · rintro ⟨stride, last, -, none⟩
    cases short : ending.stop? with
    | none => rfl
    | some stop =>
      exact absurd none ((stops stop short).1 stride (List.mem_of_getLast? last))

end Engine.Course

section

variable {engine : Engine} {specs : List NodeSpec}

/-- The trace of a run is the record of a legal walk. A run that completes has come to a node
without connections; one that fails has come to where its visit fails or may not be made. -/
theorem trace_is_legal_walk (compiled : Flowchart.compile specs = .ok engine.flowchart)
    (client : Client) (stamp : RunStamp) (input : String) :
    (engine.run client stamp input).record.traversal =
      (engine.strides client input).map (·.visited.entry) ∧
    ∃ ending final,
      engine.Course client stamp.runId engine.config.maxSteps engine.flowchart.start { input } {}
        (engine.strides client input) ending final ∧
      (∀ error, (engine.run client stamp input).result = .error error ↔
        ending.result engine.config.maxSteps = .error error) ∧
      LegalWalk engine client (engine.strides client input) ending := by
  have valid := compile_valid compiled
  obtain ⟨ending, final, course, -, result⟩ := Engine.run_course valid client stamp input
  exact ⟨engine.run_trace client stamp input, ending, final, course, result, course.legal valid⟩

end

/-- On its detour a run decides, passes over the loop and turns back to it, where it has to stop. -/
theorem detour_legal_walk :
    Flowchart.compile detour = .ok Detour.engine.flowchart ∧
    ∃ ending, ending.stop? = some "Visit" ∧
      LegalWalk Detour.engine Detour.client (Detour.engine.strides Detour.client "") ending := by
  obtain ⟨-, ending, final, -, result, walk⟩ :=
    trace_is_legal_walk Detour.compiles Detour.client RollCall.stamp ""
  have capped : ending.result 4 = .error (.configuration (.stepLimit 4)) :=
    (result _).mp rfl
  have last : (Detour.engine.strides Detour.client "").getLast?.elim (some "Survey")
      (·.visited.entry.nextNode) = some "Visit" := by rfl
  refine ⟨Detour.compiles, ending, ?_, walk⟩
  cases short : ending.stop? with
  | none =>
    cases ending with
    | capped | failed => cases short
    | completed => cases capped
  | some stop => exact (walk.stopped stop short).2.symm.trans last

end Colloquy
