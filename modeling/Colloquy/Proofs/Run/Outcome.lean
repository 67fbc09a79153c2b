import Colloquy.Proofs.Run.Legal
import Colloquy.Proofs.Run.Prompts

/-!
What a completed run hands back, told by its trace: the values of the visits that led on, the label
and the reasoning of the latest visit of each decision, and the output of the last visit.
-/

namespace Colloquy

def Trace.decided (trace : Trace) : List NodeId :=
  firstOccurrences [] ((trace.filter (·.kind == NodeKind.decision.name)).map (·.node))

structure Outcome.ToldBy (flowchart : Flowchart) (outcome : Outcome) (trace : Trace) : Prop where
  whole : outcome.trace = trace
  extracted : outcome.extracted.log.map (fun told => (told.1, told.2.toJson)) =
    trace.dropLast.filterMap fun entry => entry.extracted.map (entry.node, ·)
  decided : outcome.decisions.keys = trace.decided
  reasoned : outcome.reasoning.keys = trace.decided
  once : trace.decided.Nodup
  listed : ∀ entry ∈ trace, ∀ node, flowchart.node? entry.node = some node →
    (entry.node ∈ trace.decided ↔ node.kind = .decision)
  latest : ∀ id ∈ trace.decided, ∃ node entry connection reasoning,
    flowchart.node? id = some node ∧ node.kind = .decision ∧
    (trace.visits id).getLast? = some entry ∧ entry.Decides node connection reasoning ∧
    outcome.decisions.get? id = some connection.label ∧
    outcome.reasoning.get? id = some reasoning
  /-- Loop continues follow labels too, but decide nothing. -/
  unlooped : ∀ node ∈ flowchart.nodes, node.isLoopContinue = true → node.id ∉ trace.decided
  output : ∃ last node, trace.getLast? = some last ∧ flowchart.node? last.node = some node ∧
    outcome.extracted.contains last.node = false ∧
    (∀ schema, node.schema = some schema → ∃ value, outcome.output = .structured value ∧
      value.schema = schema ∧ last.extracted = some value.toJson) ∧
    (node.schema = none → ∃ text, outcome.output = .text text ∧ last.extracted = none)

section

variable {f : TraceEntry → Option (NodeId × String)} {trace : Trace} {id : NodeId}

theorem keys_upsertAll_decided
    (tells : ∀ entry ∈ trace, (f entry).map (·.1) =
      if entry.kind = NodeKind.decision.name then some entry.node else none) :
    (OrderedMap.empty.upsertAll (trace.filterMap f)).keys = trace.decided := by
  have nodes : (trace.filterMap f).map (·.1) =
      (trace.filter (·.kind == NodeKind.decision.name)).map (·.node) := by
    induction trace with
    | nil => rfl
    | cons entry rest ih =>
      obtain ⟨here, others⟩ := List.forall_mem_cons.mp tells
      rw [filterMap_cons_toList, List.map_append, ih others, ← Option.toList_map, here]
      by_cases kind : entry.kind = NodeKind.decision.name <;> simp [kind]
  rw [OrderedMap.keys_upsertAll, nodes]
  rfl

theorem get?_upsertAll_latest {entry : TraceEntry} {named : NodeId} {text : String}
    (carries : ∀ entry told, f entry = some told → told.1 = entry.node)
    (latest : (trace.visits id).getLast? = some entry) (tells : f entry = some (named, text)) :
    (OrderedMap.empty.upsertAll (trace.filterMap f)).get? id = some text := by
  have told : (trace.filterMap f).filter (·.1 == id) = (trace.visits id).filterMap f := by
    rw [Trace.visits, List.filter_filterMap, List.filterMap_filter]
    refine List.filterMap_congr ?_
    intro other _
    cases said : f other with
    | none => simp
    | some pair => simp [Option.filter, carries other pair said]
  obtain ⟨others, visits⟩ := List.getLast?_eq_some_iff.mp latest
  rw [OrderedMap.get?_upsertAll, told, visits, List.filterMap_append]
  simp [tells]

namespace TraceEntry

variable {entry : TraceEntry}

theorem ofDecision?_node {told : Option String} {pair : NodeId × String}
    (tells : entry.ofDecision? told = some pair) : pair.1 = entry.node := by
  unfold ofDecision? at tells
  split at tells
  · obtain ⟨text, -, rfl⟩ := Option.map_eq_some_iff.mp tells
    rfl
  · cases tells

theorem recorded?_node {pair : NodeId × Json} (records : entry.recorded? = some pair) :
    entry.node = pair.1 ∧ entry.nextNode.isSome = true := by
  unfold recorded? at records
  split at records
  · rename_i leads
    obtain ⟨json, -, rfl⟩ := Option.map_eq_some_iff.mp records
    exact ⟨rfl, leads⟩
  · cases records

theorem filterMap_recorded? {others : Trace} {last : TraceEntry}
    (onwards : ∀ entry ∈ others, entry.nextNode.isSome = true) (ends : last.nextNode = none) :
    (others ++ [last]).filterMap recorded? =
      (others ++ [last]).dropLast.filterMap fun entry => entry.extracted.map (entry.node, ·) := by
  have silent : [last].filterMap recorded? = [] := by simp [recorded?, ends]
  rw [List.dropLast_concat, List.filterMap_append, silent, List.append_nil]
  refine List.filterMap_congr ?_
  intro entry member
  simp [recorded?, onwards entry member]

end TraceEntry

def Trace.Tracks (trace : Trace) (flowchart : Flowchart) : Prop :=
  ∀ entry ∈ trace, ∃ node, flowchart.node? entry.node = some node ∧
    entry.kind = node.kind.name ∧
    (node.kind = .decision → ∃ connection reasoning, entry.Decides node connection reasoning)

namespace Trace.Tracks

variable {flowchart : Flowchart}

theorem tells (tracks : trace.Tracks flowchart) :
    (∀ entry ∈ trace, entry.followed?.map (·.1) =
      if entry.kind = NodeKind.decision.name then some entry.node else none) ∧
    ∀ entry ∈ trace, entry.reasoned?.map (·.1) =
      if entry.kind = NodeKind.decision.name then some entry.node else none := by
  rw [← forall₂_and]
  intro entry member
  obtain ⟨node, -, named, decides⟩ := tracks entry member
  by_cases kind : node.kind = .decision
  · obtain ⟨connection, reasoning, decides⟩ := decides kind
    simp [named, kind, decides.followed, decides.reasoned]
  · have other := named ▸ NodeKind.name_ne_decision kind
    simp [TraceEntry.followed?, TraceEntry.reasoned?, TraceEntry.ofDecision?, other]

theorem decided (tracks : trace.Tracks flowchart) (member : id ∈ trace.decided) :
    ∃ node, flowchart.node? id = some node ∧ node.kind = .decision := by
  obtain ⟨entry, there, rfl⟩ := List.mem_map.mp (mem_firstOccurrences.mp member).1
  obtain ⟨there, kind⟩ := List.mem_filter.mp there
  obtain ⟨node, found, named, -⟩ := tracks entry there
  have kind : entry.kind = NodeKind.decision.name := by simpa using kind
  exact ⟨node, found, NodeKind.name_eq_decision_iff.mp (named.symm.trans kind)⟩

theorem decided_iff (tracks : trace.Tracks flowchart) {entry : TraceEntry} (visited : entry ∈ trace)
    {node : Node} (found : flowchart.node? entry.node = some node) :
    entry.node ∈ trace.decided ↔ node.kind = .decision := by
  constructor
  · intro member
    obtain ⟨same, again, kind⟩ := tracks.decided member
    exact Option.some.inj (found.symm.trans again) ▸ kind
  · intro kind
    obtain ⟨same, again, named, -⟩ := tracks entry visited
    obtain rfl := Option.some.inj (found.symm.trans again)
    have decision : entry ∈ trace.filter (·.kind == NodeKind.decision.name) :=
      List.mem_filter.mpr ⟨visited, by simp [named, kind]⟩
    exact mem_firstOccurrences.mpr ⟨List.mem_map_of_mem decision, List.not_mem_nil⟩

theorem latest (tracks : trace.Tracks flowchart) (member : id ∈ trace.decided) :
    ∃ node entry connection reasoning, flowchart.node? id = some node ∧ node.kind = .decision ∧
      (trace.visits id).getLast? = some entry ∧ entry.Decides node connection reasoning := by
  obtain ⟨node, found, kind⟩ := tracks.decided member
  have visited : trace.visits id ≠ [] := by
    obtain ⟨entry, there, rfl⟩ := List.mem_map.mp (mem_firstOccurrences.mp member).1
    exact List.ne_nil_of_mem (List.mem_filter.mpr ⟨(List.mem_filter.mp there).1, by simp⟩)
  have latest := List.getLast?_eq_some_getLast visited
  obtain ⟨there, named⟩ := List.mem_filter.mp (List.mem_of_getLast? latest)
  obtain ⟨same, again, -, decides⟩ := tracks _ there
  rw [beq_iff_eq.mp named, found] at again
  obtain rfl := Option.some.inj again
  obtain ⟨connection, reasoning, decides⟩ := decides kind
  exact ⟨node, _, connection, reasoning, found, kind, latest, decides⟩

end Trace.Tracks

end

namespace Settles

variable {engine : Engine} {client : Client} {earlier : List Request} {step : Nat} {node : Node}
  {state : RunState} {visited : Visited}

theorem decides (settles : Settles engine client earlier step node state visited)
    (kind : node.kind = .decision) :
    ∃ connection reasoning, visited.entry.Decides node connection reasoning := by
  cases settles with
  | passed passes => exact absurd kind (Node.not_decides_of_silent passes.silent)
  | asked _ _ _ heeds =>
    obtain ⟨connection, reasoning, decides, -⟩ := heeds.decides kind
    exact ⟨connection, reasoning, decides⟩

theorem concludes (settles : Settles engine client earlier step node state visited)
    {output : Output} (last : visited.next = .finish output) :
    (∀ schema, node.schema = some schema → ∃ value, output = .structured value ∧
      value.schema = schema ∧ visited.entry.extracted = some value.toJson) ∧
    (node.schema = none → ∃ text, output = .text text ∧ visited.entry.extracted = none) := by
  cases settles with
  | passed passes => cases passes <;> cases last
  | asked _ _ _ heeds =>
    cases heeds with
    | decided | extracted => cases last
    | concluded _ _ declared conforms =>
      cases last
      refine ⟨?_, by simp [declared]⟩
      rintro schema same
      cases declared.symm.trans same
      exact ⟨_, rfl, (Schema.validate_ok conforms).1, rfl⟩
    | @replied text _ _ plain =>
      cases last
      exact ⟨by simp [plain], fun _ => ⟨text, rfl, rfl⟩⟩

end Settles

namespace Engine.Course

variable {engine : Engine} {client : Client} {runId : RunId} {remaining : Nat} {current : NodeId}
  {state gathered : RunState} {journal final : Journal} {strides : List Stride} {output : Output}

theorem concludes (valid : engine.flowchart.Valid)
    (course : engine.Course client runId remaining current state journal strides
      (.completed output gathered) final) :
    ∃ others last, strides = others ++ [last] ∧
      (∀ stride ∈ others, stride.visited.entry.nextNode.isSome = true) ∧
      last.visited.next = .finish output ∧ last.visited.entry.nextNode = none := by
  generalize whole : Ending.completed output gathered = ending at course
  induction course with
  | capped | failed => cases whole
  | completed found settled last =>
    cases whole
    obtain ⟨settles, -⟩ := settle_ok valid found settled
    have member := List.mem_of_find?_eq_some found
    exact ⟨[], _, rfl, by simp, last, (settles.nextNode_of_finish valid member last).1⟩
  | step found settled leads rest ih =>
    obtain ⟨others, last, split, onwards, ends⟩ := ih whole
    obtain ⟨settles, -⟩ := settle_ok valid found settled
    refine ⟨_ :: others, last, by rw [split, List.cons_append], ?_, ends⟩
    have records := settles.nextNode_of_node valid (List.mem_of_find?_eq_some found) leads
    exact List.forall_mem_cons.mpr ⟨by rw [records]; rfl, onwards⟩

theorem tracks (valid : engine.flowchart.Valid) {ending : Ending}
    (course : engine.Course client runId remaining current state journal strides ending final) :
    Trace.Tracks (strides.map (·.visited.entry)) engine.flowchart := by
  intro entry member
  obtain ⟨stride, taken, rfl⟩ := List.mem_map.mp member
  obtain ⟨found, _, _, settles⟩ := course.settles_of_mem valid taken
  exact ⟨stride.node, settles.entry.2.1 ▸ found, settles.entry.2.2, settles.decides⟩

theorem gathers (valid : engine.flowchart.Valid) {input : String}
    (course : engine.Course client runId remaining current { input } journal strides
      (.completed output gathered) final) :
    gathered.extracted.log.map (fun told => (told.1, told.2.toJson)) =
      (strides.map (·.visited.entry)).filterMap TraceEntry.recorded? := by
  rw [course.replays_gathered valid, log_foldl_after, Extractions.log_empty, List.nil_append,
    List.map_filterMap]
  refine List.filterMap_congr ?_
  intro entry member
  obtain ⟨stride, taken, rfl⟩ := List.mem_map.mp member
  obtain ⟨found, _, _, settles⟩ := course.settles_of_mem valid taken
  exact settles.recorded found

/-- A node that ends the run has gathered nothing: wherever it is visited it ends the run. -/
theorem unrecorded (valid : engine.flowchart.Valid) {input : String}
    (course : engine.Course client runId remaining current { input } journal strides
      (.completed output gathered) final)
    {last : Stride} (taken : last ∈ strides) (ends : last.visited.entry.nextNode = none) :
    gathered.extracted.contains last.visited.entry.node = false := by
  rw [Bool.eq_false_iff]
  intro contained
  obtain ⟨told, member, named⟩ := List.mem_map.mp (Extractions.contains_iff.mp contained)
  have recorded : (told.1, told.2.toJson) ∈
      (strides.map (·.visited.entry)).filterMap TraceEntry.recorded? :=
    course.gathers valid ▸ List.mem_map_of_mem member
  obtain ⟨entry, there, records⟩ := List.mem_filterMap.mp recorded
  obtain ⟨stride, earlier, rfl⟩ := List.mem_map.mp there
  obtain ⟨found, _, _, settles⟩ := course.settles_of_mem valid earlier
  obtain ⟨same, _, _, settled⟩ := course.settles_of_mem valid taken
  obtain ⟨node, leads⟩ := TraceEntry.recorded?_node records
  -- Both visits are of one node, and it is the node that says whether a visit leads on.
  have one : stride.node = last.node := by
    rw [← settles.entry.2.1, node, named, settled.entry.2.1, same] at found
    exact (Option.some.inj found).symm
  have terminal := (settled.terminal valid (List.mem_of_find?_eq_some same)).mp ends
  rw [← one] at terminal
  have stops := (settles.terminal valid (List.mem_of_find?_eq_some found)).mpr terminal
  simp [stops] at leads

theorem told (valid : engine.flowchart.Valid) {input : String}
    (course : engine.Course client runId remaining current { input } {} strides
      (.completed output gathered) final) {trace : Trace}
    (entries : trace = strides.map (·.visited.entry)) :
    (gathered.outcome runId output trace).ToldBy engine.flowchart trace := by
  have tracks : trace.Tracks engine.flowchart := entries ▸ course.tracks valid
  have replayed := entries ▸ course.replays_gathered valid
  have decisions : (gathered.outcome runId output trace).decisions =
      OrderedMap.empty.upsertAll (trace.filterMap TraceEntry.followed?) :=
    replayed ▸ decisions_foldl_after trace _
  have reasoning : (gathered.outcome runId output trace).reasoning =
      OrderedMap.empty.upsertAll (trace.filterMap TraceEntry.reasoned?) :=
    replayed ▸ reasoning_foldl_after trace _
  obtain ⟨others, last, split, onwards, ends, none⟩ := course.concludes valid
  have taken : last ∈ strides := by simp [split]
  obtain ⟨found, _, _, settles⟩ := course.settles_of_mem valid taken
  have parts : trace = others.map (·.visited.entry) ++ [last.visited.entry] := by
    rw [entries, split, List.map_append, List.map_singleton]
  have recorded : trace.filterMap TraceEntry.recorded? =
      trace.dropLast.filterMap fun entry => entry.extracted.map (entry.node, ·) := by
    rw [parts]
    exact TraceEntry.filterMap_recorded? (List.forall_mem_map.mpr onwards) none
  exact {
    whole := rfl
    extracted := (entries ▸ course.gathers valid).trans recorded
    decided := decisions ▸ keys_upsertAll_decided tracks.tells.1
    reasoned := reasoning ▸ keys_upsertAll_decided tracks.tells.2
    once := nodup_firstOccurrences _ _
    listed := fun _ visited _ found => tracks.decided_iff visited found
    latest := by
      intro id member
      obtain ⟨node, entry, connection, reasoned, found, kind, latest, decides⟩ :=
        tracks.latest member
      refine ⟨node, entry, connection, reasoned, found, kind, latest, decides, ?_, ?_⟩
      · exact decisions ▸ get?_upsertAll_latest
          (fun _ _ => TraceEntry.ofDecision?_node) latest decides.followed
      · exact reasoning ▸ get?_upsertAll_latest
          (fun _ _ => TraceEntry.ofDecision?_node) latest decides.reasoned
    unlooped := by
      intro node member continues decided
      obtain ⟨same, found, kind⟩ := tracks.decided decided
      rw [(Flowchart.node_some_iff valid.ids).mpr ⟨member, rfl⟩] at found
      obtain rfl := Option.some.inj found
      simp [Node.isLoopContinue, kind] at continues
    output := ⟨last.visited.entry, last.node, by simp [parts], settles.entry.2.1 ▸ found,
      course.unrecorded valid taken none, settles.concludes ends⟩ }

end Engine.Course

section

variable {engine : Engine} {specs : List NodeSpec}

/-- The outcome of a completed run can be told from its trace. -/
theorem outcome_told_by_trace (compiled : Flowchart.compile specs = .ok engine.flowchart)
    (client : Client) (stamp : RunStamp) (input : String) {outcome : Outcome}
    (completed : (engine.run client stamp input).result = .ok outcome) :
    outcome.ToldBy engine.flowchart (engine.run client stamp input).record.traversal := by
  have valid := compile_valid compiled
  obtain ⟨ending, final, course, -, -⟩ := Engine.run_course valid client stamp input
  obtain ⟨output, gathered, rfl, rfl⟩ := course.completed_of_ok completed
  have entries := engine.run_trace client stamp input
  rw [course.run_traversal] at entries ⊢
  exact course.told valid entries

end

/-- The second judgement replaces the first, and the note at the end is not gathered. -/
theorem interview_outcome :
    Flowchart.compile interview = .ok Interview.engine.flowchart ∧
    ∃ outcome,
      (Interview.engine.run Interview.client RollCall.stamp "Hi").result = .ok outcome ∧
      outcome.decisions.entries = [("judge", "clear")] ∧
      outcome.extracted.log.map (·.1) = ["plan", "ask", "ask"] ∧
      outcome.ToldBy Interview.flowchart
        (Interview.engine.run Interview.client RollCall.stamp "Hi").record.traversal := by
  have shown : (Interview.engine.run Interview.client RollCall.stamp "Hi").result.map
      (fun outcome => (outcome.decisions.entries, outcome.extracted.log.map (·.1))) =
        .ok ([("judge", "clear")], ["plan", "ask", "ask"]) := by rfl
  cases completed : (Interview.engine.run Interview.client RollCall.stamp "Hi").result with
  | error => simp [completed, Except.map] at shown
  | ok outcome =>
    rw [completed] at shown
    obtain ⟨decisions, nodes⟩ := Prod.mk.inj (Except.ok.inj shown)
    exact ⟨Interview.compiles, outcome, rfl, decisions, nodes, outcome_told_by_trace
      Interview.compiles Interview.client RollCall.stamp "Hi" completed⟩

end Colloquy
