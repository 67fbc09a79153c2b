import Colloquy.Proofs.Run.Replay
import Colloquy.Proofs.Run.Requests

/-!
Prompts replayed from the trace. What a node is asked is its template with the loops filled in that
the entries before it have left open, framed with every value that they have extracted.
-/

namespace Colloquy

/-- How a value stands in the context: with its node and the name of its schema. -/
def contextLine (told : NodeId × StructuredValue) : String :=
  "\n\nContext: " ++ told.1 ++ ": " ++ told.2.schema.name ++ ": " ++ told.2.renderFields

theorem Extractions.contextBlock_eq (extractions : Extractions) :
    extractions.contextBlock = String.join (extractions.log.map contextLine) := rfl

def Engine.framed (engine : Engine) (input : String) (earlier : Trace) (prompt : String) : String :=
  engine.framing prompt
    (String.join ((earlier.filterMap engine.flowchart.value?).map contextLine)) input

def TraceEntry.recorded? (entry : TraceEntry) : Option (NodeId × Json) :=
  if entry.nextNode.isSome then entry.extracted.map (entry.node, ·) else none

theorem Heeds.prompt_eq {node : Node} {framed : TraceEntry} {state : RunState} {response : Response}
    {visited : Visited} (heeds : Heeds node framed state response visited) :
    visited.entry.prompt = framed.prompt := by
  cases heeds <;> rfl

namespace Settles

variable {engine : Engine} {client : Client} {earlier : List Request} {step : Nat} {node : Node}
  {state : RunState} {visited : Visited}

theorem unprompted (settles : Settles engine client earlier step node state visited)
    (kind : node.kind.isLoop = true) :
    visited.entry.prompt = none ∧ visited.entry.framedPrompt = none := by
  cases settles with
  | passed passes =>
    cases passes with
    | entered | advanced => exact ⟨rfl, rfl⟩
    | prompted other => cases kind.symm.trans other
  | asked built asks => cases kind.symm.trans (Node.isLoop_eq_false_of_mode asks)

theorem prompted (settles : Settles engine client earlier step node state visited)
    (kind : node.kind.isLoop = false) :
    ∃ prompt,
      Prompt.build engine.framing node state.scopes state.extracted state.input = .ok prompt ∧
      visited.entry.prompt = some prompt.nodePrompt ∧
      visited.entry.framedPrompt = if node.mode?.isSome then some prompt.text else none := by
  cases settles with
  | passed passes =>
    cases passes with
    | entered other | advanced other => simp [other, NodeKind.isLoop] at kind
    | @prompted prompt _ silent built => exact ⟨prompt, built, rfl, by simp [silent, Node.entry]⟩
  | @asked prompt mode response built asks _ heeds =>
    refine ⟨prompt, built, heeds.prompt_eq, ?_⟩
    simp [heeds.keeps.2.2.2, asks, Node.framed]

theorem recorded (settles : Settles engine client earlier step node state visited)
    (found : engine.flowchart.node? node.id = some node) :
    (engine.flowchart.value? visited.entry).map (fun told => (told.1, told.2.toJson)) =
      visited.entry.recorded? := by
  cases settles with
  | passed passes =>
    cases passes <;> rw [value_eq_none_of_extracted rfl] <;> rfl
  | asked _ _ _ heeds =>
    cases heeds with
    | decided =>
      rw [value_eq_none_of_extracted rfl]
      rfl
    | extracted _ _ declared conforms =>
      obtain ⟨rfl, -⟩ := Schema.validate_ok conforms
      rw [value_eq_some rfl found declared rfl]
      rfl
    | concluded | replied =>
      rw [value_eq_none_of_last rfl]
      rfl

end Settles

section

variable {engine : Engine} {specs : List NodeSpec}

theorem Engine.build_replayed {node : Node} {input : String} {earlier : Trace} {prompt : Prompt}
    (built : Prompt.build engine.framing node (engine.flowchart.replay input earlier).scopes
      (engine.flowchart.replay input earlier).extracted
      (engine.flowchart.replay input earlier).input = .ok prompt) :
    Template.Renders (LoopScope.binding? (engine.flowchart.replay input earlier).scopes)
      node.template prompt.nodePrompt ∧
    prompt.text = engine.framed input earlier prompt.nodePrompt := by
  obtain ⟨renders, framed⟩ := Prompt.build_ok built
  refine ⟨renders, framed.trans ?_⟩
  rw [Extractions.contextBlock_eq, Flowchart.replay, log_foldl_after, input_foldl_after]
  rfl

/-- Every prompt of a run can be told from the entries before it: it is the template of its node
with the elements that the loops left open have reached, framed with all that was extracted on the
way, in the order of the visits. So can the prompt of a visit that the model fails. -/
theorem prompts_told_by_earlier_trace (compiled : Flowchart.compile specs = .ok engine.flowchart)
    (client : Client) (stamp : RunStamp) (input : String) :
    (∀ earlier entry later,
      (engine.run client stamp input).record.traversal = earlier ++ entry :: later →
      ∃ node, engine.flowchart.node? entry.node = some node ∧
        (node.kind.isLoop = true → entry.prompt = none ∧ entry.framedPrompt = none) ∧
        (node.kind.isLoop = false → ∃ prompt, entry.prompt = some prompt ∧
          Template.Renders (LoopScope.binding? (engine.flowchart.replay input earlier).scopes)
            node.template prompt ∧
          entry.framedPrompt =
            if node.mode?.isSome then some (engine.framed input earlier prompt) else none)) ∧
    (∀ entry ∈ (engine.run client stamp input).record.traversal,
      (engine.flowchart.value? entry).map (fun told => (told.1, told.2.toJson)) =
        entry.recorded?) ∧
    ∀ request, (engine.run client stamp input).requests =
        (engine.run client stamp input).record.traversal.filterMap engine.request? ++ [request] →
      ∃ node prompt, engine.flowchart.node? request.node = some node ∧
        Template.Renders (LoopScope.binding? (engine.flowchart.replay input
          (engine.run client stamp input).record.traversal).scopes) node.template prompt ∧
        request.prompt =
          engine.framed input (engine.run client stamp input).record.traversal prompt := by
  have valid := compile_valid compiled
  obtain ⟨ending, final, course, requests, result⟩ := Engine.run_course valid client stamp input
  rw [engine.run_trace]
  refine ⟨?_, ?_, ?_⟩
  · intro earlier entry later split
    obtain ⟨before, _, whole, rfl, others⟩ := List.map_eq_append_iff.mp split
    obtain ⟨stride, after, rfl, rfl, rfl⟩ := List.map_eq_cons_iff.mp others
    obtain ⟨found, settles⟩ := course.settles valid before stride after whole
    refine ⟨stride.node, settles.entry.2.1 ▸ found, settles.unprompted, ?_⟩
    intro kind
    obtain ⟨prompt, built, shown, framed⟩ := settles.prompted kind
    rw [course.replays valid before stride after whole] at built
    obtain ⟨renders, text⟩ := Engine.build_replayed built
    exact ⟨prompt.nodePrompt, shown, renders, text ▸ framed⟩
  · intro entry member
    obtain ⟨stride, taken, rfl⟩ := List.mem_map.mp member
    obtain ⟨found, _, _, settles⟩ := course.settles_of_mem valid taken
    exact settles.recorded found
  · intro request extra
    obtain ⟨last, sent, fault, -⟩ := course.requests valid
    rw [requests, sent, Journal.requests, List.nil_append, List.append_cancel_left_eq] at extra
    obtain rfl := Option.toList_eq_singleton_iff.mp extra
    cases ending with
    | capped | completed => simp [Ending.result] at fault
    | failed stop error =>
      obtain ⟨node, told, found, fails, again⟩ := course.replays_failure valid
      rw [sent, Journal.requests, List.append_cancel_left_eq] at again
      cases fails with
      | refused => cases again
      | @unanswered prompt mode error built asks =>
        obtain rfl := List.singleton_inj.mp again
        obtain rfl : node.id = stop := by simpa using List.find?_some found
        obtain ⟨renders, text⟩ := Engine.build_replayed built
        exact ⟨node, prompt.nodePrompt, found, renders, text⟩

end

/-! An interview: a loop over topics, a decision in it, and a value at the end. -/

def interview : List NodeSpec := [
  { id := "plan", schema := some ⟨"Topics", [{ name := "topics", type := .array .string }]⟩,
    connections := [("next", "each")] },
  { id := "each", iterator := some "topic", collection := some "topics",
    connections := [("body", "ask")] },
  { id := "ask", text := "On " ++ Template.hole "topic",
    schema := some ⟨"Note", [{ name := "note", type := .string }]⟩,
    connections := [("next", "judge")] },
  { id := "judge", text := Template.hole "topic" ++ "?",
    connections := [("clear", "next"), ("vague", "probe")] },
  { id := "probe", connections := [("next", "next")] },
  { id := "next", kind := some .loopContinue,
    connections := [(hasMoreLabel, "ask"), (completeLabel, "sum")] },
  { id := "sum", schema := some ⟨"Note", [{ name := "note", type := .string }]⟩ }]

namespace Interview

def flowchart : Flowchart where
  nodes := [
    { Node.unstructured "plan" "" [⟨"next", "each"⟩] .extraction with
      schema := some ⟨"Topics", [{ name := "topics", type := .array .string }]⟩ },
    .unstructured "each" "" [⟨"body", "ask"⟩] (.loopStart "topic" "topics"),
    { Node.unstructured "ask" ("On " ++ Template.hole "topic") [⟨"next", "judge"⟩] .extraction with
      schema := some ⟨"Note", [{ name := "note", type := .string }]⟩ },
    .unstructured "judge" (Template.hole "topic" ++ "?") [⟨"clear", "next"⟩, ⟨"vague", "probe"⟩]
      .decision,
    .unstructured "probe" "" [⟨"next", "next"⟩] .plain,
    .unstructured "next" "" [⟨hasMoreLabel, "ask"⟩, ⟨completeLabel, "sum"⟩] (.loopContinue "each"),
    { Node.unstructured "sum" "" [] .extraction with
      schema := some ⟨"Note", [{ name := "note", type := .string }]⟩ }]
  start := "plan"

def engine : Engine := { flowchart }

theorem compiles : Flowchart.compile interview = .ok engine.flowchart := by
  simp only [Flowchart.compile, bind_ok_iff]
  refine ⟨(), rfl, (), rfl, _, rfl, _, rfl, _, rfl, (), rfl, (), ?_, (), rfl, rfl⟩
  exact Flowchart.checkCycles_of_order
    ["plan", "each", "ask", "judge", "probe", "next", "sum"] (by decide)

def client : Client := fun earlier request =>
  match request.mode with
  | .decision _ =>
    { content := .ok (.decision (if earlier.length = 2 then "vague" else "mixed") request.node) }
  | .structured schema =>
    if schema.name = "Topics" then
      { content := .ok (.structured (.obj [("topics", .arr [.str "tea", .str "rye"])])) }
    else { content := .ok (.structured (.obj [("note", .str "noted")])) }
  | .text => { content := .ok (.text "") }

end Interview

/-- At the second judgement the loop has reached the second topic, and three values are told. -/
theorem interview_prompts :
    Flowchart.compile interview = .ok Interview.engine.flowchart ∧
    ∃ earlier entry later prompt,
      (Interview.engine.run Interview.client RollCall.stamp "Hi").record.traversal =
        earlier ++ entry :: later ∧
      entry.node = "judge" ∧ entry.prompt = some prompt ∧
      LoopScope.binding? (Interview.flowchart.replay "Hi" earlier).scopes "topic" = some "rye" ∧
      (earlier.filterMap Interview.flowchart.value?).map (·.1) = ["plan", "ask", "ask"] ∧
      Template.Renders (LoopScope.binding? (Interview.flowchart.replay "Hi" earlier).scopes)
        (Template.hole "topic" ++ "?") prompt ∧
      entry.framedPrompt = some (Interview.engine.framed "Hi" earlier prompt) := by
  let trace := (Interview.engine.run Interview.client RollCall.stamp "Hi").record.traversal
  have rest : (trace.drop 7).map (·.node) = ["judge", "next", "sum"] := by rfl
  obtain ⟨entry, later, same, named, -⟩ := List.map_eq_cons_iff.mp rest
  have split : trace = trace.take 7 ++ entry :: later :=
    (List.take_append_drop 7 trace).symm.trans (congrArg _ same)
  obtain ⟨node, found, -, asked⟩ := (prompts_told_by_earlier_trace Interview.compiles
    Interview.client RollCall.stamp "Hi").1 _ entry later split
  rw [named] at found
  obtain rfl := Option.some.inj found
  obtain ⟨prompt, shown, renders, framed⟩ := asked rfl
  exact ⟨Interview.compiles, trace.take 7, entry, later, prompt, split, named, shown, rfl, rfl,
    renders, framed⟩

end Colloquy
