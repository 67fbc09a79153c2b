import Colloquy.Proofs.Run.Course
import Colloquy.Proofs.Run.Progress

/-!
What a run asks the model. The requests are those that the trace tells of, one for each entry with a
framed prompt and in the same order, and one more exactly when the model is what the run fails for.
-/

namespace Colloquy

def TraceEntry.Tells (entry : TraceEntry) (request : Request) : Prop :=
  request.node = entry.node ∧ entry.framedPrompt = some request.prompt

namespace Engine

variable {engine : Engine}

theorem request_tells {entry : TraceEntry} {request : Request}
    (told : engine.request? entry = some request) :
    entry.Tells request ∧ ∃ node, engine.flowchart.node? request.node = some node ∧
      node.mode? = some request.mode := by
  obtain ⟨node, found, rest⟩ := Option.bind_eq_some_iff.mp told
  obtain ⟨mode, asks, rest⟩ := Option.bind_eq_some_iff.mp rest
  obtain ⟨text, framed, same⟩ := Option.bind_eq_some_iff.mp rest
  cases same
  have named : node.id = entry.node := by simpa using List.find?_some found
  exact ⟨⟨named, framed⟩, node, named ▸ found, asks⟩

theorem forall₂_tells {trace : Trace}
    (tells : ∀ entry ∈ trace, (engine.request? entry).isSome = entry.framedPrompt.isSome) :
    List.Forall₂ TraceEntry.Tells (trace.filter (·.framedPrompt.isSome))
      (trace.filterMap engine.request?) := by
  induction trace with
  | nil => exact .nil
  | cons entry rest ih =>
    obtain ⟨here, others⟩ := List.forall_mem_cons.mp tells
    have tail := ih others
    cases told : engine.request? entry with
    | none =>
      have unframed : ¬ entry.framedPrompt.isSome = true := by simp [← here, told]
      rw [List.filter_cons, if_neg unframed, List.filterMap_cons_none told]
      exact tail
    | some request =>
      have framed : entry.framedPrompt.isSome = true := by simp [← here, told]
      rw [List.filter_cons, if_pos framed, List.filterMap_cons_some told]
      exact .cons (request_tells told).1 tail

/-- A course leaves behind the requests that its entries tell of, and one more where the model
fails it. -/
theorem Course.requests {client : Client} {runId : RunId} {remaining : Nat} {current : NodeId}
    {state : RunState} {journal final : Journal} {strides : List Stride} {ending : Ending}
    (valid : engine.flowchart.Valid)
    (course : engine.Course client runId remaining current state journal strides ending final) :
    ∃ last : Option Request,
      final.requests = journal.requests ++
        (strides.map (·.visited.entry)).filterMap engine.request? ++ last.toList ∧
      (last.isSome = true ↔
        ∃ fault, ending.result engine.config.maxSteps = .error (.model fault)) ∧
      ∀ request ∈ last, ∃ node, engine.flowchart.node? request.node = some node ∧
        node.mode? = some request.mode := by
  induction course with
  | capped => exact ⟨none, by simp [Journal.emit], by simp [Ending.result], by simp⟩
  | failed found settled =>
    obtain ⟨sent, fails, rfl⟩ := settle_error valid found settled
    refine ⟨sent, by rw [Journal.asked_requests]; simp, ?_, ?_⟩
    · cases fails <;> simp [Ending.result]
    · intro request member
      cases fails with
      | refused => cases member
      | unanswered built asks =>
        cases member
        exact ⟨_, found, asks⟩
  | completed found settled last =>
    obtain ⟨-, rfl⟩ := settle_ok valid found settled
    refine ⟨none, ?_, by simp [Ending.result], by simp⟩
    simp [Journal.asked_requests, filterMap_cons_toList]
  | step found settled leads rest ih =>
    obtain ⟨-, rfl⟩ := settle_ok valid found settled
    obtain ⟨last, sent, others⟩ := ih
    refine ⟨last, ?_, others⟩
    simpa [Journal.asked_requests, filterMap_cons_toList] using sent

end Engine

section

variable {engine : Engine} {specs : List NodeSpec}

/-- The requests of a run are those that its trace tells of, one for each entry with a framed
prompt, and one more exactly when the model is at fault. Each is what its node asks for. -/
theorem requests_told_by_trace (compiled : Flowchart.compile specs = .ok engine.flowchart)
    (client : Client) (stamp : RunStamp) (input : String) :
    (∃ last : Option Request,
      (engine.run client stamp input).requests =
        (engine.run client stamp input).record.traversal.filterMap engine.request? ++ last.toList ∧
      (last.isSome = true ↔
        ∃ fault, (engine.run client stamp input).result = .error (.model fault))) ∧
    List.Forall₂ TraceEntry.Tells
      ((engine.run client stamp input).record.traversal.filter (·.framedPrompt.isSome))
      ((engine.run client stamp input).record.traversal.filterMap engine.request?) ∧
    (∀ request ∈ (engine.run client stamp input).requests, ∃ node,
      engine.flowchart.node? request.node = some node ∧ node.mode? = some request.mode) ∧
    ∀ entry ∈ (engine.run client stamp input).record.traversal, ∃ node,
      engine.flowchart.node? entry.node = some node ∧
        entry.framedPrompt.isSome = node.mode?.isSome := by
  have valid := compile_valid compiled
  obtain ⟨ending, final, course, requests, result⟩ := Engine.run_course valid client stamp input
  obtain ⟨last, sent, fault, lastly⟩ := course.requests valid
  have entries : ∀ entry ∈ (engine.run client stamp input).record.traversal, ∃ node,
      engine.flowchart.node? entry.node = some node ∧
        entry.framedPrompt.isSome = node.mode?.isSome := by
    rw [engine.run_trace]
    rintro entry member
    obtain ⟨stride, taken, rfl⟩ := List.mem_map.mp member
    obtain ⟨found, earlier, step, settles⟩ := course.settles_of_mem valid taken
    exact ⟨stride.node, settles.entry.2.1 ▸ found, settles.framed_isSome⟩
  have told : (engine.run client stamp input).requests =
      (engine.run client stamp input).record.traversal.filterMap engine.request? ++
        last.toList := by
    rw [requests, sent, engine.run_trace, List.nil_append]
  refine ⟨⟨last, told, ?_⟩, Engine.forall₂_tells ?_, ?_, entries⟩
  · simp only [result, fault]
  · intro entry member
    obtain ⟨node, found, framed⟩ := entries entry member
    cases asks : node.mode? with
    | none => simp [Engine.request?, found, asks, framed]
    | some mode =>
      cases prompt : entry.framedPrompt with
      | none => simp [asks, prompt] at framed
      | some text => simp [Engine.request?, found, asks, prompt]
  · intro request member
    rw [told, List.mem_append, List.mem_filterMap] at member
    rcases member with ⟨entry, -, tells⟩ | extra
    · exact (Engine.request_tells tells).2
    · exact lastly request (by simpa using extra)

end

def Detour.lister : Client := fun _ _ =>
  { content := .ok (.structured (.obj [("items", .arr [])])) }

theorem detour_asks_once_more :
    Flowchart.compile detour = .ok Detour.engine.flowchart ∧
    (Detour.engine.run Detour.lister RollCall.stamp "").requests.map (·.node) =
      ["Survey", "Route"] ∧
    (Detour.engine.run Detour.lister RollCall.stamp "").record.traversal.map (·.node) =
      ["Survey"] ∧
    ∃ last, (Detour.engine.run Detour.lister RollCall.stamp "").requests =
      (Detour.engine.run Detour.lister RollCall.stamp "").record.traversal.filterMap
        Detour.engine.request? ++ [last] := by
  obtain ⟨⟨last, told, fault⟩, -⟩ :=
    requests_told_by_trace Detour.compiles Detour.lister RollCall.stamp ""
  have asked : last.isSome = true := fault.mpr ⟨_, rfl⟩
  obtain ⟨request, rfl⟩ := Option.isSome_iff_exists.mp asked
  exact ⟨Detour.compiles, rfl, rfl, request, told⟩

end Colloquy
