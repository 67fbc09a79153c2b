import Colloquy.Proofs.Run.Legal
import Colloquy.Proofs.Run.Prompts

/-!
What a run emits, told by its trace and its result: the events of each visit that goes well, notices
of how it failed, and at last its record.
-/

namespace Colloquy

namespace TraceEntry

def account (entry : TraceEntry) : String :=
  let taken := match entry.decision with
    | some label =>
      "'" ++ label ++ (if entry.decisionFallback then "' unmatched, fell back " else "' ")
    | none => if entry.extracted.isSome then "extracted " else ""
  taken ++ "-> " ++ entry.nextNode.getD "end"

def notices (entry : TraceEntry) : List Diagnostic :=
  let label := entry.decision.getD ""
  let first := entry.options.headD ""
  if entry.decisionFallback then
    [⟨"decision_fallback",
      s!"node '{entry.node}' got label '{label}', expected one of {Text.quotedList entry.options}; took '{first}'"⟩]
  else []

def events (entry : TraceEntry) : List Event :=
  entry.notices.map .diagnostic ++
    [.node ⟨some entry.node, some entry.step, entry.kind, entry.account⟩]

theorem event_eq (entry : TraceEntry) :
    entry.event = .node ⟨some entry.node, some entry.step, entry.kind, entry.account⟩ := by
  unfold event progress account
  cases entry.decision <;> cases entry.decisionFallback <;> cases entry.extracted <;>
    simp [String.append_assoc] <;> rfl

end TraceEntry

/-- How a run ends: its result, the status of its record, and its last notices. -/
inductive Engine.Concludes (engine : Engine) (runId : RunId) (trace : Trace) :
    Except RunError Outcome → RunStatus → List Diagnostic → Prop
  | completed (outcome : Outcome) : Concludes engine runId trace (.ok outcome) .completed []
  | limited {stop : NodeId} {error : RunError}
      (limit : error = .configuration (.stepLimit engine.config.maxSteps))
      (due : trace.getLast?.elim (some engine.flowchart.start) (·.nextNode) = some stop) :
      Concludes engine runId trace (.error error) (.failed error.message)
        [⟨"step_limit",
          s!"run {runId.text} stopped at '{stop}' after {engine.config.maxSteps} visits"⟩,
          ⟨"run_failed", s!"run {runId.text} failed: {error.message}"⟩]
  | failed {error : RunError} (other : ∀ limit, error ≠ .configuration (.stepLimit limit)) :
      Concludes engine runId trace (.error error) (.failed error.message)
        [⟨"run_failed", s!"run {runId.text} failed: {error.message}"⟩]

theorem Engine.Concludes.notices_of_limit {engine : Engine} {runId : RunId} {trace : Trace}
    {limit : Nat} {status : RunStatus} {notices : List Diagnostic} {stop : NodeId}
    (concludes : engine.Concludes runId trace (.error (.configuration (.stepLimit limit))) status
      notices)
    (due : trace.getLast?.elim (some engine.flowchart.start) (·.nextNode) = some stop) :
    notices = [⟨"step_limit", s!"run {runId.text} stopped at '{stop}' after {limit} visits"⟩,
      ⟨"run_failed",
        s!"run {runId.text} failed: {(RunError.configuration (.stepLimit limit)).message}"⟩] := by
  cases concludes with
  | limited same reached =>
    cases same
    obtain rfl := Option.some.inj (due.symm.trans reached)
    rfl
  | failed other => exact absurd rfl (other limit)

namespace Ending

def notices (engine : Engine) (runId : RunId) : Ending → List Diagnostic
  | capped stop => [engine.capNotice runId stop]
  | failed _ _ => []
  | completed _ _ => []

end Ending

theorem FollowsLabel.notices_eq {node : Node} {label : String} {connection : Connection}
    {notices : List Diagnostic} (follows : FollowsLabel node label connection notices)
    {entry : TraceEntry} (named : entry.node = node.id) (records : entry.decision = some label)
    (options : entry.options = node.labels) (fallback : entry.decisionFallback = !notices.isEmpty) :
    notices = entry.notices := by
  cases follows with
  | own => simp [TraceEntry.notices, fallback]
  | first unknown head =>
    have first : node.labels.head? = some connection.label := by simp [Node.labels, head]
    simp [TraceEntry.notices, fallback, named, records, options, first, Engine.fallbackNotice,
      Event.fallbackScope]

theorem Settles.notices_eq {engine : Engine} {client : Client} {earlier : List Request} {step : Nat}
    {node : Node} {state : RunState} {visited : Visited}
    (settles : Settles engine client earlier step node state visited) :
    visited.notices = visited.entry.notices := by
  cases settles with
  | passed passes => cases passes <;> rfl
  | asked _ _ _ heeds =>
    cases heeds with
    | decided _ follows => exact (Engine.followLabel_follows follows).notices_eq rfl rfl rfl rfl
    | extracted | concluded | replied => rfl

namespace Engine.Course

variable {engine : Engine} {client : Client} {runId : RunId} {remaining : Nat} {current : NodeId}
  {state : RunState} {journal final : Journal} {strides : List Stride} {ending : Ending}

theorem emits (valid : engine.flowchart.Valid)
    (course : engine.Course client runId remaining current state journal strides ending final) :
    final.events = journal.events ++
      (strides.map (·.visited.entry)).flatMap TraceEntry.events ++
      (ending.notices engine runId).map .diagnostic := by
  induction course with
  | capped => simp [Journal.emit, Ending.notices]
  | failed found settled =>
    obtain ⟨sent, -, rfl⟩ := settle_error valid found settled
    simp [Journal.asked, Ending.notices]
  | completed found settled last =>
    obtain ⟨settles, rfl⟩ := settle_ok valid found settled
    simp [Journal.asked, Journal.visited, Ending.notices, TraceEntry.events, TraceEntry.event_eq,
      settles.notices_eq]
  | step found settled leads rest ih =>
    obtain ⟨settles, rfl⟩ := settle_ok valid found settled
    rw [ih]
    simp [Journal.asked, Journal.visited, TraceEntry.events, TraceEntry.event_eq,
      settles.notices_eq]

theorem concludes_with (valid : engine.flowchart.Valid) (stamp : RunStamp) {input : String}
    (course : engine.Course client stamp.runId engine.config.maxSteps engine.flowchart.start
      { input } {} strides ending final) :
    engine.Concludes stamp.runId (strides.map (·.visited.entry))
      (engine.run client stamp input).result (engine.run client stamp input).record.status
      (ending.notices engine stamp.runId ++
        failureNotices stamp.runId (engine.run client stamp input).result) := by
  have status : (engine.run client stamp input).record.status =
      .ofResult (ending.result engine.config.maxSteps) := by
    rw [Engine.run, course.drive_eq]
  rw [status, course.run_result]
  cases ending with
  | capped stop =>
    refine .limited rfl ?_
    rw [List.getLast?_map, Option.elim_map]
    exact (course.stops valid rfl).2
  | failed stop error =>
    refine .failed fun limit same => ?_
    obtain ⟨_, ⟨⟩⟩ := course.capped_of_limit valid (congrArg Except.error same)
  | completed output gathered => exact .completed _

end Engine.Course

/-- The events of a run are those of its visits, its last notices, and its record. -/
theorem Engine.run_emits {engine : Engine} (valid : engine.flowchart.Valid) (client : Client)
    (stamp : RunStamp) (input : String) : ∃ notices,
      engine.Concludes stamp.runId (engine.run client stamp input).record.traversal
        (engine.run client stamp input).result (engine.run client stamp input).record.status
        notices ∧
      (engine.run client stamp input).events =
        (engine.run client stamp input).record.traversal.flatMap TraceEntry.events ++
          notices.map .diagnostic ++ [.audit (engine.run client stamp input).record] := by
  obtain ⟨ending, final, course, -, -⟩ := Engine.run_course valid client stamp input
  refine ⟨_, engine.run_trace client stamp input ▸ course.concludes_with valid stamp, ?_⟩
  rw [course.run_events, course.emits valid, engine.run_trace, List.map_append]
  simp only [List.nil_append, List.append_assoc]

structure Transcript.Reports (transcript : Transcript) (engine : Engine) (runId : RunId)
    (input : String) (strides : List Stride) : Prop where
  traversal : transcript.record.traversal = strides.map (·.visited.entry)
  events : ∃ notices,
    engine.Concludes runId transcript.record.traversal transcript.result transcript.record.status
      notices ∧
    transcript.events = transcript.record.traversal.flatMap TraceEntry.events ++
      notices.map .diagnostic ++ [.audit transcript.record]
  input : transcript.record.input = input
  trace : ∀ outcome, transcript.result = .ok outcome →
    outcome.trace = transcript.record.traversal
  visited : ∀ event, .node event ∈ transcript.events →
    ∃ step < transcript.record.traversal.length, event.step = some step

section

variable {engine : Engine} {specs : List NodeSpec}

/-- A run emits for each visit of its trace the fallback it took, if it took one, and the node, then
what it failed for, and at last its record. -/
theorem events_told_by_trace (compiled : Flowchart.compile specs = .ok engine.flowchart)
    (client : Client) (stamp : RunStamp) (input : String) :
    (engine.run client stamp input).Reports engine stamp.runId input
      (engine.strides client input) := by
  have valid := compile_valid compiled
  obtain ⟨ending, final, course, -, -⟩ := Engine.run_course valid client stamp input
  have traced := engine.run_trace client stamp input
  obtain ⟨notices, concludes, emitted⟩ := Engine.run_emits valid client stamp input
  refine ⟨traced, ⟨notices, concludes, emitted⟩, rfl, ?_, ?_⟩
  · intro outcome completed
    obtain ⟨output, gathered, -, rfl⟩ := course.completed_of_ok completed
    exact course.run_traversal.symm
  · intro event member
    rw [emitted] at member
    obtain ⟨entry, told, rfl⟩ : ∃ entry ∈ (engine.run client stamp input).record.traversal,
        event = ⟨some entry.node, some entry.step, entry.kind, entry.account⟩ := by
      simpa [TraceEntry.events] using member
    rw [traced] at told ⊢
    obtain ⟨stride, taken, rfl⟩ := List.mem_map.mp told
    obtain ⟨earlier, later, split⟩ := List.append_of_mem taken
    obtain ⟨-, settles⟩ := course.settles valid earlier stride later split
    exact ⟨earlier.length, by simp [split], by simp [settles.entry.1]⟩

end

namespace Interview

def hurried : Engine := { engine with config := { maxSteps := 8 } }

theorem hurried_compiles : Flowchart.compile interview = .ok hurried.flowchart := compiles

theorem hurried_result : (hurried.run client RollCall.stamp "Hi").result =
    .error (.configuration (.stepLimit 8)) := rfl

theorem hurried_stop : (hurried.run client RollCall.stamp "Hi").record.traversal.getLast?.elim
    (some hurried.flowchart.start) (·.nextNode) = some "next" := rfl

end Interview

open Interview in
theorem interview_events :
    Flowchart.compile interview = .ok hurried.flowchart ∧
    ∃ transcript,
      transcript = hurried.run client RollCall.stamp "Hi" ∧
      transcript.events.map (·.scope) = ["extraction", "loop_start", "extraction", "decision",
        "plain", "loop_continue", "extraction", "decision_fallback", "decision", "step_limit",
        "run_failed", "audit"] ∧
      transcript.record.traversal.getLast?.map TraceEntry.events = some
        [.diagnostic ⟨"decision_fallback",
          "node 'judge' got label 'mixed', expected one of [\"clear\", \"vague\"]; took 'clear'"⟩,
          .node ⟨some "judge", some 7, "decision", "'mixed' unmatched, fell back -> next"⟩] ∧
      transcript.events = transcript.record.traversal.flatMap TraceEntry.events ++
        [.diagnostic ⟨"step_limit",
            "run 00000000-0000-0000-0000-000000000000 stopped at 'next' after 8 visits"⟩,
          .diagnostic ⟨"run_failed", "run 00000000-0000-0000-0000-000000000000 failed: " ++
            "run exceeded the limit of 8 node visits"⟩,
          .audit transcript.record] ∧
      transcript.record.status = .failed "run exceeded the limit of 8 node visits" := by
  have told := events_told_by_trace hurried_compiles client RollCall.stamp "Hi"
  obtain ⟨notices, concludes, emitted⟩ := told.events
  refine ⟨hurried_compiles, _, rfl, rfl, rfl, ?_, rfl⟩
  rw [hurried_result] at concludes
  rw [emitted, concludes.notices_of_limit hurried_stop, List.append_assoc]
  rfl

end Colloquy
