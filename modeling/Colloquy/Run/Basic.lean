import Colloquy.Run.Visit

/-!
Runs: from the start of a flowchart, visit by visit, until a node without connections answers,
something fails, or the visits run out.
-/

namespace Colloquy

structure Journal where
  trace : Trace := []
  requests : List Request := []
  events : List Event := []

namespace Journal

def sent (journal : Journal) (request : Request) : Journal :=
  { journal with requests := journal.requests ++ [request] }

def emit (journal : Journal) (events : List Event) : Journal :=
  { journal with events := journal.events ++ events }

end Journal

def TraceEntry.progress (entry : TraceEntry) : String :=
  let next := entry.nextNode.getD "end"
  match entry.decision, entry.extracted with
  | some label, _ =>
    if entry.decisionFallback then s!"'{label}' unmatched, fell back -> {next}"
    else s!"'{label}' -> {next}"
  | none, some _ => s!"extracted -> {next}"
  | none, none => s!"-> {next}"

def TraceEntry.event (entry : TraceEntry) : Event :=
  .node ⟨some entry.node, some entry.step, entry.kind, entry.progress⟩

/-- A finished visit: its notices, its progress, and its entry. -/
def Journal.visited (journal : Journal) (visited : Visited) : Journal :=
  { journal with
    trace := journal.trace ++ [visited.entry]
    events := journal.events ++ visited.notices.map .diagnostic ++ [visited.entry.event] }

namespace Engine

def settle (engine : Engine) (client : Client) (node : NodeId) (journal : Journal) :
    Visit → Journal × Except RunError Visited
  | .failed error => (journal, .error (.configuration error))
  | .passed visited => (journal, .ok visited)
  | .asked request answered =>
    let answer := client journal.requests request
    let result := match answer.within node engine.config.invokeTimeout with
      | .error error => .error (.model error)
      | .ok response => answered response
    (journal.sent request, result)

/-- The visits from `current` on, `remaining` at the most. -/
def drive (engine : Engine) (client : Client) (runId : RunId) :
    Nat → NodeId → RunState → Journal → Journal × Except RunError (Output × RunState)
  | 0, current, _, journal =>
    let limit := engine.config.maxSteps
    let notice : Diagnostic := ⟨Event.stepLimitScope,
      s!"run {runId.text} stopped at '{current}' after {limit} visits"⟩
    (journal.emit [.diagnostic notice], .error (.configuration (.stepLimit limit)))
  | remaining + 1, current, state, journal =>
    match engine.flowchart.node? current with
    | none =>
      let last := (journal.trace.getLast?.map (·.node)).getD ""
      (journal, .error (.configuration (.danglingConnection last "" current)))
    | some node =>
      match engine.settle client node.id journal (engine.visit node journal.trace.length state) with
      | (journal, .error error) => (journal, .error error)
      | (journal, .ok visited) =>
        match visited.next with
        | .finish output => (journal.visited visited, .ok (output, visited.state))
        | .node next => drive engine client runId remaining next visited.state (journal.visited visited)

end Engine

structure Outcome where
  runId : RunId
  output : Output
  /-- Values of the nodes before the last one. -/
  extracted : Extractions
  decisions : OrderedMap String
  reasoning : OrderedMap String
  trace : Trace

structure RunStamp where
  runId : RunId
  startedAt : Instant
  finishedAt : Instant

/-- A run from outside: its result, its record, and everything sent and emitted on the way. -/
structure Transcript where
  result : Except RunError Outcome
  record : RunRecord
  requests : List Request
  events : List Event

namespace RunStatus

def ofResult {α : Type} : Except RunError α → RunStatus
  | .ok _ => .completed
  | .error error => .failed error.message

end RunStatus

def failureNotice (runId : RunId) (error : RunError) : Diagnostic :=
  ⟨Event.runFailedScope, s!"run {runId.text} failed: {error.message}"⟩

def failureNotices {α : Type} (runId : RunId) : Except RunError α → List Diagnostic
  | .ok _ => []
  | .error error => [failureNotice runId error]

namespace Engine

/-- One run from the start of the flowchart. Its record is the last event, whatever the result. -/
def run (engine : Engine) (client : Client) (stamp : RunStamp) (input : String) : Transcript :=
  let (journal, ending) := engine.drive client stamp.runId engine.config.maxSteps
    engine.flowchart.start { input } {}
  let record : RunRecord := {
    runId := stamp.runId
    startedAt := stamp.startedAt
    finishedAt := stamp.finishedAt
    input
    status := .ofResult ending
    traversal := journal.trace }
  { result := ending.map fun (output, state) => {
      runId := stamp.runId
      output
      extracted := state.extracted
      decisions := state.decisions
      reasoning := state.reasoning
      trace := journal.trace }
    record
    requests := journal.requests
    events := journal.events ++ (failureNotices stamp.runId ending).map .diagnostic ++
      [.audit record] }

def runAll (engine : Engine) (client : Client) (stamp : RunStamp) :
    List String → List Transcript
  | [] => []
  | input :: rest =>
    let transcript := engine.run client stamp input
    transcript :: engine.runAll (client.after transcript.requests) stamp rest

end Engine

end Colloquy
