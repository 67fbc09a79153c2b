import Colloquy.Event.Basic
import Colloquy.Model
import Colloquy.Prompt
import Colloquy.Run.Config

/-!
Visiting one node. A visit asks the model at most one thing, so it is either settled at once or
waits for one response.
-/

namespace Colloquy

structure RunState where
  input : String
  extracted : Extractions := {}
  scopes : List LoopScope := []
  /-- The label followed at each decision, latest visit. -/
  decisions : OrderedMap String := {}
  reasoning : OrderedMap String := {}

namespace RunState

def recordExtraction (state : RunState) (node : NodeId) (value : StructuredValue) : RunState :=
  { state with extracted := state.extracted.record node value }

def recordDecision (state : RunState) (node : NodeId) (label reasoning : String) : RunState :=
  { state with
    decisions := state.decisions.upsert node label
    reasoning := state.reasoning.upsert node reasoning }

end RunState

inductive Output where
  | text (text : String)
  | structured (value : StructuredValue)

namespace Output

def asText : Output → String
  | text content => content
  | structured value => value.toJson.compact

end Output

inductive Next where
  | node (id : NodeId)
  | finish (output : Output)

structure Visited where
  entry : TraceEntry
  state : RunState
  next : Next
  notices : List Diagnostic := []

inductive Visit where
  | failed (error : ConfigError)
  | passed (visited : Visited)
  | asked (request : Request) (answered : Response → Except RunError Visited)

structure Engine where
  flowchart : Flowchart
  systemPrompt : String := ""
  framing : Framing := .focus
  config : EngineConfig := {}

def unexpected (node : NodeId) (expected : String) (found : Response) : RunError :=
  .model (.unexpectedResponse node expected found.kindName)

namespace Response

def asReply (node : NodeId) : Response → Except RunError String
  | text content => .ok content
  | other => .error (unexpected node "text" other)

def asDecision (node : NodeId) : Response → Except RunError (String × String)
  | decision label reasoning => .ok (label, reasoning)
  | other => .error (unexpected node "decision" other)

def asValue (node : NodeId) (schema : Schema) : Response → Except RunError StructuredValue
  | structured value =>
    (schema.validate value).mapError fun violation =>
      .model (.schemaViolation node schema.name violation)
  | other => .error (unexpected node "structured" other)

end Response

namespace Engine

/-- Where a loop start leads, and the scopes after it. A loop that is open and innermost has already
been advanced, and its body is entered again. Otherwise the most recent value of the collection
field is taken; without elements the loop is skipped, and with some it is opened at the first. -/
def enterLoop (engine : Engine) (node : Node) (iterator collectionField : String)
    (state : RunState) : Except ConfigError (NodeId × List LoopScope) :=
  let body := node.firstTarget?.getD ""
  if state.scopes.head?.any (·.owner == node.id) then .ok (body, state.scopes)
  else
    match state.extracted.findField? collectionField with
    | none => .error (.missingCollection node.id collectionField)
    | some value =>
      match LoopScope.elements? value with
      | none => .error (.collectionNotSequence node.id collectionField)
      | some [] =>
        match (engine.flowchart.closer? node.id).bind Node.completeTarget? with
        | none => .error (.unpairedLoopStart node.id [])
        | some complete => .ok (complete, state.scopes)
      | some (first :: others) =>
        .ok (body, ⟨node.id, iterator, first :: others, 0⟩ :: state.scopes)

def advanceScope (scope : LoopScope) (outer : List LoopScope) : String × List LoopScope :=
  if scope.hasMore then (hasMoreLabel, scope.advance :: outer) else (completeLabel, outer)

/-- The label that a loop continue follows, where it leads, and the scopes after it. The loop it
closes must be the innermost one. -/
def advanceLoop (node : Node) (owner : NodeId) (scopes : List LoopScope) :
    Except ConfigError (String × NodeId × List LoopScope) :=
  match scopes with
  | [] => .error (.continueOutsideLoop node.id owner)
  | scope :: outer =>
    if scope.owner ≠ owner then .error (.continueOutsideLoop node.id owner)
    else
      let (label, scopes) := advanceScope scope outer
      match node.target? label with
      | none => .error (.loopContinueLabels node.id node.labels)
      | some target => .ok (label, target, scopes)

def request (engine : Engine) (node : Node) (prompt : Prompt) (mode : Mode) : Request where
  node := node.id
  prompt := prompt.text
  systemPrompt := engine.systemPrompt
  model := engine.config.model
  mode := mode
  temperature := node.temperature

def fallbackNotice (node : Node) (label : String) (followed : String) : Diagnostic :=
  ⟨Event.fallbackScope,
    s!"node '{node.id}' got label '{label}', expected one of {Text.quotedList node.labels}; took '{followed}'"⟩

/-- The connection that a label leads along: its own, or else the first one. -/
def followLabel (node : Node) (label : String) :
    Except ConfigError (Connection × List Diagnostic) :=
  match node.connections.find? (·.label == label) with
  | some connection => .ok (connection, [])
  | none =>
    match node.connections with
    | [] => .error (.decisionNeedsOptions node.id 0)
    | first :: _ => .ok (first, [fallbackNotice node label first.label])

def decided (node : Node) (entry : TraceEntry) (state : RunState) (response : Response) :
    Except RunError Visited := do
  let (label, reasoning) ← response.asDecision node.id
  let (followed, notices) ← (followLabel node label).mapError .configuration
  return {
    entry := { entry with
      options := node.labels
      reasoning := some reasoning
      decision := some label
      decisionFallback := !notices.isEmpty
      nextNode := some followed.target }
    state := state.recordDecision node.id followed.label reasoning
    next := .node followed.target
    notices }

def extracted (node : Node) (schema : Schema) (next : NodeId) (entry : TraceEntry)
    (state : RunState) (response : Response) : Except RunError Visited := do
  let value ← response.asValue node.id schema
  return {
    entry := { entry with extracted := some value.toJson, nextNode := some next }
    state := state.recordExtraction node.id value
    next := .node next }

def concluded (node : Node) (schema : Schema) (entry : TraceEntry) (state : RunState)
    (response : Response) : Except RunError Visited := do
  let value ← response.asValue node.id schema
  return {
    entry := { entry with extracted := some value.toJson }
    state
    next := .finish (.structured value) }

def replied (node : Node) (entry : TraceEntry) (state : RunState) (response : Response) :
    Except RunError Visited := do
  let reply ← response.asReply node.id
  return { entry, state, next := .finish (.text reply) }

/-- A visit of a node with a prompt. Only the last node, decisions and extractions ask the model. -/
def promptVisit (engine : Engine) (node : Node) (entry : TraceEntry) (state : RunState)
    (prompt : Prompt) : Visit :=
  let entry := { entry with prompt := some prompt.nodePrompt }
  let framed := { entry with framedPrompt := some prompt.text }
  let ask (mode : Mode) := Visit.asked (engine.request node prompt mode)
  if node.isTerminal then
    match node.schema with
    | some schema => ask (.structured schema) (concluded node schema framed state)
    | none => ask .text (replied node framed state)
  else
    match node.kind, node.schema with
    | .decision, _ => ask (.decision node.labels) (decided node framed state)
    | _, some schema =>
      ask (.structured schema) (extracted node schema (node.firstTarget?.getD "") framed state)
    | _, none =>
      let next := node.firstTarget?.getD ""
      .passed { entry := { entry with nextNode := some next }, state, next := .node next }

def visit (engine : Engine) (node : Node) (step : Nat) (state : RunState) : Visit :=
  let entry : TraceEntry := { step, node := node.id, kind := node.kind.name }
  match node.kind with
  | .loopStart iterator collectionField =>
    match engine.enterLoop node iterator collectionField state with
    | .error error => .failed error
    | .ok (next, scopes) =>
      .passed {
        entry := { entry with nextNode := some next }
        state := { state with scopes }
        next := .node next }
  | .loopContinue owner =>
    match advanceLoop node owner state.scopes with
    | .error error => .failed error
    | .ok (label, next, scopes) =>
      .passed {
        entry := { entry with decision := some label, nextNode := some next }
        state := { state with scopes }
        next := .node next }
  | _ =>
    match Prompt.build engine.framing node state.scopes state.extracted state.input with
    | .error error => .failed error
    | .ok prompt => engine.promptVisit node entry state prompt

end Engine

end Colloquy
