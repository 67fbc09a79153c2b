import Colloquy.Run.Record

/-!
Events: the progress of a run through its nodes, what deserves attention, and the record of a
finished run.
-/

namespace Colloquy

structure NodeEvent where
  node : Option NodeId
  step : Option Nat
  scope : String
  message : String
  deriving DecidableEq, Repr

structure Diagnostic where
  scope : String
  message : String
  deriving DecidableEq, Repr

inductive Event where
  | node (event : NodeEvent)
  | diagnostic (event : Diagnostic)
  | audit (record : RunRecord)

namespace Event

def fallbackScope : String := "decision_fallback"

def stepLimitScope : String := "step_limit"

def runFailedScope : String := "run_failed"

def typeName : Event → String
  | node _ => "node"
  | diagnostic _ => "diagnostic"
  | audit _ => "audit"

def scope : Event → String
  | node event => event.scope
  | diagnostic event => event.scope
  | audit _ => "audit"

def message : Event → String
  | node event => event.message
  | diagnostic event => event.message
  | audit record => record.summary

def display : Event → String
  | node ⟨some id, some step, _, message⟩ => s!"[{id}@{step}] {message}"
  | node ⟨some id, none, _, message⟩ => s!"[{id}] {message}"
  | node ⟨none, some step, _, message⟩ => s!"[step {step}] {message}"
  | node ⟨none, none, _, message⟩ => message
  | diagnostic event => s!"[{event.scope}] {event.message}"
  | audit record => s!"[audit] {record.summary}"

def metadata : Event → Json
  | node event =>
    .obj ((match event.node with
        | some id => [("node_id", .str id)]
        | none => []) ++
      (match event.step with
        | some step => [("step", .ofNat step)]
        | none => []))
  | diagnostic _ => .obj []
  | audit record => record.toJson

def timestamp? : Event → Option Instant
  | audit record => some record.finishedAt
  | _ => none

/-- The same members for every event, keys sorted at any depth. -/
def report (event : Event) : Json :=
  let timestamp : Members := match event.timestamp? with
    | some instant => [("timestamp", .str instant.offsetText)]
    | none => []
  Json.canonical (.obj ([("type", .str event.typeName), ("scope", .str event.scope),
    ("message", .str event.message), ("metadata", event.metadata)] ++ timestamp))

end Event

namespace NodeEvent

def toJson (event : NodeEvent) : Json :=
  .obj [("node_id", .ofText? event.node),
    ("step", match event.step with
      | some step => .ofNat step
      | none => .null),
    ("scope", .str event.scope), ("message", .str event.message)]

def fields : List String := ["node_id", "step", "scope", "message"]

def interest : Interest := .ofFields fields

def read (json : Json) : Read NodeEvent := do
  let written ← Read.record fields "a node event" json
  return {
    node := ← written.nullable "node_id" Read.text
    step := ← written.nullable "step" (Read.natural "a count")
    scope := ← written.required "scope" Read.text
    message := ← written.required "message" Read.text }

end NodeEvent

namespace Diagnostic

def toJson (event : Diagnostic) : Json :=
  .obj [("scope", .str event.scope), ("message", .str event.message)]

def fields : List String := ["scope", "message"]

def interest : Interest := .ofFields fields

def read (json : Json) : Read Diagnostic := do
  let written ← Read.record fields "a diagnostic" json
  return {
    scope := ← written.required "scope" Read.text
    message := ← written.required "message" Read.text }

end Diagnostic

namespace Event

def toJson : Event → Json
  | node event => .obj [("Node", event.toJson)]
  | diagnostic event => .obj [("Diagnostic", event.toJson)]
  | audit record => .obj [("Audit", record.toJson)]

def interest : Interest :=
  .record [("Node", NodeEvent.interest), ("Diagnostic", Diagnostic.interest),
    ("Audit", RunRecord.interest)]

/-- One event under the name of its kind, and nothing else. -/
def read : Json → Read Event
  | .obj ((kind, content) :: rest) => do
    let event ← match kind with
      | "Node" => node <$> NodeEvent.read content
      | "Diagnostic" => diagnostic <$> Diagnostic.read content
      | "Audit" => audit <$> RunRecord.read content
      | other => throw (.unknownVariant other ["Node", "Diagnostic", "Audit"])
    if rest.isEmpty then return event else throw .expectedValue
  | _ => .error .expectedValue

end Event

end Colloquy
