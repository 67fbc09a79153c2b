import Colloquy.Error
import Colloquy.Json.Form
import Colloquy.Json.Reader

/-!
The trace of a run: one entry for each visit, in order. Entries are written and read as data; what
is empty is not written, and what is not written is empty.
-/

namespace Colloquy

structure TraceEntry where
  step : Nat
  node : NodeId
  kind : String
  /-- The prompt without its frame; loop nodes have none. -/
  prompt : Option String := none
  framedPrompt : Option String := none
  options : List String := []
  reasoning : Option String := none
  /-- The model's label at a decision, the followed one at a loop continue. -/
  decision : Option String := none
  /-- The model's label matched no connection, and the first one was followed. -/
  decisionFallback : Bool := false
  /-- Absent after the visit that ends the run. -/
  nextNode : Option NodeId := none
  extracted : Option Json := none

abbrev Trace := List TraceEntry

namespace TraceEntry

def textMember (key : String) : Option String → Members
  | some text => [(key, .str text)]
  | none => []

def members (entry : TraceEntry) : Members :=
  [("step", .ofNat entry.step), ("node_id", .str entry.node), ("kind", .str entry.kind)] ++
    textMember "prompt" entry.prompt ++
    textMember "framed_prompt" entry.framedPrompt ++
    (if entry.options.isEmpty then [] else [("options", .ofTexts entry.options)]) ++
    textMember "reasoning" entry.reasoning ++
    textMember "decision" entry.decision ++
    [("decision_fallback", .bool entry.decisionFallback),
     ("next_node", .ofText? entry.nextNode)] ++
    (match entry.extracted with
     | some value => [("extracted", value)]
     | none => [])

def toJson (entry : TraceEntry) : Json := .obj entry.members

def fields : List String :=
  ["step", "node_id", "kind", "prompt", "framed_prompt", "options", "reasoning", "decision",
   "decision_fallback", "next_node", "extracted"]

def interest : Interest := .ofFields fields

/-- Step, node and kind must be there. By position so must the next node. -/
def read (json : Json) : Read TraceEntry := do
  let written ← Read.record fields "a trace entry" json
  return {
    step := ← written.required "step" (Read.natural "a count")
    node := ← written.required "node_id" Read.text
    kind := ← written.required "kind" Read.text
    prompt := ← written.withDefault "prompt" none (Read.optional Read.text)
    framedPrompt := ← written.withDefault "framed_prompt" none (Read.optional Read.text)
    options := ← written.withDefault "options" [] (Read.list Read.text "a sequence")
    reasoning := ← written.withDefault "reasoning" none (Read.optional Read.text)
    decision := ← written.withDefault "decision" none (Read.optional Read.text)
    decisionFallback := ← written.withDefault "decision_fallback" false Read.flag
    nextNode := ← written.nullable "next_node" Read.text
    extracted := ← written.withDefault "extracted" none (Read.optional Read.freeForm) }

end TraceEntry

namespace Trace

def toJson (trace : Trace) : Json := .arr (trace.map TraceEntry.toJson)

def interest : Interest := .list TraceEntry.interest

def read (json : Json) : Read Trace := Read.list TraceEntry.read "a sequence" json

def path (trace : Trace) : List NodeId := trace.map (·.node)

def visits (trace : Trace) (node : NodeId) : List TraceEntry := trace.filter (·.node == node)

end Trace

end Colloquy
