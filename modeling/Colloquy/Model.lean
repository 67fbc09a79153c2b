import Colloquy.Error
import Colloquy.Json.Reader
import Colloquy.Schema.Basic

/-!
The boundary to the language model: what a visit asks, and what comes back.
-/

namespace Colloquy

inductive Mode where
  | text
  | decision (options : List String)
  | structured (schema : Schema)

namespace Mode

def name : Mode → String
  | text => "text"
  | decision _ => "decision"
  | structured _ => "structured"

end Mode

structure Request where
  node : NodeId
  prompt : String
  systemPrompt : String
  model : String
  mode : Mode
  temperature : Floating

inductive Response where
  | text (text : String)
  | decision (label reasoning : String)
  | structured (value : Json)

namespace Response

def kindName : Response → String
  | text _ => "text"
  | decision _ _ => "decision"
  | structured _ => "structured"

def toJson : Response → Json
  | text content => .obj [("type", .str "text"), ("text", .str content)]
  | decision label reasoning =>
    .obj [("type", .str "decision"), ("label", .str label), ("reasoning", .str reasoning)]
  | structured value => .obj [("type", .str "structured"), ("value", value)]

def read (json : Json) : Read Response := do
  let (word, content) ← Read.tagged "type" "a response" json
  match word with
  | "text" =>
    let written ← Read.record ["text"] "a text response" content
    return text (← written.required "text" Read.text)
  | "decision" =>
    let written ← Read.record ["label", "reasoning"] "a decision response" content
    return decision (← written.required "label" Read.text)
      (← written.required "reasoning" Read.text)
  | "structured" =>
    let written ← Read.record ["value"] "a structured response" content
    return structured (← written.required "value" Read.freeForm)
  | other => throw (.unknownVariant other ["decision", "structured", "text"])

/-- A decision answered as an object; its reasoning may be missing, its label may not. -/
def decisionOfValue (value : Json) : Except ModelError Response :=
  match (value.get? "decision").bind Json.asText? with
  | none => .error (.invocation "decision object has no string 'decision' field")
  | some label => .ok (.decision label (((value.get? "reasoning").bind Json.asText?).getD ""))

end Response

/-- What a client answers. A late answer does not arrive before any deadline there is; whoever sets
none waits for it. -/
structure Answer where
  content : Except ModelError Response
  late : Bool := false

namespace Answer

/-- The answer as it reaches a visit of `node` that waits no longer than `deadline`. -/
def within (answer : Answer) (node : NodeId) (deadline : Option Duration) :
    Except ModelError Response :=
  match answer.late, deadline with
  | true, some after => .error (.timeout node after)
  | _, _ => answer.content

end Answer

/-- A client answers a request in the light of the requests that it has received before. -/
abbrev Client := List Request → Request → Answer

def Client.after (client : Client) (requests : List Request) : Client :=
  fun earlier request => client (requests ++ earlier) request

end Colloquy
