import Colloquy.Error
import Colloquy.Json.Reader

/-!
What a node does: the kind a spec asks for, and the kind a compiled node has.
-/

namespace Colloquy

def hasMoreLabel : String := "HasMore"

def completeLabel : String := "Complete"

inductive KindHint where
  | plain
  | decision
  | extraction
  | loopStart
  | loopContinue
  deriving DecidableEq, Repr

namespace KindHint

def name : KindHint → String
  | plain => "plain"
  | decision => "decision"
  | extraction => "extraction"
  | loopStart => "loop_start"
  | loopContinue => "loop_continue"

def spellings : List (String × KindHint) :=
  [("plain", plain), ("decision", decision), ("extraction", extraction),
   ("loopStart", loopStart), ("loop_start", loopStart),
   ("loopContinue", loopContinue), ("loop_continue", loopContinue)]

def read : Json → Read KindHint := Read.unitVariant spellings

end KindHint

/-- The kind of a compiled node. A node that ends the run is not a kind of its own: it is one
without connections. -/
inductive NodeKind where
  | plain
  | decision
  | extraction
  | loopStart (iterator collectionField : String)
  | loopContinue (loopStart : NodeId)
  deriving DecidableEq, Repr

namespace NodeKind

def name : NodeKind → String
  | plain => "plain"
  | decision => "decision"
  | extraction => "extraction"
  | loopStart _ _ => "loop_start"
  | loopContinue _ => "loop_continue"

def isLoop : NodeKind → Bool
  | loopStart _ _ => true
  | loopContinue _ => true
  | _ => false

def isDecision : NodeKind → Bool
  | decision => true
  | _ => false

def toJson : NodeKind → Json
  | loopStart iterator collectionField => .obj [("kind", .str "loop_start"),
      ("iterator", .str iterator), ("collection_field", .str collectionField)]
  | loopContinue owner => .obj [("kind", .str "loop_continue"), ("loop_start", .str owner)]
  | kind => .obj [("kind", .str kind.name)]

def bare (kind : NodeKind) (content : Json) : Read NodeKind := do
  let _ ← Read.record [] "a node kind" content
  return kind

/-- The kind under its tag. Members that a kind does not need are ignored. -/
def read (json : Json) : Read NodeKind := do
  let (word, content) ← Read.tagged "kind" "a node kind" json
  match word with
  | "plain" => bare plain content
  | "decision" => bare decision content
  | "extraction" => bare extraction content
  | "loop_start" =>
    let written ← Read.record ["iterator", "collection_field"] "a loop start" content
    return loopStart (← written.required "iterator" Read.text)
      (← written.required "collection_field" Read.text)
  | "loop_continue" =>
    let written ← Read.record ["loop_start"] "a loop continue" content
    return loopContinue (← written.required "loop_start" Read.text)
  | other => throw (.unknownVariant other
      ["plain", "decision", "extraction", "loop_start", "loop_continue"])

end NodeKind

end Colloquy
