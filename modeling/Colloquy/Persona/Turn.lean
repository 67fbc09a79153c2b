import Colloquy.Json.Form
import Colloquy.Json.Reader
import Colloquy.Number.Layout
import Colloquy.Time.Date

/-!
What is known of a conversation when a message arrives, and the input made of it.
-/

namespace Colloquy

/-- An emotion in the latest message, with a score from zero to one. -/
structure Emotion where
  name : String
  score : Floating
  deriving DecidableEq, Repr

namespace Emotion

def text (emotion : Emotion) : String :=
  emotion.name ++ " (" ++ (emotion.score.scale .double 100).writeFixed 2 ++ "%)"

def scoreJson : Floating → Json
  | .finite d => .num (.float d)
  | _ => .null

def toJson (emotion : Emotion) : Json :=
  .obj [("emotion", .str emotion.name), ("score", scoreJson emotion.score)]

def fields : List String := ["emotion", "score"]

def interest : Interest := .ofFields fields

def read (json : Json) : Read Emotion := do
  let written ← Read.record fields "an emotion" json
  return {
    name := ← written.required "emotion" Read.text
    score := ← written.required "score" (Read.floating .double "a number") }

end Emotion

structure Turn where
  first : Bool := false
  sections : List (String × String) := []
  emotions : List Emotion := []
  today : Option Date := none
  deriving DecidableEq, Repr

namespace Turn

def instruction : String := "Only output message to be sent to the user."

def sectionText (titled : String × String) : String :=
  titled.1 ++ ":\n" ++ titled.2 ++ "\n\n"

def emotionsText (emotions : List Emotion) : String :=
  if emotions.isEmpty then ""
  else
    "<system note>The detected user's emotions on their last message are: [" ++
      ", ".intercalate (emotions.map fun emotion => "'" ++ emotion.text ++ "'") ++
      "]</system note>\n\n"

def todayText : Option Date → String
  | some date => "Today is " ++ date.text ++ ".\n\n"
  | none => ""

def render (turn : Turn) : String :=
  String.join (turn.sections.map sectionText) ++ emotionsText turn.emotions ++
    todayText turn.today ++ instruction

end Turn

end Colloquy
