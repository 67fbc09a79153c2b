import Colloquy.Persona.Bundled
import Colloquy.Text.Pattern

/-!
Personas: a name, a system prompt and two flowcharts, one for the first message of a day and one for
all others.
-/

namespace Colloquy

namespace Speaker

/-- The name, a remark in parentheses and a colon. Blanks may stand around the remark and behind the
colon; the name is taken literally. -/
def pattern (name : List Char) : Text.Pattern :=
  Text.Pattern.literal name ++
    [.many Text.isBlank, .one (· == '('), .many (· != ')'), .one (· == ')'), .many Text.isBlank,
      .one (· == ':'), .many Text.isBlank]

def afterColon? (name cs : List Char) : Option (List Char) := do
  match ← name.isPrefixOf? cs with
  | ':' :: rest => some (Text.trimLeft rest)
  | _ => none

def after? (name cs : List Char) : Option (List Char) :=
  ((pattern name).rest? cs).orElse fun _ => afterColon? name cs

end Speaker

structure Persona where
  name : String
  systemPrompt : String
  greeting : Flowchart
  conversation : Flowchart

namespace Persona

def new (name systemPrompt : String) (greeting conversation : Flowchart) :
    Except ConfigError Persona :=
  if Text.isBlankText name then .error (.invalidPersona name "name is blank")
  else .ok { name, systemPrompt, greeting, conversation }

def stripSpeaker (persona : Persona) (text : String) : String :=
  match Speaker.after? persona.name.toList text.toList with
  | some rest => String.ofList rest
  | none => text

def defaultName : String := "Jarvis"

def activityPrompt (name : String) : String :=
  s!"You are {name}, an AI assistant helping the user track their activities.\n" ++
    "Follow the instruction wrapped in <focus> tags carefully and provide appropriate responses, " ++
    "while always keeping your friendly personality and a connection to the conversation thread.\n" ++
    "Just like a human would do.\n" ++
    "That instruction does not come from the user, but you must address it.\n" ++
    "Always consider the entire conversation history when making decisions or responses.\n" ++
    "Respond in the same language as the initial input.\n"

def weekPrompt (name : String) : String :=
  s!"You are {name}, an AI assistant helping the user adapt their plans for the following week.\n" ++
    "Respond to the user in the same language that they talk to you in.\n"

def activityLogger : Except ConfigError Persona := do
  let greeting ← Flowchart.compile Bundled.activityGreeting
  let conversation ← Flowchart.compile Bundled.activityLogging
  new defaultName (activityPrompt defaultName) greeting conversation

def weekReviewer : Except ConfigError Persona := do
  let greeting ← Flowchart.compile Bundled.weekGreeting
  let conversation ← Flowchart.compile Bundled.weekReview
  new defaultName (weekPrompt defaultName) greeting conversation

end Persona

end Colloquy
