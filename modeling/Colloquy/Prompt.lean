import Colloquy.Extraction
import Colloquy.Flowchart.Basic
import Colloquy.Run.Scope
import Colloquy.Template

/-!
Prompts: a node's template with its placeholders replaced, framed with the context and the input.
-/

namespace Colloquy

/-- Frames a node prompt with the context block, which is empty or starts with a blank line, and the
input of the run. -/
abbrev Framing := (nodePrompt contextBlock input : String) → String

def Framing.focus : Framing := fun nodePrompt contextBlock input =>
  "<focus>'" ++ nodePrompt ++ contextBlock ++ "'</focus>\n Context\n" ++ input ++ "\n"

structure Prompt where
  nodePrompt : String
  text : String
  deriving DecidableEq, Repr

namespace Prompt

/-- Every placeholder stands for the element that the innermost loop of that name has reached. -/
def renderTemplate (node : Node) (scopes : List LoopScope) : Except ConfigError String :=
  match Template.segments node.template with
  | none => .error (.malformedPlaceholder node.id)
  | some segments =>
    (Template.substitute (LoopScope.binding? scopes) segments).mapError (.unboundVariable node.id)

def build (framing : Framing) (node : Node) (scopes : List LoopScope) (extracted : Extractions)
    (input : String) : Except ConfigError Prompt := do
  let nodePrompt ← renderTemplate node scopes
  return ⟨nodePrompt, framing nodePrompt extracted.contextBlock input⟩

end Prompt

end Colloquy
