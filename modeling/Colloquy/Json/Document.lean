import Colloquy.Json.Parser
import Colloquy.Json.Reader

/-!
Typed data given as text.
-/

namespace Colloquy

inductive Refusal where
  | notJson
  | problem (problem : Problem)

/-- The data that a text holds. Members that nobody looks at need a correct form and no more. Once the
data is refused, a text without a value is refused as such. -/
def Read.ofText {α : Type} (interest : Interest) (read : Json → Read α) (text : String) :
    Except Refusal α :=
  match Form.parse? text with
  | none => .error .notJson
  | some form =>
    match form.select interest Form.maxDepth with
    | none => .error .notJson
    | some document =>
      match read document with
      | .ok value => .ok value
      | .error problem => .error (if form.value?.isSome then .problem problem else .notJson)

end Colloquy
