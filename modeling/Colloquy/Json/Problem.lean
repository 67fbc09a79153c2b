import Colloquy.Json.Printer
import Colloquy.Text.Quoted

/-!
What can be wrong with a document that is JSON but not of the wanted shape. The first problem met
from left to right is the one reported.
-/

namespace Colloquy

inductive SchemaProblem where
  | blankName
  | noFields (schema : String)
  | noItems (schema field : String)
  | noObjectFields (schema field : String)
  deriving DecidableEq, Repr

namespace SchemaProblem

def schema : SchemaProblem → String
  | blankName => "<unnamed>"
  | noFields schema => schema
  | noItems schema _ => schema
  | noObjectFields schema _ => schema

def reason : SchemaProblem → String
  | blankName => "schema name is empty"
  | noFields _ => "declares no fields"
  | noItems _ field => s!"array field '{field}' has no 'items'"
  | noObjectFields _ field => s!"object field '{field}' has no 'fields'"

def message (problem : SchemaProblem) : String :=
  s!"invalid schema '{problem.schema}': {problem.reason}"

end SchemaProblem

inductive Problem where
  | duplicateKey (key : String)
  | duplicateField (field : String)
  | unknownField (field : String) (expected : List String)
  | missingField (field : String)
  | unknownVariant (variant : String) (expected : List String)
  | invalidType (found : Json) (wanted : String)
  | invalidLength (length : Nat) (wanted : String)
  | trailing
  | expectedValue
  | invalidText (text : String)
  | schema (problem : SchemaProblem)

namespace Problem

def ticked (s : String) : String := "`" ++ s ++ "`"

def foundText : Json → String
  | .null => "null"
  | .bool b => "boolean " ++ ticked (Json.boolLiteral b)
  | .num (.int n) => "integer " ++ ticked (toString n)
  | .num (.float d) => "floating point " ++ ticked (d.write .data)
  | .str s => "string " ++ Text.quoted s
  | .arr _ => "sequence"
  | .obj _ => "map"

def expectedText (names : List String) : String :=
  match names with
  | [a, b] => s!"expected {ticked a} or {ticked b}"
  | names => "expected one of " ++ ", ".intercalate (names.map ticked)

def message : Problem → String
  | duplicateKey key => "duplicate key " ++ ticked key
  | duplicateField field => "duplicate field " ++ ticked field
  | unknownField field expected => s!"unknown field {ticked field}, {expectedText expected}"
  | missingField field => "missing field " ++ ticked field
  | unknownVariant variant expected => s!"unknown variant {ticked variant}, {expectedText expected}"
  | invalidType found wanted => s!"invalid type: {foundText found}, expected {wanted}"
  | invalidLength length wanted => s!"invalid length {length}, expected {wanted}"
  | trailing => "trailing characters"
  | expectedValue => "expected value"
  | invalidText text => "invalid value " ++ Text.quoted text
  | schema problem => problem.message

end Problem

end Colloquy
