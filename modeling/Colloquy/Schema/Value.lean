import Colloquy.Json.Printer
import Colloquy.Schema.Basic
import Colloquy.Schema.Violation

/-!
Values that conform to a schema: the check, which finds the first violation, and the rendering of
the declared fields.
-/

namespace Colloquy

def undeclared? (schema : String) (fields : List (FieldOf FieldType)) (members : Members) :
    Option Violation :=
  (members.find? fun (key, _) => !fields.any (·.name == key)).map fun (key, _) =>
    ⟨[.field key], .undeclared schema⟩

mutual

def FieldType.violation? : FieldType → Json → Option Violation
  | .string, .str _ => none
  | .integer, .num n => if n.isWhole then none else some (.here (.wrongType "integer" "number"))
  | .number, .num _ => none
  | .boolean, .bool _ => none
  | .array item, .arr values =>
    values.zipIdx.findSome? fun (value, i) => (item.violation? value).map (.within (.index i))
  | .array _, found => some (.here (.notAnArray found.kindName))
  | .object ⟨name, fields⟩, .obj members =>
    match fieldsViolation? fields members with
    | some violation => some violation
    | none => undeclared? name fields members
  | .object schema, found => some (.here (.notAnObject schema.name found.kindName))
  | expected, found => some (.here (.wrongType expected.name found.kindName))

/-- The declared fields, in declaration order. One that is not required may be absent or null. -/
def fieldsViolation? : List (FieldOf FieldType) → Members → Option Violation
  | [], _ => none
  | ⟨name, type, _, required⟩ :: rest, members =>
    let found : Option Violation := match members.get? name with
      | none => if required then some (.here .missing) else none
      | some value => if value.isNull && !required then none else type.violation? value
    match found with
    | some violation => some (violation.within (.field name))
    | none => fieldsViolation? rest members

end

/-- An object that passed the check against its schema, as it was given. -/
structure StructuredValue where
  schema : Schema
  members : Members

def Schema.validate (schema : Schema) : Json → Except Violation StructuredValue
  | .obj members =>
    match (FieldType.object schema).violation? (.obj members) with
    | some violation => .error violation
    | none => .ok ⟨schema, members⟩
  | found => .error (.here (.notAnObject schema.name found.kindName))

mutual

/-- One line of JSON, where the members of an object follow the declaration and absent ones are
null. -/
def FieldType.render : FieldType → Json → String
  | .array item, .arr values => "[" ++ ",".intercalate (values.map item.render) ++ "]"
  | .object ⟨_, fields⟩, .obj members =>
    "\x7b" ++ ",".intercalate (renderMembers fields members) ++ "\x7d"
  | _, value => value.compact

def renderMembers : List (FieldOf FieldType) → Members → List String
  | [], _ => []
  | ⟨name, type, _, _⟩ :: rest, members =>
    (Json.textLiteral name ++ ":" ++ type.render ((members.get? name).getD .null)) ::
      renderMembers rest members

end

namespace StructuredValue

def toJson (value : StructuredValue) : Json := .obj value.members

def get? (value : StructuredValue) (field : String) : Option Json := value.members.get? field

def renderField (value : StructuredValue) (field : Field) : String :=
  field.name ++ ": " ++ field.type.render ((value.get? field.name).getD .null)

/-- The declared fields in declaration order, their names bare. -/
def renderFields (value : StructuredValue) : String :=
  "\x7b" ++ ", ".intercalate (value.schema.fields.map value.renderField) ++ "\x7d"

end StructuredValue

end Colloquy
