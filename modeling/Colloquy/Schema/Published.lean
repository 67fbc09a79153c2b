import Colloquy.Json.Basic
import Colloquy.Schema.Basic

/-!
Schemas in the vocabulary of JSON Schema. Objects are closed, as the check takes them to be.
-/

namespace Colloquy

def describe (description : Option String) : Json → Json
  | .obj members => match description with
    | some text => .obj (Members.set "description" (.str text) members)
    | none => .obj members
  | other => other

def objectSchema (name : String) (properties : Members) (required : List String) : Json :=
  .obj [("additionalProperties", .bool false), ("properties", .obj properties.sorted),
    ("required", .ofTexts required), ("title", .str name), ("type", .str "object")]

mutual

def FieldType.toJsonSchema : FieldType → Json
  | .array item => .obj [("items", item.toJsonSchema), ("type", .str "array")]
  | .object ⟨name, fields⟩ =>
    objectSchema name (propertySchemas fields) ((fields.filter (·.required)).map (·.name))
  | other => .obj [("type", .str other.name)]

def propertySchemas : List (FieldOf FieldType) → List (String × Json)
  | [] => []
  | ⟨name, type, description, _⟩ :: rest =>
    (name, describe description type.toJsonSchema) :: propertySchemas rest

end

def Schema.toJsonSchema (schema : Schema) : Json := (FieldType.object schema).toJsonSchema

end Colloquy
