/-!
Schemas of structured values: named objects with named, typed fields in declaration order.
-/

namespace Colloquy

structure FieldOf (T : Type) where
  name : String
  type : T
  description : Option String := none
  required : Bool := true

structure SchemaOf (T : Type) where
  name : String
  fields : List (FieldOf T)

inductive FieldType where
  | string
  | integer
  | number
  | boolean
  | array (item : FieldType)
  | object (schema : SchemaOf FieldType)

abbrev Field := FieldOf FieldType

abbrev Schema := SchemaOf FieldType

namespace FieldType

def name : FieldType → String
  | string => "string"
  | integer => "integer"
  | number => "number"
  | boolean => "boolean"
  | array _ => "array"
  | object _ => "object"

end FieldType

namespace Schema

def empty (name : String) : Schema := ⟨name, []⟩

def field? (schema : Schema) (name : String) : Option Field :=
  schema.fields.find? (·.name == name)

def declares (schema : Schema) (name : String) : Bool := schema.fields.any (·.name == name)

def replaceField (field : Field) : List Field → List Field
  | [] => []
  | held :: rest =>
    if held.name = field.name then field :: rest else held :: replaceField field rest

/-- Adds a field; one of the same name is replaced in its place. -/
def withField (schema : Schema) (field : Field) : Schema :=
  if schema.declares field.name then ⟨schema.name, replaceField field schema.fields⟩
  else ⟨schema.name, schema.fields ++ [field]⟩

/-- Asks for reasoning first and then for one of the options. -/
def decision (options : List String) : Schema :=
  ⟨"DecisionSchema",
    [{ name := "reasoning", type := .string,
       description := some "Your step by step reasoning for the decision." },
     { name := "decision", type := .string,
       description := some ("Choose one of: " ++ ", ".intercalate options) }]⟩

end Schema

end Colloquy
