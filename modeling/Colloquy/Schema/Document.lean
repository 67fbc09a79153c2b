import Colloquy.Json.Reader
import Colloquy.Schema.Basic
import Colloquy.Text.Blank

/-!
Schemas as documents: what is written, and the schema it describes. What a type has no use for
(items of an object, say) may be written and is ignored.
-/

namespace Colloquy

inductive TypeWord where
  | string
  | integer
  | number
  | boolean
  | array
  | object
  deriving DecidableEq, Repr

namespace TypeWord

def spellings : List (String × TypeWord) :=
  [("string", string), ("integer", integer), ("number", number), ("boolean", boolean),
   ("array", array), ("object", object)]

end TypeWord

structure FieldDocument where
  word : TypeWord
  description : Option String := none
  required : Bool := true
  items : Option FieldDocument := none
  name : Option String := none
  fields : Option (OrderedMap FieldDocument) := none

structure SchemaDocument where
  name : String
  fields : OrderedMap FieldDocument

inductive FieldKey where
  | type
  | description
  | required
  | items
  | name
  | fields

namespace FieldKey

def all : List FieldKey := [type, description, required, items, name, fields]

def spelling : FieldKey → String
  | type => "type"
  | description => "description"
  | required => "required"
  | items => "items"
  | name => "name"
  | fields => "fields"

def ofSpelling? (s : String) : Option FieldKey := all.find? (·.spelling == s)

end FieldKey

structure FieldDraft where
  word : Option TypeWord := none
  description : Option (Option String) := none
  required : Option Bool := none
  items : Option (Option FieldDocument) := none
  name : Option (Option String) := none
  fields : Option (Option (OrderedMap FieldDocument)) := none

namespace FieldDraft

def put (draft : FieldDraft) (key : FieldKey) (value : Json) (items : Unit → Read FieldDocument)
    (fields : Unit → Read (OrderedMap FieldDocument)) : Read FieldDraft := do
  let slot := key.spelling
  match key with
  | .type => return { draft with
      word := ← Read.once draft.word slot (Read.unitVariant TypeWord.spellings value) }
  | .description => return { draft with
      description := ← Read.once draft.description slot (Read.optional Read.text value) }
  | .required => return { draft with
      required := ← Read.once draft.required slot (Read.flag value) }
  | .items => return { draft with
      items := ← Read.once draft.items slot
        (if value.isNull then .ok none else some <$> items ()) }
  | .name => return { draft with
      name := ← Read.once draft.name slot (Read.optional Read.text value) }
  | .fields => return { draft with
      fields := ← Read.once draft.fields slot
        (if value.isNull then .ok none else some <$> fields ()) }

/-- The type must be there; a field is required unless it says otherwise. -/
def finish (draft : FieldDraft) (arrangement : Arrangement) : Read FieldDocument := do
  let some word := draft.word
    | throw (arrangement.missing "type" 0 "struct FieldConfig with 6 elements")
  arrangement.checkEnd FieldKey.all.length
  return {
    word
    description := draft.description.join
    required := draft.required.getD true
    items := draft.items.join
    name := draft.name.join
    fields := draft.fields.join }

end FieldDraft

namespace FieldDocument

mutual

def read : Json → Read FieldDocument
  | .obj members => do (← readMembers {} members).finish .named
  | .arr elements => do
    (← readElements {} FieldKey.all elements).finish (.positional elements.length)
  | found => .error (.invalidType found "struct FieldConfig")

def readMembers (draft : FieldDraft) : List (String × Json) → Read FieldDraft
  | [] => .ok draft
  | (name, value) :: rest =>
    match FieldKey.ofSpelling? name with
    | none => .error (.unknownField name (FieldKey.all.map (·.spelling)))
    | some key => do
      readMembers (← draft.put key value (fun _ => read value) (fun _ => readMap value)) rest

def readElements (draft : FieldDraft) : List FieldKey → List Json → Read FieldDraft
  | key :: keys, value :: rest => do
    readElements (← draft.put key value (fun _ => read value) (fun _ => readMap value)) keys rest
  | _, _ => .ok draft

def readMap : Json → Read (OrderedMap FieldDocument)
  | .obj members => readEntries .empty members
  | found => .error (.invalidType found Read.uniqueKeys)

def readEntries (earlier : OrderedMap FieldDocument) :
    List (String × Json) → Read (OrderedMap FieldDocument)
  | [] => .ok earlier
  | (name, value) :: rest => do
    let field ← read value
    if earlier.contains name then throw (.duplicateKey name)
    readEntries (earlier.push name field) rest

end

mutual

/-- The type of the field `field` of the object schema `schema`. A nested object without a name is
named after its field. -/
def toType (schema field : String) : FieldDocument → Except SchemaProblem FieldType
  | ⟨.string, _, _, _, _, _⟩ => .ok .string
  | ⟨.integer, _, _, _, _, _⟩ => .ok .integer
  | ⟨.number, _, _, _, _, _⟩ => .ok .number
  | ⟨.boolean, _, _, _, _, _⟩ => .ok .boolean
  | ⟨.array, _, _, some item, _, _⟩ => .array <$> item.toType schema field
  | ⟨.array, _, _, none, _, _⟩ => .error (.noItems schema field)
  | ⟨.object, _, _, _, name, some ⟨entries⟩⟩ =>
    if entries.isEmpty then .error (.noFields (name.getD field))
    else do return .object ⟨name.getD field, ← toFields (name.getD field) entries⟩
  | ⟨.object, _, _, _, _, none⟩ => .error (.noObjectFields schema field)

def toFields (schema : String) :
    List (String × FieldDocument) → Except SchemaProblem (List Field)
  | [] => .ok []
  | (name, ⟨word, description, required, items, objectName, fields⟩) :: rest => do
    let type ← toType schema name ⟨word, description, required, items, objectName, fields⟩
    return ⟨name, type, description, required⟩ :: (← toFields schema rest)

end

end FieldDocument

namespace SchemaDocument

inductive Key where
  | name
  | fields

def keyOf? : String → Option Key
  | "name" => some .name
  | "fields" => some .fields
  | _ => none

structure Draft where
  name : Option String := none
  fields : Option (OrderedMap FieldDocument) := none

def put (draft : Draft) (key : Key) (value : Json) : Read Draft := do
  match key with
  | .name => return { draft with name := ← Read.once draft.name "name" (Read.text value) }
  | .fields => return { draft with
      fields := ← Read.once draft.fields "fields" (FieldDocument.readMap value) }

def reader : RecordReader Key Draft :=
  ⟨keyOf?, [.name, .fields], put, some ["name", "fields"], "struct SchemaConfig"⟩

def read (json : Json) : Read SchemaDocument := do
  let (draft, arrangement) ← reader.read {} json
  let wanted := "struct SchemaConfig with 2 elements"
  let some name := draft.name | throw (arrangement.missing "name" 0 wanted)
  let some fields := draft.fields | throw (arrangement.missing "fields" 1 wanted)
  arrangement.checkEnd reader.positions.length
  return ⟨name, fields⟩

/-- The schema that the document describes: it has a name and fields, and so has every object in it,
and every array says what its items are. -/
def toSchema (document : SchemaDocument) : Except SchemaProblem Schema :=
  if Text.isBlankText document.name then .error .blankName
  else if document.fields.isEmpty then .error (.noFields document.name)
  else do return ⟨document.name, ← FieldDocument.toFields document.name document.fields.entries⟩

end SchemaDocument

/-- Reads a schema. Its shape as a document comes first; then what it describes. -/
def Schema.read (json : Json) : Read Schema := do
  match (← SchemaDocument.read json).toSchema with
  | .ok schema => return schema
  | .error problem => throw (.schema problem)

end Colloquy
