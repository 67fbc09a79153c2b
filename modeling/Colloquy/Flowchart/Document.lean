import Colloquy.Flowchart.Spec
import Colloquy.Json.Parser
import Colloquy.Schema.Document

/-!
Flowcharts as documents: one object keyed by node ids. The order of nodes, of connections and of
schema fields is that of the document; the order of the keys of a node means nothing, and several
keys have two spellings.
-/

namespace Colloquy

inductive NodeKey where
  | text
  | connections
  | schema
  | temperature
  | kind
  | iterator
  | collection
  | loopStart
  deriving DecidableEq, Repr

namespace NodeKey

/-- The order of the keys where they are not written. -/
def all : List NodeKey :=
  [text, connections, schema, temperature, kind, iterator, collection, loopStart]

def name : NodeKey → String
  | text => "text"
  | connections => "connections"
  | schema => "schema"
  | temperature => "temperature"
  | kind => "kind"
  | iterator => "iterator"
  | collection => "collection"
  | loopStart => "loop_start"

def spellings : List (String × NodeKey) :=
  [("promptTemplate", text), ("text", text), ("connections", connections), ("schema", schema),
   ("temperature", temperature), ("kind", kind), ("type", kind), ("iterator", iterator),
   ("iteratorName", iterator), ("collection", collection), ("collectionFieldName", collection),
   ("loopStart", loopStart), ("loop_start", loopStart)]

def ofSpelling? (s : String) : Option NodeKey := (spellings.find? (·.1 == s)).map (·.2)

end NodeKey

structure NodeDraft where
  text : Option String := none
  connections : Option (OrderedMap NodeId) := none
  schema : Option (Option Schema) := none
  temperature : Option (Option Floating) := none
  kind : Option (Option KindHint) := none
  iterator : Option (Option String) := none
  collection : Option (Option String) := none
  loopStart : Option (Option NodeId) := none

namespace NodeDraft

def put (draft : NodeDraft) (key : NodeKey) (value : Json) : Read NodeDraft := do
  let slot := key.name
  match key with
  | .text => return { draft with text := ← Read.once draft.text slot (Read.text value) }
  | .connections => return { draft with
      connections := ← Read.once draft.connections slot (Read.orderedMap Read.text value) }
  | .schema => return { draft with
      schema := ← Read.once draft.schema slot (Read.optional Schema.read value) }
  | .temperature => return { draft with
      temperature := ← Read.once draft.temperature slot
        (Read.optional (Read.floating .single "f32") value) }
  | .kind => return { draft with
      kind := ← Read.once draft.kind slot (Read.optional KindHint.read value) }
  | .iterator => return { draft with
      iterator := ← Read.once draft.iterator slot (Read.optional Read.text value) }
  | .collection => return { draft with
      collection := ← Read.once draft.collection slot (Read.optional Read.text value) }
  | .loopStart => return { draft with
      loopStart := ← Read.once draft.loopStart slot (Read.optional Read.text value) }

def reader : RecordReader NodeKey NodeDraft :=
  ⟨NodeKey.ofSpelling?, NodeKey.all, put, some (NodeKey.spellings.map (·.1)), "struct NodeConfig"⟩

/-- What is not written is absent, and an absent text is empty. -/
def toSpec (draft : NodeDraft) (id : NodeId) : NodeSpec where
  id := id
  text := draft.text.getD ""
  connections := (draft.connections.getD .empty).entries
  schema := draft.schema.join
  temperature := draft.temperature.join
  kind := draft.kind.join
  iterator := draft.iterator.join
  collection := draft.collection.join
  loopStart := draft.loopStart.join

def read (json : Json) : Read NodeDraft := do
  let (draft, arrangement) ← reader.read {} json
  arrangement.checkEnd NodeKey.all.length
  return draft

end NodeDraft

namespace NodeSpec

def readAll (document : Json) : Read (List NodeSpec) := do
  let nodes ← Read.orderedMap NodeDraft.read document
  return nodes.entries.map fun (id, draft) => draft.toSpec id

/-- The specs of a text, which must be JSON before anything else. -/
def parseAll (text : String) : Except ConfigError (List NodeSpec) :=
  match Json.parse? text with
  | none => .error .notJson
  | some document => (readAll document).mapError .malformedDocument

end NodeSpec

end Colloquy
