import Colloquy.Error
import Colloquy.Schema.Value

/-!
What a run has extracted so far. The values of a node stand together, nodes in the order of their
first values; where the value of each visit stands is kept apart, in the order of the visits.
-/

namespace Colloquy

/-- The values of one node: one, or several once the node is visited again. -/
inductive Extraction where
  | single (value : StructuredValue)
  | accumulated (values : List StructuredValue)

namespace Extraction

def values : Extraction → List StructuredValue
  | single value => [value]
  | accumulated values => values

def latest? : Extraction → Option StructuredValue
  | single value => some value
  | accumulated values => values.getLast?

def push (value : StructuredValue) : Extraction → Extraction
  | single first => accumulated [first, value]
  | accumulated values => accumulated (values ++ [value])

def kindName : Extraction → String
  | single _ => "single"
  | accumulated _ => "accumulated"

def toJson : Extraction → Json
  | single value => value.toJson
  | accumulated values => .arr (values.map (·.toJson))

end Extraction

namespace Extractions

structure Store where
  entries : List (NodeId × Extraction) := []
  /-- For each value, the place of its entry and its place among the values there. -/
  visits : List (Nat × Nat) := []

namespace Store

def record (store : Store) (node : NodeId) (value : StructuredValue) : Store :=
  match store.entries.findFinIdx? (·.1 == node) with
  | some place =>
    let (id, extraction) := store.entries[place]
    let extraction := extraction.push value
    { entries := store.entries.set place (id, extraction)
      visits := store.visits ++ [(place.val, extraction.values.length - 1)] }
  | none =>
    { entries := store.entries ++ [(node, .single value)]
      visits := store.visits ++ [(store.entries.length, 0)] }

def recordAll (store : Store) (told : List (NodeId × StructuredValue)) : Store :=
  told.foldl (fun store (node, value) => store.record node value) store

/-- The store has been filled by recording, and in no other way. -/
def Recorded (store : Store) : Prop := ∃ told, store = recordAll {} told

theorem recorded_empty : Recorded {} := ⟨[], rfl⟩

theorem Recorded.record {store : Store} (recorded : store.Recorded) (node : NodeId)
    (value : StructuredValue) : (store.record node value).Recorded := by
  obtain ⟨told, filled⟩ := recorded
  refine ⟨told ++ [(node, value)], ?_⟩
  rw [filled, recordAll, recordAll, List.foldl_append, List.foldl_cons, List.foldl_nil]

def at? (store : Store) (visit : Nat × Nat) : Option (NodeId × StructuredValue) := do
  let (node, extraction) ← store.entries[visit.1]?
  let value ← extraction.values[visit.2]?
  return (node, value)

end Store

end Extractions

structure Extractions extends Extractions.Store where
  recorded : toStore.Recorded := by exact Extractions.Store.recorded_empty

namespace Extractions

def empty : Extractions := {}

def record (extractions : Extractions) (node : NodeId) (value : StructuredValue) : Extractions where
  toStore := extractions.toStore.record node value
  recorded := extractions.recorded.record node value

def recordAll (extractions : Extractions) (told : List (NodeId × StructuredValue)) : Extractions :=
  told.foldl (fun extractions (node, value) => extractions.record node value) extractions

def get? (extractions : Extractions) (node : NodeId) : Option Extraction :=
  (extractions.entries.find? (·.1 == node)).map (·.2)

def contains (extractions : Extractions) (node : NodeId) : Bool := (extractions.get? node).isSome

def log (extractions : Extractions) : List (NodeId × StructuredValue) :=
  extractions.visits.filterMap extractions.at?

/-- The field in the most recent value that has it. -/
def findField? (extractions : Extractions) (field : String) : Option Json :=
  extractions.log.reverse.findSome? fun (_, value) => value.get? field

def size (extractions : Extractions) : Nat := extractions.entries.length

def isEmpty (extractions : Extractions) : Bool := extractions.entries.isEmpty

def toJson (extractions : Extractions) : Json :=
  .obj (Members.sorted (extractions.entries.map fun (node, extraction) =>
    (node, extraction.toJson)))

def contextBlock (extractions : Extractions) : String :=
  String.join (extractions.log.map fun (node, value) =>
    s!"\n\nContext: {node}: {value.schema.name}: {value.renderFields}")

end Extractions

end Colloquy
