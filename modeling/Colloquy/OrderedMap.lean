/-!
Maps from texts that remember the order in which their keys first came. A key that is there
already is refused by `insert`, replaced in place by `upsert`, and dropped by `ofList`.
-/

namespace Colloquy

structure OrderedMap (V : Type) where
  entries : List (String × V) := []
  deriving DecidableEq, Repr

namespace OrderedMap

variable {V : Type}

def empty : OrderedMap V := {}

def keys (map : OrderedMap V) : List String := map.entries.map (·.1)

def size (map : OrderedMap V) : Nat := map.entries.length

def isEmpty (map : OrderedMap V) : Bool := map.entries.isEmpty

def get? (map : OrderedMap V) (key : String) : Option V :=
  (map.entries.find? (·.1 == key)).map (·.2)

def contains (map : OrderedMap V) (key : String) : Bool := map.entries.any (·.1 == key)

def push (map : OrderedMap V) (key : String) (value : V) : OrderedMap V :=
  ⟨map.entries ++ [(key, value)]⟩

/-- Appends an entry; a key that is there already is refused and leaves the map as it was. -/
def insert (map : OrderedMap V) (key : String) (value : V) : Bool × OrderedMap V :=
  if map.contains key then (false, map) else (true, map.push key value)

def replace (key : String) (value : V) : List (String × V) → List (String × V)
  | [] => []
  | (other, held) :: rest =>
    if other = key then (key, value) :: rest else (other, held) :: replace key value rest

/-- Sets the value of a key, which keeps its place if it has one. -/
def upsert (map : OrderedMap V) (key : String) (value : V) : OrderedMap V :=
  if map.contains key then ⟨replace key value map.entries⟩ else map.push key value

/-- Of a repeated key the first value stays. -/
def ofList (pairs : List (String × V)) : OrderedMap V :=
  pairs.foldl (fun map (key, value) => (map.insert key value).2) empty

def Distinct (map : OrderedMap V) : Prop := map.keys.Nodup

end OrderedMap

end Colloquy
