import Colloquy.Distinct
import Colloquy.Json.Problem
import Colloquy.OrderedMap

/-!
Reading typed data out of JSON values: leaves, lists, maps with unique keys, which are written as
they are read, and records, which are written as objects or, in the order of their fields, as arrays.
-/

namespace Colloquy

abbrev Read (α : Type) := Except Problem α

namespace Read

def text : Json → Read String
  | .str s => .ok s
  | found => .error (.invalidType found "a string")

def flag : Json → Read Bool
  | .bool b => .ok b
  | found => .error (.invalidType found "a boolean")

def optional {α : Type} (read : Json → Read α) : Json → Read (Option α)
  | .null => .ok none
  | value => some <$> read value

/-- A number of the format. A fraction is first a double. -/
def floating (format : FloatFormat) (wanted : String) : Json → Read Floating
  | .num n => .ok (n.toFloating format)
  | found => .error (.invalidType found wanted)

/-- An integer of at most sixty-four bits that is not negative. -/
def natural (wanted : String) : Json → Read Nat
  | .num (.int n) =>
    if n < 0 then .error (.invalidType (.num (.int n)) wanted) else .ok n.toNat
  | found => .error (.invalidType found wanted)

def list {α : Type} (read : Json → Read α) (wanted : String) : Json → Read (List α)
  | .arr items => items.mapM read
  | found => .error (.invalidType found wanted)

/-- The entries after those that have been read. A repeated key is noticed once its value has been
read. -/
def entries {α : Type} (read : Json → Read α) (earlier : OrderedMap α) :
    Members → Read (OrderedMap α)
  | [] => .ok earlier
  | (key, json) :: rest => do
    let value ← read json
    if earlier.contains key then throw (.duplicateKey key)
    entries read (earlier.push key value) rest

def uniqueKeys : String := "a map with unique string keys"

def orderedMap {α : Type} (read : Json → Read α) : Json → Read (OrderedMap α)
  | .obj members => entries read .empty members
  | found => .error (.invalidType found uniqueKeys)

def variant {α : Type} (variants : List (String × α)) (word : String) : Read α :=
  match variants.find? (·.1 == word) with
  | some (_, value) => .ok value
  | none => .error (.unknownVariant word (variants.map (·.1)))

/-- A word by itself, or as the only key of an object whose value is null. -/
def unitVariant {α : Type} (variants : List (String × α)) : Json → Read α
  | .str word => variant variants word
  | .obj ((word, content) :: rest) => do
    let value ← variant variants word
    match content with
    | .null => if rest.isEmpty then return value else throw .expectedValue
    | found => throw (.invalidType found "unit")
  | _ => .error .expectedValue

end Read

def OrderedMap.toJson {V : Type} (write : V → Json) (map : OrderedMap V) : Json :=
  .obj (map.entries.map fun (key, value) => (key, write value))

inductive Arrangement where
  | named
  | positional (count : Nat)

namespace Arrangement

def missing (arrangement : Arrangement) (field : String) (place : Nat) (wanted : String) : Problem :=
  match arrangement with
  | named => .missingField field
  | positional _ => .invalidLength place wanted

def checkEnd (arrangement : Arrangement) (fields : Nat) : Read Unit :=
  match arrangement with
  | named => .ok ()
  | positional count => if fields < count then .error .trailing else .ok ()

end Arrangement

def Read.once {α : Type} (slot : Option α) (field : String) (read : Read α) : Read (Option α) :=
  if slot.isSome then .error (.duplicateField field) else some <$> read

structure Written where
  values : Members
  arrangement : Arrangement

namespace Written

def get? (written : Written) (field : String) : Option Json := written.values.get? field

def required {α : Type} (written : Written) (field : String) (read : Json → Read α) : Read α :=
  match written.get? field with
  | some value => read value
  | none => .error (.missingField field)

def withDefault {α : Type} (written : Written) (field : String) (default : α)
    (read : Json → Read α) : Read α :=
  match written.get? field with
  | some value => read value
  | none => .ok default

/-- A field that may be null and, where it is known by its name, absent. -/
def nullable {α : Type} (written : Written) (field : String) (read : Json → Read α) :
    Read (Option α) :=
  match written.get? field, written.arrangement with
  | some value, _ => Read.optional read value
  | none, .named => .ok none
  | none, .positional _ => .error (.missingField field)

end Written

namespace Read

/-- A record that ignores what it does not know. The fields are looked up by name, so the order in
which problems are noticed is that of the lookups. -/
def record (fields : List String) (wanted : String) : Json → Read Written
  | .obj members =>
    let known := members.filter fun (key, _) => fields.contains key
    match firstRepeated? [] (known.map (·.1)) with
    | some field => .error (.duplicateField field)
    | none => .ok ⟨known, .named⟩
  | .arr items =>
    if fields.length < items.length then .error .trailing
    else .ok ⟨fields.zip items, .positional items.length⟩
  | found => .error (.invalidType found wanted)

/-- A word under the tag and the rest of the members, or a word and the elements after it. -/
def tagged (tag wanted : String) : Json → Read (String × Json)
  | .obj members =>
    match members.filter (·.1 == tag) with
    | [] => .error (.missingField tag)
    | [(_, .str word)] => .ok (word, .obj (members.filter (·.1 != tag)))
    | [(_, found)] => .error (.invalidType found "variant identifier")
    | _ => .error (.duplicateField tag)
  | .arr (.str word :: rest) => .ok (word, .arr rest)
  | .arr (found :: _) => .error (.invalidType found "variant identifier")
  | .arr [] => .error (.missingField tag)
  | found => .error (.invalidType found wanted)

def freeForm (value : Json) : Read Json := .ok value.canonical

end Read

/-- Reads fields into a draft: the members of an object by their keys, or the elements of an array
by position. A key that names no field is a problem if the record is closed. -/
structure RecordReader (Key Draft : Type) where
  keyOf? : String → Option Key
  positions : List Key
  put : Draft → Key → Json → Read Draft
  closed : Option (List String)
  wanted : String

namespace RecordReader

variable {Key Draft : Type}

def readMembers (reader : RecordReader Key Draft) (draft : Draft) : Members → Read Draft
  | [] => .ok draft
  | (name, value) :: rest =>
    match reader.keyOf? name, reader.closed with
    | some key, _ => do readMembers reader (← reader.put draft key value) rest
    | none, some spellings => .error (.unknownField name spellings)
    | none, none => readMembers reader draft rest

def readElements (reader : RecordReader Key Draft) (draft : Draft) : List Key → List Json → Read Draft
  | key :: keys, value :: rest => do readElements reader (← reader.put draft key value) keys rest
  | _, _ => .ok draft

def read (reader : RecordReader Key Draft) (draft : Draft) : Json → Read (Draft × Arrangement)
  | .obj members => do return (← reader.readMembers draft members, .named)
  | .arr items => do
    return (← reader.readElements draft reader.positions items, .positional items.length)
  | found => .error (.invalidType found reader.wanted)

end RecordReader

end Colloquy
