import Colloquy.Number.Floating

/-!
JSON values. Members stand in document order, repeated keys included; a value in which order and
repetition carry no meaning is brought into canonical form, where the keys of every object
increase strictly.
-/

namespace Colloquy

/-- An integer as far as it was written as one and fits sixty-four bits, and otherwise a double. -/
inductive Number where
  | int (value : Int)
  | float (value : Dyadic)
  deriving DecidableEq, Repr

namespace Number

/-- Integers from the least signed to the greatest unsigned one of sixty-four bits. -/
def holdsInt (n : Int) : Bool := -(Nat.pow 2 63 : Int) ≤ n && n < Nat.pow 2 64

def isWhole : Number → Bool
  | .int _ => true
  | .float value => value.isWhole

def toFloating (format : FloatFormat) : Number → Floating
  | .int n => format.roundInt n
  | .float value => format.roundFloating (.finite value)

end Number

inductive Json where
  | null
  | bool (value : Bool)
  | num (value : Number)
  | str (value : String)
  | arr (items : List Json)
  | obj (members : List (String × Json))
  deriving Repr

abbrev Members := List (String × Json)

namespace Json

def isNull : Json → Bool
  | null => true
  | _ => false

def ofNat (n : Nat) : Json := num (.int n)

def ofText? : Option String → Json
  | some text => str text
  | none => null

def ofTexts (texts : List String) : Json := arr (texts.map str)

def kindName : Json → String
  | null => "null"
  | bool _ => "boolean"
  | num (.int _) => "integer"
  | num (.float _) => "number"
  | str _ => "string"
  | arr _ => "array"
  | obj _ => "object"

end Json

namespace Members

def get? (members : Members) (key : String) : Option Json :=
  (members.find? (·.1 == key)).map (·.2)

def set (key : String) (value : Json) : Members → Members
  | [] => [(key, value)]
  | (other, held) :: rest =>
    if key < other then (key, value) :: (other, held) :: rest
    else if key = other then (key, value) :: rest
    else (other, held) :: set key value rest

/-- The members in order of their keys; of a repeated key the last one stays. -/
def sorted (members : Members) : Members :=
  members.foldl (fun held (key, value) => set key value held) []

def Increasing (members : Members) : Prop :=
  (members.map (·.1)).Pairwise (· < ·)

end Members

namespace Json

def get? : Json → String → Option Json
  | obj members, key => Members.get? members key
  | _, _ => none

def asText? : Json → Option String
  | str text => some text
  | _ => none

mutual

def canonical : Json → Json
  | arr items => arr (canonicalItems items)
  | obj members => obj (Members.sorted (canonicalMembers members))
  | leaf => leaf

def canonicalItems : List Json → List Json
  | [] => []
  | item :: rest => canonical item :: canonicalItems rest

def canonicalMembers : List (String × Json) → List (String × Json)
  | [] => []
  | (key, value) :: rest => (key, canonical value) :: canonicalMembers rest

end

mutual

def Canonical : Json → Prop
  | arr items => CanonicalItems items
  | obj members => Members.Increasing members ∧ CanonicalMembers members
  | _ => True

def CanonicalItems : List Json → Prop
  | [] => True
  | item :: rest => Canonical item ∧ CanonicalItems rest

def CanonicalMembers : List (String × Json) → Prop
  | [] => True
  | (_, value) :: rest => Canonical value ∧ CanonicalMembers rest

end

end Json

end Colloquy
