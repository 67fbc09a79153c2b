import Colloquy.Error
import Colloquy.Json.Printer

/-!
Open loops. A scope holds the elements as they were when its loop was opened, and the one that the
loop has reached.
-/

namespace Colloquy

structure LoopScope where
  owner : NodeId
  iterator : String
  collection : List String
  index : Nat
  deriving DecidableEq, Repr

namespace LoopScope

def current? (scope : LoopScope) : Option String := scope.collection[scope.index]?

def hasMore (scope : LoopScope) : Bool := scope.index + 1 < scope.collection.length

def advance (scope : LoopScope) : LoopScope := { scope with index := scope.index + 1 }

/-- The element bound by the innermost scope of that name; scopes stand innermost first. -/
def binding? (scopes : List LoopScope) (name : String) : Option String :=
  (scopes.find? (·.iterator == name)).bind current?

/-- The text of an element, unless it is null or composite. -/
def element? : Json → Option String
  | .str text => some text
  | .num n => some (Json.numberLiteral n)
  | .bool b => some (Json.boolLiteral b)
  | _ => none

def elements? : Json → Option (List String)
  | .arr items => items.mapM element?
  | _ => none

end LoopScope

end Colloquy
