import Colloquy.Json.Basic

/-!
How a value fails a schema: where, and why.
-/

namespace Colloquy

inductive PathStep where
  | field (name : String)
  | index (i : Nat)
  deriving DecidableEq, Repr

inductive Mismatch where
  | notAnObject (schema : String) (found : String)
  | notAnArray (found : String)
  | wrongType (expected : String) (found : String)
  | missing
  | undeclared (schema : String)
  deriving DecidableEq, Repr

namespace Mismatch

def message : Mismatch → String
  | notAnObject schema found => s!"expected object '{schema}', found {found}"
  | notAnArray found => s!"expected array, found {found}"
  | wrongType expected found => s!"expected {expected}, found {found}"
  | missing => "required field is missing"
  | undeclared schema => s!"field is not declared on '{schema}'"

end Mismatch

structure Violation where
  path : List PathStep
  mismatch : Mismatch
  deriving DecidableEq, Repr

namespace Violation

def here (mismatch : Mismatch) : Violation := ⟨[], mismatch⟩

def within (step : PathStep) (violation : Violation) : Violation :=
  { violation with path := step :: violation.path }

/-- Field names are joined by dots and indices stand in brackets. A field at the very start of a
path has no dot. -/
def extendPath (path : String) : PathStep → String
  | .field name => if path.isEmpty then name else path ++ "." ++ name
  | .index i => path ++ "[" ++ toString i ++ "]"

def pathText (violation : Violation) : String := violation.path.foldl extendPath ""

def message (violation : Violation) : String :=
  let path := violation.pathText
  (if path.isEmpty then "<root>" else path) ++ ": " ++ violation.mismatch.message

end Violation

end Colloquy
