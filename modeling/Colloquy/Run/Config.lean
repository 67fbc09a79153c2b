import Colloquy.Text.Blank
import Colloquy.Time.Duration

/-!
Settings of an engine that are no part of a flowchart, and how they are read from named texts. A text
that denotes no usable value leaves its setting at the default.
-/

namespace Colloquy

structure EngineConfig where
  model : String := "gpt-4o-mini"
  maxSteps : Nat := 256
  invokeTimeout : Option Duration := none
  deriving DecidableEq, Repr

namespace EngineConfig

def modelVariable : String := "CONVOGRAPH_MODEL"

def maxStepsVariable : String := "CONVOGRAPH_MAX_STEPS"

def timeoutVariable : String := "CONVOGRAPH_INVOKE_TIMEOUT_SECS"

def model? (text : String) : Option String :=
  let trimmed := Text.trim text
  if trimmed.isEmpty then none else some trimmed

def countLimit : Nat := Nat.pow 2 64

def maxSteps? (text : String) : Option Nat :=
  (wholeNumber? (Text.trim text)).filter fun n => 0 < n && n < countLimit

/-- A positive number of seconds, to the nearest nanosecond. -/
def timeout? (text : String) : Option Duration := do
  let seconds ← Floating.parse? .double (Text.trim text)
  match seconds with
  | .finite d => if d.negative || d.isZero then none else Duration.ofSeconds? seconds
  | _ => none

def ofLookup (lookup : String → Option String) : EngineConfig where
  model := ((lookup modelVariable).bind model?).getD ({} : EngineConfig).model
  maxSteps := ((lookup maxStepsVariable).bind maxSteps?).getD ({} : EngineConfig).maxSteps
  invokeTimeout := (lookup timeoutVariable).bind timeout?

end EngineConfig

end Colloquy
