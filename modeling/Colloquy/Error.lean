import Colloquy.Json.Problem
import Colloquy.Number.Layout
import Colloquy.Schema.Violation
import Colloquy.Template
import Colloquy.Time.Duration

/-!
What can go wrong: with a flowchart, with an answer of the language model, and hence with a run.
Each failure is a cause; its message, code and advice are functions of it.
-/

namespace Colloquy

abbrev NodeId := String

inductive LoopStartFault where
  | noIterator
  | noCollection
  | hasSchema
  | connections (count : Nat)
  deriving DecidableEq, Repr

inductive PairingFault where
  | notAStart (id : NodeId)
  | neitherStartNorBody (target : NodeId)
  | severalStarts (target : NodeId)
  deriving DecidableEq, Repr

inductive ConfigError where
  | notJson
  | malformedDocument (problem : Problem)
  | unreadableFile (path reason : String)
  | noNodes
  | duplicateNode (node : NodeId)
  | noStart
  | severalStarts (candidates : List NodeId)
  | danglingConnection (node : NodeId) (label : String) (target : NodeId)
  | duplicateConnection (node : NodeId) (label : String)
  | schemaWithConnections (node : NodeId) (connections : Nat)
  | decisionNeedsOptions (node : NodeId) (connections : Nat)
  | extractionWithoutSchema (node : NodeId)
  | plainWithConnections (node : NodeId) (connections : Nat)
  | invalidTemperature (node : NodeId) (temperature : Floating)
  | malformedLoopStart (node : NodeId) (fault : LoopStartFault)
  | loopContinueLabels (node : NodeId) (labels : List String)
  | unpairedLoopContinue (node : NodeId) (fault : PairingFault)
  | unpairedLoopStart (node : NodeId) (closers : List NodeId)
  | illegalCycle (nodes : List NodeId)
  | unknownPlaceholder (node : NodeId) (name : String)
  | malformedPlaceholder (node : NodeId)
  | unboundVariable (node : NodeId) (name : String)
  | missingCollection (node : NodeId) (field : String)
  | collectionNotSequence (node : NodeId) (field : String)
  | continueOutsideLoop (node loopStart : NodeId)
  | stepLimit (limit : Nat)
  | invalidPersona (name reason : String)

inductive ModelError where
  | invocation (message : String)
  | schemaViolation (node : NodeId) (schema : String) (violation : Violation)
  | unexpectedResponse (node : NodeId) (expected found : String)
  | timeout (node : NodeId) (after : Duration)

inductive RunError where
  | configuration (error : ConfigError)
  | model (error : ModelError)

namespace LoopStartFault

def reason : LoopStartFault → String
  | noIterator => "missing iterator name"
  | noCollection => "missing collection field name"
  | hasSchema => "a loop start cannot declare a schema"
  | connections count => s!"needs exactly one connection to its body, found {count}"

end LoopStartFault

namespace PairingFault

def reason : PairingFault → String
  | notAStart id => s!"'{id}' is not a loop start"
  | neitherStartNorBody target =>
    s!"'HasMore' target '{target}' is neither a loop start nor a loop body"
  | severalStarts target => s!"'HasMore' target '{target}' is the body of several loop starts"

end PairingFault

namespace ConfigError

def message : ConfigError → String
  | notJson => "failed to parse flowchart: not a JSON text"
  | malformedDocument problem => s!"failed to parse flowchart: {problem.message}"
  | unreadableFile path reason => s!"failed to read flowchart file {path}: {reason}"
  | noNodes => "flowchart declares no nodes"
  | duplicateNode node => s!"node '{node}' is declared more than once"
  | noStart => "no start node: every node is the target of some connection"
  | severalStarts candidates => s!"multiple start nodes: {Text.quotedList candidates}"
  | danglingConnection node label target =>
    s!"node '{node}' connects '{label}' to undeclared node '{target}'"
  | duplicateConnection node label => s!"node '{node}' declares connection '{label}' more than once"
  | schemaWithConnections node connections =>
    s!"node '{node}' declares a schema and {connections} connections"
  | decisionNeedsOptions node connections =>
    s!"decision node '{node}' needs at least two connections, found {connections}"
  | extractionWithoutSchema node => s!"extraction node '{node}' declares no schema"
  | plainWithConnections node connections => s!"plain node '{node}' has {connections} connections"
  | invalidTemperature node temperature =>
    s!"node '{node}' has invalid temperature {temperature.write .temperature}"
  | malformedLoopStart node fault => s!"loop start '{node}' is malformed: {fault.reason}"
  | loopContinueLabels node labels =>
    s!"loop continue '{node}' must connect exactly 'HasMore' and 'Complete', found {Text.quotedList labels}"
  | unpairedLoopContinue node fault =>
    s!"loop continue '{node}' cannot be paired with a loop start: {fault.reason}"
  | unpairedLoopStart node closers =>
    s!"loop start '{node}' is closed by {Text.quotedList closers}; exactly one loop continue is required"
  | illegalCycle nodes => s!"cycle outside a loop construct through {Text.quotedList nodes}"
  | unknownPlaceholder node name =>
    s!"node '{node}' uses placeholder '{Template.hole name}' but no loop binds it"
  | malformedPlaceholder node =>
    s!"node '{node}' has an unterminated or empty placeholder in its prompt"
  | unboundVariable node name =>
    s!"node '{node}' references '{Template.hole name}' outside of any loop binding it"
  | missingCollection node field => s!"loop start '{node}' found no extracted field '{field}'"
  | collectionNotSequence node field =>
    s!"loop start '{node}': field '{field}' is not a sequence of scalars"
  | continueOutsideLoop node loopStart =>
    s!"loop continue '{node}' reached without its loop '{loopStart}' being open"
  | stepLimit limit => s!"run exceeded the limit of {limit} node visits"
  | invalidPersona name reason => s!"invalid persona '{name}': {reason}"

def codeName : ConfigError → String
  | notJson => "parse"
  | malformedDocument _ => "parse"
  | unreadableFile _ _ => "io"
  | noNodes => "empty"
  | duplicateNode _ => "duplicate_node"
  | noStart => "no_start_node"
  | severalStarts _ => "multiple_start_nodes"
  | danglingConnection _ _ _ => "dangling_connection"
  | duplicateConnection _ _ => "duplicate_connection"
  | schemaWithConnections _ _ => "schema_with_multiple_connections"
  | decisionNeedsOptions _ _ => "decision_needs_options"
  | extractionWithoutSchema _ => "extraction_without_schema"
  | plainWithConnections _ _ => "plain_with_multiple_connections"
  | invalidTemperature _ _ => "temperature"
  | malformedLoopStart _ _ => "loop_start_shape"
  | loopContinueLabels _ _ => "loop_continue_labels"
  | unpairedLoopContinue _ _ => "unpaired_loop_continue"
  | unpairedLoopStart _ _ => "unpaired_loop_start"
  | illegalCycle _ => "illegal_cycle"
  | unknownPlaceholder _ _ => "unknown_placeholder"
  | malformedPlaceholder _ => "malformed_placeholder"
  | unboundVariable _ _ => "unbound_variable"
  | missingCollection _ _ => "missing_loop_collection"
  | collectionNotSequence _ _ => "loop_collection_not_sequence"
  | continueOutsideLoop _ _ => "loop_continue_outside_loop"
  | stepLimit _ => "step_limit"
  | invalidPersona _ _ => "persona"

def code (error : ConfigError) : String := "convograph::config::" ++ error.codeName

def help? : ConfigError → Option String
  | noStart => some "Exactly one node must never appear as a connection target."
  | severalStarts _ => some "Connect all but one of these nodes from somewhere else in the graph."
  | schemaWithConnections _ _ => some "Split the extraction and the decision into two nodes."
  | plainWithConnections _ _ => some "Nodes with more than one connection are decisions."
  | unpairedLoopContinue _ _ =>
    some "Point 'HasMore' at the loop start or its body, or set 'loop_start' explicitly."
  | illegalCycle _ => some "Only a loop continue's 'HasMore' connection may point backwards."
  | missingCollection _ _ =>
    some "An extraction node visited before the loop must declare this field."
  | stepLimit _ =>
    some "The graph is probably looping; raise `max_steps` only if it is legitimately long."
  | _ => none

end ConfigError

namespace ModelError

def message : ModelError → String
  | invocation message => s!"model invocation failed: {message}"
  | schemaViolation node schema violation =>
    s!"response for node '{node}' violates schema '{schema}': {violation.message}"
  | unexpectedResponse node expected found =>
    s!"node '{node}' requested a {expected} response but got {found}"
  | timeout node after => s!"model call for node '{node}' timed out after {after.text}"

def codeName : ModelError → String
  | invocation _ => "invocation"
  | schemaViolation _ _ _ => "schema_validation"
  | unexpectedResponse _ _ _ => "unexpected_response"
  | timeout _ _ => "timeout"

def code (error : ModelError) : String := "convograph::llm::" ++ error.codeName

def help? : ModelError → Option String
  | invocation _ => some "Retries are the caller's responsibility; the run can be started again."
  | _ => none

end ModelError

namespace RunError

def message : RunError → String
  | configuration error => error.message
  | model error => error.message

def code : RunError → String
  | configuration error => error.code
  | model error => error.code

def help? : RunError → Option String
  | configuration error => error.help?
  | model error => error.help?

def isConfiguration : RunError → Bool
  | configuration _ => true
  | model _ => false

end RunError

end Colloquy
