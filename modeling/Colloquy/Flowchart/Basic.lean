import Colloquy.Flowchart.Kind
import Colloquy.Schema.Basic

/-!
Compiled flowcharts: nodes joined by labelled connections, with one start.
-/

namespace Colloquy

structure Connection where
  label : String
  target : NodeId
  deriving DecidableEq, Repr

structure Node where
  id : NodeId
  template : String
  connections : List Connection
  schema : Option Schema
  temperature : Floating
  kind : NodeKind

namespace Node

def labels (node : Node) : List String := node.connections.map (·.label)

def targets (node : Node) : List NodeId := node.connections.map (·.target)

def target? (node : Node) (label : String) : Option NodeId :=
  (node.connections.find? (·.label == label)).map (·.target)

def firstTarget? (node : Node) : Option NodeId := node.connections.head?.map (·.target)

/-- A node without connections ends the run. -/
def isTerminal (node : Node) : Bool := node.connections.isEmpty

def hasMoreTarget? (node : Node) : Option NodeId := node.target? hasMoreLabel

def completeTarget? (node : Node) : Option NodeId := node.target? completeLabel

def isLoopContinue (node : Node) : Bool :=
  match node.kind with
  | .loopContinue _ => true
  | _ => false

/-- The targets, without the way back of a loop continue. -/
def forwardTargets (node : Node) : List NodeId :=
  (node.connections.filter fun c => !(node.isLoopContinue && c.label == hasMoreLabel)).map (·.target)

end Node

structure Flowchart where
  nodes : List Node
  start : NodeId

namespace Flowchart

def ids (flowchart : Flowchart) : List NodeId := flowchart.nodes.map (·.id)

def size (flowchart : Flowchart) : Nat := flowchart.nodes.length

def node? (flowchart : Flowchart) (id : NodeId) : Option Node :=
  flowchart.nodes.find? (·.id == id)

def contains (flowchart : Flowchart) (id : NodeId) : Bool := flowchart.nodes.any (·.id == id)

def edges (flowchart : Flowchart) : List (NodeId × String × NodeId) :=
  flowchart.nodes.flatMap fun node => node.connections.map fun c => (node.id, c.label, c.target)

def closer? (flowchart : Flowchart) (loopStart : NodeId) : Option Node :=
  flowchart.nodes.find? (·.kind == .loopContinue loopStart)

def iterators (flowchart : Flowchart) : List String :=
  flowchart.nodes.filterMap fun node =>
    match node.kind with
    | .loopStart iterator _ => some iterator
    | _ => none

end Flowchart

end Colloquy
