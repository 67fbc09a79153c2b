import Colloquy.Flowchart.Kind
import Colloquy.Schema.Basic

/-!
Node specs: what is known of a node before the flowchart is compiled. Only the id is certain.
-/

namespace Colloquy

structure NodeSpec where
  id : NodeId
  text : String := ""
  connections : List (String × NodeId) := []
  schema : Option Schema := none
  temperature : Option Floating := none
  kind : Option KindHint := none
  iterator : Option String := none
  collection : Option String := none
  loopStart : Option NodeId := none

def defaultLabel : String := "default"

namespace NodeSpec

def new (id text : String) : NodeSpec := { id, text }

def connect (spec : NodeSpec) (label target : String) : NodeSpec :=
  { spec with connections := spec.connections ++ [(label, target)] }

def followedBy (spec : NodeSpec) (target : String) : NodeSpec := spec.connect defaultLabel target

def newLoopStart (id iterator collection : String) : NodeSpec :=
  { id, kind := some .loopStart, iterator := some iterator, collection := some collection }

def newLoopContinue (id hasMore complete : String) : NodeSpec :=
  { id, kind := some .loopContinue,
    connections := [(hasMoreLabel, hasMore), (completeLabel, complete)] }

def labels (spec : NodeSpec) : List String := spec.connections.map (·.1)

def targets (spec : NodeSpec) : List NodeId := spec.connections.map (·.2)

def target? (spec : NodeSpec) (label : String) : Option NodeId :=
  (spec.connections.find? (·.1 == label)).map (·.2)

end NodeSpec

end Colloquy
