import Colloquy.Flowchart.Compile

/-!
Pairing by tables. Loop continues are gathered under the loop starts they resolve to, the table is
emptied one loop start at a time, and the pairs, turned round, tell each loop continue its owner.
-/

namespace Colloquy

abbrev Pairs := List (NodeId × NodeId)

namespace Pairs

def closers (pairs : Pairs) (start : NodeId) : List NodeId :=
  (pairs.filter (·.1 == start)).map (·.2)

def remove (pairs : Pairs) (start : NodeId) : Pairs := pairs.filter (·.1 != start)

def closer? (pairs : Pairs) (start : NodeId) : Option NodeId :=
  (pairs.find? (·.1 == start)).map (·.2)

/-- The loop start that a loop continue is next to; the empty id where there is none. -/
def owner (pairs : Pairs) (closer : NodeId) : NodeId :=
  ((pairs.find? (·.2 == closer)).map (·.1)).getD ""

def drain : List NodeId → Pairs → Except ConfigError Pairs
  | [], _ => .ok []
  | start :: rest, table =>
    match table.closers start with
    | [closer] => do return (start, closer) :: (← drain rest (table.remove start))
    | others => .error (.unpairedLoopStart start others)

end Pairs

namespace Outline

def gather (starts : List (NodeId × NodeId)) : List Outline → Except ConfigError Pairs
  | [] => .ok []
  | outline :: rest =>
    match outline.shape with
    | .loopContinue explicit =>
      match ownerOf starts ((outline.spec.target? hasMoreLabel).getD "") explicit with
      | .ok owner => do return (owner, outline.spec.id) :: (← gather starts rest)
      | .error fault => .error (.unpairedLoopContinue outline.spec.id fault)
    | _ => gather starts rest

def pairedKind (pairs : Pairs) (outline : Outline) : NodeKind :=
  match outline.shape with
  | .plain => .plain
  | .decision => .decision
  | .extraction => .extraction
  | .loopStart iterator collection => .loopStart iterator collection
  | .loopContinue _ => .loopContinue (pairs.owner outline.spec.id)

def nodeOfKind (outline : Outline) (kind : NodeKind) : Node where
  id := outline.spec.id
  template := outline.spec.text
  connections := outline.spec.connections.map fun (label, target) => ⟨label, target⟩
  schema := outline.spec.schema
  temperature := outline.spec.temperature.getD defaultTemperature
  kind

def pairedNode (pairs : Pairs) (outline : Outline) : Node :=
  outline.nodeOfKind (outline.pairedKind pairs)

end Outline

structure PairedFlowchart extends Flowchart where
  pairs : Pairs

namespace PairedFlowchart

def pairedWith? (paired : PairedFlowchart) (start : NodeId) : Option Node :=
  (paired.pairs.closer? start).bind paired.node?

def compile (specs : List NodeSpec) : Except ConfigError PairedFlowchart := do
  Flowchart.checkIds specs
  specs.forM fun spec =>
    NodeSpec.checkConnections (specs.map (·.id)) spec.id [] spec.connections
  let start ← NodeSpec.findStart specs
  let outlines ← specs.mapM Outline.ofSpec
  let starts := outlines.filterMap Outline.loopBody?
  let table ← Outline.gather starts outlines
  let pairs ← Pairs.drain (starts.map (·.1)) table
  let flowchart : Flowchart := ⟨outlines.map (Outline.pairedNode pairs), start⟩
  flowchart.checkCycles
  flowchart.nodes.forM (Flowchart.checkTemplate flowchart.iterators)
  return ⟨flowchart, pairs⟩

end PairedFlowchart

end Colloquy
