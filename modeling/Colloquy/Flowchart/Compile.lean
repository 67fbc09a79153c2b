import Colloquy.Distinct
import Colloquy.Flowchart.Document
import Colloquy.Flowchart.Order
import Colloquy.Template
import Colloquy.Text.Blank

/-!
Compiling specs into a flowchart. Every structural rule is checked here, once, and the first one
that fails is reported: ids, connections node by node, the start, the shape of each node, loop
pairing, cycles outside loops, placeholders.
-/

namespace Colloquy

namespace NodeSpec

def checkConnections (declared : List NodeId) (node : NodeId) (seen : List String) :
    List (String × NodeId) → Except ConfigError Unit
  | [] => .ok ()
  | (label, target) :: rest =>
    if label ∈ seen then .error (.duplicateConnection node label)
    else if target ∉ declared then .error (.danglingConnection node label target)
    else checkConnections declared node (label :: seen) rest

/-- The ids that no connection leads to. -/
def startCandidates (specs : List NodeSpec) : List NodeId :=
  let targeted := specs.flatMap targets
  (specs.map (·.id)).filter (· ∉ targeted)

def findStart (specs : List NodeSpec) : Except ConfigError NodeId :=
  match startCandidates specs with
  | [] => .error .noStart
  | [start] => .ok start
  | candidates => .error (.severalStarts candidates)

def isValidTemperature (temperature : Floating) : Bool :=
  temperature.isFinite && !temperature.isBelowZero

/-- The kind asked for, or else the one that the rest of the spec implies. -/
def resolvedHint (spec : NodeSpec) : KindHint :=
  spec.kind.getD <|
    if spec.iterator.isSome || spec.collection.isSome then .loopStart
    else if 1 < spec.connections.length then .decision
    else if spec.schema.isSome then .extraction
    else .plain

def nonBlank? (text : Option String) : Option String :=
  (text.map Text.trim).filter (!·.isEmpty)

def hasContinueLabels (spec : NodeSpec) : Bool :=
  spec.connections.length == 2 && spec.labels.contains hasMoreLabel &&
    spec.labels.contains completeLabel

end NodeSpec

inductive Shape where
  | plain
  | decision
  | extraction
  | loopStart (iterator collection : String)
  | loopContinue (explicit : Option NodeId)
  deriving DecidableEq, Repr

namespace NodeSpec

def loopStartShape (spec : NodeSpec) : Except LoopStartFault Shape :=
  match nonBlank? spec.iterator, nonBlank? spec.collection with
  | none, _ => .error .noIterator
  | some _, none => .error .noCollection
  | some iterator, some collection =>
    if spec.schema.isSome then .error .hasSchema
    else if spec.connections.length ≠ 1 then .error (.connections spec.connections.length)
    else .ok (.loopStart iterator collection)

/-- The shape that the hint asks for, if the spec meets its rule. A plain node with a schema asks
for a structured value, which makes it an extraction. -/
def shapeFor (spec : NodeSpec) : KindHint → Except ConfigError Shape
  | .decision =>
    if spec.connections.length < 2 then
      .error (.decisionNeedsOptions spec.id spec.connections.length)
    else .ok .decision
  | .extraction =>
    if spec.schema.isNone then .error (.extractionWithoutSchema spec.id) else .ok .extraction
  | .plain =>
    if 1 < spec.connections.length then
      .error (.plainWithConnections spec.id spec.connections.length)
    else if spec.schema.isSome then .ok .extraction
    else .ok .plain
  | .loopStart => spec.loopStartShape.mapError (.malformedLoopStart spec.id)
  | .loopContinue =>
    if spec.hasContinueLabels then .ok (.loopContinue spec.loopStart)
    else .error (.loopContinueLabels spec.id spec.labels)

def checkTemperature (spec : NodeSpec) : Except ConfigError Unit :=
  match spec.temperature with
  | none => .ok ()
  | some temperature =>
    if isValidTemperature temperature then .ok ()
    else .error (.invalidTemperature spec.id temperature)

/-- The temperature comes first, then the schema, which goes with at most one connection, then the
rule of the kind. -/
def shape (spec : NodeSpec) : Except ConfigError Shape := do
  spec.checkTemperature
  if spec.schema.isSome && 1 < spec.connections.length then
    throw (.schemaWithConnections spec.id spec.connections.length)
  spec.shapeFor spec.resolvedHint

end NodeSpec

structure Outline where
  spec : NodeSpec
  shape : Shape

namespace Outline

def ofSpec (spec : NodeSpec) : Except ConfigError Outline := do
  return ⟨spec, ← spec.shape⟩

def loopBody? (outline : Outline) : Option (NodeId × NodeId) :=
  match outline.shape, outline.spec.connections with
  | .loopStart _ _, (_, body) :: _ => some (outline.spec.id, body)
  | _, _ => none

/-- The loop start that a loop continue closes: the one it names; or else the target of its way
back, if that is a loop start; or else the only loop start with that target as its body. -/
def ownerOf (starts : List (NodeId × NodeId)) (hasMore : NodeId) :
    Option NodeId → Except PairingFault NodeId
  | some explicit =>
    if explicit ∈ starts.map (·.1) then .ok explicit else .error (.notAStart explicit)
  | none =>
    if hasMore ∈ starts.map (·.1) then .ok hasMore
    else match (starts.filter (·.2 == hasMore)).map (·.1) with
      | [owner] => .ok owner
      | [] => .error (.neitherStartNorBody hasMore)
      | _ => .error (.severalStarts hasMore)

def kind (starts : List (NodeId × NodeId)) (outline : Outline) : Except ConfigError NodeKind :=
  match outline.shape with
  | .plain => .ok .plain
  | .decision => .ok .decision
  | .extraction => .ok .extraction
  | .loopStart iterator collection => .ok (.loopStart iterator collection)
  | .loopContinue explicit =>
    match ownerOf starts ((outline.spec.target? hasMoreLabel).getD "") explicit with
    | .ok owner => .ok (.loopContinue owner)
    | .error fault => .error (.unpairedLoopContinue outline.spec.id fault)

/-- The temperature of a node that declares none: the single nearest to seven tenths. -/
def defaultTemperature : Floating := .finite ⟨false, 11744051, -24⟩

def node (starts : List (NodeId × NodeId)) (outline : Outline) : Except ConfigError Node := do
  let kind ← outline.kind starts
  return {
    id := outline.spec.id
    template := outline.spec.text
    connections := outline.spec.connections.map fun (label, target) => ⟨label, target⟩
    schema := outline.spec.schema
    temperature := outline.spec.temperature.getD defaultTemperature
    kind }

end Outline

namespace Flowchart

def closers (nodes : List Node) (loopStart : NodeId) : List NodeId :=
  (nodes.filter (·.kind == .loopContinue loopStart)).map (·.id)

def checkClosers (nodes : List Node) (loopStart : NodeId) : Except ConfigError Unit :=
  match closers nodes loopStart with
  | [_] => .ok ()
  | others => .error (.unpairedLoopStart loopStart others)

def checkTemplate (iterators : List String) (node : Node) : Except ConfigError Unit :=
  match Template.placeholders node.template with
  | none => .error (.malformedPlaceholder node.id)
  | some names =>
    match names.find? (· ∉ iterators) with
    | some name => .error (.unknownPlaceholder node.id name)
    | none => .ok ()

def checkCycles (flowchart : Flowchart) : Except ConfigError Unit :=
  if flowchart.cyclic.isEmpty then .ok () else .error (.illegalCycle flowchart.cyclic)

def checkIds (specs : List NodeSpec) : Except ConfigError Unit :=
  if specs.isEmpty then .error .noNodes
  else match firstRepeated? [] (specs.map (·.id)) with
    | some id => .error (.duplicateNode id)
    | none => .ok ()

def compile (specs : List NodeSpec) : Except ConfigError Flowchart := do
  checkIds specs
  specs.forM fun spec =>
    NodeSpec.checkConnections (specs.map (·.id)) spec.id [] spec.connections
  let start ← NodeSpec.findStart specs
  let outlines ← specs.mapM Outline.ofSpec
  let starts := outlines.filterMap Outline.loopBody?
  let nodes ← outlines.mapM (Outline.node starts)
  starts.forM fun (loopStart, _) => checkClosers nodes loopStart
  let flowchart : Flowchart := ⟨nodes, start⟩
  flowchart.checkCycles
  nodes.forM (checkTemplate flowchart.iterators)
  return flowchart

def parse (text : String) : Except ConfigError Flowchart := do
  compile (← NodeSpec.parseAll text)

end Flowchart

end Colloquy
