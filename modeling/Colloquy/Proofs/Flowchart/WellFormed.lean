import Colloquy.Flowchart.Compile
import Mathlib.Data.List.Nodup
import Mathlib.Logic.ExistsUnique
import Mathlib.Logic.Relation

/-!
What a list of specs must satisfy to be a flowchart, and what the flowchart then is, said without
any check or order of checks. Kinds, pairs and edges are relations on the specs.
-/

namespace Colloquy

namespace NodeSpec

/-- The kind a spec comes to: the one it asks for, or else the one that the rest of it implies. A
plain node with a schema is an extraction. -/
inductive ComesTo (spec : NodeSpec) : KindHint → Prop
  | asked {kind : KindHint} (asks : spec.kind = some kind)
      (other : kind = .plain → spec.schema = none) : ComesTo spec kind
  | structured (asks : spec.kind = some .plain) (schema : spec.schema ≠ none) :
      ComesTo spec .extraction
  | loopStart (silent : spec.kind = none)
      (binds : spec.iterator ≠ none ∨ spec.collection ≠ none) : ComesTo spec .loopStart
  | decision (silent : spec.kind = none) (unbound : spec.iterator = none ∧ spec.collection = none)
      (several : 1 < spec.connections.length) : ComesTo spec .decision
  | extraction (silent : spec.kind = none) (unbound : spec.iterator = none ∧ spec.collection = none)
      (few : spec.connections.length ≤ 1) (schema : spec.schema ≠ none) : ComesTo spec .extraction
  | plain (silent : spec.kind = none) (unbound : spec.iterator = none ∧ spec.collection = none)
      (few : spec.connections.length ≤ 1) (schema : spec.schema = none) : ComesTo spec .plain

def NonBlank (text : Option String) : Prop :=
  ∃ content, text = some content ∧ Text.trim content ≠ ""

def MeetsRule (spec : NodeSpec) : KindHint → Prop
  | .decision => 2 ≤ spec.connections.length
  | .extraction => spec.schema ≠ none
  | .plain => spec.connections.length ≤ 1
  | .loopStart => NonBlank spec.iterator ∧ NonBlank spec.collection ∧ spec.schema = none ∧
      spec.connections.length = 1
  | .loopContinue => spec.labels.Perm [hasMoreLabel, completeLabel]

structure WellShaped (spec : NodeSpec) : Prop where
  temperature : ∀ temperature, spec.temperature = some temperature →
    ∃ value, temperature = .finite value ∧ (value.negative = true → value.significand = 0)
  schema : spec.schema ≠ none → spec.connections.length ≤ 1
  rule : ∃ kind, spec.ComesTo kind ∧ spec.MeetsRule kind

end NodeSpec

section

variable (specs : List NodeSpec)

def IsLoopStart (id : NodeId) : Prop := ∃ spec ∈ specs, spec.id = id ∧ spec.ComesTo .loopStart

def HasBody (id body : NodeId) : Prop :=
  ∃ spec ∈ specs, spec.id = id ∧ spec.ComesTo .loopStart ∧ body ∈ spec.targets

/-- The loop start that a loop continue resolves to: the one it names; or else the target of its way
back, if that is a loop start; or else the only loop start with that target as its body. -/
inductive Closes (closer : NodeSpec) : NodeId → Prop
  | named {owner : NodeId} (names : closer.loopStart = some owner)
      (start : IsLoopStart specs owner) : Closes closer owner
  | wayBack {owner : NodeId} (silent : closer.loopStart = none)
      (back : (hasMoreLabel, owner) ∈ closer.connections) (start : IsLoopStart specs owner) :
      Closes closer owner
  | body {owner body : NodeId} (silent : closer.loopStart = none)
      (back : (hasMoreLabel, body) ∈ closer.connections) (other : ¬ IsLoopStart specs body)
      (only : ∀ id, HasBody specs id body ↔ id = owner) : Closes closer owner

def Leads (a b : NodeId) : Prop :=
  ∃ spec ∈ specs, spec.id = a ∧ ∃ label, (label, b) ∈ spec.connections ∧
    ¬ (spec.ComesTo .loopContinue ∧ label = hasMoreLabel)

def Binds (name : String) : Prop :=
  ∃ spec ∈ specs, spec.ComesTo .loopStart ∧ ∃ iterator, spec.iterator = some iterator ∧
    Text.trim iterator = name

structure WellFormed : Prop where
  nonempty : specs ≠ []
  ids : (specs.map (·.id)).Nodup
  labels : ∀ spec ∈ specs, spec.labels.Nodup
  targets : ∀ spec ∈ specs, ∀ target ∈ spec.targets, target ∈ specs.map (·.id)
  start : ∃! id, id ∈ specs.map (·.id) ∧ ∀ spec ∈ specs, id ∉ spec.targets
  shapes : ∀ spec ∈ specs, spec.WellShaped
  owners : ∀ spec ∈ specs, spec.ComesTo .loopContinue → ∃! owner, Closes specs spec owner
  closers : ∀ spec ∈ specs, spec.ComesTo .loopStart →
    ∃! closer, closer ∈ specs ∧ closer.ComesTo .loopContinue ∧ Closes specs closer spec.id
  acyclic : ∀ id, ¬ Relation.TransGen (Leads specs) id id
  templates : ∀ spec ∈ specs, ∃ names, Template.placeholders spec.text = some names ∧
    ∀ name ∈ names, Binds specs name

inductive HasKind (spec : NodeSpec) : NodeKind → Prop
  | plain (comes : spec.ComesTo .plain) : HasKind spec .plain
  | decision (comes : spec.ComesTo .decision) : HasKind spec .decision
  | extraction (comes : spec.ComesTo .extraction) : HasKind spec .extraction
  | loopStart {iterator collection : String} (comes : spec.ComesTo .loopStart)
      (binds : spec.iterator = some iterator) (ranges : spec.collection = some collection) :
      HasKind spec (.loopStart (Text.trim iterator) (Text.trim collection))
  | loopContinue {owner : NodeId} (comes : spec.ComesTo .loopContinue)
      (closes : Closes specs spec owner) : HasKind spec (.loopContinue owner)

structure Realizes (spec : NodeSpec) (node : Node) : Prop where
  id : node.id = spec.id
  template : node.template = spec.text
  connections : node.connections = spec.connections.map fun (label, target) => ⟨label, target⟩
  schema : node.schema = spec.schema
  temperature : node.temperature = spec.temperature.getD Outline.defaultTemperature
  kind : HasKind specs spec node.kind

end

end Colloquy
