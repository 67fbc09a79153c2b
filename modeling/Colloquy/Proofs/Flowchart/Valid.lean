import Colloquy.Proofs.Flowchart.Compile

/-!
What holds of every compiled flowchart, said of its nodes: what a run relies on and does not check
again.
-/

namespace Colloquy

def Node.Fits (node : Node) : NodeKind → Prop
  | .plain => node.connections.length ≤ 1 ∧ node.schema = none
  | .decision => 2 ≤ node.connections.length ∧ node.schema = none
  | .extraction => node.connections.length ≤ 1 ∧ node.schema ≠ none
  | .loopStart _ _ => node.connections.length = 1 ∧ node.schema = none
  | .loopContinue _ => node.labels.Perm [hasMoreLabel, completeLabel] ∧ node.schema = none

namespace Flowchart

structure Valid (flowchart : Flowchart) : Prop where
  ids : flowchart.ids.Nodup
  start : flowchart.start ∈ flowchart.ids
  targets : ∀ node ∈ flowchart.nodes, ∀ connection ∈ node.connections,
    connection.target ∈ flowchart.ids
  fits : ∀ node ∈ flowchart.nodes, node.Fits node.kind
  closed : ∀ node ∈ flowchart.nodes, ∀ iterator field, node.kind = .loopStart iterator field →
    ∃ closer, flowchart.closer? node.id = some closer
  closes : ∀ closer ∈ flowchart.nodes, ∀ owner, closer.kind = .loopContinue owner →
    flowchart.closer? owner = some closer
  acyclic : flowchart.cyclic = []
  templates : ∀ node ∈ flowchart.nodes, ∃ names, Template.placeholders node.template = some names ∧
    ∀ name ∈ names, name ∈ flowchart.iterators

theorem closer_some {flowchart : Flowchart} {owner : NodeId} {closer : Node}
    (found : flowchart.closer? owner = some closer) :
    closer ∈ flowchart.nodes ∧ closer.kind = .loopContinue owner :=
  ⟨List.mem_of_find?_eq_some found, by simpa using List.find?_some found⟩

theorem exists_closer {flowchart : Flowchart} {owner : NodeId} {node : Node}
    (member : node ∈ flowchart.nodes) (kind : node.kind = .loopContinue owner) :
    ∃ closer, flowchart.closer? owner = some closer := by
  obtain ⟨closer, -, found, -⟩ :=
    exists_found (p := (·.kind == .loopContinue owner)) member (beq_iff_eq.mpr kind)
  exact ⟨closer, found⟩

namespace Valid

variable {flowchart : Flowchart}

theorem contains_target (valid : flowchart.Valid) {node : Node} (member : node ∈ flowchart.nodes)
    {label : String} {target : NodeId} (found : node.target? label = some target) :
    target ∈ flowchart.ids := by
  obtain ⟨connection, listed, rfl⟩ := Option.map_eq_some_iff.mp found
  exact valid.targets node member connection (List.mem_of_find?_eq_some listed)

theorem start_continues (valid : flowchart.Valid) {node : Node} (member : node ∈ flowchart.nodes)
    {iterator field : String} (kind : node.kind = .loopStart iterator field) :
    node.isTerminal = false := by
  have fits := valid.fits node member
  rw [kind] at fits
  obtain ⟨connection, single⟩ := List.length_eq_one_iff.mp fits.1
  simp [Node.isTerminal, single]

theorem decision_continues (valid : flowchart.Valid) {node : Node}
    (member : node ∈ flowchart.nodes) (kind : node.kind = .decision) :
    node.isTerminal = false := by
  have fits := valid.fits node member
  rw [kind] at fits
  cases connections : node.connections with
  | nil => simp [Node.Fits, connections] at fits
  | cons first rest => simp [Node.isTerminal, connections]

theorem continue_continues (valid : flowchart.Valid) {node : Node}
    (member : node ∈ flowchart.nodes) {owner : NodeId} (kind : node.kind = .loopContinue owner) :
    node.isTerminal = false := by
  have fits := valid.fits node member
  rw [kind] at fits
  cases connections : node.connections with
  | nil => simpa [Node.labels, connections] using fits.1.length_eq
  | cons first rest => simp [Node.isTerminal, connections]

end Valid

end Flowchart

theorem Node.exists_target {node : Node} {label : String} (labelled : label ∈ node.labels) :
    ∃ target, node.target? label = some target := by
  obtain ⟨connection, member, rfl⟩ := List.mem_map.mp labelled
  obtain ⟨first, -, found, -⟩ :=
    exists_found (p := (·.label == connection.label)) member (beq_self_eq_true connection.label)
  exact ⟨first.target, by simp [target?, found]⟩

theorem Node.target_of_mem {node : Node} (distinct : node.labels.Nodup) {connection : Connection}
    (listed : connection ∈ node.connections) :
    node.target? connection.label = some connection.target := by
  rw [target?, find_of_nodup distinct listed, Option.map_some]

namespace NodeSpec

theorem ComesTo.schema_eq_none {spec : NodeSpec} (comes : spec.ComesTo .plain) :
    spec.schema = none := by
  cases comes with
  | asked _ other => exact other rfl
  | plain _ _ _ schema => exact schema

theorem WellShaped.schema_eq_none {spec : NodeSpec} (well : spec.WellShaped)
    (several : 2 ≤ spec.connections.length) : spec.schema = none := by
  by_contra schema
  have few := well.schema schema
  omega

end NodeSpec

section

variable {specs : List NodeSpec}

theorem Closes.isLoopStart {closer : NodeSpec} {owner : NodeId}
    (closes : Closes specs closer owner) : IsLoopStart specs owner := by
  cases closes with
  | named _ start | wayBack _ _ start => exact start
  | body _ _ _ only =>
    obtain ⟨spec, source, named, comes, -⟩ := (only owner).mpr rfl
    exact ⟨spec, source, named, comes⟩

theorem Realizes.fits {spec : NodeSpec} {node : Node} (realizes : Realizes specs spec node)
    (well : spec.WellShaped) : node.Fits node.kind := by
  have length : node.connections.length = spec.connections.length := by
    rw [realizes.connections, List.length_map]
  have labels : node.labels = spec.labels := by
    simp [Node.labels, NodeSpec.labels, realizes.connections, Function.comp_def]
  have comes := realizes.kind.comes
  have rule := well.meetsRule comes
  cases kind : node.kind with
  | plain =>
    rw [kind] at comes rule
    exact ⟨length ▸ rule, realizes.schema ▸ comes.schema_eq_none⟩
  | decision =>
    rw [kind] at rule
    exact ⟨length ▸ rule, realizes.schema ▸ well.schema_eq_none rule⟩
  | extraction =>
    rw [kind] at rule
    exact ⟨length ▸ well.schema rule, realizes.schema ▸ rule⟩
  | loopStart iterator field =>
    rw [kind] at rule
    obtain ⟨-, -, schema, single⟩ := rule
    exact ⟨length.trans single, realizes.schema.trans schema⟩
  | loopContinue owner =>
    rw [kind] at rule
    have two : spec.connections.length = 2 := by
      simpa [NodeSpec.labels] using rule.length_eq
    exact ⟨labels ▸ rule, realizes.schema ▸ well.schema_eq_none two.ge⟩

namespace WellFormed

variable {flowchart : Flowchart}

theorem closed (wellFormed : WellFormed specs)
    (realized : List.Forall₂ (Realizes specs) specs flowchart.nodes) {node : Node}
    (member : node ∈ flowchart.nodes) {iterator field : String}
    (kind : node.kind = .loopStart iterator field) :
    ∃ closer, flowchart.closer? node.id = some closer := by
  have labels := wellFormed.labels
  obtain ⟨spec, source, realizes⟩ := forall₂_left_of_mem realized member
  have comes := ((realizes.kind_iff (labels spec source)).mp kind).comes
  obtain ⟨other, ⟨again, continues, closes⟩, -⟩ := wellFormed.closers spec source comes
  obtain ⟨closer, listed, realizesOther⟩ := forall₂_right_of_mem realized again
  rw [realizes.id]
  exact Flowchart.exists_closer listed
    ((realizesOther.kind_iff (labels other again)).mpr (.loopContinue continues closes))

theorem closes (wellFormed : WellFormed specs)
    (realized : List.Forall₂ (Realizes specs) specs flowchart.nodes) {closer : Node}
    (member : closer ∈ flowchart.nodes) {owner : NodeId}
    (kind : closer.kind = .loopContinue owner) : flowchart.closer? owner = some closer := by
  have labels := wellFormed.labels
  have ids : flowchart.ids = specs.map (·.id) := realized_ids realized
  have distinct : flowchart.ids.Nodup := ids ▸ wellFormed.ids
  obtain ⟨other, found⟩ := Flowchart.exists_closer member kind
  obtain ⟨listed, same⟩ := Flowchart.closer_some found
  obtain ⟨spec, source, realizes⟩ := forall₂_left_of_mem realized member
  obtain ⟨twin, again, realizesTwin⟩ := forall₂_left_of_mem realized listed
  have hasKind := (realizes.kind_iff (labels spec source)).mp kind
  have hasKindToo := (realizesTwin.kind_iff (labels twin again)).mp same
  cases hasKind with
  | loopContinue continues closes =>
    cases hasKindToo with
    | loopContinue continuesToo closesToo =>
      obtain ⟨start, declared, rfl, comes⟩ := closes.isLoopStart
      have alone := (wellFormed.closers start declared comes).unique
        ⟨source, continues, closes⟩ ⟨again, continuesToo, closesToo⟩
      have equal : closer.id = other.id := by rw [realizes.id, realizesTwin.id, alone]
      rw [found, List.inj_on_of_nodup_map distinct member listed equal]

end WellFormed

theorem compile_valid {flowchart : Flowchart} (compiled : Flowchart.compile specs = .ok flowchart) :
    flowchart.Valid := by
  obtain ⟨wellFormed, realized, declared, -⟩ := compile_sound compiled
  have ids : flowchart.ids = specs.map (·.id) := realized_ids realized
  refine {
    ids := ids ▸ wellFormed.ids
    start := ids ▸ declared
    targets := ?_
    fits := ?_
    closed := fun node member iterator field => wellFormed.closed realized member
    closes := fun closer member owner => wellFormed.closes realized member
    acyclic := ?_
    templates := ?_ }
  · intro node member connection listed
    obtain ⟨spec, source, realizes⟩ := forall₂_left_of_mem realized member
    rw [realizes.connections] at listed
    obtain ⟨edge, given, rfl⟩ := List.mem_map.mp listed
    exact ids ▸ wellFormed.targets spec source _ (List.mem_map_of_mem given)
  · intro node member
    obtain ⟨spec, source, realizes⟩ := forall₂_left_of_mem realized member
    exact realizes.fits (wellFormed.shapes spec source)
  · have sorted : flowchart.checkCycles = .ok () :=
      (checkCycles_ok_iff realized wellFormed.ids wellFormed.targets).mpr wellFormed.acyclic
    exact Flowchart.checkCycles_ok_iff_cyclic.mp sorted
  · intro node member
    have bound : ∀ node ∈ flowchart.nodes,
        Flowchart.checkTemplate flowchart.iterators node = .ok () :=
      (checkTemplates_ok_iff realized wellFormed.labels wellFormed.shapes).mpr wellFormed.templates
    exact Flowchart.checkTemplate_ok_iff.mp (bound node member)

theorem compile_owner {flowchart : Flowchart} (compiled : Flowchart.compile specs = .ok flowchart)
    {closer : Node} (member : closer ∈ flowchart.nodes) {owner : NodeId}
    (kind : closer.kind = .loopContinue owner) :
    ∃ start ∈ flowchart.nodes, start.id = owner ∧
      ∃ iterator field, start.kind = .loopStart iterator field := by
  obtain ⟨wellFormed, realized, -⟩ := compile_sound compiled
  have labels := wellFormed.labels
  obtain ⟨spec, source, realizes⟩ := forall₂_left_of_mem realized member
  cases (realizes.kind_iff (labels spec source)).mp kind with
  | loopContinue _ closes =>
    obtain ⟨start, declared, rfl, comes⟩ := closes.isLoopStart
    obtain ⟨node, listed, realizesStart⟩ := forall₂_right_of_mem realized declared
    have hint := realizesStart.kind.comes.unique comes
    refine ⟨node, listed, realizesStart.id, ?_⟩
    cases found : node.kind with
    | loopStart iterator field => exact ⟨iterator, field, rfl⟩
    | plain | decision | extraction | loopContinue => rw [found] at hint; cases hint

end

end Colloquy
