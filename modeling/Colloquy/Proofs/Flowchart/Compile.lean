import Colloquy.Proofs.Flowchart.Order
import Colloquy.Proofs.Flowchart.Pairing

/-!
Compiling succeeds on exactly the well-formed lists of specs, and its result is the flowchart whose
nodes realize them.
-/

namespace Colloquy

namespace Flowchart

theorem node_some_iff {flowchart : Flowchart} (distinct : flowchart.ids.Nodup) {id : NodeId}
    {node : Node} : flowchart.node? id = some node ↔ node ∈ flowchart.nodes ∧ node.id = id := by
  constructor
  · intro found
    exact ⟨List.mem_of_find?_eq_some found, by simpa using List.find?_some found⟩
  · rintro ⟨member, rfl⟩
    exact find_of_nodup distinct member

theorem mem_forwardTargets {flowchart : Flowchart} (distinct : flowchart.ids.Nodup)
    {a b : NodeId} :
    b ∈ flowchart.forwardTargets a ↔ ∃ node ∈ flowchart.nodes, node.id = a ∧
      ∃ connection ∈ node.connections, connection.target = b ∧
        ¬ (node.isLoopContinue = true ∧ connection.label = hasMoreLabel) := by
  unfold forwardTargets
  cases found : flowchart.node? a with
  | none =>
    simp only [List.not_mem_nil, false_iff]
    rintro ⟨node, member, named, -⟩
    rw [(node_some_iff distinct).mpr ⟨member, named⟩] at found
    contradiction
  | some node =>
    obtain ⟨member, named⟩ := (node_some_iff distinct).mp found
    simp only [Node.forwardTargets, List.mem_map, List.mem_filter, Bool.not_eq_true',
      ← Bool.not_eq_true, Bool.and_eq_true, beq_iff_eq]
    constructor
    · rintro ⟨connection, ⟨declared, forward⟩, target⟩
      exact ⟨node, member, named, connection, declared, target, forward⟩
    · rintro ⟨other, again, same, connection, declared, target, forward⟩
      obtain rfl := List.inj_on_of_nodup_map distinct again member (same.trans named.symm)
      exact ⟨connection, ⟨declared, forward⟩, target⟩

theorem mem_iterators {flowchart : Flowchart} {name : String} :
    name ∈ flowchart.iterators ↔
      ∃ node ∈ flowchart.nodes, ∃ field, node.kind = .loopStart name field := by
  simp only [iterators, List.mem_filterMap]
  constructor
  · rintro ⟨node, member, bound⟩
    split at bound
    · rename_i iterator field kind
      cases bound
      exact ⟨node, member, field, kind⟩
    · contradiction
  · rintro ⟨node, member, field, kind⟩
    exact ⟨node, member, by rw [kind]⟩

theorem checkTemplate_ok_iff {iterators : List String} {node : Node} :
    checkTemplate iterators node = .ok () ↔ ∃ names,
      Template.placeholders node.template = some names ∧ ∀ name ∈ names, name ∈ iterators := by
  unfold checkTemplate
  cases Template.placeholders node.template with
  | none => simp
  | some names =>
    dsimp only
    cases unknown : names.find? (· ∉ iterators) with
    | none => simpa [List.find?_eq_none] using unknown
    | some name =>
      have missing : name ∉ iterators := by simpa using List.find?_some unknown
      simp only [reduceCtorEq, Option.some.injEq, exists_eq_left', false_iff]
      intro all
      exact missing (all name (List.mem_of_find?_eq_some unknown))

theorem checkCycles_ok_iff_cyclic {flowchart : Flowchart} :
    flowchart.checkCycles = .ok () ↔ flowchart.cyclic = [] := by
  unfold checkCycles
  split
  · rename_i none
    simpa using none
  · rename_i some
    simpa using some

/-- An order in which every edge leads forward rules out cycles. -/
theorem checkCycles_of_order {flowchart : Flowchart} (order : List NodeId)
    (forward : ∀ a ∈ flowchart.ids, ∀ b ∈ flowchart.forwardTargets a,
      order.idxOf a < order.idxOf b) : flowchart.checkCycles = .ok () := by
  rw [checkCycles_ok_iff_cyclic, cyclic, topologicalSort_cyclic_eq_nil_iff]
  have further : ∀ a b, Relation.TransGen (Follows flowchart.forwardTargets flowchart.ids) a b →
      order.idxOf a < order.idxOf b := by
    intro a b way
    induction way with
    | single edge => exact forward a edge.1 _ edge.2.2
    | tail _ edge ih => exact ih.trans (forward _ edge.1 _ edge.2.2)
  intro id cycle
  exact Nat.lt_irrefl _ (further id id cycle)

theorem checkIds_ok_iff {specs : List NodeSpec} :
    checkIds specs = .ok () ↔ specs ≠ [] ∧ (specs.map (·.id)).Nodup := by
  unfold checkIds
  cases specs with
  | nil => simp
  | cons spec rest =>
    rw [if_neg (by simp)]
    cases repeated : firstRepeated? [] ((spec :: rest).map (·.id)) with
    | none => simpa using (firstRepeated_eq_none_iff.mp repeated).1
    | some id =>
      have again : ¬ ((spec :: rest).map (·.id)).Nodup := by
        intro distinct
        rw [firstRepeated_eq_none_iff.mpr ⟨distinct, by simp⟩] at repeated
        contradiction
      simp only [reduceCtorEq, ne_eq, not_false_eq_true, true_and, false_iff]
      exact again

end Flowchart

namespace Closes

variable {specs : List NodeSpec} {closer : NodeSpec} {owner other : NodeId}

theorem unique (labels : closer.labels.Nodup) (closes : Closes specs closer owner)
    (again : Closes specs closer other) : owner = other := by
  cases closes with
  | named names =>
    cases again with
    | named same => exact Option.some.inj (names.symm.trans same)
    | wayBack silent | body silent => rw [names] at silent; contradiction
  | wayBack silent back start =>
    cases again with
    | named names => rw [silent] at names; contradiction
    | wayBack _ same => exact NodeSpec.mem_connections_unique labels back same
    | body _ same none =>
      exact absurd (NodeSpec.mem_connections_unique labels back same ▸ start) none
  | body silent back none only =>
    cases again with
    | named names => rw [silent] at names; contradiction
    | wayBack _ same start =>
      exact absurd (NodeSpec.mem_connections_unique labels same back ▸ start) none
    | body _ same _ single =>
      cases NodeSpec.mem_connections_unique labels back same
      exact (single owner).mp ((only owner).mpr rfl)

end Closes

def NodeKind.hint : NodeKind → KindHint
  | .plain => .plain
  | .decision => .decision
  | .extraction => .extraction
  | .loopStart _ _ => .loopStart
  | .loopContinue _ => .loopContinue

namespace HasKind

variable {specs : List NodeSpec} {spec : NodeSpec} {kind other : NodeKind}

theorem comes (hasKind : HasKind specs spec kind) : spec.ComesTo kind.hint := by
  cases hasKind with
  | plain comes | decision comes | extraction comes | loopStart comes | loopContinue comes =>
    exact comes

theorem unique (labels : spec.labels.Nodup) (hasKind : HasKind specs spec kind)
    (again : HasKind specs spec other) : kind = other := by
  have same := hasKind.comes.unique again.comes
  cases hasKind with
  | plain => cases again <;> first | rfl | cases same
  | decision => cases again <;> first | rfl | cases same
  | extraction => cases again <;> first | rfl | cases same
  | loopStart _ binds ranges =>
    cases again with
    | loopStart _ named given =>
      rw [Option.some.inj (binds.symm.trans named), Option.some.inj (ranges.symm.trans given)]
    | plain | decision | extraction | loopContinue => cases same
  | loopContinue _ closes =>
    cases again with
    | loopContinue _ closed => rw [closes.unique labels closed]
    | plain | decision | extraction | loopStart => cases same

end HasKind

theorem Node.isLoopContinue_iff {node : Node} :
    node.isLoopContinue = true ↔ node.kind.hint = .loopContinue := by
  unfold isLoopContinue NodeKind.hint
  cases node.kind <;> simp

section

variable {specs : List NodeSpec} {nodes : List Node}

theorem realized_ids (realized : List.Forall₂ (Realizes specs) specs nodes) :
    nodes.map (·.id) = specs.map (·.id) :=
  forall₂_map_eq (·.id) (·.id) realized fun _ _ realizes => realizes.id

theorem Realizes.kind_iff {spec : NodeSpec} {node : Node} (realizes : Realizes specs spec node)
    (labels : spec.labels.Nodup) {kind : NodeKind} :
    node.kind = kind ↔ HasKind specs spec kind := by
  constructor
  · rintro rfl
    exact realizes.kind
  · exact realizes.kind.unique labels

theorem mem_closers (realized : List.Forall₂ (Realizes specs) specs nodes)
    (labels : ∀ spec ∈ specs, spec.labels.Nodup) {id closer : NodeId} :
    closer ∈ Flowchart.closers nodes id ↔ ∃ spec ∈ specs, spec.id = closer ∧
      spec.ComesTo .loopContinue ∧ Closes specs spec id := by
  simp only [Flowchart.closers, List.mem_map, List.mem_filter, beq_iff_eq]
  constructor
  · rintro ⟨node, ⟨member, kind⟩, named⟩
    obtain ⟨spec, declared, realizes⟩ := forall₂_left_of_mem realized member
    cases (realizes.kind_iff (labels spec declared)).mp kind with
    | loopContinue comes closes => exact ⟨spec, declared, realizes.id ▸ named, comes, closes⟩
  · rintro ⟨spec, declared, named, comes, closes⟩
    obtain ⟨node, member, realizes⟩ := forall₂_right_of_mem realized declared
    have kind := (realizes.kind_iff (labels spec declared)).mpr (.loopContinue comes closes)
    exact ⟨node, ⟨member, kind⟩, realizes.id.trans named⟩

theorem checkClosers_ok_iff (realized : List.Forall₂ (Realizes specs) specs nodes)
    (distinct : (specs.map (·.id)).Nodup) (labels : ∀ spec ∈ specs, spec.labels.Nodup)
    {id : NodeId} :
    Flowchart.checkClosers nodes id = .ok () ↔ ∃! closer, closer ∈ specs ∧
      closer.ComesTo .loopContinue ∧ Closes specs closer id := by
  have once : (Flowchart.closers nodes id).Nodup := by
    rw [← realized_ids realized] at distinct
    exact distinct.sublist (List.filter_sublist.map _)
  have single : Flowchart.checkClosers nodes id = .ok () ↔
      ∃ closer, Flowchart.closers nodes id = [closer] := by
    unfold Flowchart.checkClosers
    split
    · rename_i closer one
      simp [one]
    · rename_i several
      simp only [reduceCtorEq, false_iff]
      rintro ⟨closer, one⟩
      exact several closer one
  simp only [single, eq_singleton_iff_of_nodup once, mem_closers realized labels]
  constructor
  · rintro ⟨closer, only⟩
    obtain ⟨spec, declared, named, closes⟩ := (only closer).mpr rfl
    refine ⟨spec, ⟨declared, closes⟩, ?_⟩
    rintro other ⟨again, closed⟩
    have same := (only other.id).mp ⟨other, again, rfl, closed⟩
    exact List.inj_on_of_nodup_map distinct again declared (same.trans named.symm)
  · rintro ⟨spec, ⟨declared, closes⟩, only⟩
    refine ⟨spec.id, fun id => ?_⟩
    constructor
    · rintro ⟨other, again, rfl, closed⟩
      rw [only other ⟨again, closed⟩]
    · rintro rfl
      exact ⟨spec, declared, rfl, closes⟩

theorem follows_iff_leads {start : NodeId} (realized : List.Forall₂ (Realizes specs) specs nodes)
    (distinct : (specs.map (·.id)).Nodup)
    (targets : ∀ spec ∈ specs, ∀ target ∈ spec.targets, target ∈ specs.map (·.id))
    {a b : NodeId} :
    Follows (Flowchart.mk nodes start).forwardTargets (Flowchart.mk nodes start).ids a b ↔
      Leads specs a b := by
  have ids : (Flowchart.mk nodes start).ids = specs.map (·.id) := realized_ids realized
  rw [Follows, ids, Flowchart.mem_forwardTargets (ids ▸ distinct)]
  constructor
  · rintro ⟨-, -, node, member, named, connection, declared, target, forward⟩
    obtain ⟨spec, source, realizes⟩ := forall₂_left_of_mem realized member
    rw [realizes.connections, List.mem_map] at declared
    obtain ⟨⟨label, goal⟩, edge, rfl⟩ := declared
    cases target
    refine ⟨spec, source, realizes.id ▸ named, label, edge, ?_⟩
    rintro ⟨comes, back⟩
    exact forward ⟨Node.isLoopContinue_iff.mpr (realizes.kind.comes.unique comes), back⟩
  · rintro ⟨spec, source, named, label, edge, forward⟩
    obtain ⟨node, member, realizes⟩ := forall₂_right_of_mem realized source
    refine ⟨named ▸ List.mem_map_of_mem source, targets spec source b (List.mem_map_of_mem edge),
      node, member, realizes.id.trans named, ⟨label, b⟩, ?_, rfl, ?_⟩
    · rw [realizes.connections]
      exact List.mem_map_of_mem edge
    · rintro ⟨continues, back⟩
      exact forward ⟨Node.isLoopContinue_iff.mp continues ▸ realizes.kind.comes, back⟩

theorem checkCycles_ok_iff {start : NodeId} (realized : List.Forall₂ (Realizes specs) specs nodes)
    (distinct : (specs.map (·.id)).Nodup)
    (targets : ∀ spec ∈ specs, ∀ target ∈ spec.targets, target ∈ specs.map (·.id)) :
    (Flowchart.mk nodes start).checkCycles = .ok () ↔
      ∀ id, ¬ Relation.TransGen (Leads specs) id id := by
  have edges : Follows (Flowchart.mk nodes start).forwardTargets (Flowchart.mk nodes start).ids =
      Leads specs := by
    funext a b
    exact propext (follows_iff_leads realized distinct targets)
  rw [Flowchart.checkCycles_ok_iff_cyclic, Flowchart.cyclic, topologicalSort_cyclic_eq_nil_iff,
    edges]

theorem mem_iterators_iff_binds {start : NodeId}
    (realized : List.Forall₂ (Realizes specs) specs nodes)
    (labels : ∀ spec ∈ specs, spec.labels.Nodup) (shapes : ∀ spec ∈ specs, spec.WellShaped)
    {name : String} : name ∈ (Flowchart.mk nodes start).iterators ↔ Binds specs name := by
  rw [Flowchart.mem_iterators]
  constructor
  · rintro ⟨node, member, field, kind⟩
    obtain ⟨spec, source, realizes⟩ := forall₂_left_of_mem realized member
    cases (realizes.kind_iff (labels spec source)).mp kind with
    | loopStart comes binds ranges => exact ⟨spec, source, comes, _, binds, rfl⟩
  · rintro ⟨spec, source, comes, iterator, binds, rfl⟩
    obtain ⟨node, member, realizes⟩ := forall₂_right_of_mem realized source
    obtain ⟨-, ⟨collection, ranges, -⟩, -⟩ := (shapes spec source).meetsRule comes
    exact ⟨node, member, _,
      (realizes.kind_iff (labels spec source)).mpr (.loopStart comes binds ranges)⟩

theorem checkTemplates_ok_iff {start : NodeId}
    (realized : List.Forall₂ (Realizes specs) specs nodes)
    (labels : ∀ spec ∈ specs, spec.labels.Nodup) (shapes : ∀ spec ∈ specs, spec.WellShaped) :
    (∀ node ∈ nodes,
        Flowchart.checkTemplate (Flowchart.mk nodes start).iterators node = .ok ()) ↔
      ∀ spec ∈ specs, ∃ names, Template.placeholders spec.text = some names ∧
        ∀ name ∈ names, Binds specs name := by
  simp only [Flowchart.checkTemplate_ok_iff, mem_iterators_iff_binds realized labels shapes]
  constructor
  · intro each spec source
    obtain ⟨node, member, realizes⟩ := forall₂_right_of_mem realized source
    exact realizes.template ▸ each node member
  · intro each node member
    obtain ⟨spec, source, realizes⟩ := forall₂_left_of_mem realized member
    exact realizes.template ▸ each spec source

theorem exists_outlines (shapes : ∀ spec ∈ specs, spec.WellShaped) :
    ∃ outlines, List.Forall₂ Outlines specs outlines := by
  apply forall₂_exists
  intro spec source
  have well := shapes spec source
  obtain ⟨kind, comes, rule⟩ := well.rule
  cases kind with
  | plain => exact ⟨⟨spec, .plain⟩, rfl, well, _, comes, rfl⟩
  | decision => exact ⟨⟨spec, .decision⟩, rfl, well, _, comes, rfl⟩
  | extraction => exact ⟨⟨spec, .extraction⟩, rfl, well, _, comes, rfl⟩
  | loopStart =>
    obtain ⟨⟨iterator, binds, -⟩, ⟨collection, ranges, -⟩, -⟩ := rule
    exact ⟨⟨spec, .loopStart (Text.trim iterator) (Text.trim collection)⟩, rfl, well, _, comes,
      iterator, collection, binds, ranges, rfl⟩
  | loopContinue => exact ⟨⟨spec, .loopContinue spec.loopStart⟩, rfl, well, _, comes, rfl⟩

theorem WellFormed.exists_nodes (wellFormed : WellFormed specs) :
    ∃ nodes, List.Forall₂ (Realizes specs) specs nodes := by
  apply forall₂_exists
  intro spec source
  obtain ⟨hint, comes, rule⟩ := (wellFormed.shapes spec source).rule
  have kind : ∃ kind, HasKind specs spec kind := by
    cases hint with
    | plain => exact ⟨_, .plain comes⟩
    | decision => exact ⟨_, .decision comes⟩
    | extraction => exact ⟨_, .extraction comes⟩
    | loopStart =>
      obtain ⟨⟨iterator, binds, -⟩, ⟨collection, ranges, -⟩, -⟩ := rule
      exact ⟨_, .loopStart comes binds ranges⟩
    | loopContinue =>
      obtain ⟨owner, closes, -⟩ := wellFormed.owners spec source comes
      exact ⟨_, .loopContinue comes closes⟩
  obtain ⟨kind, hasKind⟩ := kind
  exact ⟨⟨spec.id, spec.text, _, spec.schema, _, kind⟩, rfl, rfl, rfl, rfl, rfl, hasKind⟩

theorem forM_checkClosers_ok_iff {outlines : List Outline}
    (outlined : List.Forall₂ Outlines specs outlines)
    (realized : List.Forall₂ (Realizes specs) specs nodes)
    (distinct : (specs.map (·.id)).Nodup) (labels : ∀ spec ∈ specs, spec.labels.Nodup) :
    ((outlines.filterMap Outline.loopBody?).forM fun start =>
        Flowchart.checkClosers nodes start.1) = .ok () ↔
      ∀ spec ∈ specs, spec.ComesTo .loopStart →
        ∃! closer, closer ∈ specs ∧ closer.ComesTo .loopContinue ∧ Closes specs closer spec.id := by
  rw [forM_ok_iff]
  constructor
  · intro each spec source comes
    obtain ⟨start, listed, named⟩ :=
      List.mem_map.mp ((mem_startIds outlined).mpr ⟨spec, source, rfl, comes⟩)
    rw [← named]
    exact (checkClosers_ok_iff realized distinct labels).mp (each start listed)
  · intro each start listed
    obtain ⟨spec, source, named, comes, -⟩ := (mem_starts outlined).mp listed
    rw [← named]
    exact (checkClosers_ok_iff realized distinct labels).mpr (each spec source comes)

theorem exists_owner (realized : List.Forall₂ (Realizes specs) specs nodes)
    (labels : ∀ spec ∈ specs, spec.labels.Nodup) {spec : NodeSpec} (source : spec ∈ specs)
    (comes : spec.ComesTo .loopContinue) : ∃! owner, Closes specs spec owner := by
  obtain ⟨node, -, realizes⟩ := forall₂_right_of_mem realized source
  have hint := realizes.kind.comes.unique comes
  cases kind : node.kind with
  | loopContinue owner =>
    cases (realizes.kind_iff (labels spec source)).mp kind with
    | loopContinue _ closes =>
      exact ⟨owner, closes, fun _ again => again.unique (labels spec source) closes⟩
  | plain | decision | extraction | loopStart => rw [kind] at hint; cases hint

variable {flowchart : Flowchart}

theorem compile_sound (compiled : Flowchart.compile specs = .ok flowchart) :
    WellFormed specs ∧ List.Forall₂ (Realizes specs) specs flowchart.nodes ∧
      flowchart.start ∈ specs.map (·.id) ∧ ∀ spec ∈ specs, flowchart.start ∉ spec.targets := by
  simp only [Flowchart.compile, bind_ok_iff] at compiled
  obtain ⟨⟨⟩, ids, ⟨⟩, connections, start, found, outlines, outlined, nodes, made, ⟨⟩, closed,
    ⟨⟩, sorted, ⟨⟩, bound, same⟩ := compiled
  cases same
  obtain ⟨nonempty, distinct⟩ := Flowchart.checkIds_ok_iff.mp ids
  have checked := fun spec source => NodeSpec.checkConnections_ok_iff.mp
    (forM_ok_iff.mp connections spec source)
  have labels : ∀ spec ∈ specs, spec.labels.Nodup := fun spec source => (checked spec source).1
  have targets : ∀ spec ∈ specs, ∀ target ∈ spec.targets, target ∈ specs.map (·.id) :=
    fun spec source => (checked spec source).2.2
  have only := (NodeSpec.findStart_ok_iff distinct).mp found
  have outlined : List.Forall₂ Outlines specs outlines :=
    (mapM_ok_iff.mp outlined).imp fun _ _ => Outline.ofSpec_ok_iff.mp
  have realized := (nodes_ok_iff outlined distinct labels).mp made
  have shapes : ∀ spec ∈ specs, spec.WellShaped := fun spec source =>
    have ⟨_, _, relation⟩ := forall₂_right_of_mem outlined source
    relation.well
  refine ⟨?_, realized, (only start).mpr rfl⟩
  exact {
    nonempty, ids := distinct, labels, targets
    start := ⟨start, (only start).mpr rfl, fun id alone => (only id).mp alone⟩
    shapes
    owners := fun spec source => exists_owner realized labels source
    closers := (forM_checkClosers_ok_iff outlined realized distinct labels).mp closed
    acyclic := (checkCycles_ok_iff realized distinct targets).mp sorted
    templates := (checkTemplates_ok_iff realized labels shapes).mp (forM_ok_iff.mp bound) }

theorem compile_complete (wellFormed : WellFormed specs)
    (realized : List.Forall₂ (Realizes specs) specs flowchart.nodes)
    (alone : flowchart.start ∈ specs.map (·.id) ∧ ∀ spec ∈ specs, flowchart.start ∉ spec.targets) :
    Flowchart.compile specs = .ok flowchart := by
  have distinct := wellFormed.ids
  have labels := wellFormed.labels
  obtain ⟨outlines, outlined⟩ := exists_outlines wellFormed.shapes
  have connections : ∀ spec ∈ specs,
      NodeSpec.checkConnections (specs.map (·.id)) spec.id [] spec.connections = .ok () :=
    fun spec source => NodeSpec.checkConnections_ok_iff.mpr
      ⟨labels spec source, by simp, wellFormed.targets spec source⟩
  have only : ∀ id, (id ∈ specs.map (·.id) ∧ ∀ spec ∈ specs, id ∉ spec.targets) ↔
      id = flowchart.start := by
    intro id
    constructor
    · intro other
      exact wellFormed.start.unique other alone
    · rintro rfl
      exact alone
  simp only [Flowchart.compile, bind_ok_iff]
  exact ⟨(), Flowchart.checkIds_ok_iff.mpr ⟨wellFormed.nonempty, distinct⟩,
    (), forM_ok_iff.mpr connections,
    flowchart.start, (NodeSpec.findStart_ok_iff distinct).mpr only,
    outlines, mapM_ok_iff.mpr (outlined.imp fun _ _ => Outline.ofSpec_ok_iff.mpr),
    flowchart.nodes, (nodes_ok_iff outlined distinct labels).mpr realized,
    (), (forM_checkClosers_ok_iff outlined realized distinct labels).mpr wellFormed.closers,
    (), (checkCycles_ok_iff realized distinct wellFormed.targets).mpr wellFormed.acyclic,
    (), forM_ok_iff.mpr
      ((checkTemplates_ok_iff realized labels wellFormed.shapes).mpr wellFormed.templates), rfl⟩

/-- Compiling succeeds exactly when all the rules hold. -/
theorem compile_succeeds_iff_wellFormed (specs : List NodeSpec) :
    (∃ flowchart, Flowchart.compile specs = .ok flowchart) ↔ WellFormed specs := by
  constructor
  · rintro ⟨flowchart, compiled⟩
    exact (compile_sound compiled).1
  · intro wellFormed
    obtain ⟨nodes, realized⟩ := wellFormed.exists_nodes
    obtain ⟨start, alone, -⟩ := wellFormed.start
    exact ⟨⟨nodes, start⟩, compile_complete wellFormed realized alone⟩

end

end Colloquy
