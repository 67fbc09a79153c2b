import Colloquy.Proofs.Flowchart.Valid

/-!
The order in which specs are declared means nothing. The rules, and the node that a spec becomes,
ask which specs there are and never where one stands.
-/

namespace Colloquy

section

variable {specs arranged : List NodeSpec}

theorem isLoopStart_congr (same : ∀ spec, spec ∈ specs ↔ spec ∈ arranged) :
    IsLoopStart specs = IsLoopStart arranged := by
  funext id
  simp only [IsLoopStart, same]

theorem hasBody_congr (same : ∀ spec, spec ∈ specs ↔ spec ∈ arranged) :
    HasBody specs = HasBody arranged := by
  funext id body
  simp only [HasBody, same]

theorem leads_congr (same : ∀ spec, spec ∈ specs ↔ spec ∈ arranged) :
    Leads specs = Leads arranged := by
  funext a b
  simp only [Leads, same]

theorem binds_congr (same : ∀ spec, spec ∈ specs ↔ spec ∈ arranged) :
    Binds specs = Binds arranged := by
  funext name
  simp only [Binds, same]

theorem Closes.arrange (same : ∀ spec, spec ∈ specs ↔ spec ∈ arranged) {closer : NodeSpec}
    {owner : NodeId} (closes : Closes specs closer owner) : Closes arranged closer owner := by
  have starts := isLoopStart_congr same
  cases closes with
  | named names start => exact .named names (starts ▸ start)
  | wayBack silent back start => exact .wayBack silent back (starts ▸ start)
  | body silent back other only =>
    exact .body silent back (starts ▸ other) (hasBody_congr same ▸ only)

theorem closes_congr (same : ∀ spec, spec ∈ specs ↔ spec ∈ arranged) :
    Closes specs = Closes arranged := by
  funext closer owner
  exact propext ⟨.arrange same, .arrange fun spec => (same spec).symm⟩

theorem HasKind.arrange (same : ∀ spec, spec ∈ specs ↔ spec ∈ arranged) {spec : NodeSpec}
    {kind : NodeKind} (hasKind : HasKind specs spec kind) : HasKind arranged spec kind := by
  cases hasKind with
  | plain comes => exact .plain comes
  | decision comes => exact .decision comes
  | extraction comes => exact .extraction comes
  | loopStart comes binds ranges => exact .loopStart comes binds ranges
  | loopContinue comes closes => exact .loopContinue comes (closes.arrange same)

theorem Realizes.arrange (same : ∀ spec, spec ∈ specs ↔ spec ∈ arranged) {spec : NodeSpec}
    {node : Node} (realizes : Realizes specs spec node) : Realizes arranged spec node :=
  { realizes with kind := realizes.kind.arrange same }

theorem Realizes.unique {spec : NodeSpec} {node other : Node} (labels : spec.labels.Nodup)
    (realizes : Realizes specs spec node) (again : Realizes specs spec other) : node = other := by
  have kind := realizes.kind.unique labels again.kind
  obtain ⟨id, template, connections, schema, temperature, -⟩ := realizes
  obtain ⟨sameId, sameTemplate, sameConnections, sameSchema, sameTemperature, -⟩ := again
  cases node
  cases other
  rw [Node.mk.injEq]
  exact ⟨id.trans sameId.symm, template.trans sameTemplate.symm,
    connections.trans sameConnections.symm, schema.trans sameSchema.symm,
    temperature.trans sameTemperature.symm, kind⟩

theorem WellFormed.arrange (perm : specs.Perm arranged) (wellFormed : WellFormed specs) :
    WellFormed arranged := by
  have same : ∀ spec, spec ∈ specs ↔ spec ∈ arranged := fun _ => perm.mem_iff
  have ids := perm.map (·.id)
  exact {
    nonempty := fun none => wellFormed.nonempty (none ▸ perm).eq_nil
    ids := ids.nodup_iff.mp wellFormed.ids
    labels := by simpa only [same] using wellFormed.labels
    targets := by simpa only [same, ids.mem_iff] using wellFormed.targets
    start := by simpa only [same, ids.mem_iff] using wellFormed.start
    shapes := by simpa only [same] using wellFormed.shapes
    owners := by simpa only [same, closes_congr same] using wellFormed.owners
    closers := by simpa only [same, closes_congr same] using wellFormed.closers
    acyclic := leads_congr same ▸ wellFormed.acyclic
    templates := by simpa only [same, binds_congr same] using wellFormed.templates }

end

/-- The same start, the same node under every id, and the same loop continue for every loop. -/
structure Flowchart.Agrees (flowchart other : Flowchart) : Prop where
  start : flowchart.start = other.start
  node : ∀ id, flowchart.node? id = other.node? id
  closer : ∀ id, flowchart.closer? id = other.closer? id

namespace Flowchart

variable {specs arranged : List NodeSpec} {flowchart other : Flowchart}

theorem compile_arranged (perm : specs.Perm arranged) :
    (∃ flowchart, compile specs = .ok flowchart) → ∃ other, compile arranged = .ok other := by
  rintro ⟨flowchart, compiled⟩
  have wellFormed := (compile_sound compiled).1.arrange perm
  obtain ⟨nodes, realized⟩ := wellFormed.exists_nodes
  obtain ⟨start, alone, -⟩ := wellFormed.start
  exact ⟨⟨nodes, start⟩, compile_complete wellFormed realized alone⟩

theorem nodes_subset_of_perm (perm : specs.Perm arranged) (compiled : compile specs = .ok flowchart)
    (rearranged : compile arranged = .ok other) : flowchart.nodes ⊆ other.nodes := by
  obtain ⟨wellFormed, realized, -⟩ := compile_sound compiled
  obtain ⟨-, again, -⟩ := compile_sound rearranged
  intro node member
  obtain ⟨spec, source, realizes⟩ := forall₂_left_of_mem realized member
  obtain ⟨twin, listed, same⟩ := forall₂_right_of_mem again (perm.mem_iff.mp source)
  have same := same.arrange fun _ => perm.mem_iff.symm
  rwa [realizes.unique (wellFormed.labels spec source) same]

theorem mem_nodes_congr (perm : specs.Perm arranged) (compiled : compile specs = .ok flowchart)
    (rearranged : compile arranged = .ok other) {node : Node} :
    node ∈ flowchart.nodes ↔ node ∈ other.nodes :=
  ⟨fun member => nodes_subset_of_perm perm compiled rearranged member,
    fun member => nodes_subset_of_perm perm.symm rearranged compiled member⟩

theorem Valid.closer_some_iff (valid : flowchart.Valid) {owner : NodeId} {closer : Node} :
    flowchart.closer? owner = some closer ↔
      closer ∈ flowchart.nodes ∧ closer.kind = .loopContinue owner :=
  ⟨closer_some, fun ⟨member, kind⟩ => valid.closes closer member owner kind⟩

theorem agrees_of_perm (perm : specs.Perm arranged) (compiled : compile specs = .ok flowchart)
    (rearranged : compile arranged = .ok other) : flowchart.Agrees other := by
  have nodes : ∀ node, node ∈ flowchart.nodes ↔ node ∈ other.nodes := fun _ =>
    mem_nodes_congr perm compiled rearranged
  have valid := compile_valid compiled
  have validToo := compile_valid rearranged
  obtain ⟨wellFormed, -, first⟩ := compile_sound compiled
  obtain ⟨-, -, declared, untargeted⟩ := compile_sound rearranged
  refine ⟨?_, ?_, ?_⟩
  · refine wellFormed.start.unique first ⟨(perm.map (·.id)).mem_iff.mpr declared, ?_⟩
    exact fun spec source => untargeted spec (perm.mem_iff.mp source)
  · intro id
    ext node
    rw [node_some_iff valid.ids, node_some_iff validToo.ids, nodes]
  · intro owner
    ext closer
    rw [valid.closer_some_iff, validToo.closer_some_iff, nodes]

end Flowchart

end Colloquy
