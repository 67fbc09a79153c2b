import Colloquy.Flowchart.Tables
import Colloquy.Proofs.Flowchart.Arrangement

/-!
Pairing by tables comes to the same flowchart, or the same error, as resolving each loop continue by
itself: every loop continue that is gathered is drained, and under one loop start only.
-/

namespace Colloquy

section

variable {ε α β : Type}

theorem bind_congr_of_ok {x : Except ε α} {f g : α → Except ε β}
    (same : ∀ a, x = .ok a → f a = g a) : (x >>= f) = (x >>= g) := by
  cases x with
  | error e => rfl
  | ok a => exact same a rfl

end

def Node.pair? (node : Node) : Option (NodeId × NodeId) :=
  match node.kind with
  | .loopContinue owner => some (owner, node.id)
  | _ => none

theorem Node.pair_some_iff {node : Node} {start closer : NodeId} :
    node.pair? = some (start, closer) ↔ node.kind = .loopContinue start ∧ node.id = closer := by
  unfold pair?
  cases node.kind <;> simp

def Node.pairs (nodes : List Node) : Pairs := nodes.filterMap Node.pair?

theorem Node.mem_pairs {nodes : List Node} {start closer : NodeId} :
    (start, closer) ∈ pairs nodes ↔
      ∃ node ∈ nodes, node.kind = .loopContinue start ∧ node.id = closer := by
  simp only [pairs, List.mem_filterMap, pair_some_iff]

theorem Node.pairs_closers (nodes : List Node) (start : NodeId) :
    (pairs nodes).closers start = Flowchart.closers nodes start := by
  induction nodes with
  | nil => rfl
  | cons node rest ih =>
    have head : pairs (node :: rest) = node.pair?.toList ++ pairs rest :=
      filterMap_cons_toList pair? node rest
    rw [head, Pairs.closers, List.filter_append, List.map_append]
    change _ ++ (pairs rest).closers start = _
    rw [ih]
    by_cases closes : node.kind = .loopContinue start
    · simp [pair?, closes, Flowchart.closers]
    · cases kind : node.kind with
      | loopContinue owner =>
        have other : ¬ owner = start := fun same => closes (kind.trans (congrArg _ same))
        simp [pair?, kind, Flowchart.closers, other]
      | plain | decision | extraction | loopStart => simp [pair?, kind, Flowchart.closers]

namespace Outline

variable {starts : List (NodeId × NodeId)}

theorem node_eq (starts : List (NodeId × NodeId)) (outline : Outline) :
    outline.node starts = outline.nodeOfKind <$> outline.kind starts :=
  (map_eq_pure_bind _ _).symm

theorem exists_kind_of_node {outline : Outline} {node : Node}
    (becomes : outline.node starts = .ok node) :
    ∃ kind, outline.kind starts = .ok kind ∧ outline.nodeOfKind kind = node := by
  rw [node_eq, map_eq_pure_bind, bind_ok_iff] at becomes
  obtain ⟨kind, resolved, same⟩ := becomes
  cases same
  exact ⟨kind, resolved, rfl⟩

/-- What is gathered is what the nodes say of themselves, up to the first error. -/
theorem gather_eq (starts : List (NodeId × NodeId)) (outlines : List Outline) :
    gather starts outlines = Node.pairs <$> outlines.mapM (Outline.node starts) := by
  induction outlines with
  | nil => rfl
  | cons outline rest ih =>
    rw [List.mapM_cons, gather, ih, node_eq, kind]
    cases outline.shape with
    | plain | decision | extraction | loopStart =>
      cases rest.mapM (Outline.node starts) <;> rfl
    | loopContinue explicit =>
      dsimp only
      cases ownerOf starts ((outline.spec.target? hasMoreLabel).getD "") explicit with
      | error fault => rfl
      | ok owner => cases rest.mapM (Outline.node starts) <;> rfl

theorem ownerOf_mem {back owner : NodeId} {explicit : Option NodeId}
    (resolved : ownerOf starts back explicit = .ok owner) : owner ∈ starts.map (·.1) := by
  unfold ownerOf at resolved
  split at resolved
  · split at resolved
    · rename_i start
      cases resolved
      exact start
    · contradiction
  · split at resolved
    · rename_i start
      cases resolved
      exact start
    · split at resolved
      · rename_i only single
        cases resolved
        obtain ⟨start, listed, rfl⟩ := List.mem_map.mp (single ▸ List.mem_singleton_self owner)
        exact List.mem_map_of_mem (List.mem_of_mem_filter listed)
      · contradiction
      · contradiction

theorem kind_cases {outline : Outline} {kind : NodeKind}
    (resolved : outline.kind starts = .ok kind) :
    (∃ owner ∈ starts.map (·.1), kind = .loopContinue owner ∧
      ∀ pairs, outline.pairedKind pairs = .loopContinue (pairs.owner outline.spec.id)) ∨
    ((∀ owner, kind ≠ .loopContinue owner) ∧ ∀ pairs, outline.pairedKind pairs = kind) := by
  unfold Outline.kind at resolved
  unfold pairedKind
  cases shape : outline.shape with
  | plain | decision | extraction | loopStart =>
    rw [shape] at resolved
    cases resolved
    exact .inr ⟨nofun, fun _ => rfl⟩
  | loopContinue explicit =>
    rw [shape] at resolved
    dsimp only at resolved
    split at resolved
    · rename_i owner found
      cases resolved
      exact .inl ⟨owner, ownerOf_mem found, rfl, fun _ => rfl⟩
    · contradiction

end Outline

namespace Pairs

def single (table : Pairs) (start : NodeId) : Except ConfigError (NodeId × NodeId) :=
  match table.closers start with
  | [closer] => .ok (start, closer)
  | others => .error (.unpairedLoopStart start others)

theorem closers_remove {table : Pairs} {start other : NodeId} (apart : other ≠ start) :
    (table.remove start).closers other = table.closers other := by
  unfold closers remove
  rw [List.filter_filter]
  congr 2
  funext pair
  by_cases here : pair.1 = other
  · simp [here, apart]
  · simp [here]

/-- Taking a loop start out of the table changes nothing for those that come after it. -/
theorem drain_eq {starts : List NodeId} (distinct : starts.Nodup) {table rest : Pairs}
    (left : ∀ start ∈ starts, rest.closers start = table.closers start) :
    drain starts rest = starts.mapM table.single := by
  induction starts generalizing rest with
  | nil => rfl
  | cons start later ih =>
    obtain ⟨fresh, distinct⟩ := List.nodup_cons.mp distinct
    have tail : drain later (rest.remove start) = later.mapM table.single := by
      apply ih distinct
      intro other member
      have apart : other ≠ start := by
        rintro rfl
        exact fresh member
      rw [closers_remove apart, left other (List.mem_cons_of_mem _ member)]
    rw [List.mapM_cons, drain, left start List.mem_cons_self, tail, single]
    cases table.closers start with
    | nil => rfl
    | cons closer more =>
      cases more with
      | nil => rfl
      | cons => rfl

theorem single_ok_iff {table : Pairs} {start : NodeId} {pair : NodeId × NodeId} :
    table.single start = .ok pair ↔ ∃ closer, table.closers start = [closer] ∧
      pair = (start, closer) := by
  unfold single
  split
  · rename_i closer alone
    simp [alone, eq_comm]
  · rename_i several
    simp only [reduceCtorEq, false_iff]
    rintro ⟨closer, alone, -⟩
    exact several closer alone

theorem mem_of_closers {table : Pairs} {start closer : NodeId} :
    closer ∈ table.closers start ↔ (start, closer) ∈ table := by
  simp [closers]

variable {starts : List NodeId} {table pairs : Pairs}

theorem drained_starts (drained : starts.mapM table.single = .ok pairs) :
    pairs.map (·.1) = starts := by
  have each := mapM_ok_iff.mp drained
  rw [forall₂_map_eq (fun start => start) (·.1) each, List.map_id']
  intro start pair found
  obtain ⟨closer, -, rfl⟩ := single_ok_iff.mp found
  rfl

theorem mem_drained (drained : starts.mapM table.single = .ok pairs) {start closer : NodeId} :
    (start, closer) ∈ pairs ↔ start ∈ starts ∧ (start, closer) ∈ table := by
  have each := mapM_ok_iff.mp drained
  constructor
  · intro member
    obtain ⟨source, listed, found⟩ := forall₂_left_of_mem each member
    obtain ⟨only, alone, same⟩ := single_ok_iff.mp found
    cases same
    exact ⟨listed, mem_of_closers.mp (alone ▸ List.mem_singleton_self closer)⟩
  · rintro ⟨listed, held⟩
    obtain ⟨pair, member, found⟩ := forall₂_right_of_mem each listed
    obtain ⟨only, alone, rfl⟩ := single_ok_iff.mp found
    obtain rfl := List.mem_singleton.mp (alone ▸ mem_of_closers.mpr held)
    exact member

theorem closer_some_iff (distinct : (pairs.map (·.1)).Nodup) {start closer : NodeId} :
    pairs.closer? start = some closer ↔ (start, closer) ∈ pairs := by
  constructor
  · intro found
    obtain ⟨⟨source, target⟩, held, rfl⟩ := Option.map_eq_some_iff.mp found
    have named : source = start := by simpa using List.find?_some held
    exact named ▸ List.mem_of_find?_eq_some held
  · intro member
    rw [closer?, find_of_nodup distinct member, Option.map_some]

theorem owner_eq {start closer : NodeId} (member : (start, closer) ∈ pairs)
    (alone : ∀ other, (other, closer) ∈ pairs → other = start) : pairs.owner closer = start := by
  obtain ⟨⟨other, same⟩, held, found, named⟩ :=
    exists_found (p := (·.2 == closer)) member (beq_self_eq_true closer)
  obtain rfl := beq_iff_eq.mp named
  rw [owner, found, Option.map_some, Option.getD_some]
  exact alone other held

end Pairs

section

variable {specs : List NodeSpec} {outlines : List Outline} {starts : List (NodeId × NodeId)}
  {nodes : List Node} {pairs : Pairs}

theorem checkClosers_eq (nodes : List Node) (start : NodeId) :
    Flowchart.checkClosers nodes start =
      (fun _ => ()) <$> (Node.pairs nodes).single start := by
  rw [Flowchart.checkClosers, Pairs.single, Node.pairs_closers]
  cases Flowchart.closers nodes start with
  | nil => rfl
  | cons closer more =>
    cases more with
    | nil => rfl
    | cons => rfl

theorem forM_checkClosers_eq (nodes : List Node) (starts : List (NodeId × NodeId)) :
    (starts.forM fun start => Flowchart.checkClosers nodes start.1) =
      (fun _ => ()) <$> (starts.map (·.1)).mapM (Node.pairs nodes).single := by
  induction starts with
  | nil => rfl
  | cons start rest ih =>
    rw [List.forM_eq_forM] at ih ⊢
    rw [List.forM_cons, ih, List.map_cons, List.mapM_cons, checkClosers_eq]
    cases (Node.pairs nodes).single start.1 with
    | error e => rfl
    | ok pair => cases (rest.map (·.1)).mapM (Node.pairs nodes).single <;> rfl

theorem kind_eq_pairedKind (distinct : (nodes.map (·.id)).Nodup)
    (drained : (starts.map (·.1)).mapM (Node.pairs nodes).single = .ok pairs) {outline : Outline}
    {kind : NodeKind} (resolved : outline.kind starts = .ok kind)
    (member : outline.nodeOfKind kind ∈ nodes) : kind = outline.pairedKind pairs := by
  rcases Outline.kind_cases resolved with ⟨owner, listed, rfl, paired⟩ | ⟨-, paired⟩
  · have pair : (owner, outline.spec.id) ∈ pairs :=
      (Pairs.mem_drained drained).mpr ⟨listed, Node.mem_pairs.mpr ⟨_, member, rfl, rfl⟩⟩
    rw [paired, Pairs.owner_eq pair]
    intro other again
    obtain ⟨twin, found, closes, named⟩ :=
      Node.mem_pairs.mp ((Pairs.mem_drained drained).mp again).2
    obtain rfl := List.inj_on_of_nodup_map distinct found member named
    cases closes
    rfl
  · exact (paired pairs).symm

theorem pairedNodes_eq (made : outlines.mapM (Outline.node starts) = .ok nodes)
    (distinct : (nodes.map (·.id)).Nodup)
    (drained : (starts.map (·.1)).mapM (Node.pairs nodes).single = .ok pairs) :
    outlines.map (Outline.pairedNode pairs) = nodes := by
  have listed := (List.forall₂_and_left nodes outlines).mpr
    ⟨fun _ member => member, (mapM_ok_iff.mp made).flip⟩
  rw [forall₂_map_eq id (Outline.pairedNode pairs) listed, List.map_id]
  rintro node outline ⟨member, becomes⟩
  obtain ⟨kind, resolved, rfl⟩ := Outline.exists_kind_of_node becomes
  rw [Outline.pairedNode, ← kind_eq_pairedKind distinct drained resolved member, id]

theorem outlined_ids (outlined : specs.mapM Outline.ofSpec = .ok outlines) :
    outlines.map (·.spec.id) = specs.map (·.id) := by
  refine forall₂_map_eq (·.id) (·.spec.id) (mapM_ok_iff.mp outlined) ?_
  intro spec outline found
  rw [(Outline.ofSpec_ok_iff.mp found).source]

theorem made_ids (made : outlines.mapM (Outline.node starts) = .ok nodes) :
    nodes.map (·.id) = outlines.map (·.spec.id) := by
  refine forall₂_map_eq (·.spec.id) (·.id) (mapM_ok_iff.mp made) ?_
  intro outline node found
  obtain ⟨kind, -, rfl⟩ := Outline.exists_kind_of_node found
  rfl

end

namespace PairedFlowchart

variable {specs : List NodeSpec} {paired : PairedFlowchart}

/-- The tables make no difference, neither to the flowchart nor to the error. -/
theorem compile_eq (specs : List NodeSpec) :
    (·.toFlowchart) <$> compile specs = Flowchart.compile specs := by
  simp only [compile, Flowchart.compile, map_bind]
  refine bind_congr_of_ok fun _ distinct => ?_
  refine bind_congr_of_ok fun _ _ => ?_
  refine bind_congr_of_ok fun start _ => ?_
  refine bind_congr_of_ok fun outlines outlined => ?_
  have distinct : (outlines.map (·.spec.id)).Nodup :=
    outlined_ids outlined ▸ (Flowchart.checkIds_ok_iff.mp distinct).2
  have once : ((outlines.filterMap Outline.loopBody?).map (·.1)).Nodup :=
    distinct.sublist (startIds_sublist outlines)
  rw [Outline.gather_eq]
  cases made : outlines.mapM (Outline.node (outlines.filterMap Outline.loopBody?)) with
  | error e => rfl
  | ok nodes =>
    have distinct : (nodes.map (·.id)).Nodup := made_ids made ▸ distinct
    have draining : Pairs.drain _ (Node.pairs nodes) = _ := Pairs.drain_eq once fun _ _ => rfl
    have closing := forM_checkClosers_eq nodes (outlines.filterMap Outline.loopBody?)
    cases drained : ((outlines.filterMap Outline.loopBody?).map (·.1)).mapM
        (Node.pairs nodes).single with
    | error e =>
      rw [drained] at draining closing
      change (Pairs.drain _ (Node.pairs nodes) >>= _) = (List.forM _ _ >>= _)
      rw [draining, closing]
      rfl
    | ok pairs =>
      rw [drained] at draining closing
      change (Pairs.drain _ (Node.pairs nodes) >>= _) = (List.forM _ _ >>= _)
      rw [draining, closing]
      change (Flowchart.checkCycles ⟨outlines.map (Outline.pairedNode pairs), start⟩ >>= _) = _
      rw [pairedNodes_eq made distinct drained]
      rfl

theorem mem_compiled_pairs (compiled : compile specs = .ok paired) :
    (paired.pairs.map (·.1)).Nodup ∧ ∀ start closer, (start, closer) ∈ paired.pairs ↔
      ∃ node ∈ paired.nodes, node.kind = .loopContinue start ∧ node.id = closer := by
  simp only [compile, bind_ok_iff] at compiled
  obtain ⟨⟨⟩, ids, ⟨⟩, -, start, -, outlines, outlined, table, gathered, pairs, drained,
    ⟨⟩, -, ⟨⟩, -, same⟩ := compiled
  cases same
  have distinct : (outlines.map (·.spec.id)).Nodup :=
    outlined_ids outlined ▸ (Flowchart.checkIds_ok_iff.mp ids).2
  have once : ((outlines.filterMap Outline.loopBody?).map (·.1)).Nodup :=
    distinct.sublist (startIds_sublist outlines)
  rw [Outline.gather_eq, map_eq_pure_bind, bind_ok_iff] at gathered
  obtain ⟨nodes, made, same⟩ := gathered
  cases same
  rw [Pairs.drain_eq once fun _ _ => rfl] at drained
  have nodes_eq := pairedNodes_eq made (made_ids made ▸ distinct) drained
  refine ⟨Pairs.drained_starts drained ▸ once, fun start closer => ?_⟩
  rw [Pairs.mem_drained drained, Node.mem_pairs, nodes_eq]
  refine ⟨And.right, fun held => ⟨?_, held⟩⟩
  obtain ⟨node, member, kind, -⟩ := held
  obtain ⟨outline, -, becomes⟩ := forall₂_left_of_mem (mapM_ok_iff.mp made) member
  obtain ⟨_, resolved, rfl⟩ := Outline.exists_kind_of_node becomes
  rcases Outline.kind_cases resolved with ⟨owner, listed, rfl, -⟩ | ⟨other, -⟩
  · cases kind
    exact listed
  · exact absurd kind (other start)

theorem pairedWith?_eq (compiled : compile specs = .ok paired) (start : NodeId) :
    paired.pairedWith? start = paired.closer? start := by
  obtain ⟨distinct, held⟩ := mem_compiled_pairs compiled
  have plain : Flowchart.compile specs = .ok paired.toFlowchart := by
    rw [← compile_eq, compiled]
    rfl
  have valid := compile_valid plain
  ext closer
  rw [pairedWith?, Option.bind_eq_some_iff, valid.closer_some_iff]
  constructor
  · rintro ⟨id, listed, found⟩
    obtain ⟨node, member, kind, named⟩ :=
      (held start id).mp ((Pairs.closer_some_iff distinct).mp listed)
    obtain ⟨again, same⟩ := (Flowchart.node_some_iff valid.ids).mp found
    obtain rfl := List.inj_on_of_nodup_map valid.ids member again (named.trans same.symm)
    exact ⟨member, kind⟩
  · rintro ⟨member, kind⟩
    exact ⟨closer.id, (Pairs.closer_some_iff distinct).mpr
        ((held start closer.id).mpr ⟨closer, member, kind, rfl⟩),
      (Flowchart.node_some_iff valid.ids).mpr ⟨member, rfl⟩⟩

end PairedFlowchart

end Colloquy
