import Colloquy.Proofs.Flowchart.Shape

/-!
From outlines to nodes: the loop starts and their bodies are those of the specs, a loop continue is
resolved to the loop start it closes, and every spec becomes the node that realizes it.
-/

namespace Colloquy

structure Outlines (spec : NodeSpec) (outline : Outline) : Prop where
  source : outline.spec = spec
  well : spec.WellShaped
  shape : ∃ kind, spec.ComesTo kind ∧ spec.ShapeOf kind outline.shape

theorem Outline.ofSpec_ok_iff {spec : NodeSpec} {outline : Outline} :
    Outline.ofSpec spec = .ok outline ↔ Outlines spec outline := by
  simp only [Outline.ofSpec, bind_ok_iff, NodeSpec.shape_ok_iff]
  constructor
  · rintro ⟨shape, ⟨well, kind⟩, same⟩
    cases same
    exact ⟨rfl, well, kind⟩
  · rintro ⟨rfl, well, kind⟩
    exact ⟨_, ⟨well, kind⟩, rfl⟩

namespace NodeSpec

theorem WellShaped.meetsRule {spec : NodeSpec} (well : spec.WellShaped) {kind : KindHint}
    (comes : spec.ComesTo kind) : spec.MeetsRule kind := by
  obtain ⟨other, again, rule⟩ := well.rule
  exact comes.unique again ▸ rule

theorem WellShaped.onlyConnection {spec : NodeSpec} (well : spec.WellShaped)
    (comes : spec.ComesTo .loopStart) : ∃ connection, spec.connections = [connection] :=
  List.length_eq_one_iff.mp (well.meetsRule comes).2.2.2

theorem mem_connections_unique {spec : NodeSpec} (distinct : spec.labels.Nodup) {label : String}
    {target other : NodeId} (first : (label, target) ∈ spec.connections)
    (second : (label, other) ∈ spec.connections) : target = other :=
  congrArg Prod.snd (List.inj_on_of_nodup_map distinct first second rfl)

theorem WellShaped.wayBack {spec : NodeSpec} (well : spec.WellShaped)
    (comes : spec.ComesTo .loopContinue) :
    ∃ target, spec.target? hasMoreLabel = some target ∧
      (hasMoreLabel, target) ∈ spec.connections := by
  have labelled : hasMoreLabel ∈ spec.labels :=
    (well.meetsRule comes).mem_iff.mpr List.mem_cons_self
  obtain ⟨connection, member, label⟩ := List.mem_map.mp labelled
  obtain ⟨back, declared, first, named⟩ :=
    exists_found (p := (·.1 == hasMoreLabel)) member (beq_iff_eq.mpr label)
  refine ⟨back.2, by simp [target?, first], ?_⟩
  rw [← beq_iff_eq.mp named]
  exact declared

end NodeSpec

namespace Outlines

variable {spec : NodeSpec} {outline : Outline}

theorem loopBody_some_iff (outlines : Outlines spec outline) {id body : NodeId} :
    outline.loopBody? = some (id, body) ↔
      spec.id = id ∧ spec.ComesTo .loopStart ∧ body ∈ spec.targets := by
  obtain ⟨rfl, well, kind, comes, shapeOf⟩ := outlines
  by_cases start : outline.spec.ComesTo .loopStart
  · obtain rfl := comes.unique start
    obtain ⟨iterator, collection, -, -, shape⟩ := shapeOf
    obtain ⟨connection, single⟩ := well.onlyConnection comes
    simp [Outline.loopBody?, shape, single, NodeSpec.targets, start, eq_comm]
  · have none : outline.loopBody? = none := by
      cases kind with
      | loopStart => exact absurd comes start
      | plain | decision | extraction | loopContinue =>
        rw [NodeSpec.ShapeOf] at shapeOf
        simp [Outline.loopBody?, shapeOf]
    simp [none, start]

theorem kind_ok_iff (outlines : Outlines spec outline) {specs : List NodeSpec}
    {starts : List (NodeId × NodeId)}
    (resolves : ∀ owner, spec.ComesTo .loopContinue →
      (Outline.ownerOf starts ((spec.target? hasMoreLabel).getD "") spec.loopStart = .ok owner ↔
        Closes specs spec owner)) {kind : NodeKind} :
    outline.kind starts = .ok kind ↔ HasKind specs spec kind := by
  obtain ⟨rfl, well, hint, comes, shapeOf⟩ := outlines
  constructor
  · intro resolved
    unfold Outline.kind at resolved
    cases hint with
    | plain =>
      rw [NodeSpec.ShapeOf] at shapeOf
      rw [shapeOf] at resolved
      cases resolved
      exact .plain comes
    | decision =>
      rw [NodeSpec.ShapeOf] at shapeOf
      rw [shapeOf] at resolved
      cases resolved
      exact .decision comes
    | extraction =>
      rw [NodeSpec.ShapeOf] at shapeOf
      rw [shapeOf] at resolved
      cases resolved
      exact .extraction comes
    | loopStart =>
      obtain ⟨iterator, collection, binds, ranges, shape⟩ := shapeOf
      rw [shape] at resolved
      cases resolved
      exact .loopStart comes binds ranges
    | loopContinue =>
      rw [NodeSpec.ShapeOf] at shapeOf
      rw [shapeOf] at resolved
      dsimp only at resolved
      split at resolved
      · rename_i owner found
        cases resolved
        exact .loopContinue comes ((resolves owner comes).mp found)
      · contradiction
  · intro hasKind
    unfold Outline.kind
    cases hasKind with
    | plain again =>
      obtain rfl := comes.unique again
      rw [NodeSpec.ShapeOf] at shapeOf
      rw [shapeOf]
    | decision again =>
      obtain rfl := comes.unique again
      rw [NodeSpec.ShapeOf] at shapeOf
      rw [shapeOf]
    | extraction again =>
      obtain rfl := comes.unique again
      rw [NodeSpec.ShapeOf] at shapeOf
      rw [shapeOf]
    | @loopStart iterator collection again binds ranges =>
      obtain rfl := comes.unique again
      obtain ⟨name, field, named, given, shape⟩ := shapeOf
      obtain rfl := Option.some.inj (named.symm.trans binds)
      obtain rfl := Option.some.inj (given.symm.trans ranges)
      rw [shape]
    | @loopContinue owner again closes =>
      obtain rfl := comes.unique again
      rw [NodeSpec.ShapeOf] at shapeOf
      simp only [shapeOf, (resolves owner comes).mpr closes]

theorem node_ok_iff (outlines : Outlines spec outline) {specs : List NodeSpec}
    {starts : List (NodeId × NodeId)}
    (resolves : ∀ owner, spec.ComesTo .loopContinue →
      (Outline.ownerOf starts ((spec.target? hasMoreLabel).getD "") spec.loopStart = .ok owner ↔
        Closes specs spec owner)) {node : Node} :
    outline.node starts = .ok node ↔ Realizes specs spec node := by
  simp only [Outline.node, bind_ok_iff, outlines.kind_ok_iff resolves, outlines.source]
  constructor
  · rintro ⟨kind, hasKind, same⟩
    cases same
    exact ⟨rfl, rfl, rfl, rfl, rfl, hasKind⟩
  · rintro ⟨id, template, connections, schema, temperature, hasKind⟩
    refine ⟨node.kind, hasKind, ?_⟩
    rw [← id, ← template, ← connections, ← schema, ← temperature]
    rfl

end Outlines

section

variable {specs : List NodeSpec} {outlines : List Outline}

theorem mem_starts (outlined : List.Forall₂ Outlines specs outlines) {id body : NodeId} :
    (id, body) ∈ outlines.filterMap Outline.loopBody? ↔ HasBody specs id body := by
  rw [List.mem_filterMap]
  constructor
  · rintro ⟨outline, member, found⟩
    obtain ⟨spec, declared, relation⟩ := forall₂_left_of_mem outlined member
    exact ⟨spec, declared, relation.loopBody_some_iff.mp found⟩
  · rintro ⟨spec, declared, body⟩
    obtain ⟨outline, member, relation⟩ := forall₂_right_of_mem outlined declared
    exact ⟨outline, member, relation.loopBody_some_iff.mpr body⟩

theorem mem_startIds (outlined : List.Forall₂ Outlines specs outlines) {id : NodeId} :
    id ∈ (outlines.filterMap Outline.loopBody?).map (·.1) ↔ IsLoopStart specs id := by
  constructor
  · intro member
    obtain ⟨⟨start, body⟩, found, rfl⟩ := List.mem_map.mp member
    obtain ⟨spec, declared, named, comes, -⟩ := (mem_starts outlined).mp found
    exact ⟨spec, declared, named, comes⟩
  · rintro ⟨spec, declared, named, comes⟩
    obtain ⟨outline, member, relation⟩ := forall₂_right_of_mem outlined declared
    obtain ⟨connection, single⟩ := relation.well.onlyConnection comes
    have body : HasBody specs id connection.2 :=
      ⟨spec, declared, named, comes, by simp [NodeSpec.targets, single]⟩
    exact List.mem_map_of_mem ((mem_starts outlined).mpr body)

theorem startIds_sublist (outlines : List Outline) :
    ((outlines.filterMap Outline.loopBody?).map (·.1)).Sublist (outlines.map (·.spec.id)) := by
  induction outlines with
  | nil => exact .refl _
  | cons outline rest ih =>
    rw [List.filterMap_cons, List.map_cons]
    split
    · exact ih.cons _
    · rename_i start found
      have id : start.1 = outline.spec.id := by
        unfold Outline.loopBody? at found
        split at found
        · cases found
          rfl
        · contradiction
      rw [List.map_cons, id]
      exact ih.cons_cons _

theorem startIds_nodup (outlined : List.Forall₂ Outlines specs outlines)
    (distinct : (specs.map (·.id)).Nodup) :
    ((outlines.filterMap Outline.loopBody?).map (·.1)).Nodup := by
  have ids : outlines.map (·.spec.id) = specs.map (·.id) :=
    forall₂_map_eq (·.id) (·.spec.id) outlined fun spec outline relation =>
      congrArg NodeSpec.id relation.source
  rw [← ids] at distinct
  exact distinct.sublist (startIds_sublist outlines)

theorem bodyStarts_eq_singleton_iff (outlined : List.Forall₂ Outlines specs outlines)
    (distinct : (specs.map (·.id)).Nodup) {owner body : NodeId} :
    ((outlines.filterMap Outline.loopBody?).filter (·.2 == body)).map (·.1) = [owner] ↔
      ∀ id, HasBody specs id body ↔ id = owner := by
  have once : (((outlines.filterMap Outline.loopBody?).filter (·.2 == body)).map (·.1)).Nodup :=
    (startIds_nodup outlined distinct).sublist (List.filter_sublist.map _)
  rw [eq_singleton_iff_of_nodup once]
  have member : ∀ id, id ∈ ((outlines.filterMap Outline.loopBody?).filter (·.2 == body)).map (·.1) ↔
      HasBody specs id body := by
    intro id
    rw [← mem_starts outlined]
    simp [List.mem_map, List.mem_filter]
  simp only [member]

theorem ownerOf_ok_iff (outlined : List.Forall₂ Outlines specs outlines)
    (distinct : (specs.map (·.id)).Nodup) {spec : NodeSpec} (labels : spec.labels.Nodup)
    (well : spec.WellShaped) (comes : spec.ComesTo .loopContinue) {owner : NodeId} :
    Outline.ownerOf (outlines.filterMap Outline.loopBody?) ((spec.target? hasMoreLabel).getD "")
      spec.loopStart = .ok owner ↔ Closes specs spec owner := by
  obtain ⟨back, found, wayBack⟩ := well.wayBack comes
  rw [found, Option.getD_some]
  unfold Outline.ownerOf
  cases names : spec.loopStart with
  | some explicit =>
    dsimp only
    constructor
    · intro resolved
      split at resolved
      · rename_i start
        cases resolved
        exact .named names ((mem_startIds outlined).mp start)
      · contradiction
    · intro closes
      cases closes with
      | named same start =>
        cases Option.some.inj (names.symm.trans same)
        rw [if_pos ((mem_startIds outlined).mpr start)]
      | wayBack silent => rw [names] at silent; contradiction
      | body silent => rw [names] at silent; contradiction
  | none =>
    dsimp only
    by_cases start : IsLoopStart specs back
    · rw [if_pos ((mem_startIds outlined).mpr start)]
      constructor
      · intro resolved
        cases resolved
        exact .wayBack names wayBack start
      · intro closes
        cases closes with
        | named same => rw [names] at same; contradiction
        | wayBack _ again _ => rw [NodeSpec.mem_connections_unique labels wayBack again]
        | body _ again other =>
          cases NodeSpec.mem_connections_unique labels wayBack again
          exact absurd start other
    · rw [if_neg (mt (mem_startIds outlined).mp start)]
      constructor
      · intro resolved
        split at resolved
        · rename_i only single
          cases resolved
          exact .body names wayBack start
            ((bodyStarts_eq_singleton_iff outlined distinct).mp single)
        · contradiction
        · contradiction
      · intro closes
        cases closes with
        | named same => rw [names] at same; contradiction
        | wayBack _ again loop =>
          cases NodeSpec.mem_connections_unique labels wayBack again
          exact absurd loop start
        | body _ again _ only =>
          cases NodeSpec.mem_connections_unique labels wayBack again
          rw [(bodyStarts_eq_singleton_iff outlined distinct).mpr only]

theorem nodes_ok_iff (outlined : List.Forall₂ Outlines specs outlines)
    (distinct : (specs.map (·.id)).Nodup) (labels : ∀ spec ∈ specs, spec.labels.Nodup)
    {nodes : List Node} :
    outlines.mapM (Outline.node (outlines.filterMap Outline.loopBody?)) = .ok nodes ↔
      List.Forall₂ (Realizes specs) specs nodes := by
  rw [mapM_ok_iff]
  apply forall₂_transfer outlined
  intro spec declared outline relation node
  apply relation.node_ok_iff
  intro owner comes
  exact ownerOf_ok_iff outlined distinct (labels spec declared) relation.well comes

end

end Colloquy
