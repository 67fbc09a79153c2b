import Colloquy.Proofs.Flowchart.Arrangement
import Colloquy.Proofs.Flowchart.Ready
import Colloquy.Proofs.Run.Walk

/-!
What the start leads to. Only the start has nothing that leads to it, and forward edges alone turn
round nowhere; a node that the start does not lead to therefore lies behind a way back that leads,
in a circle, to a node with no other way in.
-/

namespace Colloquy

open Relation (ReflTransGen TransGen)

section

variable {α : Type} {successors : α → List α} {ids : List α}

/-- Among finitely many edges without a cycle, going backwards comes to an end. -/
theorem follows_wellFounded (acyclic : ∀ id, ¬ TransGen (Follows successors ids) id id) :
    WellFounded (Follows successors ids) := by
  classical
  have none : (ids.filter fun id => ¬ Acc (Follows successors ids) id) = [] := by
    apply eq_nil_of_always_leads (R := Function.swap (Follows successors ids))
    · exact fun id cycle => acyclic id (Relation.transGen_swap.mp cycle)
    · intro id member
      have endless : ¬ Acc (Follows successors ids) id := by simpa using (List.mem_filter.mp member).2
      obtain ⟨source, edge, further⟩ : ∃ source, Follows successors ids source id ∧
          ¬ Acc (Follows successors ids) source := by
        by_contra ends
        push Not at ends
        exact endless ⟨id, ends⟩
      exact ⟨source, List.mem_filter.mpr ⟨edge.1, by simpa using further⟩, edge⟩
  refine ⟨fun id => ⟨id, fun source edge => ?_⟩⟩
  by_contra endless
  exact List.not_mem_nil (none ▸ List.mem_filter.mpr ⟨edge.1, by simpa using endless⟩)

theorem exists_first (acyclic : ∀ id, ¬ TransGen (Follows successors ids) id id) {id : α}
    (declared : id ∈ ids) : ∃ first ∈ ids, (∀ source, ¬ Follows successors ids source first) ∧
      ReflTransGen (Follows successors ids) first id := by
  induction id using (follows_wellFounded acyclic).induction with
  | _ id ih =>
    by_cases free : ∀ source, ¬ Follows successors ids source id
    · exact ⟨id, declared, free, .refl⟩
    · push Not at free
      obtain ⟨source, edge⟩ := free
      obtain ⟨first, listed, alone, way⟩ := ih source edge edge.1
      exact ⟨first, listed, alone, way.tail edge⟩

end

namespace Flowchart

variable (flowchart : Flowchart)

def Connects (a b : NodeId) : Prop := ∃ node ∈ flowchart.nodes, node.id = a ∧ b ∈ node.targets

def Reachable (id : NodeId) : Prop := ReflTransGen flowchart.Connects flowchart.start id

def GoesBack (a b : NodeId) : Prop :=
  ∃ node ∈ flowchart.nodes, node.id = a ∧ node.isLoopContinue = true ∧ node.hasMoreTarget? = some b

/-- A way into nodes that the start does not lead to: nothing but ways back leads there, and one of
them comes from a loop continue that it leads to itself. -/
structure Island (entry : NodeId) : Prop where
  declared : entry ∈ flowchart.ids
  apart : ¬ flowchart.Reachable entry
  back : ∀ node ∈ flowchart.nodes, entry ∉ node.forwardTargets
  circle : ∃ closer, flowchart.GoesBack closer entry ∧ ReflTransGen flowchart.Connects entry closer

structure Origin (id entry : NodeId) : Prop where
  declared : entry ∈ flowchart.ids
  alone : ∀ source, ¬ Follows flowchart.forwardTargets flowchart.ids source entry
  way : ReflTransGen flowchart.Connects entry id

structure FedBy (id entry other : NodeId) : Prop where
  fed : flowchart.Origin id entry
  feeds : flowchart.Origin id other
  back : ∃ closer, flowchart.GoesBack closer entry ∧ ReflTransGen flowchart.Connects other closer

variable {flowchart}

theorem GoesBack.connects {a b : NodeId} (back : flowchart.GoesBack a b) :
    flowchart.Connects a b := by
  obtain ⟨node, member, named, -, target⟩ := back
  obtain ⟨connection, found, rfl⟩ := Option.map_eq_some_iff.mp target
  exact ⟨node, member, named, List.mem_map_of_mem (List.mem_of_find?_eq_some found)⟩

theorem GoesBack.declared {a b : NodeId} (back : flowchart.GoesBack a b) : a ∈ flowchart.ids := by
  obtain ⟨node, member, rfl, -⟩ := back
  exact List.mem_map_of_mem member

theorem FedBy.way {id entry other : NodeId} (fed : flowchart.FedBy id entry other) :
    ReflTransGen flowchart.Connects other entry := by
  obtain ⟨closer, back, way⟩ := fed.back
  exact way.tail back.connects

theorem way_of_fed {id entry other : NodeId} (fed : ReflTransGen (flowchart.FedBy id) entry other) :
    ReflTransGen flowchart.Connects other entry := by
  induction fed with
  | refl => exact .refl
  | tail _ next ih => exact next.way.trans ih

theorem mem_targets_of_forward {node : Node} {target : NodeId}
    (forward : target ∈ node.forwardTargets) : target ∈ node.targets := by
  obtain ⟨connection, listed, rfl⟩ := List.mem_map.mp forward
  exact List.mem_map_of_mem (List.mem_of_mem_filter listed)

namespace Valid

theorem follows_iff (valid : flowchart.Valid) {a b : NodeId} :
    Follows flowchart.forwardTargets flowchart.ids a b ↔
      ∃ node ∈ flowchart.nodes, node.id = a ∧ b ∈ node.forwardTargets := by
  constructor
  · rintro ⟨-, -, leads⟩
    unfold Flowchart.forwardTargets at leads
    split at leads
    · rename_i node found
      obtain ⟨member, named⟩ := (node_some_iff valid.ids).mp found
      exact ⟨node, member, named, leads⟩
    · cases leads
  · rintro ⟨node, member, rfl, leads⟩
    have found := (node_some_iff valid.ids).mpr ⟨member, rfl⟩
    obtain ⟨connection, listed, rfl⟩ := List.mem_map.mp (mem_targets_of_forward leads)
    refine ⟨List.mem_map_of_mem member, valid.targets node member connection listed, ?_⟩
    rwa [Flowchart.forwardTargets, found]

theorem acyclic_follows (valid : flowchart.Valid) (id : NodeId) :
    ¬ TransGen (Follows flowchart.forwardTargets flowchart.ids) id id :=
  (topologicalSort_cyclic_eq_nil_iff _ _).mp valid.acyclic id

theorem connects_of_follows (valid : flowchart.Valid) {a b : NodeId}
    (follows : Follows flowchart.forwardTargets flowchart.ids a b) : flowchart.Connects a b := by
  obtain ⟨node, member, named, leads⟩ := valid.follows_iff.mp follows
  exact ⟨node, member, named, mem_targets_of_forward leads⟩

theorem exists_origin (valid : flowchart.Valid) {id : NodeId} (declared : id ∈ flowchart.ids) :
    ∃ first, flowchart.Origin id first := by
  obtain ⟨first, listed, alone, way⟩ := exists_first valid.acyclic_follows declared
  exact ⟨first, listed, alone, ReflTransGen.mono (fun _ _ => valid.connects_of_follows) _ _ way⟩

theorem hasMoreTarget_of_mem (valid : flowchart.Valid) {node : Node}
    (member : node ∈ flowchart.nodes) (continues : node.isLoopContinue = true)
    {connection : Connection} (listed : connection ∈ node.connections)
    (label : connection.label = hasMoreLabel) : node.hasMoreTarget? = some connection.target := by
  have hint := Node.isLoopContinue_iff.mp continues
  have distinct : node.labels.Nodup := by
    have fits := valid.fits node member
    cases kind : node.kind with
    | loopContinue owner =>
      rw [kind] at fits
      exact fits.1.nodup_iff.mpr (by decide)
    | plain | decision | extraction | loopStart => rw [kind] at hint; cases hint
  rw [Node.hasMoreTarget?, ← label]
  exact Node.target_of_mem distinct listed

theorem connects_cases (valid : flowchart.Valid) {a b : NodeId}
    (connects : flowchart.Connects a b) :
    Follows flowchart.forwardTargets flowchart.ids a b ∨ flowchart.GoesBack a b := by
  obtain ⟨node, member, rfl, leads⟩ := connects
  obtain ⟨connection, listed, rfl⟩ := List.mem_map.mp leads
  by_cases back : node.isLoopContinue = true ∧ connection.label = hasMoreLabel
  · exact .inr ⟨node, member, rfl, back.1,
      valid.hasMoreTarget_of_mem member back.1 listed back.2⟩
  · refine .inl (valid.follows_iff.mpr ⟨node, member, rfl, ?_⟩)
    refine List.mem_map_of_mem (List.mem_filter.mpr ⟨listed, ?_⟩)
    rw [Bool.not_eq_true', ← Bool.not_eq_true, Bool.and_eq_true, beq_iff_eq]
    exact back

end Valid

variable {specs : List NodeSpec}

theorem exists_connects (compiled : compile specs = .ok flowchart) {id : NodeId}
    (declared : id ∈ flowchart.ids) (other : id ≠ flowchart.start) :
    ∃ source, flowchart.Connects source id := by
  obtain ⟨wellFormed, realized, first⟩ := compile_sound compiled
  have ids : flowchart.ids = specs.map (·.id) := realized_ids realized
  by_contra none
  refine other (wellFormed.start.unique ⟨ids ▸ declared, ?_⟩ first)
  intro spec source leads
  obtain ⟨node, member, realizes⟩ := forall₂_right_of_mem realized source
  obtain ⟨edge, listed, rfl⟩ := List.mem_map.mp leads
  refine none ⟨node.id, node, member, rfl, ?_⟩
  rw [Node.targets, realizes.connections, List.map_map]
  exact List.mem_map_of_mem listed

/-- An origin that the start does not lead to is fed by another, of the same nodes or of more. -/
theorem Origin.exists_fedBy (compiled : compile specs = .ok flowchart) {id entry : NodeId}
    (apart : ¬ flowchart.Reachable id) (origin : flowchart.Origin id entry) :
    ∃ other, flowchart.FedBy id entry other := by
  have valid := compile_valid compiled
  have elsewhere : entry ≠ flowchart.start := by
    rintro rfl
    exact apart origin.way
  obtain ⟨closer, connects⟩ := exists_connects compiled origin.declared elsewhere
  have back := (valid.connects_cases connects).resolve_left (origin.alone closer)
  obtain ⟨other, further⟩ := valid.exists_origin back.declared
  have way := (further.way.tail connects).trans origin.way
  exact ⟨other, origin, ⟨further.declared, further.alone, way⟩, closer, back, further.way⟩

theorem Valid.island_of_circle (valid : flowchart.Valid) {id entry : NodeId}
    (apart : ¬ flowchart.Reachable id) (circle : TransGen (flowchart.FedBy id) entry entry) :
    flowchart.Island entry := by
  obtain ⟨other, fed, rest⟩ := TransGen.head'_iff.mp circle
  have origin := fed.fed
  obtain ⟨closer, back, way⟩ := fed.back
  refine ⟨origin.declared, fun reached => apart (reached.trans origin.way), ?_,
    closer, back, (way_of_fed rest).trans way⟩
  intro node member leads
  exact origin.alone node.id (valid.follows_iff.mpr ⟨node, member, rfl, leads⟩)

theorem exists_island (compiled : compile specs = .ok flowchart) {id : NodeId}
    (declared : id ∈ flowchart.ids) (apart : ¬ flowchart.Reachable id) :
    ∃ entry, flowchart.Island entry ∧ ReflTransGen flowchart.Connects entry id := by
  classical
  have valid := compile_valid compiled
  by_contra none
  push Not at none
  -- Without an island feeding makes no circle, and so it ends.
  have origins : (flowchart.ids.filter fun entry => flowchart.Origin id entry) = [] := by
    apply eq_nil_of_always_leads (R := flowchart.FedBy id)
    · intro entry circle
      obtain ⟨_, fed, _⟩ := TransGen.head'_iff.mp circle
      exact none entry (valid.island_of_circle apart circle) fed.fed.way
    · intro entry member
      have origin : flowchart.Origin id entry := by simpa using (List.mem_filter.mp member).2
      obtain ⟨other, fed⟩ := origin.exists_fedBy compiled apart
      exact ⟨other, List.mem_filter.mpr ⟨fed.feeds.declared, by simpa using fed.feeds⟩, fed⟩
  obtain ⟨first, origin⟩ := valid.exists_origin declared
  exact List.not_mem_nil (origins ▸ List.mem_filter.mpr ⟨origin.declared, by simpa using origin⟩)

end Flowchart

/-- The start leads to every node that is not behind an island, and so to all nodes exactly when
there is no island, or when it leads to every loop continue. -/
theorem unreached_nodes_lie_behind_islands {specs : List NodeSpec} {flowchart : Flowchart}
    (compiled : Flowchart.compile specs = .ok flowchart) :
    (∀ id ∈ flowchart.ids, flowchart.Reachable id ∨
      ∃ entry, flowchart.Island entry ∧ ReflTransGen flowchart.Connects entry id) ∧
    ((∀ id ∈ flowchart.ids, flowchart.Reachable id) ↔ ¬ ∃ entry, flowchart.Island entry) ∧
    ((∀ id ∈ flowchart.ids, flowchart.Reachable id) ↔
      ∀ closer ∈ flowchart.nodes, closer.isLoopContinue = true →
        flowchart.Reachable closer.id) := by
  have behind : ∀ id ∈ flowchart.ids, flowchart.Reachable id ∨
      ∃ entry, flowchart.Island entry ∧ ReflTransGen flowchart.Connects entry id :=
    fun id declared => or_iff_not_imp_left.mpr (Flowchart.exists_island compiled declared)
  refine ⟨behind, ⟨?_, ?_⟩, ?_, ?_⟩
  · rintro all ⟨entry, island⟩
    exact island.apart (all entry island.declared)
  · intro none id declared
    refine (behind id declared).resolve_right ?_
    rintro ⟨entry, island, -⟩
    exact none ⟨entry, island⟩
  · intro all closer member _
    exact all closer.id (List.mem_map_of_mem member)
  · intro closers id declared
    refine (behind id declared).resolve_right ?_
    rintro ⟨entry, island, -⟩
    obtain ⟨_, back, -⟩ := island.circle
    have connects := back.connects
    obtain ⟨closer, member, rfl, continues, -⟩ := back
    exact island.apart ((closers closer member continues).tail connects)

/-! A loop that nothing leads into. Its way back leads to its loop start, which is therefore not
taken for a second start. -/

namespace Islet

def specs : List NodeSpec := [
  (NodeSpec.new "Start" "").followedBy "End",
  (NodeSpec.newLoopStart "Loop" "item" "items").followedBy "Body",
  (NodeSpec.new "Body" "").followedBy "Next",
  .newLoopContinue "Next" "Loop" "End",
  .new "End" ""]

def flowchart : Flowchart where
  nodes := [
    .unstructured "Start" "" [⟨defaultLabel, "End"⟩] .plain,
    .unstructured "Loop" "" [⟨defaultLabel, "Body"⟩] (.loopStart "item" "items"),
    .unstructured "Body" "" [⟨defaultLabel, "Next"⟩] .plain,
    .unstructured "Next" "" [⟨hasMoreLabel, "Loop"⟩, ⟨completeLabel, "End"⟩] (.loopContinue "Loop"),
    .unstructured "End" "" [] .plain]
  start := "Start"

theorem compiles : Flowchart.compile specs = .ok flowchart := by
  simp only [Flowchart.compile, bind_ok_iff]
  refine ⟨(), rfl, (), rfl, _, rfl, _, rfl, _, rfl, (), rfl, (), ?_, (), rfl, rfl⟩
  exact Flowchart.checkCycles_of_order ["Start", "Loop", "Body", "Next", "End"] (by decide)

theorem reached {id : NodeId} (way : flowchart.Reachable id) : id = "Start" ∨ id = "End" := by
  have closed : ∀ node ∈ flowchart.nodes, node.id = "Start" ∨ node.id = "End" →
      ∀ target ∈ node.targets, target = "Start" ∨ target = "End" := by decide
  induction way with
  | refl => exact .inl rfl
  | tail _ connects ih =>
    obtain ⟨node, member, rfl, leads⟩ := connects
    exact closed node member ih _ leads

end Islet

theorem islet_is_unreached : Flowchart.compile Islet.specs = .ok Islet.flowchart ∧
    ∃ node ∈ Islet.flowchart.nodes, ¬ Islet.flowchart.Reachable node.id := by
  exact ⟨Islet.compiles, _, List.mem_cons_of_mem _ List.mem_cons_self,
    mt Islet.reached (by decide)⟩

theorem islet_lies_behind_an_island : Flowchart.compile Islet.specs = .ok Islet.flowchart ∧
    (∃ entry, Islet.flowchart.Island entry ∧ ReflTransGen Islet.flowchart.Connects entry "Body") ∧
    ∃ closer ∈ Islet.flowchart.nodes, closer.isLoopContinue = true ∧
      ¬ Islet.flowchart.Reachable closer.id := by
  obtain ⟨behind, -, closers⟩ := unreached_nodes_lie_behind_islands Islet.compiles
  have apart : ¬ Islet.flowchart.Reachable "Body" := mt Islet.reached (by decide)
  have some_closer : ¬ ∀ closer ∈ Islet.flowchart.nodes, closer.isLoopContinue = true →
      Islet.flowchart.Reachable closer.id :=
    fun all => apart (closers.mpr all "Body" (by decide))
  push Not at some_closer
  exact ⟨Islet.compiles, (behind "Body" (by decide)).resolve_left apart, some_closer⟩

end Colloquy
