import Colloquy.Proofs.Flowchart.Tables
import Colloquy.Proofs.Run.Walk

/-!
Loop starts and loop continues are paired one to one, and which pairs there are depends on what a
loop continue names and where its way back leads.
-/

namespace Colloquy

def Node.StartsLoop (node : Node) : Prop := ∃ iterator field, node.kind = .loopStart iterator field

namespace Flowchart

def BeginsLoop (flowchart : Flowchart) (id : NodeId) : Prop :=
  ∃ node ∈ flowchart.nodes, node.id = id ∧ node.StartsLoop

def LoopLeadsTo (flowchart : Flowchart) (id body : NodeId) : Prop :=
  ∃ node ∈ flowchart.nodes, node.id = id ∧ node.StartsLoop ∧ node.firstTarget? = some body

end Flowchart

section

variable {specs : List NodeSpec} {spec : NodeSpec} {node : Node}

theorem Realizes.startsLoop_iff (realizes : Realizes specs spec node) :
    node.StartsLoop ↔ spec.ComesTo .loopStart := by
  have comes := realizes.kind.comes
  constructor
  · rintro ⟨iterator, field, kind⟩
    rwa [kind] at comes
  · intro again
    have hint := comes.unique again
    cases kind : node.kind with
    | loopStart iterator field => exact ⟨iterator, field, kind⟩
    | plain | decision | extraction | loopContinue => rw [kind] at hint; cases hint

theorem Realizes.firstTarget_iff (realizes : Realizes specs spec node) (well : spec.WellShaped)
    (comes : spec.ComesTo .loopStart) {body : NodeId} :
    node.firstTarget? = some body ↔ body ∈ spec.targets := by
  obtain ⟨connection, only⟩ := well.onlyConnection comes
  simp [Node.firstTarget?, NodeSpec.targets, realizes.connections, only, eq_comm]

theorem Realizes.target_of_mem (realizes : Realizes specs spec node)
    (labels : spec.labels.Nodup) {label : String} {target : NodeId}
    (connected : (label, target) ∈ spec.connections) : node.target? label = some target := by
  have member : Connection.mk label target ∈ node.connections := by
    rw [realizes.connections]
    exact List.mem_map_of_mem connected
  have distinct : node.labels.Nodup := by
    rw [Node.labels, realizes.connections, List.map_map]
    exact labels
  exact Node.target_of_mem distinct member

variable {flowchart : Flowchart}

theorem beginsLoop_iff (realized : List.Forall₂ (Realizes specs) specs flowchart.nodes)
    {id : NodeId} : flowchart.BeginsLoop id ↔ IsLoopStart specs id := by
  constructor
  · rintro ⟨node, member, rfl, starts⟩
    obtain ⟨spec, source, realizes⟩ := forall₂_left_of_mem realized member
    exact ⟨spec, source, realizes.id.symm, realizes.startsLoop_iff.mp starts⟩
  · rintro ⟨spec, source, rfl, comes⟩
    obtain ⟨node, member, realizes⟩ := forall₂_right_of_mem realized source
    exact ⟨node, member, realizes.id, realizes.startsLoop_iff.mpr comes⟩

theorem loopLeadsTo_iff (realized : List.Forall₂ (Realizes specs) specs flowchart.nodes)
    (shapes : ∀ spec ∈ specs, spec.WellShaped) {id body : NodeId} :
    flowchart.LoopLeadsTo id body ↔ HasBody specs id body := by
  constructor
  · rintro ⟨node, member, rfl, starts, leads⟩
    obtain ⟨spec, source, realizes⟩ := forall₂_left_of_mem realized member
    have comes := realizes.startsLoop_iff.mp starts
    exact ⟨spec, source, realizes.id.symm, comes,
      (realizes.firstTarget_iff (shapes spec source) comes).mp leads⟩
  · rintro ⟨spec, source, rfl, comes, leads⟩
    obtain ⟨node, member, realizes⟩ := forall₂_right_of_mem realized source
    exact ⟨node, member, realizes.id, realizes.startsLoop_iff.mpr comes,
      (realizes.firstTarget_iff (shapes spec source) comes).mpr leads⟩

end

namespace Flowchart

variable {specs : List NodeSpec} {flowchart : Flowchart}

theorem owner_by_rule (compiled : compile specs = .ok flowchart) {spec : NodeSpec}
    (source : spec ∈ specs) {closer : Node} (member : closer ∈ flowchart.nodes)
    (same : closer.id = spec.id) {owner : NodeId} (kind : closer.kind = .loopContinue owner) :
    (∀ explicit, spec.loopStart = some explicit → owner = explicit) ∧
    (spec.loopStart = none → ∃ back, closer.hasMoreTarget? = some back ∧
      (flowchart.BeginsLoop back → owner = back) ∧
      (¬ flowchart.BeginsLoop back → ∀ id, flowchart.LoopLeadsTo id back ↔ id = owner)) := by
  obtain ⟨wellFormed, realized, -⟩ := compile_sound compiled
  have labels := wellFormed.labels spec source
  obtain ⟨twin, again, realizes⟩ := forall₂_left_of_mem realized member
  obtain rfl : twin = spec :=
    List.inj_on_of_nodup_map wellFormed.ids again source (realizes.id.symm.trans same)
  simp only [beginsLoop_iff realized, loopLeadsTo_iff realized wellFormed.shapes]
  cases (realizes.kind_iff labels).mp kind with
  | loopContinue _ closes =>
    cases closes with
    | named names _ =>
      refine ⟨fun explicit asked => Option.some.inj (names.symm.trans asked), ?_⟩
      intro silent
      rw [names] at silent
      contradiction
    | wayBack silent back start =>
      refine ⟨fun explicit asked => ?_, fun _ => ?_⟩
      · rw [silent] at asked
        contradiction
      · exact ⟨owner, realizes.target_of_mem labels back, fun _ => rfl,
          fun other => absurd start other⟩
    | body silent back other only =>
      refine ⟨fun explicit asked => ?_, fun _ => ?_⟩
      · rw [silent] at asked
        contradiction
      · exact ⟨_, realizes.target_of_mem labels back, fun start => absurd start other,
          fun _ => only⟩

theorem closer_defined_iff (compiled : compile specs = .ok flowchart) {id : NodeId} :
    (∃ closer, flowchart.closer? id = some closer) ↔ flowchart.BeginsLoop id := by
  constructor
  · rintro ⟨closer, found⟩
    obtain ⟨member, kind⟩ := closer_some found
    exact compile_owner compiled member kind
  · rintro ⟨node, member, rfl, iterator, field, kind⟩
    exact (compile_valid compiled).closed node member iterator field kind

theorem exists_unique_owner (compiled : compile specs = .ok flowchart) {closer : Node}
    (member : closer ∈ flowchart.nodes) (continues : closer.isLoopContinue = true) :
    ∃! start, flowchart.BeginsLoop start ∧ flowchart.closer? start = some closer := by
  have valid := compile_valid compiled
  have hint := Node.isLoopContinue_iff.mp continues
  cases kind : closer.kind with
  | loopContinue owner =>
    refine ⟨owner, ⟨compile_owner compiled member kind, valid.closes closer member owner kind⟩, ?_⟩
    rintro other ⟨-, found⟩
    have again := (closer_some found).2
    rw [kind] at again
    cases again
    rfl
  | plain | decision | extraction | loopStart => rw [kind] at hint; cases hint

end Flowchart

/-- In a compiled flowchart a loop start is next to the loop continue of its kind, in the table of
pairs as among the nodes; each loop start has one, and each loop continue is one for one loop start,
which the rules of pairing single out. -/
theorem loops_pair_one_to_one {specs : List NodeSpec} {flowchart : Flowchart}
    (compiled : Flowchart.compile specs = .ok flowchart) :
    (∃ paired, PairedFlowchart.compile specs = .ok paired ∧ paired.toFlowchart = flowchart ∧
      ∀ start, paired.pairedWith? start = flowchart.closer? start) ∧
    (∀ start closer, flowchart.closer? start = some closer ↔
      closer ∈ flowchart.nodes ∧ closer.kind = .loopContinue start) ∧
    (∀ id, (∃ closer, flowchart.closer? id = some closer) ↔ flowchart.BeginsLoop id) ∧
    (∀ closer ∈ flowchart.nodes, closer.isLoopContinue = true →
      ∃! start, flowchart.BeginsLoop start ∧ flowchart.closer? start = some closer) ∧
    ∀ spec ∈ specs, ∀ closer ∈ flowchart.nodes, closer.id = spec.id →
      ∀ start, flowchart.closer? start = some closer →
        (∀ explicit, spec.loopStart = some explicit → start = explicit) ∧
        (spec.loopStart = none → ∃ back, closer.hasMoreTarget? = some back ∧
          (flowchart.BeginsLoop back → start = back) ∧
          (¬ flowchart.BeginsLoop back → ∀ id, flowchart.LoopLeadsTo id back ↔ id = start)) := by
  refine ⟨?_, fun _ _ => (compile_valid compiled).closer_some_iff,
    fun _ => Flowchart.closer_defined_iff compiled,
    fun _ member continues => Flowchart.exists_unique_owner compiled member continues, ?_⟩
  · rw [← PairedFlowchart.compile_eq, map_eq_pure_bind, bind_ok_iff] at compiled
    obtain ⟨paired, compiled, same⟩ := compiled
    cases same
    exact ⟨paired, compiled, rfl, PairedFlowchart.pairedWith?_eq compiled⟩
  · intro spec source closer member same start found
    exact Flowchart.owner_by_rule compiled source member same (Flowchart.closer_some found).2

/-! Three loops, paired by the three rules: `nextRow` names its loop start, `nextCell` leads back to
its own, which is also where the loop of `rows` leads, and `nextNote` leads back to where `notes`
leads. -/

namespace Register

def specs : List NodeSpec := [
  (NodeSpec.newLoopStart "rows" "row" "rows").followedBy "cells",
  (NodeSpec.newLoopStart "cells" "cell" "cells").followedBy "mark",
  (NodeSpec.new "mark" "").followedBy "nextCell",
  .newLoopContinue "nextCell" "cells" "nextRow",
  { NodeSpec.newLoopContinue "nextRow" "mark" "notes" with loopStart := some "rows" },
  (NodeSpec.newLoopStart "notes" "note" "notes").followedBy "note",
  (NodeSpec.new "note" "").followedBy "nextNote",
  .newLoopContinue "nextNote" "note" "report",
  .new "report" ""]

def nextRow : Node :=
  .unstructured "nextRow" "" [⟨hasMoreLabel, "mark"⟩, ⟨completeLabel, "notes"⟩]
    (.loopContinue "rows")

def nextCell : Node :=
  .unstructured "nextCell" "" [⟨hasMoreLabel, "cells"⟩, ⟨completeLabel, "nextRow"⟩]
    (.loopContinue "cells")

def nextNote : Node :=
  .unstructured "nextNote" "" [⟨hasMoreLabel, "note"⟩, ⟨completeLabel, "report"⟩]
    (.loopContinue "notes")

def flowchart : Flowchart where
  nodes := [
    .unstructured "rows" "" [⟨defaultLabel, "cells"⟩] (.loopStart "row" "rows"),
    .unstructured "cells" "" [⟨defaultLabel, "mark"⟩] (.loopStart "cell" "cells"),
    .unstructured "mark" "" [⟨defaultLabel, "nextCell"⟩] .plain,
    nextCell,
    nextRow,
    .unstructured "notes" "" [⟨defaultLabel, "note"⟩] (.loopStart "note" "notes"),
    .unstructured "note" "" [⟨defaultLabel, "nextNote"⟩] .plain,
    nextNote,
    .unstructured "report" "" [] .plain]
  start := "rows"

theorem compiles : Flowchart.compile specs = .ok flowchart := by
  simp only [Flowchart.compile, bind_ok_iff]
  refine ⟨(), rfl, (), rfl, _, rfl, _, rfl, _, rfl, (), rfl, (), ?_, (), rfl, rfl⟩
  exact Flowchart.checkCycles_of_order
    ["rows", "cells", "mark", "nextCell", "nextRow", "notes", "note", "nextNote", "report"]
    (by decide)

end Register

theorem register_loops_pair : Flowchart.compile Register.specs = .ok Register.flowchart ∧
    Register.flowchart.closer? "rows" = some Register.nextRow ∧
    Register.flowchart.closer? "cells" = some Register.nextCell ∧
    Register.flowchart.closer? "notes" = some Register.nextNote ∧
    (¬ ∃ closer, Register.flowchart.closer? "mark" = some closer) ∧
    ∀ id, Register.flowchart.LoopLeadsTo id "note" ↔ id = "notes" := by
  obtain ⟨-, among, defined, -, rule⟩ := loops_pair_one_to_one Register.compiles
  have plain : ∀ node ∈ Register.flowchart.nodes, node.id = "mark" ∨ node.id = "note" →
      node.kind = .plain := by decide
  have row : Register.flowchart.closer? "rows" = some Register.nextRow :=
    (among _ _).mpr ⟨by simp [Register.flowchart], rfl⟩
  have cell : Register.flowchart.closer? "cells" = some Register.nextCell :=
    (among _ _).mpr ⟨by simp [Register.flowchart], rfl⟩
  have note : Register.flowchart.closer? "notes" = some Register.nextNote :=
    (among _ _).mpr ⟨by simp [Register.flowchart], rfl⟩
  have starts : ∀ id, id = "mark" ∨ id = "note" → ¬ Register.flowchart.BeginsLoop id := by
    rintro id known ⟨node, member, rfl, iterator, field, kind⟩
    rw [plain node member known] at kind
    cases kind
  refine ⟨Register.compiles, row, cell, note, mt (defined "mark").mp (starts "mark" (.inl rfl)), ?_⟩
  obtain ⟨back, leads, -, only⟩ :=
    (rule (.newLoopContinue "nextNote" "note" "report") (by simp [Register.specs]) Register.nextNote
      (by simp [Register.flowchart]) rfl "notes" note).2 rfl
  obtain rfl : back = "note" := Option.some.inj (leads.symm.trans (by rfl))
  exact only (starts "note" (.inr rfl))

end Colloquy
