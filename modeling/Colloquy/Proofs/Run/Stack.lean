import Colloquy.Proofs.Run.Loops
import Colloquy.Proofs.Run.Progress

/-!
The stack of open loops. No loop is open twice where every loop continue lies ahead of its loop
start and goes back no further than to it: open loops then stand in dependency order, and the run
is never before the innermost one. A way back that leaves its loop breaks this.
-/

namespace Colloquy

def Node.isLoopStart (node : Node) : Bool :=
  match node.kind with
  | .loopStart _ _ => true
  | _ => false

namespace Flowchart

def loopStarts (flowchart : Flowchart) : List NodeId :=
  (flowchart.nodes.filter (·.isLoopStart)).map (·.id)

def place (flowchart : Flowchart) (id : NodeId) : Nat := flowchart.topologicalOrder.idxOf id

/-- Every way back stays in its loop: it leads to the loop start or to a later node. -/
def StaysInside (flowchart : Flowchart) : Prop :=
  ∀ closer ∈ flowchart.nodes, ∀ owner target, closer.kind = .loopContinue owner →
    closer.hasMoreTarget? = some target → target = owner ∨ flowchart.Later owner target

variable {flowchart : Flowchart} {node : Node}

theorem mem_loopStarts (member : node ∈ flowchart.nodes) {iterator field : String}
    (kind : node.kind = .loopStart iterator field) : node.id ∈ flowchart.loopStarts :=
  List.mem_map_of_mem (List.mem_filter.mpr ⟨member, by simp [Node.isLoopStart, kind]⟩)

theorem Valid.place_injective (valid : flowchart.Valid) {a b : NodeId} (member : a ∈ flowchart.ids)
    (same : flowchart.place a = flowchart.place b) : a = b :=
  (List.idxOf_inj (valid.mem_order.mpr member)).mp same

end Flowchart

namespace RunState

def Distinct (state : RunState) : Prop := (state.scopes.map (·.owner)).Nodup

def Owned (flowchart : Flowchart) (state : RunState) : Prop :=
  ∀ scope ∈ state.scopes, scope.owner ∈ flowchart.loopStarts

theorem depth_le {flowchart : Flowchart} {state : RunState} (owned : state.Owned flowchart)
    (distinct : state.Distinct) : state.scopes.length ≤ flowchart.loopStarts.length := by
  have inside : state.scopes.map (·.owner) ⊆ flowchart.loopStarts := by
    intro owner opened
    obtain ⟨scope, member, rfl⟩ := List.mem_map.mp opened
    exact owned scope member
  simpa using (List.Nodup.subperm distinct inside).length_le

end RunState

def Stride.Reopens (stride : Stride) : Prop :=
  ∃ scope, stride.visited.state.scopes = scope :: stride.before.scopes ∧
    scope.owner ∈ stride.before.scopes.map (·.owner)

/-- Open loops stand in dependency order, the innermost one last, and the run is not before it. -/
structure Stacked (flowchart : Flowchart) (current : NodeId) (scopes : List LoopScope) : Prop where
  ordered : scopes.Pairwise fun inner outer =>
    flowchart.place outer.owner < flowchart.place inner.owner
  reached : ∀ scope ∈ scopes, flowchart.place scope.owner ≤ flowchart.place current

namespace Stacked

variable {flowchart : Flowchart} {current next : NodeId} {scope : LoopScope}
  {scopes outer : List LoopScope}

theorem onwards (stacked : Stacked flowchart current scopes)
    (further : flowchart.place current ≤ flowchart.place next) : Stacked flowchart next scopes :=
  ⟨stacked.ordered, fun scope opened => (stacked.reached scope opened).trans further⟩

theorem closes (stacked : Stacked flowchart current (scope :: outer)) :
    Stacked flowchart current outer :=
  ⟨stacked.ordered.of_cons, fun other opened =>
    stacked.reached other (List.mem_cons_of_mem _ opened)⟩

theorem inner_later (stacked : Stacked flowchart current (scope :: outer)) :
    ∀ other ∈ outer, flowchart.place other.owner < flowchart.place scope.owner :=
  (List.pairwise_cons.mp stacked.ordered).1

theorem repeats (stacked : Stacked flowchart current (scope :: outer))
    (inside : flowchart.place scope.owner ≤ flowchart.place next) :
    Stacked flowchart next (scope.advance :: outer) := by
  refine ⟨List.pairwise_cons.mpr ⟨stacked.inner_later, stacked.ordered.of_cons⟩, ?_⟩
  refine List.forall_mem_cons.mpr ⟨inside, fun other opened => ?_⟩
  exact (stacked.inner_later other opened).le.trans inside

/-- A loop start whose loop is not the innermost one lies ahead of all open loops. -/
theorem fresh_later (stacked : Stacked flowchart current scopes) (valid : flowchart.Valid)
    (inside : current ∈ flowchart.ids) (fresh : ¬ Innermost current scopes) :
    ∀ scope ∈ scopes, flowchart.place scope.owner < flowchart.place current := by
  cases scopes with
  | nil => simp
  | cons top outer =>
    have other : top.owner ≠ current := fun same => fresh ⟨top, outer, rfl, same⟩
    have before : flowchart.place top.owner < flowchart.place current := by
      refine lt_of_le_of_ne (stacked.reached top List.mem_cons_self) fun same => ?_
      exact other (valid.place_injective inside same.symm).symm
    refine List.forall_mem_cons.mpr ⟨before, fun scope opened => ?_⟩
    exact (stacked.inner_later scope opened).trans before

theorem opens (stacked : Stacked flowchart current scopes) (valid : flowchart.Valid)
    (inside : current ∈ flowchart.ids) (fresh : ¬ Innermost current scopes)
    (own : scope.owner = current) : Stacked flowchart current (scope :: scopes) := by
  subst own
  have before := stacked.fresh_later valid inside fresh
  exact ⟨List.pairwise_cons.mpr ⟨before, stacked.ordered⟩,
    List.forall_mem_cons.mpr ⟨Nat.le_refl _, stacked.reached⟩⟩

end Stacked

namespace Engine.Takes

variable {engine : Engine} {stride : Stride} {next : NodeId}

theorem owned (taken : engine.Takes stride) (before : stride.before.Owned engine.flowchart) :
    stride.visited.state.Owned engine.flowchart := by
  cases taken.comes with
  | entered kind enters leads after =>
    rw [after]
    cases enters with
    | again | skips => exact before
    | opens =>
      exact List.forall_mem_cons.mpr ⟨Flowchart.mem_loopStarts taken.member kind, before⟩
  | advanced kind advances leads after =>
    rw [after]
    cases advances with
    | repeats innermost =>
      rw [RunState.Owned, innermost, List.forall_mem_cons] at before
      exact List.forall_mem_cons.mpr before
    | closes innermost =>
      rw [RunState.Owned, innermost, List.forall_mem_cons] at before
      exact before.2
  | proceeded kind proceeds =>
    rw [RunState.Owned, proceeds.scopes_eq]
    exact before

theorem distinct (taken : engine.Takes stride) (once : ¬ stride.Reopens)
    (before : stride.before.Distinct) : stride.visited.state.Distinct := by
  cases taken.comes with
  | entered kind enters leads after =>
    cases enters with
    | again | skips =>
      rw [after]
      exact before
    | opens =>
      have unopened : stride.node.id ∉ stride.before.scopes.map (·.owner) := by
        intro opened
        exact once ⟨_, by rw [after], opened⟩
      rw [after]
      exact List.nodup_cons.mpr ⟨unopened, before⟩
  | advanced kind advances leads after =>
    rw [after]
    cases advances with
    | repeats innermost =>
      rw [RunState.Distinct, innermost] at before
      exact before
    | closes innermost =>
      rw [RunState.Distinct, innermost] at before
      exact (List.nodup_cons.mp before).2
  | proceeded kind proceeds =>
    rw [RunState.Distinct, proceeds.scopes_eq]
    exact before

end Engine.Takes

inductive Shifts (flowchart : Flowchart) (stride : Stride) (next : NodeId) : Prop
  | keeps (same : stride.visited.state.scopes = stride.before.scopes)
      (further : flowchart.place stride.node.id < flowchart.place next) :
      Shifts flowchart stride next
  | opens {scope : LoopScope} (fresh : ¬ Innermost stride.node.id stride.before.scopes)
      (opens : stride.Opens scope)
      (after : stride.visited.state.scopes = scope :: stride.before.scopes)
      (further : flowchart.place stride.node.id < flowchart.place next) :
      Shifts flowchart stride next
  | repeats {scope : LoopScope} {outer : List LoopScope}
      (before : stride.before.scopes = scope :: outer)
      (after : stride.visited.state.scopes = scope.advance :: outer)
      (inside : flowchart.place scope.owner ≤ flowchart.place next) :
      Shifts flowchart stride next
  | closes {scope : LoopScope} {outer : List LoopScope}
      (before : stride.before.scopes = scope :: outer)
      (after : stride.visited.state.scopes = outer)
      (further : flowchart.place stride.node.id < flowchart.place next) :
      Shifts flowchart stride next

namespace Engine.Takes

variable {engine : Engine} {stride : Stride} {next : NodeId}

theorem scopes_of_finish (taken : engine.Takes stride) {output : Output}
    (last : stride.visited.next = .finish output) :
    stride.visited.state.scopes = stride.before.scopes := by
  cases taken.comes with
  | entered _ _ goes | advanced _ _ goes => cases last.symm.trans goes
  | proceeded _ proceeds => exact proceeds.scopes_eq

/-- Where loop continues lie ahead of their loop starts and go back to them at most. -/
theorem shifts (taken : engine.Takes stride) (valid : engine.flowchart.Valid)
    (inside : engine.flowchart.StaysInside) (nested : engine.flowchart.Nested)
    (leads : stride.visited.next = .node next) : Shifts engine.flowchart stride next := by
  -- Only a way back can lead to an earlier node, and it is taken in the innermost loop alone.
  have further : ¬ stride.GoesBack →
      engine.flowchart.place stride.node.id < engine.flowchart.place next := by
    have takes : ∀ other ∈ [stride], engine.Takes other := by simpa using taken
    have moves := (movesLater_iff_skipsLater valid takes).mpr (skipsLater_of_nested valid nested)
    intro onwards
    exact (moves stride List.mem_cons_self next leads onwards).2
  cases taken.comes with
  | entered kind enters goes after =>
    have further := further (by simp [Stride.GoesBack, Node.isLoopContinue, kind])
    have after := congrArg RunState.scopes after
    cases enters with
    | again | skips => exact .keeps after further
    | opens fresh => exact .opens fresh (taken.opens after) after further
  | advanced kind advances goes after records =>
    have after := congrArg RunState.scopes after
    cases leads.symm.trans goes
    cases advances with
    | repeats innermost own more back =>
      refine .repeats innermost after ?_
      rcases inside stride.node taken.member _ _ kind back with same | later
      · rw [own, same]
      · rw [own]
        exact later.2.le
    | closes innermost =>
      refine .closes innermost after (further ?_)
      simp [Stride.GoesBack, records, completeLabel, hasMoreLabel]
  | proceeded kind proceeds =>
    refine .keeps proceeds.scopes_eq (further ?_)
    rintro ⟨continues, -⟩
    cases found : stride.node.kind with
    | loopStart | loopContinue => simp [found, NodeKind.isLoop] at kind
    | plain | decision | extraction => simp [Node.isLoopContinue, found] at continues

end Engine.Takes

namespace Shifts

variable {flowchart : Flowchart} {stride : Stride} {next : NodeId}

theorem stacked (shifts : Shifts flowchart stride next) (valid : flowchart.Valid)
    (declared : stride.node.id ∈ flowchart.ids)
    (before : Stacked flowchart stride.node.id stride.before.scopes) :
    Stacked flowchart next stride.visited.state.scopes := by
  cases shifts with
  | keeps same further =>
    rw [same]
    exact before.onwards further.le
  | opens fresh opens after further =>
    rw [after]
    exact (before.opens valid declared fresh opens.owner).onwards further.le
  | repeats innermost after inside =>
    rw [after]
    rw [innermost] at before
    exact before.repeats inside
  | closes innermost after further =>
    rw [after]
    rw [innermost] at before
    exact before.closes.onwards further.le

end Shifts

namespace Stacked

variable {flowchart : Flowchart} {current : NodeId} {state : RunState}

theorem distinct (stacked : Stacked flowchart current state.scopes) : state.Distinct := by
  refine List.pairwise_map.mpr (stacked.ordered.imp ?_)
  intro inner outer before same
  rw [same] at before
  exact Nat.lt_irrefl _ before

end Stacked

def OpenOnce (strides : List Stride) : Prop :=
  ∀ stride ∈ strides, stride.before.Distinct ∧ stride.visited.state.Distinct

namespace Engine.Walk

variable {engine : Engine} {current : NodeId} {state : RunState} {strides : List Stride}

theorem openOnce_iff (walk : engine.Walk current state strides) (initially : state.Distinct) :
    OpenOnce strides ↔ ∀ stride ∈ strides, ¬ stride.Reopens := by
  constructor
  · rintro once stride visited ⟨scope, after, opened⟩
    have distinct := (once stride visited).2
    rw [RunState.Distinct, after] at distinct
    exact (List.nodup_cons.mp distinct).1 opened
  · intro once stride visited
    have before := walk.carries (fun _ => RunState.Distinct)
      (fun stride visited taken before _ _ => taken.distinct (once stride visited) before)
      initially stride visited
    exact ⟨before, (walk.takes stride visited).distinct (once stride visited) before⟩

theorem stacked (walk : engine.Walk current state strides) (valid : engine.flowchart.Valid)
    (inside : engine.flowchart.StaysInside) (nested : engine.flowchart.Nested)
    (initially : Stacked engine.flowchart current state.scopes) :
    ∀ stride ∈ strides, Stacked engine.flowchart stride.node.id stride.before.scopes :=
  walk.carries (fun current state => Stacked engine.flowchart current state.scopes)
    (fun _ _ taken before _ leads => (taken.shifts valid inside nested leads).stacked valid
      (List.mem_map_of_mem taken.member) before) initially

theorem openOnce_of_stacked (walk : engine.Walk current state strides)
    (valid : engine.flowchart.Valid) (inside : engine.flowchart.StaysInside)
    (nested : engine.flowchart.Nested)
    (initially : Stacked engine.flowchart current state.scopes) : OpenOnce strides := by
  intro stride visited
  have taken := walk.takes stride visited
  have before := walk.stacked valid inside nested initially stride visited
  refine ⟨before.distinct, ?_⟩
  cases leads : stride.visited.next with
  | node next =>
    have shifts := taken.shifts valid inside nested leads
    exact (shifts.stacked valid (List.mem_map_of_mem taken.member) before).distinct
  | finish output =>
    rw [RunState.Distinct, taken.scopes_of_finish leads]
    exact before.distinct

end Engine.Walk

section

variable {engine : Engine} {specs : List NodeSpec}

/-- No loop is open twice in a run exactly when the run never comes back to the loop start of an
open loop from inside another one, and then no more loops are open than there are. It never does
where every loop continue lies ahead of its loop start and goes back to it or to a later node. -/
theorem loops_open_once (compiled : Flowchart.compile specs = .ok engine.flowchart)
    (client : Client) (stamp : RunStamp) (input : String) :
    (engine.run client stamp input).record.traversal =
      (engine.strides client input).map (·.visited.entry) ∧
    (OpenOnce (engine.strides client input) ↔
      ∀ stride ∈ engine.strides client input, ¬ stride.Reopens) ∧
    (OpenOnce (engine.strides client input) → ∀ stride ∈ engine.strides client input,
      stride.before.scopes.length ≤ engine.flowchart.loopStarts.length ∧
      stride.visited.state.scopes.length ≤ engine.flowchart.loopStarts.length) ∧
    (engine.flowchart.StaysInside → engine.flowchart.Nested →
      OpenOnce (engine.strides client input)) := by
  have valid := compile_valid compiled
  have walk := engine.strides_walk client input
  have owned := walk.keeps (RunState.Owned engine.flowchart) (fun _ taken => taken.owned)
    (by simp [RunState.Owned])
  refine ⟨engine.run_trace client stamp input, walk.openOnce_iff List.nodup_nil, ?_, ?_⟩
  · intro once stride visited
    have opened := owned stride visited
    have distinct := once stride visited
    exact ⟨RunState.depth_le opened.1 distinct.1, RunState.depth_le opened.2 distinct.2⟩
  · intro inside nested
    exact walk.openOnce_of_stacked valid inside nested ⟨.nil, by simp⟩

end

/-! A grid: two loops over the same items, one inside the other. -/

def grid (back : NodeId) : List NodeSpec := [
  { id := "survey", schema := some ⟨"Items", [{ name := "items", type := .array .string }]⟩,
    connections := [("next", "rows")] },
  { id := "rows", iterator := some "row", collection := some "items",
    connections := [("body", "cells")] },
  { id := "cells", iterator := some "cell", collection := some "items",
    connections := [("body", "mark")] },
  { id := "mark", connections := [("next", "nextCell")] },
  { id := "nextCell", kind := some .loopContinue, loopStart := some "cells",
    connections := [(hasMoreLabel, back), (completeLabel, "nextRow")] },
  { id := "nextRow", kind := some .loopContinue,
    connections := [(hasMoreLabel, "rows"), (completeLabel, "report")] },
  { id := "report" }]

namespace Grid

def flowchart (back : NodeId) : Flowchart where
  nodes := [
    { Node.unstructured "survey" "" [⟨"next", "rows"⟩] .extraction with
      schema := some ⟨"Items", [{ name := "items", type := .array .string }]⟩ },
    .unstructured "rows" "" [⟨"body", "cells"⟩] (.loopStart "row" "items"),
    .unstructured "cells" "" [⟨"body", "mark"⟩] (.loopStart "cell" "items"),
    .unstructured "mark" "" [⟨"next", "nextCell"⟩] .plain,
    .unstructured "nextCell" "" [⟨hasMoreLabel, back⟩, ⟨completeLabel, "nextRow"⟩]
      (.loopContinue "cells"),
    .unstructured "nextRow" "" [⟨hasMoreLabel, "rows"⟩, ⟨completeLabel, "report"⟩]
      (.loopContinue "rows"),
    .unstructured "report" "" [] .plain]
  start := "survey"

def engine (back : NodeId) (maxSteps : Nat) : Engine :=
  { flowchart := flowchart back, config := { maxSteps } }

theorem compiles {back : NodeId} (start : back = "cells" ∨ back = "rows") (maxSteps : Nat) :
    Flowchart.compile (grid back) = .ok (engine back maxSteps).flowchart := by
  simp only [Flowchart.compile, bind_ok_iff]
  rcases start with rfl | rfl
  all_goals
    refine ⟨(), rfl, (), rfl, _, rfl, _, rfl, _, rfl, (), rfl, (), ?_, (), rfl, rfl⟩
    exact Flowchart.checkCycles_of_order
      ["survey", "rows", "cells", "mark", "nextCell", "nextRow", "report"] (by decide)

def client : Client := fun _ request =>
  match request.mode with
  | .text => { content := .ok (.text "done") }
  | _ => { content := .ok (.structured (.obj [("items", .arr [.str "a", .str "b"])])) }

theorem nested : (flowchart "cells").Nested := by
  have edges : ∀ edge ∈ [("rows", "cells"), ("cells", "mark"), ("mark", "nextCell"),
      ("nextCell", "nextRow")],
      Follows (flowchart "cells").forwardTargets (flowchart "cells").ids edge.1 edge.2 := by
    unfold Follows
    decide
  simp only [List.forall_mem_cons] at edges
  obtain ⟨toCells, toMark, toNextCell, toNextRow, -⟩ := edges
  have inner : (flowchart "cells").Ahead "cells" "nextCell" := .tail (.single toMark) toNextCell
  have outer : (flowchart "cells").Ahead "rows" "nextRow" :=
    .head toCells (inner.tail toNextRow)
  intro start closer paired
  obtain ⟨member, kind⟩ := Flowchart.closer_some paired
  simp only [flowchart, List.mem_cons, List.not_mem_nil, or_false] at member
  rcases member with rfl | rfl | rfl | rfl | rfl | rfl | rfl <;> cases kind
  · exact inner
  · exact outer

theorem returns : ∀ closer ∈ (flowchart "cells").nodes, ∀ owner target,
    closer.kind = .loopContinue owner → closer.hasMoreTarget? = some target → target = owner := by
  intro closer member owner target kind back
  simp only [flowchart, List.mem_cons, List.not_mem_nil, or_false] at member
  rcases member with rfl | rfl | rfl | rfl | rfl | rfl | rfl <;> cases kind <;> cases back <;> rfl

end Grid

theorem grid_opens_once :
    Flowchart.compile (grid "cells") = .ok (Grid.engine "cells" 64).flowchart ∧
    (Grid.flowchart "cells").StaysInside ∧ (Grid.flowchart "cells").Nested ∧
    OpenOnce ((Grid.engine "cells" 64).strides Grid.client "") := by
  have inside : (Grid.flowchart "cells").StaysInside := by
    intro closer member owner target kind back
    exact .inl (Grid.returns closer member owner target kind back)
  have compiled := Grid.compiles (.inl rfl) 64
  exact ⟨compiled, inside, Grid.nested,
    (loops_open_once compiled Grid.client RollCall.stamp "").2.2.2 inside Grid.nested⟩

/-- With the inner loop going back to the outer loop start, the outer loop is open twice after six
visits, and three loops are open where there are two. -/
theorem grid_reopens :
    Flowchart.compile (grid "rows") = .ok (Grid.engine "rows" 6).flowchart ∧
    (Grid.flowchart "rows").loopStarts.length = 2 ∧
    (∃ stride ∈ (Grid.engine "rows" 6).strides Grid.client "",
      stride.visited.state.scopes.map (·.owner) = ["rows", "cells", "rows"]) ∧
    ¬ OpenOnce ((Grid.engine "rows" 6).strides Grid.client "") := by
  have owners : ((Grid.engine "rows" 6).strides Grid.client "").map
      (fun stride => stride.visited.state.scopes.map (·.owner)) =
      [[], ["rows"], ["cells", "rows"], ["cells", "rows"], ["cells", "rows"],
       ["rows", "cells", "rows"]] := by rfl
  have reached : ["rows", "cells", "rows"] ∈ ((Grid.engine "rows" 6).strides Grid.client "").map
      (fun stride => stride.visited.state.scopes.map (·.owner)) := by
    simp [owners]
  obtain ⟨stride, visited, opened⟩ := List.mem_map.mp reached
  refine ⟨Grid.compiles (.inr rfl) 6, rfl, ⟨stride, visited, opened⟩, ?_⟩
  intro once
  have distinct := (once stride visited).2
  rw [RunState.Distinct, opened] at distinct
  exact absurd distinct (by decide)

end Colloquy
