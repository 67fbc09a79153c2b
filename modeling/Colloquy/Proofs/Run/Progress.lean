import Colloquy.Proofs.Flowchart.Valid
import Colloquy.Proofs.Run.Walk

/-!
Where a run goes in dependency order. Every step but the way back of a loop continue follows a
forward connection, with one exception: a loop start without elements leads where its loop continue
is complete, and no connection says that this lies ahead.
-/

namespace Colloquy

namespace Flowchart

def Later (flowchart : Flowchart) (a b : NodeId) : Prop :=
  b ∈ flowchart.topologicalOrder ∧
    flowchart.topologicalOrder.idxOf a < flowchart.topologicalOrder.idxOf b

def Ahead (flowchart : Flowchart) : NodeId → NodeId → Prop :=
  Relation.TransGen (Follows flowchart.forwardTargets flowchart.ids)

namespace Valid

variable {flowchart : Flowchart} {node : Node}

theorem peeled (valid : flowchart.Valid) :
    Peeled flowchart.forwardTargets flowchart.ids flowchart.topologicalOrder [] :=
  topologicalSort_peeled _ _ valid.acyclic

theorem mem_order (valid : flowchart.Valid) {id : NodeId} :
    id ∈ flowchart.topologicalOrder ↔ id ∈ flowchart.ids := by
  simpa using valid.peeled.perm.mem_iff (a := id)

theorem later_of_ahead (valid : flowchart.Valid) {a b : NodeId} (way : flowchart.Ahead a b) :
    flowchart.Later a b := by
  refine ⟨valid.mem_order.mpr ?_, valid.peeled.precedes_of_transGen way⟩
  cases way with
  | single edge => exact edge.2.1
  | tail _ edge => exact edge.2.1

theorem ahead_of_connection (valid : flowchart.Valid) (member : node ∈ flowchart.nodes)
    {connection : Connection} (declared : connection ∈ node.connections)
    (forward : ¬ (node.isLoopContinue = true ∧ connection.label = hasMoreLabel)) :
    flowchart.Ahead node.id connection.target := by
  refine .single ⟨List.mem_map_of_mem member, valid.targets node member connection declared, ?_⟩
  rw [mem_forwardTargets valid.ids]
  exact ⟨node, member, rfl, connection, declared, rfl, forward⟩

theorem ahead_of_complete (valid : flowchart.Valid) (member : node ∈ flowchart.nodes)
    {target : NodeId} (on : node.completeTarget? = some target) :
    flowchart.Ahead node.id target := by
  obtain ⟨connection, found, rfl⟩ := Option.map_eq_some_iff.mp on
  have label : connection.label = completeLabel := by simpa using List.find?_some found
  exact valid.ahead_of_connection member (List.mem_of_find?_eq_some found)
    (by simp [label, completeLabel, hasMoreLabel])

end Valid

end Flowchart

namespace Stride

def GoesBack (stride : Stride) : Prop :=
  stride.node.isLoopContinue = true ∧ stride.visited.entry.decision = some hasMoreLabel

/-- The stride passes over a loop without elements, on to where its loop continue is complete. -/
structure Skips (flowchart : Flowchart) (stride : Stride) (target : NodeId) : Prop where
  fresh : ¬ Innermost stride.node.id stride.before.scopes
  empty : ∃ iterator field value, stride.node.kind = .loopStart iterator field ∧
    stride.before.extracted.findField? field = some value ∧ LoopScope.elements? value = some []
  complete : (flowchart.closer? stride.node.id).bind Node.completeTarget? = some target

end Stride

namespace Engine.Takes

variable {engine : Engine} {stride : Stride} {next : NodeId}

theorem leads_on (valid : engine.flowchart.Valid) (taken : engine.Takes stride)
    (leads : stride.visited.next = .node next) :
    stride.GoesBack ∨ stride.Skips engine.flowchart next ∨
      engine.flowchart.Ahead stride.node.id next := by
  have member := taken.member
  cases taken.comes with
  | @entered iterator field _ _ kind enters goes =>
    cases leads.symm.trans goes
    obtain ⟨connection, declared, first⟩ :=
      Node.exists_firstTarget (valid.start_continues member kind)
    have body := valid.ahead_of_connection member declared (by simp [Node.isLoopContinue, kind])
    cases enters with
    | again | opens =>
      rw [first]
      exact .inr (.inr body)
    | skips fresh found empty complete =>
      exact .inr (.inl ⟨fresh, ⟨iterator, field, _, kind, found, empty⟩, complete⟩)
  | advanced kind advances goes _ records =>
    cases leads.symm.trans goes
    cases advances with
    | repeats => exact .inl ⟨by simp [Node.isLoopContinue, kind], records⟩
    | closes _ _ _ on => exact .inr (.inr (valid.ahead_of_complete member on))
  | proceeded kind proceeds =>
    cases proceeds with
    | moves connection declared goes =>
      cases leads.symm.trans goes
      refine .inr (.inr (valid.ahead_of_connection member declared ?_))
      cases found : stride.node.kind with
      | loopStart | loopContinue => simp [found, NodeKind.isLoop] at kind
      | plain | decision | extraction => simp [Node.isLoopContinue, found]
    | ends output last => cases leads.symm.trans last

theorem skips_leads (taken : engine.Takes stride) {target : NodeId}
    (skips : stride.Skips engine.flowchart target) :
    stride.visited.next = .node target ∧ ¬ stride.GoesBack := by
  obtain ⟨iterator, field, value, kind, found, empty⟩ := skips.empty
  refine ⟨?_, by simp [Stride.GoesBack, Node.isLoopContinue, kind]⟩
  obtain ⟨next, scopes, goes, -, enters⟩ := taken.enters kind
  cases enters with
  | again innermost => exact absurd innermost skips.fresh
  | skips _ _ _ complete =>
    cases skips.complete.symm.trans complete
    exact goes
  | opens _ again elements nonempty =>
    cases found.symm.trans again
    cases empty.symm.trans elements
    contradiction

end Engine.Takes

namespace Flowchart

def MovesLater (flowchart : Flowchart) (strides : List Stride) : Prop :=
  ∀ stride ∈ strides, ∀ next, stride.visited.next = .node next → ¬ stride.GoesBack →
    flowchart.Later stride.node.id next

def SkipsLater (flowchart : Flowchart) (strides : List Stride) : Prop :=
  ∀ stride ∈ strides, ∀ target, stride.Skips flowchart target →
    flowchart.Later stride.node.id target

def Nested (flowchart : Flowchart) : Prop :=
  ∀ start closer, flowchart.closer? start = some closer → flowchart.Ahead start closer.id

end Flowchart

section

variable {engine : Engine} {strides : List Stride}

theorem movesLater_iff_skipsLater (valid : engine.flowchart.Valid)
    (takes : ∀ stride ∈ strides, engine.Takes stride) :
    engine.flowchart.MovesLater strides ↔ engine.flowchart.SkipsLater strides := by
  constructor
  · intro forward stride visited target skips
    obtain ⟨leads, onwards⟩ := (takes stride visited).skips_leads skips
    exact forward stride visited target leads onwards
  · intro forward stride visited next leads onwards
    rcases (takes stride visited).leads_on valid leads with back | skips | ahead
    · exact absurd back onwards
    · exact forward stride visited next skips
    · exact valid.later_of_ahead ahead

theorem skipsLater_of_nested (valid : engine.flowchart.Valid) (nested : engine.flowchart.Nested) :
    engine.flowchart.SkipsLater strides := by
  intro stride visited target skips
  obtain ⟨closer, paired, on⟩ := Option.bind_eq_some_iff.mp skips.complete
  have further := valid.ahead_of_complete (Flowchart.closer_some paired).1 on
  exact valid.later_of_ahead ((nested stride.node.id closer paired).trans further)

/-- A run goes back by the ways back of loop continues alone exactly when each loop that it passes
over lets it go on to a later node, as it does where every loop continue lies ahead of its loop
start. -/
theorem moves_later_iff_skips_later {specs : List NodeSpec}
    (compiled : Flowchart.compile specs = .ok engine.flowchart) (client : Client) (stamp : RunStamp)
    (input : String) :
    (engine.run client stamp input).record.traversal =
      (engine.strides client input).map (·.visited.entry) ∧
    (engine.flowchart.MovesLater (engine.strides client input) ↔
      engine.flowchart.SkipsLater (engine.strides client input)) ∧
    (engine.flowchart.Nested → engine.flowchart.MovesLater (engine.strides client input)) := by
  have valid := compile_valid compiled
  have takes := (engine.strides_walk client input).takes
  have condition := movesLater_iff_skipsLater valid takes
  refine ⟨engine.run_trace client stamp input, condition, ?_⟩
  intro nested
  exact condition.mpr (skipsLater_of_nested valid nested)

end

theorem rollCall_moves_later :
    Flowchart.compile rollCall = .ok RollCall.engine.flowchart ∧ RollCall.flowchart.Nested ∧
      RollCall.flowchart.MovesLater (RollCall.engine.strides RollCall.client "") := by
  have nested : RollCall.flowchart.Nested := by
    intro start closer paired
    obtain ⟨member, kind⟩ := Flowchart.closer_some paired
    simp only [RollCall.flowchart, List.mem_cons, List.not_mem_nil, or_false] at member
    rcases member with rfl | rfl | rfl | rfl | rfl <;> cases kind
    have toCall : Follows RollCall.flowchart.forwardTargets RollCall.flowchart.ids "each" "call" :=
      ⟨by decide, by decide, by decide⟩
    have toNext : Follows RollCall.flowchart.forwardTargets RollCall.flowchart.ids "call" "next" :=
      ⟨by decide, by decide, by decide⟩
    exact .tail (.single toCall) toNext
  exact ⟨RollCall.compiles, nested, (moves_later_iff_skips_later RollCall.compiles
    RollCall.client RollCall.stamp "").2.2 nested⟩

/-! A detour: the loop continue is reached beside its loop, and leads to it. -/

def detour : List NodeSpec := [
  { id := "Survey", schema := some ⟨"Items", [{ name := "items", type := .array .string }]⟩,
    connections := [("next", "Route")] },
  { id := "Route", connections := [("advance", "Advance"), ("visit", "Visit")] },
  { id := "Advance", kind := some .loopContinue,
    connections := [(hasMoreLabel, "Visit"), (completeLabel, "Before")] },
  { id := "Before", connections := [("next", "Visit")] },
  { id := "Visit", iterator := some "item", collection := some "items",
    connections := [("body", "Report")] },
  { id := "Report" }]

namespace Detour

def flowchart : Flowchart where
  nodes := [
    { Node.unstructured "Survey" "" [⟨"next", "Route"⟩] .extraction with
      schema := some ⟨"Items", [{ name := "items", type := .array .string }]⟩ },
    .unstructured "Route" "" [⟨"advance", "Advance"⟩, ⟨"visit", "Visit"⟩]
      .decision,
    .unstructured "Advance" "" [⟨hasMoreLabel, "Visit"⟩, ⟨completeLabel, "Before"⟩]
      (.loopContinue "Visit"),
    .unstructured "Before" "" [⟨"next", "Visit"⟩] .plain,
    .unstructured "Visit" "" [⟨"body", "Report"⟩] (.loopStart "item" "items"),
    .unstructured "Report" "" [] .plain]
  start := "Survey"

def engine : Engine := { flowchart, config := { maxSteps := 4 } }

theorem compiles : Flowchart.compile detour = .ok engine.flowchart := by
  simp only [Flowchart.compile, bind_ok_iff]
  refine ⟨(), rfl, (), rfl, _, rfl, _, rfl, _, rfl, (), rfl, (), ?_, (), rfl, rfl⟩
  exact Flowchart.checkCycles_of_order
    ["Survey", "Route", "Advance", "Before", "Visit", "Report"] (by decide)

def client : Client := fun _ request =>
  match request.mode with
  | .decision _ => { content := .ok (.decision "visit" "") }
  | _ => { content := .ok (.structured (.obj [("items", .arr [])])) }

end Detour

theorem detour_moves_back :
    Flowchart.compile detour = .ok Detour.engine.flowchart ∧
    (∃ stride ∈ Detour.engine.strides Detour.client "", ¬ stride.GoesBack ∧
      stride.visited.next = .node "Before" ∧ Detour.flowchart.Later "Before" stride.node.id) ∧
    ¬ Detour.flowchart.MovesLater (Detour.engine.strides Detour.client "") := by
  let view (stride : Stride) := (stride.node.id, stride.node.isLoopContinue, stride.visited.next)
  have path : (Detour.engine.strides Detour.client "").map view =
      [("Survey", false, .node "Route"), ("Route", false, .node "Visit"),
       ("Visit", false, .node "Before"), ("Before", false, .node "Visit")] := by rfl
  have turn : ("Visit", false, Next.node "Before") ∈
      (Detour.engine.strides Detour.client "").map view := by
    simp [path]
  obtain ⟨stride, visited, same⟩ := List.mem_map.mp turn
  simp only [view, Prod.mk.injEq] at same
  obtain ⟨id, ordinary, leads⟩ := same
  have onwards : ¬ stride.GoesBack := by simp [Stride.GoesBack, ordinary]
  have edge : Follows Detour.flowchart.forwardTargets Detour.flowchart.ids "Before" "Visit" :=
    ⟨by decide, by decide, by decide⟩
  have later : Detour.flowchart.Later "Before" stride.node.id :=
    id ▸ (compile_valid Detour.compiles).later_of_ahead (.single edge)
  refine ⟨Detour.compiles, ⟨stride, visited, onwards, leads, later⟩, ?_⟩
  intro forward
  exact Nat.lt_asymm later.2 (forward stride visited "Before" leads onwards).2

end Colloquy
