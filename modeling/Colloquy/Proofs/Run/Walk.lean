import Colloquy.Proofs.Flowchart.Compile
import Colloquy.Proofs.Run.Visit
import Colloquy.Run.Basic

/-!
Runs as walks: the visits of a run that go well, each with what had been gathered before it. Where
a walk may go does not depend on the client, so what holds of every walk holds of every run.
-/

namespace Colloquy

/-- A visit that went well: the node, what had been gathered before it, and what came of it. -/
structure Stride where
  node : Node
  before : RunState
  visited : Visited

namespace Engine

/-- Some answer of the model makes the engine take the stride. -/
structure Takes (engine : Engine) (stride : Stride) : Prop where
  found : engine.flowchart.node? stride.node.id = some stride.node
  yields : ∃ step, (engine.visit stride.node step stride.before).Yields (.ok stride.visited)

namespace Takes

variable {engine : Engine} {stride : Stride}

theorem member (taken : engine.Takes stride) : stride.node ∈ engine.flowchart.nodes :=
  List.mem_of_find?_eq_some taken.found

theorem comes (taken : engine.Takes stride) :
    Comes engine.flowchart stride.node stride.before stride.visited :=
  have ⟨_, yields⟩ := taken.yields
  visit_ok yields

theorem enters (taken : engine.Takes stride) {iterator field : String}
    (kind : stride.node.kind = .loopStart iterator field) :
    ∃ next scopes, stride.visited.next = .node next ∧
      stride.visited.state = { stride.before with scopes } ∧
      Enters engine.flowchart stride.node iterator field stride.before (.ok (next, scopes)) := by
  cases taken.comes with
  | entered same enters goes state =>
    cases kind.symm.trans same
    exact ⟨_, _, goes, state, enters⟩
  | advanced other => cases kind.symm.trans other
  | proceeded other => simp [kind, NodeKind.isLoop] at other

theorem advances (taken : engine.Takes stride) {owner : NodeId}
    (kind : stride.node.kind = .loopContinue owner) :
    ∃ label next scopes, stride.visited.next = .node next ∧
      stride.visited.state = { stride.before with scopes } ∧
      Advances stride.node owner stride.before.scopes (.ok (label, next, scopes)) := by
  cases taken.comes with
  | entered other => cases kind.symm.trans other
  | advanced same advances goes state =>
    cases kind.symm.trans same
    exact ⟨_, _, _, goes, state, advances⟩
  | proceeded other => simp [kind, NodeKind.isLoop] at other

theorem moves (taken : engine.Takes stride) {next : NodeId}
    (kind : stride.node.kind.isLoop = false) (leads : stride.visited.next = .node next) :
    next ∈ stride.node.targets ∧ stride.visited.state.scopes = stride.before.scopes := by
  cases taken.comes with
  | entered other | advanced other => simp [other, NodeKind.isLoop] at kind
  | proceeded _ proceeds =>
    cases proceeds with
    | moves connection declared goes scopes =>
      cases leads.symm.trans goes
      exact ⟨List.mem_map_of_mem declared, scopes⟩
    | ends _ last => cases leads.symm.trans last

end Takes

/-- Strides in a row from a node and what has been gathered. A walk may break off anywhere. -/
inductive Walk (engine : Engine) : NodeId → RunState → List Stride → Prop
  | halt {current : NodeId} {state : RunState} : Walk engine current state []
  | finish {stride : Stride} {output : Output} (taken : engine.Takes stride)
      (last : stride.visited.next = .finish output) :
      Walk engine stride.node.id stride.before [stride]
  | step {stride : Stride} {next : NodeId} {strides : List Stride} (taken : engine.Takes stride)
      (leads : stride.visited.next = .node next)
      (rest : Walk engine next stride.visited.state strides) :
      Walk engine stride.node.id stride.before (stride :: strides)

def stridesFrom (engine : Engine) (client : Client) :
    Nat → NodeId → RunState → Journal → List Stride
  | 0, _, _, _ => []
  | remaining + 1, current, state, journal =>
    match engine.flowchart.node? current with
    | none => []
    | some node =>
      match engine.settle client node.id journal (engine.visit node journal.trace.length state) with
      | (_, .error _) => []
      | (journal, .ok visited) =>
        ⟨node, state, visited⟩ :: match visited.next with
          | .finish _ => []
          | .node next =>
            stridesFrom engine client remaining next visited.state (journal.visited visited)

def strides (engine : Engine) (client : Client) (input : String) : List Stride :=
  engine.stridesFrom client engine.config.maxSteps engine.flowchart.start { input } {}

section

variable (engine : Engine) (client : Client)

theorem settle_trace (node : NodeId) (journal : Journal) (visit : Visit) :
    (engine.settle client node journal visit).1.trace = journal.trace := by
  cases visit <;> rfl

theorem settle_yields (node : NodeId) (journal : Journal) (visit : Visit) :
    visit.Yields (engine.settle client node journal visit).2 := by
  cases visit with
  | failed error | passed visited => rfl
  | asked request answered =>
    simp only [settle]
    split
    · rename_i error _
      exact .inl ⟨error, rfl⟩
    · rename_i response _
      exact .inr ⟨response, rfl⟩

theorem drive_trace (runId : RunId) (remaining : Nat) (current : NodeId) (state : RunState)
    (journal : Journal) :
    (engine.drive client runId remaining current state journal).1.trace = journal.trace ++
      (engine.stridesFrom client remaining current state journal).map (·.visited.entry) := by
  induction remaining generalizing current state journal with
  | zero => simp [drive, stridesFrom, Journal.emit]
  | succ remaining ih =>
    rw [drive, stridesFrom]
    cases engine.flowchart.node? current with
    | none => simp
    | some node =>
      dsimp only
      have kept := engine.settle_trace client node.id journal
        (engine.visit node journal.trace.length state)
      generalize engine.settle client node.id journal
        (engine.visit node journal.trace.length state) = settled at kept
      obtain ⟨after, error | visited⟩ := settled
      · simpa using kept
      · dsimp only at kept ⊢
        cases leads : visited.next with
        | finish output => simp [Journal.visited, kept]
        | node next =>
          dsimp only
          rw [ih]
          simp [Journal.visited, kept]

theorem run_trace (stamp : RunStamp) (input : String) :
    (engine.run client stamp input).record.traversal =
      (engine.strides client input).map (·.visited.entry) := by
  simpa [run, strides] using engine.drive_trace client stamp.runId engine.config.maxSteps
    engine.flowchart.start { input } {}

theorem run_error {stamp : RunStamp} {input : String} {error : RunError}
    (failed : (engine.run client stamp input).result = .error error) :
    (engine.drive client stamp.runId engine.config.maxSteps engine.flowchart.start
      { input } {}).2 = .error error := by
  rw [run] at failed
  generalize engine.drive client stamp.runId engine.config.maxSteps engine.flowchart.start
    { input } {} = driven at failed ⊢
  obtain ⟨journal, refused | ending⟩ := driven
  · cases failed
    rfl
  · cases failed

theorem stridesFrom_walk (remaining : Nat) (current : NodeId) (state : RunState)
    (journal : Journal) :
    engine.Walk current state (engine.stridesFrom client remaining current state journal) := by
  induction remaining generalizing current state journal with
  | zero => exact .halt
  | succ remaining ih =>
    simp only [stridesFrom]
    split
    · exact .halt
    · rename_i node found
      have named : node.id = current := by simpa using List.find?_some found
      subst named
      have yields := engine.settle_yields client node.id journal
        (engine.visit node journal.trace.length state)
      split
      · exact .halt
      · rename_i after visited settled
        rw [settled] at yields
        have taken : engine.Takes ⟨node, state, visited⟩ := ⟨found, _, yields⟩
        split
        · rename_i output last
          exact .finish taken last
        · rename_i next leads
          exact .step taken leads (ih _ _ _)

theorem strides_walk (input : String) :
    engine.Walk engine.flowchart.start { input } (engine.strides client input) :=
  engine.stridesFrom_walk client _ _ _ _

end

namespace Walk

variable {engine : Engine} {current : NodeId} {state : RunState} {strides : List Stride}

theorem takes (walk : engine.Walk current state strides) :
    ∀ stride ∈ strides, engine.Takes stride := by
  induction walk with
  | halt => simp
  | finish taken => simpa using taken
  | step taken _ _ ih => exact List.forall_mem_cons.mpr ⟨taken, ih⟩

/-- What every stride keeps holds all along a walk. -/
theorem keeps (Inv : RunState → Prop) (walk : engine.Walk current state strides)
    (step : ∀ stride, engine.Takes stride → Inv stride.before → Inv stride.visited.state)
    (initially : Inv state) :
    ∀ stride ∈ strides, Inv stride.before ∧ Inv stride.visited.state := by
  induction walk with
  | halt => simp
  | finish taken => simpa using ⟨initially, step _ taken initially⟩
  | step taken _ _ ih =>
    have after := step _ taken initially
    exact List.forall_mem_cons.mpr ⟨⟨initially, after⟩, ih after⟩

/-- What every stride of a walk hands on to where it leads holds before each of them. -/
theorem carries (Inv : NodeId → RunState → Prop) (walk : engine.Walk current state strides)
    (step : ∀ stride ∈ strides, engine.Takes stride → Inv stride.node.id stride.before →
      ∀ next, stride.visited.next = .node next → Inv next stride.visited.state)
    (initially : Inv current state) : ∀ stride ∈ strides, Inv stride.node.id stride.before := by
  induction walk with
  | halt => simp
  | finish => simpa using initially
  | step taken leads _ ih =>
    obtain ⟨here, others⟩ := List.forall_mem_cons.mp step
    exact List.forall_mem_cons.mpr ⟨initially, ih others (here taken initially _ leads)⟩

theorem first {stride : Stride} {later : List Stride}
    (walk : engine.Walk current state (stride :: later)) :
    engine.Takes stride ∧ stride.node.id = current ∧ stride.before = state ∧
      ∃ next, engine.Walk next stride.visited.state later := by
  cases walk with
  | finish taken => exact ⟨taken, rfl, rfl, stride.node.id, .halt⟩
  | step taken _ rest => exact ⟨taken, rfl, rfl, _, rest⟩

theorem after {earlier later : List Stride} {stride : Stride}
    (walk : engine.Walk current state (earlier ++ stride :: later)) :
    engine.Takes stride ∧ ∃ next, engine.Walk next stride.visited.state later := by
  induction earlier generalizing current state with
  | nil =>
    obtain ⟨taken, -, -, rest⟩ := walk.first
    exact ⟨taken, rest⟩
  | cons other earlier ih =>
    obtain ⟨-, -, -, next, rest⟩ := walk.first
    exact ih rest

end Walk

end Engine

/-! A roll call: names are asked for, and called one by one. -/

def rollCall : List NodeSpec := [
  { id := "ask", schema := some ⟨"Names", [{ name := "names", type := .array .string }]⟩,
    connections := [(defaultLabel, "each")] },
  { id := "each", iterator := some " name ", collection := some "names",
    connections := [(defaultLabel, "call")] },
  { id := "call", text := Template.hole "name", connections := [(defaultLabel, "next")] },
  { id := "next", kind := some .loopContinue,
    connections := [(hasMoreLabel, "call"), (completeLabel, "end")] },
  { id := "end", text := Template.hole "name" }]

def Node.unstructured (id : NodeId) (template : String) (connections : List Connection)
    (kind : NodeKind) : Node :=
  ⟨id, template, connections, none, Outline.defaultTemperature, kind⟩

namespace RollCall

def flowchart : Flowchart where
  nodes := [
    { Node.unstructured "ask" "" [⟨defaultLabel, "each"⟩] .extraction with
      schema := some ⟨"Names", [{ name := "names", type := .array .string }]⟩ },
    .unstructured "each" "" [⟨defaultLabel, "call"⟩] (.loopStart "name" "names"),
    .unstructured "call" (Template.hole "name") [⟨defaultLabel, "next"⟩] .plain,
    .unstructured "next" "" [⟨hasMoreLabel, "call"⟩, ⟨completeLabel, "end"⟩]
      (.loopContinue "each"),
    .unstructured "end" (Template.hole "name") [] .plain]
  start := "ask"

def engine : Engine := { flowchart }

theorem compiles : Flowchart.compile rollCall = .ok engine.flowchart := by
  simp only [Flowchart.compile, bind_ok_iff]
  refine ⟨(), rfl, (), rfl, _, rfl, _, rfl, _, rfl, (), rfl, (), ?_, (), rfl, rfl⟩
  exact Flowchart.checkCycles_of_order ["ask", "each", "call", "next", "end"] (by decide)

def client : Client := fun _ _ =>
  { content := .ok (.structured (.obj [("names", .arr [.str "Ada", .str "Ben"])])) }

def stamp : RunStamp where
  runId := ⟨"00000000-0000-0000-0000-000000000000"⟩
  startedAt := ⟨⟨2024, 2, 29⟩, 0, 0⟩
  finishedAt := ⟨⟨2024, 2, 29⟩, 60, 0⟩

example : (engine.strides client "").map (·.node.id) =
    ["ask", "each", "call", "next", "call", "next"] := by rfl

end RollCall

end Colloquy
