import Colloquy.Proofs.Run.Legal
import Colloquy.Proofs.Run.Progress
import Colloquy.Proofs.Run.Replay

/-!
Flowcharts without loops. Nothing is bound, nothing leads back, and every step leads later in
dependency order, so a run that may make as many visits as there are nodes is only ever up to the
model.
-/

namespace Colloquy

def Flowchart.Straight (flowchart : Flowchart) : Prop :=
  ∀ node ∈ flowchart.nodes, ∀ iterator field, node.kind ≠ .loopStart iterator field

namespace Flowchart

variable {flowchart : Flowchart}

theorem Straight.isLoop_eq_false (straight : flowchart.Straight) {specs : List NodeSpec}
    (compiled : compile specs = .ok flowchart) {node : Node} (member : node ∈ flowchart.nodes) :
    node.kind.isLoop = false := by
  cases kind : node.kind with
  | loopStart iterator field => exact absurd kind (straight node member iterator field)
  | loopContinue owner =>
    obtain ⟨start, declared, -, iterator, field, opens⟩ := compile_owner compiled member kind
    exact absurd opens (straight start declared iterator field)
  | plain | decision | extraction => rfl

theorem Straight.iterators_eq_nil (straight : flowchart.Straight) : flowchart.iterators = [] := by
  rw [List.eq_nil_iff_forall_not_mem]
  intro name bound
  obtain ⟨node, member, field, kind⟩ := mem_iterators.mp bound
  exact straight node member name field kind

theorem Later.trans {a b c : NodeId} (first : flowchart.Later a b) (second : flowchart.Later b c) :
    flowchart.Later a c := ⟨second.1, first.2.trans second.2⟩

theorem Later.ne {a b : NodeId} (later : flowchart.Later a b) : a ≠ b := by
  rintro rfl
  exact Nat.lt_irrefl _ later.2

instance : IsTrans NodeId flowchart.Later := ⟨fun _ _ _ => .trans⟩

end Flowchart

/-- The nodes of a run in the order of its visits, the one where it stops among them. -/
def Ending.path (ending : Ending) (strides : List Stride) : List NodeId :=
  strides.map (·.node.id) ++ ending.stop?.toList

section

variable {engine : Engine} {client : Client} {specs : List NodeSpec}

theorem Flowchart.Straight.not_refuses (straight : engine.flowchart.Straight)
    (compiled : Flowchart.compile specs = .ok engine.flowchart) {node : Node}
    (member : node ∈ engine.flowchart.nodes) {state : RunState} {error : ConfigError} :
    ¬ Refuses engine node state error := by
  have plain := straight.isLoop_eq_false compiled member
  intro refuses
  cases refuses with
  | entering kind => exact straight node member _ _ kind
  | advancing kind =>
    rw [kind] at plain
    cases plain
  | prompting _ unbuilt =>
    obtain ⟨name, bound, -⟩ := (compile_valid compiled).unbuilt member unbuilt
    rw [straight.iterators_eq_nil] at bound
    cases bound

theorem Engine.Takes.leads_later (straight : engine.flowchart.Straight)
    (compiled : Flowchart.compile specs = .ok engine.flowchart) {stride : Stride} {next : NodeId}
    (taken : engine.Takes stride) (leads : stride.visited.next = .node next) :
    engine.flowchart.Later stride.node.id next := by
  have valid := compile_valid compiled
  have plain := straight.isLoop_eq_false compiled taken.member
  rcases taken.leads_on valid leads with ⟨continues, -⟩ | skips | ahead
  · rw [Node.isLoopContinue_iff] at continues
    cases kind : stride.node.kind with
    | loopContinue => rw [kind] at plain; cases plain
    | plain | decision | extraction | loopStart => rw [kind] at continues; cases continues
  · obtain ⟨iterator, field, -, kind, -⟩ := skips.empty
    exact absurd kind (straight _ taken.member iterator field)
  · exact valid.later_of_ahead ahead

namespace Engine.Course

variable {runId : RunId} {remaining : Nat} {current : NodeId} {state : RunState}
  {journal final : Journal} {strides : List Stride} {ending : Ending}

theorem path_head (course : engine.Course client runId remaining current state journal strides
    ending final) : (ending.path strides).head? = some current := by
  cases course <;> rfl

theorem path_isChain (straight : engine.flowchart.Straight)
    (compiled : Flowchart.compile specs = .ok engine.flowchart)
    (course : engine.Course client runId remaining current state journal strides ending final) :
    (ending.path strides).IsChain engine.flowchart.Later := by
  induction course with
  | capped | failed | completed => exact .singleton _
  | @step _ node _ _ _ _ _ _ strides ending found settled leads rest ih =>
    have later := (takes_of_settled found settled).leads_later straight compiled leads
    refine List.isChain_cons.mpr (⟨?_, ih⟩ : _ ∧ (ending.path strides).IsChain _)
    intro first head
    cases rest.path_head.symm.trans head
    exact later

theorem path_pairwise (straight : engine.flowchart.Straight)
    (compiled : Flowchart.compile specs = .ok engine.flowchart)
    (course : engine.Course client runId remaining current state journal strides ending final) :
    (ending.path strides).Pairwise engine.flowchart.Later :=
  List.isChain_iff_pairwise.mp (course.path_isChain straight compiled)

theorem path_subset (straight : engine.flowchart.Straight)
    (compiled : Flowchart.compile specs = .ok engine.flowchart)
    (course : engine.Course client runId remaining current state journal strides ending final)
    (inside : current ∈ engine.flowchart.ids) : ending.path strides ⊆ engine.flowchart.ids := by
  have later := course.path_pairwise straight compiled
  obtain ⟨rest, whole⟩ := List.head?_eq_some_iff.mp course.path_head
  rw [whole] at later ⊢
  refine List.cons_subset.mpr ⟨inside, ?_⟩
  intro id member
  exact (compile_valid compiled).mem_order.mp (List.rel_of_pairwise_cons later member).1

theorem path_length_le (straight : engine.flowchart.Straight)
    (compiled : Flowchart.compile specs = .ok engine.flowchart)
    (course : engine.Course client runId remaining current state journal strides ending final)
    (inside : current ∈ engine.flowchart.ids) :
    (ending.path strides).length ≤ engine.flowchart.size := by
  have distinct : (ending.path strides).Nodup :=
    (course.path_pairwise straight compiled).imp Flowchart.Later.ne
  have shorter := (distinct.subperm (course.path_subset straight compiled inside)).length_le
  simpa [Flowchart.ids, Flowchart.size] using shorter

/-- Only the model can keep a run from completing that may make a visit for each node. -/
theorem ends_well (straight : engine.flowchart.Straight)
    (compiled : Flowchart.compile specs = .ok engine.flowchart)
    (course : engine.Course client runId remaining current state journal strides ending final)
    (inside : current ∈ engine.flowchart.ids) (enough : engine.flowchart.size ≤ remaining) :
    (∃ stop fault, ending = .failed stop (.model fault)) ∨ ending.stop? = none := by
  have valid := compile_valid compiled
  cases ending with
  | completed => exact .inr rfl
  | capped stop =>
    have visits := course.length_of_capped rfl
    have few := course.path_length_le straight compiled inside
    simp only [Ending.path, Ending.stop?, Option.toList_some, List.length_append, List.length_map,
      List.length_singleton] at few
    omega
  | failed stop error =>
    obtain ⟨node, sent, found, fails, -⟩ := course.replays_failure valid
    cases fails with
    | refused refuses =>
      exact absurd refuses (straight.not_refuses compiled (List.mem_of_find?_eq_some found))
    | unanswered => exact .inl ⟨stop, _, rfl⟩

end Engine.Course

/-- Without loops, and with a visit allowed for each node, a run completes at a node without
connections unless the model fails. It visits no node twice, and each one behind those before it in
dependency order, the one where it stops included. -/
theorem straight_runs_complete (compiled : Flowchart.compile specs = .ok engine.flowchart)
    (straight : engine.flowchart.Straight)
    (enough : engine.flowchart.size ≤ engine.config.maxSteps) (client : Client) (stamp : RunStamp)
    (input : String) :
    ((∃ fault, (engine.run client stamp input).result = .error (.model fault)) ∨
      ∃ outcome entry node, (engine.run client stamp input).result = .ok outcome ∧
        outcome.trace.getLast? = some entry ∧ engine.flowchart.node? entry.node = some node ∧
        node.isTerminal = true) ∧
    ∃ ending final,
      engine.Course client stamp.runId engine.config.maxSteps engine.flowchart.start { input } {}
        (engine.strides client input) ending final ∧
      ((engine.run client stamp input).record.traversal.map (·.node) ++
        ending.stop?.toList).Pairwise engine.flowchart.Later ∧
      ((engine.run client stamp input).record.traversal.map (·.node) ++
        ending.stop?.toList).Nodup := by
  have valid := compile_valid compiled
  obtain ⟨ending, final, course, -, result⟩ := Engine.run_course valid client stamp input
  have traced : (engine.run client stamp input).record.traversal.map (·.node) =
      (engine.strides client input).map (·.node.id) := by
    rw [engine.run_trace, List.map_map]
    refine List.map_congr_left fun stride taken => ?_
    obtain ⟨-, _, _, settles⟩ := course.settles_of_mem valid taken
    exact settles.entry.2.1
  have later := course.path_pairwise straight compiled
  refine ⟨?_, ending, final, course, traced ▸ later, traced ▸ later.imp Flowchart.Later.ne⟩
  rcases course.ends_well straight compiled valid.start enough with ⟨stop, fault, rfl⟩ | whole
  · exact .inl ⟨fault, (result _).mpr rfl⟩
  · obtain ⟨stride, last, terminal, -⟩ := course.completes valid whole
    obtain ⟨found, _, _, settles⟩ := course.settles_of_mem valid (List.mem_of_getLast? last)
    cases ending with
    | capped | failed => cases whole
    | completed output gathered =>
      refine .inr ⟨_, stride.visited.entry, stride.node, course.run_result, ?_,
        settles.entry.2.1 ▸ found, terminal⟩
      change final.trace.getLast? = _
      simp [course.trace valid, last]

end

/-! A complaint is taken down and judged, and answered at once or after an apology. -/

def complaint : List NodeSpec := [
  { id := "answer" },
  { id := "judge", connections := [("grave", "apologise"), ("slight", "answer")] },
  { id := "apologise", connections := [(defaultLabel, "answer")] },
  { id := "take", schema := some ⟨"Complaint", [{ name := "text", type := .string }]⟩,
    connections := [(defaultLabel, "judge")] }]

namespace Complaint

def flowchart : Flowchart where
  nodes := [
    .unstructured "answer" "" [] .plain,
    .unstructured "judge" "" [⟨"grave", "apologise"⟩, ⟨"slight", "answer"⟩] .decision,
    .unstructured "apologise" "" [⟨defaultLabel, "answer"⟩] .plain,
    { Node.unstructured "take" "" [⟨defaultLabel, "judge"⟩] .extraction with
      schema := some ⟨"Complaint", [{ name := "text", type := .string }]⟩ }]
  start := "take"

def engine : Engine := { flowchart, config := { maxSteps := 4 } }

theorem compiles : Flowchart.compile complaint = .ok engine.flowchart := by
  simp only [Flowchart.compile, bind_ok_iff]
  refine ⟨(), rfl, (), rfl, _, rfl, _, rfl, _, rfl, (), rfl, (), ?_, (), rfl, rfl⟩
  exact Flowchart.checkCycles_of_order ["take", "judge", "apologise", "answer"] (by decide)

theorem straight : flowchart.Straight := by
  intro node member iterator field
  simp only [flowchart, List.mem_cons, List.not_mem_nil, or_false] at member
  rcases member with rfl | rfl | rfl | rfl <;> exact nofun

def client : Client := fun _ request =>
  match request.mode with
  | .decision _ => { content := .ok (.decision "unclear" "") }
  | .structured _ => { content := .ok (.structured (.obj [("text", .str "late")])) }
  | .text => { content := .ok (.text "Sorry") }

end Complaint

/-- The limit is just enough for the complaint that passes every node. -/
theorem complaint_completes :
    Flowchart.compile complaint = .ok Complaint.engine.flowchart ∧
    Complaint.engine.flowchart.Straight ∧
    Complaint.engine.flowchart.size = Complaint.engine.config.maxSteps ∧
    (Complaint.engine.run Complaint.client RollCall.stamp "").record.traversal.map (·.node) =
      ["take", "judge", "apologise", "answer"] ∧
    ["take", "judge", "apologise", "answer"].Pairwise Complaint.flowchart.Later := by
  have path : (Complaint.engine.run Complaint.client RollCall.stamp "").record.traversal.map
      (·.node) = ["take", "judge", "apologise", "answer"] := by rfl
  obtain ⟨-, ending, -, -, later, -⟩ := straight_runs_complete Complaint.compiles
    Complaint.straight (Nat.le_refl 4) Complaint.client RollCall.stamp ""
  rw [path] at later
  exact ⟨Complaint.compiles, Complaint.straight, rfl, path, (List.pairwise_append.mp later).1⟩

end Colloquy
