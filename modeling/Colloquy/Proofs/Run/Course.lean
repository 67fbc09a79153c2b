import Colloquy.Proofs.Run.Faults
import Colloquy.Proofs.Run.Settling

/-!
The course of a run with its client: the strides it takes, where and how it ends, and what it
leaves behind. Where a walk is whatever some answers allow, a course is what the client's own
answers lead to.
-/

namespace Colloquy

/-- How a run ends: at a node that it may not visit any more, at one whose visit fails, or with an
output. -/
inductive Ending where
  | capped (stop : NodeId)
  | failed (stop : NodeId) (error : RunError)
  | completed (output : Output) (state : RunState)

namespace Ending

def result (limit : Nat) : Ending → Except RunError (Output × RunState)
  | capped _ => .error (.configuration (.stepLimit limit))
  | failed _ error => .error error
  | completed output state => .ok (output, state)

def stop? : Ending → Option NodeId
  | capped stop => some stop
  | failed stop _ => some stop
  | completed _ _ => none

end Ending

namespace Engine

def capNotice (engine : Engine) (runId : RunId) (stop : NodeId) : Diagnostic :=
  ⟨Event.stepLimitScope,
    s!"run {runId.text} stopped at '{stop}' after {engine.config.maxSteps} visits"⟩

/-- From a node on, with so many visits left and so much left behind, the client's answers lead
along these strides to this ending and leave behind this. -/
inductive Course (engine : Engine) (client : Client) (runId : RunId) :
    Nat → NodeId → RunState → Journal → List Stride → Ending → Journal → Prop
  | capped {stop : NodeId} {state : RunState} {journal : Journal} :
      Course engine client runId 0 stop state journal [] (.capped stop)
        (journal.emit [.diagnostic (engine.capNotice runId stop)])
  | failed {remaining : Nat} {node : Node} {state : RunState} {journal after : Journal}
      {error : RunError} (found : engine.flowchart.node? node.id = some node)
      (settled : engine.settle client node.id journal
        (engine.visit node journal.trace.length state) = (after, .error error)) :
      Course engine client runId (remaining + 1) node.id state journal [] (.failed node.id error)
        after
  | completed {remaining : Nat} {node : Node} {state : RunState} {journal after : Journal}
      {visited : Visited} {output : Output} (found : engine.flowchart.node? node.id = some node)
      (settled : engine.settle client node.id journal
        (engine.visit node journal.trace.length state) = (after, .ok visited))
      (last : visited.next = .finish output) :
      Course engine client runId (remaining + 1) node.id state journal [⟨node, state, visited⟩]
        (.completed output visited.state) (after.visited visited)
  | step {remaining : Nat} {node : Node} {next : NodeId} {state : RunState}
      {journal after final : Journal} {visited : Visited} {strides : List Stride} {ending : Ending}
      (found : engine.flowchart.node? node.id = some node)
      (settled : engine.settle client node.id journal
        (engine.visit node journal.trace.length state) = (after, .ok visited))
      (leads : visited.next = .node next)
      (rest : Course engine client runId remaining next visited.state (after.visited visited)
        strides ending final) :
      Course engine client runId (remaining + 1) node.id state journal
        (⟨node, state, visited⟩ :: strides) ending final

section

variable {engine : Engine} {client : Client} {runId : RunId}

theorem takes_of_settled {node : Node} {state : RunState} {journal after : Journal}
    {visited : Visited} (found : engine.flowchart.node? node.id = some node)
    (settled : engine.settle client node.id journal
      (engine.visit node journal.trace.length state) = (after, .ok visited)) :
    engine.Takes ⟨node, state, visited⟩ := by
  have yields := engine.settle_yields client node.id journal
    (engine.visit node journal.trace.length state)
  rw [settled] at yields
  exact ⟨found, _, yields⟩

theorem drive_course (valid : engine.flowchart.Valid) (client : Client) (runId : RunId)
    (remaining : Nat) {current : NodeId} (state : RunState) (journal : Journal)
    (inside : current ∈ engine.flowchart.ids) :
    ∃ ending, engine.Course client runId remaining current state journal
        (engine.stridesFrom client remaining current state journal) ending
        (engine.drive client runId remaining current state journal).1 ∧
      (engine.drive client runId remaining current state journal).2 =
        ending.result engine.config.maxSteps := by
  induction remaining generalizing current state journal with
  | zero => exact ⟨.capped current, .capped, rfl⟩
  | succ remaining ih =>
    obtain ⟨node, member, rfl⟩ := List.mem_map.mp inside
    have found := (Flowchart.node_some_iff valid.ids).mpr ⟨member, rfl⟩
    rw [drive, stridesFrom, found]
    dsimp only
    rcases settled : engine.settle client node.id journal
      (engine.visit node journal.trace.length state) with ⟨after, error | visited⟩
    · exact ⟨.failed node.id error, .failed found settled, rfl⟩
    · dsimp only
      cases leads : visited.next with
      | finish output =>
        exact ⟨.completed output visited.state, .completed found settled leads, rfl⟩
      | node next =>
        have onwards := (takes_of_settled found settled).leads_inside valid leads
        obtain ⟨ending, rest, result⟩ := ih visited.state (after.visited visited) onwards
        exact ⟨ending, .step found settled leads rest, result⟩

theorem run_error_iff (client : Client) (stamp : RunStamp) (input : String) {error : RunError} :
    (engine.run client stamp input).result = .error error ↔
      (engine.drive client stamp.runId engine.config.maxSteps engine.flowchart.start
        { input } {}).2 = .error error := by
  rw [run]
  generalize engine.drive client stamp.runId engine.config.maxSteps engine.flowchart.start
    { input } {} = driven
  obtain ⟨journal, refused | ending⟩ := driven <;> simp [Except.map]

theorem run_course (valid : engine.flowchart.Valid) (client : Client) (stamp : RunStamp)
    (input : String) :
    ∃ ending final,
      engine.Course client stamp.runId engine.config.maxSteps engine.flowchart.start { input } {}
        (engine.strides client input) ending final ∧
      (engine.run client stamp input).requests = final.requests ∧
      ∀ error, (engine.run client stamp input).result = .error error ↔
        ending.result engine.config.maxSteps = .error error := by
  obtain ⟨ending, course, result⟩ := engine.drive_course valid client stamp.runId
    engine.config.maxSteps { input } {} valid.start
  refine ⟨ending, _, course, rfl, ?_⟩
  intro error
  rw [run_error_iff, result]

end

end Engine

def RunState.outcome (state : RunState) (runId : RunId) (output : Output) (trace : Trace) :
    Outcome where
  runId
  output
  extracted := state.extracted
  decisions := state.decisions
  reasoning := state.reasoning
  trace

namespace Engine

/-- A course is what the program does. -/
theorem Course.drive_eq {engine : Engine} {client : Client} {runId : RunId} {remaining : Nat}
    {current : NodeId} {state : RunState} {journal final : Journal} {strides : List Stride}
    {ending : Ending}
    (course : engine.Course client runId remaining current state journal strides ending final) :
    engine.drive client runId remaining current state journal =
      (final, ending.result engine.config.maxSteps) := by
  induction course with
  | capped => rfl
  | failed found settled => simp only [drive, found, settled]; rfl
  | completed found settled last => simp only [drive, found, settled, last]; rfl
  | step found settled leads rest ih => simp only [drive, found, settled, leads, ih]

section

variable {engine : Engine} {client : Client} {stamp : RunStamp} {input : String}
  {strides : List Stride} {ending : Ending} {final : Journal}

theorem Course.run_result (course : engine.Course client stamp.runId engine.config.maxSteps
      engine.flowchart.start { input } {} strides ending final) :
    (engine.run client stamp input).result = (ending.result engine.config.maxSteps).map
      fun (output, state) => state.outcome stamp.runId output final.trace := by
  rw [run, course.drive_eq]
  rfl

theorem Course.completed_of_ok (course : engine.Course client stamp.runId engine.config.maxSteps
      engine.flowchart.start { input } {} strides ending final) {outcome : Outcome}
    (completed : (engine.run client stamp input).result = .ok outcome) :
    ∃ output gathered, ending = .completed output gathered ∧
      outcome = gathered.outcome stamp.runId output final.trace := by
  rw [course.run_result] at completed
  cases ending with
  | capped | failed => cases completed
  | completed output gathered =>
    cases completed
    exact ⟨output, gathered, rfl, rfl⟩

theorem Course.run_traversal (course : engine.Course client stamp.runId engine.config.maxSteps
      engine.flowchart.start { input } {} strides ending final) :
    (engine.run client stamp input).record.traversal = final.trace := by
  rw [run, course.drive_eq]

theorem Course.run_requests (course : engine.Course client stamp.runId engine.config.maxSteps
      engine.flowchart.start { input } {} strides ending final) :
    (engine.run client stamp input).requests = final.requests := by
  rw [run, course.drive_eq]

theorem Course.run_events (course : engine.Course client stamp.runId engine.config.maxSteps
      engine.flowchart.start { input } {} strides ending final) :
    (engine.run client stamp input).events = final.events ++
      (failureNotices stamp.runId (engine.run client stamp input).result).map .diagnostic ++
      [.audit (engine.run client stamp input).record] := by
  rw [run, course.drive_eq]
  cases ending <;> rfl

end

namespace Course

variable {engine : Engine} {client : Client} {runId : RunId} {remaining : Nat} {current : NodeId}
  {state : RunState} {journal final : Journal} {strides : List Stride} {ending : Ending}

theorem settles (valid : engine.flowchart.Valid)
    (course : engine.Course client runId remaining current state journal strides ending final) :
    ∀ earlier stride later, strides = earlier ++ stride :: later →
      engine.flowchart.node? stride.node.id = some stride.node ∧
      Settles engine client
        (journal.requests ++ (earlier.map (·.visited.entry)).filterMap engine.request?)
        (journal.trace.length + earlier.length) stride.node stride.before stride.visited := by
  induction course with
  | capped | failed => simp
  | completed found settled last =>
    obtain ⟨settles, -⟩ := settle_ok valid found settled
    exact forall_place_cons ⟨found, by simpa using settles⟩ (by simp)
  | step found settled leads rest ih =>
    obtain ⟨settles, rfl⟩ := settle_ok valid found settled
    refine forall_place_cons ⟨found, by simpa using settles⟩ ?_
    intro earlier stride later split
    obtain ⟨known, further⟩ := ih earlier stride later split
    refine ⟨known, ?_⟩
    simpa [Journal.asked_trace, Journal.asked_requests, filterMap_cons_toList, Nat.add_assoc,
      Nat.add_comm 1] using further

theorem settles_of_mem (valid : engine.flowchart.Valid)
    (course : engine.Course client runId remaining current state journal strides ending final)
    {stride : Stride} (taken : stride ∈ strides) :
    engine.flowchart.node? stride.node.id = some stride.node ∧ ∃ earlier step,
      Settles engine client earlier step stride.node stride.before stride.visited := by
  obtain ⟨earlier, later, split⟩ := List.append_of_mem taken
  obtain ⟨found, settles⟩ := course.settles valid earlier stride later split
  exact ⟨found, _, _, settles⟩

theorem trace (valid : engine.flowchart.Valid)
    (course : engine.Course client runId remaining current state journal strides ending final) :
    final.trace = journal.trace ++ strides.map (·.visited.entry) := by
  induction course with
  | capped => simp [Journal.emit]
  | failed found settled =>
    obtain ⟨sent, -, rfl⟩ := settle_error valid found settled
    rw [Journal.asked_trace, List.map_nil, List.append_nil]
  | completed found settled last =>
    obtain ⟨-, rfl⟩ := settle_ok valid found settled
    simp [Journal.asked_trace]
  | step found settled leads rest ih =>
    obtain ⟨-, rfl⟩ := settle_ok valid found settled
    simp [Journal.asked_trace, ih]

theorem length_of_capped
    (course : engine.Course client runId remaining current state journal strides ending final)
    {stop : NodeId} (capped : ending = .capped stop) : strides.length = remaining := by
  induction course with
  | capped => rfl
  | failed | completed => cases capped
  | step _ _ _ _ ih => rw [List.length_cons, ih capped]

theorem capped_of_limit (valid : engine.flowchart.Valid)
    (course : engine.Course client runId remaining current state journal strides ending final)
    {limit : Nat}
    (limited : ending.result engine.config.maxSteps = .error (.configuration (.stepLimit limit))) :
    ∃ stop, ending = .capped stop := by
  induction course with
  | capped => exact ⟨_, rfl⟩
  | completed => cases limited
  | step _ _ _ _ ih => exact ih limited
  | failed found settled =>
    cases limited
    have member := List.mem_of_find?_eq_some found
    obtain ⟨sent, fails, -⟩ := settle_error valid found settled
    cases fails with
    | refused refuses =>
      cases refuses with
      | entering _ enters => cases enters
      | advancing _ advances => cases advances
      | prompting _ failed =>
        obtain ⟨name, -, other⟩ := valid.unbuilt member failed
        cases other

end Course

end Engine

end Colloquy
