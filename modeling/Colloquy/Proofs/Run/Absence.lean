import Colloquy.Proofs.Run.Alike
import Colloquy.Proofs.Run.Guards

/-!
Null and absence are the same to a run, but for one thing: a loop start takes up the most recent
value that has its field, and null is a value. Two runs whose clients differ in nothing but optional
fields answered with null or left out go together until one of them finds null there.
-/

namespace Colloquy

/-- What a run shows of itself: the requests that it sends, the visits that go well, and the error
that it fails with, unless it completes. -/
structure Showing where
  requests : List Request
  trace : Trace
  failure : Option RunError

def failure? {α : Type} : Except RunError α → Option RunError
  | .ok _ => none
  | .error error => some error

def Showing.ofDriven {α : Type} (driven : Journal × Except RunError α) : Showing :=
  ⟨driven.1.requests, driven.1.trace, failure? driven.2⟩

def Transcript.showing (transcript : Transcript) : Showing :=
  ⟨transcript.requests, transcript.record.traversal, failure? transcript.result⟩

namespace Showing

def path (showing : Showing) : List NodeId := showing.trace.map (·.node)

structure Agrees (showing other : Showing) : Prop where
  requests : showing.requests = other.requests
  path : showing.path = other.path
  failure : showing.failure = other.failure

structure StopsAtNull (flowchart : Flowchart) (input : String) (start : Node) (field : String)
    (showing : Showing) : Prop where
  member : start ∈ flowchart.nodes
  loops : ∃ iterator, start.kind = .loopStart iterator field
  null : (flowchart.replay input showing.trace).extracted.findField? field = some .null
  fails : showing.failure = some (.configuration (.collectionNotSequence start.id field))

/-- One run stops at null. The other has come there the same way and finds no value that has the
field, or goes on with an older one. -/
inductive Parts (flowchart : Flowchart) (input : String) (showing other : Showing) : Prop
  | missing {start : Node} {field : String}
      (stops : showing.StopsAtNull flowchart input start field)
      (absent : (flowchart.replay input other.trace).extracted.findField? field = none)
      (fails : other.failure = some (.configuration (.missingCollection start.id field)))
      (path : showing.path = other.path) (requests : showing.requests = other.requests)
  | onwards {start : Node} {field : String} {before after : Trace} {entry : TraceEntry}
      {texts : List String} (stops : showing.StopsAtNull flowchart input start field)
      (split : other.trace = before ++ entry :: after) (comes : entry.node = start.id)
      (sequence : ((flowchart.replay input before).extracted.findField? field).bind
        LoopScope.elements? = some texts)
      (path : showing.path = before.map (·.node)) (requests : showing.requests <+: other.requests)

inductive Compares (flowchart : Flowchart) (input : String) (showing other : Showing) : Prop
  | agree (agrees : showing.Agrees other)
  | here (parts : showing.Parts flowchart input other)
  | there (parts : other.Parts flowchart input showing)

variable {flowchart : Flowchart} {input : String} {showing other : Showing}

theorem Agrees.symm (agrees : showing.Agrees other) : other.Agrees showing :=
  ⟨agrees.requests.symm, agrees.path.symm, agrees.failure.symm⟩

theorem Parts.stops (parts : Parts flowchart input showing other) :
    ∃ start field, showing.StopsAtNull flowchart input start field := by
  cases parts with
  | missing stops | onwards stops => exact ⟨_, _, stops⟩

theorem Parts.not_agrees (parts : Parts flowchart input showing other) :
    ¬ showing.Agrees other := by
  intro agrees
  cases parts with
  | missing stops _ fails =>
    have same := stops.fails.symm.trans (agrees.failure.trans fails)
    cases same
  | onwards _ split _ _ path =>
    have longer := congrArg List.length (path.symm.trans agrees.path)
    simp [Showing.path, split] at longer

end Showing

/-- Two runs that have come the same way, each with what its own entries tell. -/
structure Abreast (flowchart : Flowchart) (input : String) (state other : RunState)
    (journal twin : Journal) : Prop where
  states : state.Alike other
  told : state = flowchart.replay input journal.trace
  tells : other = flowchart.replay input twin.trace
  path : journal.trace.map (·.node) = twin.trace.map (·.node)
  requests : journal.requests = twin.requests

theorem Flowchart.replay_concat (flowchart : Flowchart) (input : String) (trace : Trace)
    (entry : TraceEntry) : flowchart.replay input (trace ++ [entry]) =
      (flowchart.replay input trace).after flowchart entry := by
  simp [replay]

namespace Engine

variable {engine : Engine}

theorem settle_requests (client : Client) (id : NodeId) (journal : Journal) (visit : Visit) :
    journal.requests <+: (engine.settle client id journal visit).1.requests := by
  cases visit with
  | failed | passed => exact List.prefix_rfl
  | asked request => exact List.prefix_append _ _

theorem drive_requests (client : Client) (runId : RunId) (remaining : Nat) (current : NodeId)
    (state : RunState) (journal : Journal) :
    journal.requests <+:
      (engine.drive client runId remaining current state journal).1.requests := by
  induction remaining generalizing current state journal with
  | zero => exact List.prefix_rfl
  | succ remaining ih =>
    rw [drive]
    cases engine.flowchart.node? current with
    | none => exact List.prefix_rfl
    | some node =>
      dsimp only
      have sent := engine.settle_requests client node.id journal
        (engine.visit node journal.trace.length state)
      generalize engine.settle client node.id journal
        (engine.visit node journal.trace.length state) = settled at sent
      obtain ⟨after, error | visited⟩ := settled
      · exact sent
      · dsimp only at sent ⊢
        cases visited.next with
        | finish output => exact sent
        | node next => exact sent.trans (ih next visited.state (after.visited visited))

theorem drive_of_failed {client : Client} {runId : RunId} {remaining : Nat} {node : Node}
    {state : RunState} {journal : Journal} {error : ConfigError}
    (found : engine.flowchart.node? node.id = some node)
    (failed : engine.visit node journal.trace.length state = .failed error) :
    engine.drive client runId (remaining + 1) node.id state journal =
      (journal, .error (.configuration error)) := by
  simp only [drive, found, failed, settle]

theorem drive_of_passed {client : Client} {runId : RunId} {remaining : Nat} {node : Node}
    {state : RunState} {journal : Journal} {visited : Visited} {next : NodeId}
    (found : engine.flowchart.node? node.id = some node)
    (passed : engine.visit node journal.trace.length state = .passed visited)
    (leads : visited.next = .node next) :
    engine.drive client runId (remaining + 1) node.id state journal =
      engine.drive client runId remaining next visited.state (journal.visited visited) := by
  simp only [drive, found, passed, settle, leads]

end Engine

namespace Abreast

variable {engine : Engine} {client twin : Client} {runId later : RunId} {node : Node}
  {input : String} {state other : RunState} {journal behind : Journal}

theorem symm (abreast : Abreast engine.flowchart input state other journal behind) :
    Abreast engine.flowchart input other state behind journal :=
  ⟨abreast.states.symm, abreast.tells, abreast.told, abreast.path.symm, abreast.requests.symm⟩

theorem length_eq (abreast : Abreast engine.flowchart input state other journal behind) :
    journal.trace.length = behind.trace.length := by
  simpa using congrArg List.length abreast.path

theorem parts {remaining : Nat} {field : String} (valid : engine.flowchart.Valid)
    (abreast : Abreast engine.flowchart input state other journal behind)
    (found : engine.flowchart.node? node.id = some node)
    (stumbles : Stumbles node field state other) :
    (Showing.ofDriven (engine.drive client runId (remaining + 1) node.id state journal)).Parts
      engine.flowchart input
      (.ofDriven (engine.drive twin later (remaining + 1) node.id other behind)) := by
  have member := List.mem_of_find?_eq_some found
  have stops : Showing.StopsAtNull engine.flowchart input node field ⟨journal.requests,
      journal.trace, some (.configuration (.collectionNotSequence node.id field))⟩ :=
    ⟨member, stumbles.loops, abreast.told ▸ stumbles.null, rfl⟩
  rw [Engine.drive_of_failed found (stumbles.visit_eq engine journal.trace.length)]
  rcases stumbles.visit_other valid member abreast.states.scopes behind.trace.length with
    ⟨absent, failed⟩ | ⟨texts, visited, next, sequence, passed, comes, leads⟩
  · rw [Engine.drive_of_failed found failed]
    exact .missing stops (abreast.tells ▸ absent) rfl abreast.path abreast.requests
  · rw [Engine.drive_of_passed found passed leads]
    have trace := engine.drive_trace twin later remaining next visited.state
      (behind.visited visited)
    rw [Journal.visited_trace, List.append_assoc] at trace
    have requests := engine.drive_requests twin later remaining next visited.state
      (behind.visited visited)
    rw [Journal.visited_requests, ← abreast.requests] at requests
    exact .onwards stops trace comes (abreast.tells ▸ sequence) abreast.path requests

theorem settle (clients : client.Alike twin)
    (abreast : Abreast engine.flowchart input state other journal behind)
    (visits : (engine.visit node journal.trace.length state).Alike
      (engine.visit node behind.trace.length other)) :
    let here := engine.settle client node.id journal (engine.visit node journal.trace.length state)
    let there := engine.settle twin node.id behind (engine.visit node behind.trace.length other)
    here.1.requests = there.1.requests ∧
      here.1.trace.map (·.node) = there.1.trace.map (·.node) ∧ ResultsAlike here.2 there.2 := by
  obtain ⟨requests, results⟩ := engine.settle_alike clients visits node.id abreast.requests
  refine ⟨requests, ?_, results⟩
  rw [Engine.settle_trace, Engine.settle_trace, abreast.path]

theorem onwards (valid : engine.flowchart.Valid)
    (abreast : Abreast engine.flowchart input state other journal behind)
    (found : engine.flowchart.node? node.id = some node) {visited gone : Visited}
    {after beyond : Journal} (alike : visited.Alike gone)
    (requests : after.requests = beyond.requests)
    (settled : engine.settle client node.id journal
      (engine.visit node journal.trace.length state) = (after, .ok visited))
    (follows : engine.settle twin node.id behind
      (engine.visit node behind.trace.length other) = (beyond, .ok gone)) :
    Abreast engine.flowchart input visited.state gone.state (after.visited visited)
      (beyond.visited gone) := by
  obtain ⟨settles, rfl⟩ := Engine.settle_ok valid found settled
  obtain ⟨tracks, rfl⟩ := Engine.settle_ok valid found follows
  exact {
    states := alike.state
    told := by
      rw [settles.replayed found, Journal.visited_trace, Flowchart.replay_concat, abreast.told]
      rfl
    tells := by
      rw [tracks.replayed found, Journal.visited_trace, Flowchart.replay_concat, abreast.tells]
      rfl
    path := by simp [Journal.asked_trace, abreast.path, alike.node]
    requests := requests }

/-- Runs that are abreast agree in the end, unless they part where one of them stumbles. -/
theorem drive (valid : engine.flowchart.Valid) (clients : client.Alike twin)
    (runId later : RunId) (remaining : Nat) (current : NodeId)
    (abreast : Abreast engine.flowchart input state other journal behind) :
    Showing.Compares engine.flowchart input
      (.ofDriven (engine.drive client runId remaining current state journal))
      (.ofDriven (engine.drive twin later remaining current other behind)) := by
  -- Until one of them stumbles both make the same visits, so they run out of them together.
  induction remaining generalizing current state other journal behind with
  | zero => exact .agree ⟨abreast.requests, abreast.path, rfl⟩
  | succ remaining ih =>
    cases found : engine.flowchart.node? current with
    | none =>
      have last : journal.trace.getLast?.map (·.node) = behind.trace.getLast?.map (·.node) := by
        rw [← List.getLast?_map, ← List.getLast?_map, abreast.path]
      simp only [Engine.drive, found, last]
      exact .agree ⟨abreast.requests, abreast.path, rfl⟩
    | some node =>
      obtain ⟨member, rfl⟩ := (Flowchart.node_some_iff valid.ids).mp found
      have visits := engine.visit_alike journal.trace.length (valid.decision_continues member)
        abreast.states
      nth_rewrite 2 [abreast.length_eq] at visits
      rcases visits with visits | ⟨field, stumbles | stumbles⟩
      · obtain ⟨requests, path, results⟩ := abreast.settle clients visits
        rcases settled : engine.settle client node.id journal
          (engine.visit node journal.trace.length state) with ⟨after, result⟩
        rcases follows : engine.settle twin node.id behind
          (engine.visit node behind.trace.length other) with ⟨beyond, outcome⟩
        rw [settled, follows] at requests path results
        simp only [Engine.drive, found, settled, follows]
        cases results with
        | error error => exact .agree ⟨requests, path, rfl⟩
        | @ok visited gone alike =>
          have onwards := abreast.onwards valid found alike requests settled follows
          have together := alike.next
          dsimp only
          generalize visited.next = leads at together
          generalize gone.next = heads at together
          cases together with
          | node next => exact ih next onwards
          | finish => exact .agree ⟨onwards.requests, onwards.path, rfl⟩
      · exact .here (abreast.parts valid found stumbles)
      · exact .there (abreast.symm.parts valid found stumbles)

end Abreast

theorem Engine.run_showing (engine : Engine) (client : Client) (stamp : RunStamp) (input : String) :
    (engine.run client stamp input).showing = .ofDriven (engine.drive client stamp.runId
      engine.config.maxSteps engine.flowchart.start { input } {}) := by
  unfold run
  generalize engine.drive client stamp.runId engine.config.maxSteps engine.flowchart.start
    { input } {} = driven
  obtain ⟨journal, error | ending⟩ := driven <;> rfl

def Flowchart.Requires (flowchart : Flowchart) (field : String) : Prop :=
  ∀ node ∈ flowchart.nodes, ∀ schema, node.schema = some schema →
    ∀ declared, schema.field? field = some declared → declared.required = true

theorem FieldType.null_violates (type : FieldType) : type.violation? .null ≠ none := by
  cases type <;> simp [violation?]

theorem Flowchart.Requires.not_null {flowchart : Flowchart} {field : String}
    (requires : flowchart.Requires field) {extractions : Extractions}
    (checked : ∀ told ∈ extractions.log, flowchart.Checked told) :
    extractions.findField? field ≠ some .null := by
  intro found
  obtain ⟨earlier, told, later, split, got, -⟩ := Extractions.findField_some_iff.mp found
  have passed := checked told (by simp [split])
  obtain ⟨declared, asks, rfl, passes⟩ := passed.declares got
  obtain ⟨node, known, schema, -⟩ := passed
  have required := requires node (List.mem_of_find?_eq_some known) _ schema declared asks
  obtain ⟨value, held, fits⟩ := passes.of_required required
  cases got.symm.trans held
  exact declared.type.null_violates fits

section

variable {engine : Engine} {specs : List NodeSpec}

theorem Engine.run_not_stopsAtNull (valid : engine.flowchart.Valid) (client : Client)
    (stamp : RunStamp) (input : String)
    (requires : ∀ node ∈ engine.flowchart.nodes, ∀ iterator field,
      node.kind = .loopStart iterator field → engine.flowchart.Requires field)
    (start : Node) (field : String) :
    ¬ (engine.run client stamp input).showing.StopsAtNull engine.flowchart input start field := by
  intro stops
  obtain ⟨iterator, kind⟩ := stops.loops
  obtain ⟨ending, final, course, -⟩ := Engine.run_course valid client stamp input
  have checked := course.checked_before valid _ [] (List.append_nil _).symm
  rw [← engine.run_trace client stamp input] at checked
  exact (requires start stops.member iterator field kind).not_null checked stops.null

/-- Clients that differ only in optional fields, which one answers with null and the other leaves
out, make for runs that agree, unless a loop start finds null in the one run where the other finds
nothing, or an older sequence. That does not happen if no loop is over an optional field. -/
theorem runs_part_at_null_only (compiled : Flowchart.compile specs = .ok engine.flowchart)
    {client other : Client} (alike : client.Alike other) (stamp later : RunStamp)
    (input : String) :
    let here := (engine.run client stamp input).showing
    let there := (engine.run other later input).showing
    (here.Agrees there ↔ ¬ here.Parts engine.flowchart input there ∧
      ¬ there.Parts engine.flowchart input here) ∧
    ((∀ node ∈ engine.flowchart.nodes, ∀ iterator field,
      node.kind = .loopStart iterator field → engine.flowchart.Requires field) →
      here.Agrees there) := by
  intro here there
  have valid := compile_valid compiled
  have abreast : Abreast engine.flowchart input { input } { input } {} {} :=
    ⟨⟨rfl, .nil, rfl, rfl, rfl⟩, rfl, rfl, rfl, rfl⟩
  have either : here.Compares engine.flowchart input there := by
    have driven := abreast.drive valid alike stamp.runId later.runId engine.config.maxSteps
      engine.flowchart.start
    rwa [← Engine.run_showing, ← Engine.run_showing] at driven
  refine ⟨⟨?_, ?_⟩, ?_⟩
  · intro agrees
    exact ⟨fun parts => parts.not_agrees agrees, fun parts => parts.not_agrees agrees.symm⟩
  · rintro ⟨neither, nor⟩
    cases either with
    | agree agrees => exact agrees
    | here parts => exact absurd parts neither
    | there parts => exact absurd parts nor
  · intro requires
    cases either with
    | agree agrees => exact agrees
    | here parts =>
      obtain ⟨start, field, stops⟩ := parts.stops
      exact absurd stops (Engine.run_not_stopsAtNull valid client stamp input requires start field)
    | there parts =>
      obtain ⟨start, field, stops⟩ := parts.stops
      exact absurd stops (Engine.run_not_stopsAtNull valid other later input requires start field)

end

/-! Wishes are noted, read over, and granted one by one. Reading over either changes the wishes, or,
where remarks are kept apart, leaves them as they are. -/

def wishes (apart : Bool) : Schema :=
  ⟨"Wishes", [{ name := "wishes", type := .array .string, required := apart }]⟩

def changes (apart : Bool) : Schema :=
  let name := if apart then "remarks" else "wishes"
  ⟨"Changes", [{ name, type := .array .string, required := false }]⟩

def wishList (apart : Bool) : List NodeSpec := [
  { id := "note", schema := some (wishes apart), connections := [(defaultLabel, "reread")] },
  { id := "reread", schema := some (changes apart), connections := [(defaultLabel, "each")] },
  { id := "each", iterator := some "wish", collection := some "wishes",
    connections := [(defaultLabel, "grant")] },
  { id := "grant", text := Template.hole "wish", connections := [(defaultLabel, "next")] },
  { id := "next", kind := some .loopContinue,
    connections := [(hasMoreLabel, "grant"), (completeLabel, "end")] },
  { id := "end" }]

namespace WishList

def flowchart (apart : Bool) : Flowchart where
  nodes := [
    { Node.unstructured "note" "" [⟨defaultLabel, "reread"⟩] .extraction with
      schema := some (wishes apart) },
    { Node.unstructured "reread" "" [⟨defaultLabel, "each"⟩] .extraction with
      schema := some (changes apart) },
    .unstructured "each" "" [⟨defaultLabel, "grant"⟩] (.loopStart "wish" "wishes"),
    .unstructured "grant" (Template.hole "wish") [⟨defaultLabel, "next"⟩] .plain,
    .unstructured "next" "" [⟨hasMoreLabel, "grant"⟩, ⟨completeLabel, "end"⟩]
      (.loopContinue "each"),
    .unstructured "end" "" [] .plain]
  start := "note"

def engine (apart : Bool) : Engine := { flowchart := flowchart apart }

theorem compiles (apart : Bool) :
    Flowchart.compile (wishList apart) = .ok (engine apart).flowchart := by
  simp only [Flowchart.compile, bind_ok_iff]
  refine ⟨(), rfl, (), rfl, _, rfl, _, rfl, _, rfl, (), rfl, (), ?_, (), rfl, rfl⟩
  exact Flowchart.checkCycles_of_order ["note", "reread", "each", "grant", "next", "end"]
    (by cases apart <;> decide)

theorem requires_wishes : ∀ node ∈ (flowchart true).nodes, ∀ iterator field,
    node.kind = .loopStart iterator field → (flowchart true).Requires field := by
  intro loop among iterator field kind node member schema declares declared asks
  have same : field = "wishes" := by
    simp only [flowchart, List.mem_cons, List.not_mem_nil, or_false] at among
    rcases among with rfl | rfl | rfl | rfl | rfl | rfl <;> cases kind
    rfl
  subst same
  simp only [flowchart, List.mem_cons, List.not_mem_nil, or_false] at member
  rcases member with rfl | rfl | rfl | rfl | rfl | rfl <;> cases declares <;> cases asks
  rfl

def client (noted : Members) (reread : String → Members) : Client := fun earlier request =>
  let response : Response := match request.mode, earlier with
    | .structured ⟨_, [⟨field, _, _, false⟩]⟩, _ :: _ => .structured (.obj (reread field))
    | .structured _, _ => .structured (.obj noted)
    | _, _ => .text "Done."
  { content := .ok response }

def striking (noted : Members) : Client := client noted fun field => [(field, .null)]

def silent (noted : Members) : Client := client noted fun _ => []

theorem striking_alike (noted : Members) : (striking noted).Alike (silent noted) := by
  intro earlier request
  unfold striking silent client
  split
  · rename_i asks
    rw [asks]
    refine .answered (.values rfl (.members ?_ ?_ ?_ ?_)) false
    all_goals simp [Members.get?, FieldOf.Waives, Schema.declares]
  · exact .answered (.same _) false
  · exact .answered (.same _) false

def showing (apart : Bool) (client : Client) : Showing :=
  ((engine apart).run client RollCall.stamp "").showing

def noted : Members := [("wishes", .arr [.str "tea"])]

end WishList

/-- Where a wish was noted, striking it out stops the run, and silence has it granted. Striking out
remarks makes no difference. -/
theorem silence_grants_older_wish :
    Flowchart.compile (wishList false) = .ok (WishList.engine false).flowchart ∧
    Flowchart.compile (wishList true) = .ok (WishList.engine true).flowchart ∧
    (WishList.striking WishList.noted).Alike (WishList.silent WishList.noted) ∧
    (WishList.showing false (WishList.striking WishList.noted)).Parts
      (WishList.engine false).flowchart ""
      (WishList.showing false (WishList.silent WishList.noted)) ∧
    (WishList.showing false (WishList.silent WishList.noted)).path =
      ["note", "reread", "each", "grant", "next", "end"] ∧
    (WishList.showing true (WishList.striking WishList.noted)).Agrees
      (WishList.showing true (WishList.silent WishList.noted)) := by
  have alike := WishList.striking_alike WishList.noted
  have completes : (WishList.showing false (WishList.silent WishList.noted)).failure = none := by
    rfl
  have decides := (runs_part_at_null_only (WishList.compiles false) alike RollCall.stamp
    RollCall.stamp "").1
  have agree := (runs_part_at_null_only (WishList.compiles true) alike RollCall.stamp
    RollCall.stamp "").2 WishList.requires_wishes
  refine ⟨WishList.compiles false, WishList.compiles true, alike, ?_, rfl, agree⟩
  by_contra neither
  have nor : ¬ (WishList.showing false (WishList.silent WishList.noted)).Parts
      (WishList.engine false).flowchart ""
      (WishList.showing false (WishList.striking WishList.noted)) := by
    intro parts
    obtain ⟨start, field, stops⟩ := parts.stops
    cases completes.symm.trans stops.fails
  cases (decides.mpr ⟨neither, nor⟩).failure

theorem struck_wishes_are_not_missing :
    Flowchart.compile (wishList false) = .ok (WishList.engine false).flowchart ∧
    (WishList.striking []).Alike (WishList.silent []) ∧
    (WishList.showing false (WishList.striking [])).failure =
      some (.configuration (.collectionNotSequence "each" "wishes")) ∧
    (WishList.showing false (WishList.silent [])).failure =
      some (.configuration (.missingCollection "each" "wishes")) ∧
    ¬ (WishList.showing false (WishList.striking [])).Agrees
      (WishList.showing false (WishList.silent [])) := by
  have struck : (WishList.showing false (WishList.striking [])).failure =
      some (.configuration (.collectionNotSequence "each" "wishes")) := by rfl
  have missing : (WishList.showing false (WishList.silent [])).failure =
      some (.configuration (.missingCollection "each" "wishes")) := by rfl
  refine ⟨WishList.compiles false, WishList.striking_alike [], struck, missing, ?_⟩
  intro agrees
  cases struck.symm.trans (agrees.failure.trans missing)

end Colloquy
