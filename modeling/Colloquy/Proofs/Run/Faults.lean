import Colloquy.Proofs.Flowchart.Valid
import Colloquy.Proofs.Run.Walk

/-!
What can be wrong with a run of a compiled flowchart, the model aside. Compiling has excluded all
other faults, so the checks that a run makes for them never fail.
-/

namespace Colloquy

/-- The faults that compiling does not exclude. -/
inductive Fault (engine : Engine) : ConfigError → Prop
  | unbound {node : Node} {name : String} (member : node ∈ engine.flowchart.nodes)
      (bound : name ∈ engine.flowchart.iterators) : Fault engine (.unboundVariable node.id name)
  | missing {node : Node} {iterator field : String} (member : node ∈ engine.flowchart.nodes)
      (kind : node.kind = .loopStart iterator field) :
      Fault engine (.missingCollection node.id field)
  | noSequence {node : Node} {iterator field : String} (member : node ∈ engine.flowchart.nodes)
      (kind : node.kind = .loopStart iterator field) :
      Fault engine (.collectionNotSequence node.id field)
  | outside {node : Node} {owner : NodeId} (member : node ∈ engine.flowchart.nodes)
      (kind : node.kind = .loopContinue owner) : Fault engine (.continueOutsideLoop node.id owner)
  | capped : Fault engine (.stepLimit engine.config.maxSteps)

theorem Template.substitute_error {value? : String → Option String} {segments : List Segment}
    {name : String} (refused : substitute value? segments = .error name) :
    name ∈ segments.filterMap Segment.name? ∧ value? name = none := by
  induction segments with
  | nil => cases refused
  | cons segment rest ih =>
    cases segment with
    | literal text =>
      rcases bind_error_iff.mp refused with later | ⟨_, -, ⟨⟩⟩
      simpa [Segment.name?] using ih later
    | placeholder hole =>
      rw [substitute] at refused
      split at refused
      · rename_i unbound
        cases refused
        exact ⟨by simp [Segment.name?], unbound⟩
      · rcases bind_error_iff.mp refused with later | ⟨_, -, ⟨⟩⟩
        obtain ⟨named, unbound⟩ := ih later
        exact ⟨by simp [Segment.name?, named], unbound⟩

theorem Prompt.build_error {framing : Framing} {node : Node} {scopes : List LoopScope}
    {extracted : Extractions} {input : String} {error : ConfigError} {names : List String}
    (proper : Template.placeholders node.template = some names)
    (failed : build framing node scopes extracted input = .error error) :
    ∃ name ∈ names, error = .unboundVariable node.id name ∧
      LoopScope.binding? scopes name = none := by
  obtain ⟨segments, split, rfl⟩ := Option.map_eq_some_iff.mp proper
  rcases bind_error_iff.mp failed with refused | ⟨_, -, ⟨⟩⟩
  rw [renderTemplate, split] at refused
  obtain ⟨name, missing, rfl⟩ := mapError_error_iff.mp refused
  obtain ⟨named, unbound⟩ := Template.substitute_error missing
  exact ⟨name, named, rfl, unbound⟩

namespace Flowchart.Valid

variable {flowchart : Flowchart} {node : Node}

theorem exists_firstTarget (valid : flowchart.Valid) (member : node ∈ flowchart.nodes)
    (needed : node.isTerminal = false ∨ ∃ iterator field, node.kind = .loopStart iterator field) :
    ∃ target ∈ flowchart.ids, node.firstTarget? = some target := by
  have continues : node.isTerminal = false := by
    rcases needed with continues | ⟨iterator, field, kind⟩
    · exact continues
    · exact valid.start_continues member kind
  obtain ⟨connection, declared, first⟩ := Node.exists_firstTarget continues
  exact ⟨_, valid.targets node member connection declared, first⟩

theorem exists_continueTarget (valid : flowchart.Valid) (member : node ∈ flowchart.nodes)
    {owner : NodeId} (kind : node.kind = .loopContinue owner) {label : String}
    (either : label = hasMoreLabel ∨ label = completeLabel) :
    ∃ target, node.target? label = some target := by
  have fits := valid.fits node member
  rw [kind] at fits
  apply Node.exists_target
  rw [fits.1.mem_iff]
  simpa using either

theorem exists_completeTarget (valid : flowchart.Valid) (member : node ∈ flowchart.nodes)
    {iterator field : String} (kind : node.kind = .loopStart iterator field) :
    ∃ target, (flowchart.closer? node.id).bind Node.completeTarget? = some target := by
  obtain ⟨closer, found⟩ := valid.closed node member iterator field kind
  obtain ⟨listed, closes⟩ := closer_some found
  rw [found]
  exact valid.exists_continueTarget listed closes (.inr rfl)

theorem unbuilt (valid : flowchart.Valid) (member : node ∈ flowchart.nodes) {framing : Framing}
    {scopes : List LoopScope} {extracted : Extractions} {input : String} {error : ConfigError}
    (failed : Prompt.build framing node scopes extracted input = .error error) :
    ∃ name ∈ flowchart.iterators, error = .unboundVariable node.id name := by
  obtain ⟨names, placeholders, bound⟩ := valid.templates node member
  obtain ⟨name, named, same, -⟩ := Prompt.build_error placeholders failed
  exact ⟨name, bound name named, same⟩

end Flowchart.Valid

section

variable {engine : Engine}

theorem Refuses.fault (valid : engine.flowchart.Valid) {node : Node} {state : RunState}
    {error : ConfigError} (member : node ∈ engine.flowchart.nodes)
    (refuses : Refuses engine node state error) : Fault engine error := by
  cases refuses with
  | entering kind enters =>
    cases enters with
    | missing => exact .missing member kind
    | noSequence => exact .noSequence member kind
    | unpaired alone =>
      obtain ⟨target, complete⟩ := valid.exists_completeTarget member kind
      rw [alone] at complete
      contradiction
  | advancing kind advances =>
    cases advances with
    | outside => exact .outside member kind
    | unlabelled either missing =>
      obtain ⟨target, labelled⟩ := valid.exists_continueTarget member kind either
      rw [missing] at labelled
      contradiction
  | prompting _ failed =>
    obtain ⟨name, bound, rfl⟩ := valid.unbuilt member failed
    exact .unbound member bound

theorem Engine.Takes.leads_inside (valid : engine.flowchart.Valid) {stride : Stride}
    (taken : engine.Takes stride) {next : NodeId} (leads : stride.visited.next = .node next) :
    next ∈ engine.flowchart.ids := by
  have member := taken.member
  cases taken.comes with
  | entered kind enters goes =>
    cases leads.symm.trans goes
    obtain ⟨target, inside, first⟩ := valid.exists_firstTarget member (.inr ⟨_, _, kind⟩)
    cases enters with
    | again | opens => rwa [first]
    | skips fresh found empty complete =>
      obtain ⟨closer, paired, labelled⟩ := Option.bind_eq_some_iff.mp complete
      exact valid.contains_target (Flowchart.closer_some paired).1 labelled
  | advanced kind advances goes =>
    cases leads.symm.trans goes
    cases advances with
    | repeats _ _ _ back => exact valid.contains_target member back
    | closes _ _ _ on => exact valid.contains_target member on
  | proceeded kind proceeds =>
    cases proceeds with
    | moves connection declared goes =>
      cases leads.symm.trans goes
      exact valid.targets stride.node member connection declared
    | ends output last => cases leads.symm.trans last

theorem Engine.drive_fault {client : Client} (valid : engine.flowchart.Valid) {runId : RunId}
    {remaining : Nat} {current : NodeId} {state : RunState} {journal : Journal} {error : ConfigError}
    (inside : current ∈ engine.flowchart.ids)
    (failed : (engine.drive client runId remaining current state journal).2 =
      .error (.configuration error)) : Fault engine error := by
  induction remaining generalizing current state journal with
  | zero =>
    cases failed
    exact .capped
  | succ remaining ih =>
    obtain ⟨node, member, rfl⟩ := List.mem_map.mp inside
    have found := (Flowchart.node_some_iff valid.ids).mpr ⟨member, rfl⟩
    have yields := engine.settle_yields client node.id journal
      (engine.visit node journal.trace.length state)
    rw [drive, found] at failed
    dsimp only at failed
    generalize engine.settle client node.id journal
      (engine.visit node journal.trace.length state) = settled at failed yields
    obtain ⟨after, refused | visited⟩ := settled
    · cases failed
      exact (visit_error yields).fault valid member
    · dsimp only at failed
      have taken : engine.Takes ⟨node, state, visited⟩ := ⟨found, _, yields⟩
      cases leads : visited.next with
      | finish output =>
        rw [leads] at failed
        cases failed
      | node next =>
        rw [leads] at failed
        exact ih (taken.leads_inside valid leads) failed

/-- The flowchart is at fault in a run in one of five ways only, and every node that is asked for
its first target has one. -/
theorem run_faults {specs : List NodeSpec}
    (compiled : Flowchart.compile specs = .ok engine.flowchart) (client : Client) (stamp : RunStamp)
    (input : String) :
    (∀ error, (engine.run client stamp input).result = .error (.configuration error) →
      Fault engine error) ∧
    ∀ node ∈ engine.flowchart.nodes,
      (node.isTerminal = false ∨ ∃ iterator field, node.kind = .loopStart iterator field) →
      ∃ target ∈ engine.flowchart.ids, node.firstTarget? = some target := by
  have valid := compile_valid compiled
  constructor
  · intro error failed
    exact Engine.drive_fault valid valid.start (engine.run_error client failed)
  · intro node member needed
    exact valid.exists_firstTarget member needed

end

theorem rollCall_unbound :
    Flowchart.compile rollCall = .ok RollCall.engine.flowchart ∧
    (RollCall.engine.run RollCall.client RollCall.stamp "").result =
      .error (.configuration (.unboundVariable "end" "name")) ∧
    Fault RollCall.engine (.unboundVariable "end" "name") := by
  have failed : (RollCall.engine.run RollCall.client RollCall.stamp "").result =
      .error (.configuration (.unboundVariable "end" "name")) := by rfl
  exact ⟨RollCall.compiles, failed,
    (run_faults RollCall.compiles RollCall.client RollCall.stamp "").1 _ failed⟩

end Colloquy
