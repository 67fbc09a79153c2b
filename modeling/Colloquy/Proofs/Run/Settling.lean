import Colloquy.Proofs.Flowchart.Valid
import Colloquy.Proofs.Run.Walk
import Colloquy.Proofs.Schema.Check

/-!
Visits in full. One account says all that a visit leaves when it goes well, and one all that it
leaves when it does not: what was asked, in the light of which earlier requests, and what came of
the answer.
-/

namespace Colloquy

/-- What a visit of the node asks of the model, if it asks at all. -/
def Node.mode? (node : Node) : Option Mode :=
  if node.kind.isLoop then none
  else if node.kind = .decision then some (.decision node.labels)
  else match node.schema with
    | some schema => some (.structured schema)
    | none => if node.isTerminal then some .text else none

inductive Node.Asks (node : Node) : Mode → Prop
  | label (kind : node.kind = .decision) : Asks node (.decision node.labels)
  | value {schema : Schema} (other : node.kind ≠ .decision) (declared : node.schema = some schema) :
      Asks node (.structured schema)
  | text (other : node.kind ≠ .decision) (last : node.isTerminal = true)
      (plain : node.schema = none) : Asks node .text

namespace Node

variable {node : Node}

theorem mode_eq_none_of_isLoop (kind : node.kind.isLoop = true) : node.mode? = none := by
  simp [mode?, kind]

theorem asks_of_mode {mode : Mode} (asks : node.mode? = some mode) : node.Asks mode := by
  unfold mode? at asks
  split at asks
  · cases asks
  split at asks
  · rename_i kind
    cases asks
    exact .label kind
  · rename_i other
    split at asks
    · rename_i schema declared
      cases asks
      exact .value other declared
    · rename_i plain
      split at asks
      · rename_i last
        cases asks
        exact .text other last plain
      · cases asks

end Node

def Node.entry (node : Node) (step : Nat) : TraceEntry :=
  { step, node := node.id, kind := node.kind.name }

def Node.framed (node : Node) (step : Nat) (prompt : Prompt) : TraceEntry :=
  { node.entry step with prompt := some prompt.nodePrompt, framedPrompt := some prompt.text }

def Engine.heed (node : Node) (framed : TraceEntry) (state : RunState) :
    Mode → Response → Except RunError Visited
  | .decision _ => decided node framed state
  | .structured schema =>
    if node.isTerminal then concluded node schema framed state
    else extracted node schema (node.firstTarget?.getD "") framed state
  | .text => replied node framed state

inductive Heeds (node : Node) (framed : TraceEntry) (state : RunState) : Response → Visited → Prop
  | decided {label reasoning : String} {connection : Connection} {notices : List Diagnostic}
      (kind : node.kind = .decision)
      (follows : Engine.followLabel node label = .ok (connection, notices)) :
      Heeds node framed state (.decision label reasoning) {
        entry := { framed with
          options := node.labels
          reasoning := some reasoning
          decision := some label
          decisionFallback := !notices.isEmpty
          nextNode := some connection.target }
        state := state.recordDecision node.id connection.label reasoning
        next := .node connection.target
        notices }
  | extracted {json : Json} {schema : Schema} {value : StructuredValue}
      (other : node.kind ≠ .decision) (continues : node.isTerminal = false)
      (declared : node.schema = some schema) (conforms : schema.validate json = .ok value) :
      Heeds node framed state (.structured json) {
        entry := { framed with
          extracted := some value.toJson
          nextNode := some (node.firstTarget?.getD "") }
        state := state.recordExtraction node.id value
        next := .node (node.firstTarget?.getD "") }
  | concluded {json : Json} {schema : Schema} {value : StructuredValue}
      (other : node.kind ≠ .decision) (last : node.isTerminal = true)
      (declared : node.schema = some schema) (conforms : schema.validate json = .ok value) :
      Heeds node framed state (.structured json) {
        entry := { framed with extracted := some value.toJson }
        state
        next := .finish (.structured value) }
  | replied {text : String} (other : node.kind ≠ .decision) (last : node.isTerminal = true)
      (plain : node.schema = none) :
      Heeds node framed state (.text text) { entry := framed, state, next := .finish (.text text) }

theorem Response.asDecision_ok {node : NodeId} {response : Response} {label reasoning : String}
    (fits : response.asDecision node = .ok (label, reasoning)) :
    response = .decision label reasoning := by
  cases response <;> cases fits
  rfl

theorem Response.asReply_ok {node : NodeId} {response : Response} {text : String}
    (fits : response.asReply node = .ok text) : response = .text text := by
  cases response <;> cases fits
  rfl

theorem Response.asValue_ok {node : NodeId} {schema : Schema} {response : Response}
    {value : StructuredValue} (fits : response.asValue node schema = .ok value) :
    ∃ json, response = .structured json ∧ schema.validate json = .ok value := by
  cases response with
  | structured json => exact ⟨json, rfl, mapError_ok_iff.mp fits⟩
  | text | decision => cases fits

namespace Engine

variable {node : Node} {framed : TraceEntry} {state : RunState} {mode : Mode}
  {response : Response}

theorem heed_ok {visited : Visited} (asks : node.Asks mode)
    (heeded : heed node framed state mode response = .ok visited) :
    Heeds node framed state response visited := by
  cases asks with
  | label kind =>
    obtain ⟨⟨label, reasoning⟩, fits, rest⟩ := bind_ok_iff.mp heeded
    obtain ⟨⟨connection, notices⟩, follows, same⟩ := bind_ok_iff.mp rest
    cases same
    rw [Response.asDecision_ok fits]
    exact .decided kind (mapError_ok_iff.mp follows)
  | value other declared =>
    simp only [heed] at heeded
    split at heeded
    · rename_i last
      obtain ⟨value, fits, same⟩ := bind_ok_iff.mp heeded
      cases same
      obtain ⟨json, rfl, conforms⟩ := Response.asValue_ok fits
      exact .concluded other last declared conforms
    · rename_i continues
      obtain ⟨value, fits, same⟩ := bind_ok_iff.mp heeded
      cases same
      obtain ⟨json, rfl, conforms⟩ := Response.asValue_ok fits
      exact .extracted other (by simpa using continues) declared conforms
  | text other last plain =>
    obtain ⟨text, fits, same⟩ := bind_ok_iff.mp heeded
    cases same
    rw [Response.asReply_ok fits]
    exact .replied other last plain

theorem heed_error {error : RunError} (asks : node.Asks mode)
    (decides : node.kind = .decision → node.isTerminal = false)
    (heeded : heed node framed state mode response = .error error) :
    error.isConfiguration = false := by
  cases asks with
  | label kind => exact decided_error (decides kind) heeded
  | value other declared =>
    simp only [heed] at heeded
    split at heeded
    · exact concluded_error heeded
    · exact extracted_error heeded
  | text other last plain => exact replied_error heeded

end Engine

def Engine.answer (engine : Engine) (client : Client) (earlier : List Request) (request : Request) :
    Except ModelError Response :=
  (client earlier request).within request.node engine.config.invokeTimeout

/-- The request that an entry tells of: of a node that asks the model, with the framed prompt. -/
def Engine.request? (engine : Engine) (entry : TraceEntry) : Option Request := do
  let node ← engine.flowchart.node? entry.node
  let mode ← node.mode?
  let prompt ← entry.framedPrompt
  return {
    node := node.id
    prompt
    systemPrompt := engine.systemPrompt
    model := engine.config.model
    mode
    temperature := node.temperature }

def Journal.asked (journal : Journal) (request : Option Request) : Journal :=
  { journal with requests := journal.requests ++ request.toList }

namespace Journal

variable (journal : Journal) (request : Option Request) (visited : Visited)

theorem asked_trace : (journal.asked request).trace = journal.trace := rfl

theorem asked_requests :
    (journal.asked request).requests = journal.requests ++ request.toList := rfl

@[simp] theorem visited_trace :
    (journal.visited visited).trace = journal.trace ++ [visited.entry] := rfl

@[simp] theorem visited_requests : (journal.visited visited).requests = journal.requests := rfl

theorem asked_none : journal.asked none = journal := by
  simp [asked]

end Journal

inductive Passes (engine : Engine) (step : Nat) (node : Node) (state : RunState) : Visited → Prop
  | entered {iterator field : String} {next : NodeId} {scopes : List LoopScope}
      (kind : node.kind = .loopStart iterator field)
      (enters : Enters engine.flowchart node iterator field state (.ok (next, scopes))) :
      Passes engine step node state {
        entry := { node.entry step with nextNode := some next }
        state := { state with scopes }
        next := .node next }
  | advanced {owner : NodeId} {label : String} {next : NodeId} {scopes : List LoopScope}
      (kind : node.kind = .loopContinue owner)
      (advances : Advances node owner state.scopes (.ok (label, next, scopes))) :
      Passes engine step node state {
        entry := { node.entry step with decision := some label, nextNode := some next }
        state := { state with scopes }
        next := .node next }
  | prompted {prompt : Prompt} (kind : node.kind.isLoop = false) (silent : node.mode? = none)
      (built : Prompt.build engine.framing node state.scopes state.extracted state.input =
        .ok prompt)
      (continues : node.isTerminal = false) :
      Passes engine step node state {
        entry := { node.entry step with
          prompt := some prompt.nodePrompt
          nextNode := some (node.firstTarget?.getD "") }
        state
        next := .node (node.firstTarget?.getD "") }

theorem Passes.silent {engine : Engine} {step : Nat} {node : Node} {state : RunState}
    {visited : Visited} (passes : Passes engine step node state visited) : node.mode? = none := by
  cases passes with
  | entered kind | advanced kind => exact node.mode_eq_none_of_isLoop (by rw [kind]; rfl)
  | prompted kind silent => exact silent

inductive Visits (engine : Engine) (step : Nat) (node : Node) (state : RunState) : Visit → Prop
  | failed {error : ConfigError} (refuses : Refuses engine node state error) :
      Visits engine step node state (.failed error)
  | passed {visited : Visited} (passes : Passes engine step node state visited) :
      Visits engine step node state (.passed visited)
  | asked {prompt : Prompt} {mode : Mode}
      (built : Prompt.build engine.framing node state.scopes state.extracted state.input =
        .ok prompt)
      (asks : node.mode? = some mode) :
      Visits engine step node state (.asked (engine.request node prompt mode)
        (Engine.heed node (node.framed step prompt) state mode))

inductive Settles (engine : Engine) (client : Client) (earlier : List Request) (step : Nat)
    (node : Node) (state : RunState) (visited : Visited) : Prop
  | passed (passes : Passes engine step node state visited)
  | asked {prompt : Prompt} {mode : Mode} {response : Response}
      (built : Prompt.build engine.framing node state.scopes state.extracted state.input =
        .ok prompt)
      (asks : node.mode? = some mode)
      (answers : engine.answer client earlier (engine.request node prompt mode) = .ok response)
      (heeds : Heeds node (node.framed step prompt) state response visited)

section

variable {engine : Engine} {client : Client} {earlier : List Request} {step : Nat} {node : Node}
  {framed : TraceEntry} {state : RunState} {response : Response} {visited : Visited}

theorem Heeds.keeps (heeds : Heeds node framed state response visited) :
    visited.entry.step = framed.step ∧ visited.entry.node = framed.node ∧
      visited.entry.kind = framed.kind ∧ visited.entry.framedPrompt = framed.framedPrompt := by
  cases heeds <;> exact ⟨rfl, rfl, rfl, rfl⟩

namespace Settles

theorem entry (settles : Settles engine client earlier step node state visited) :
    visited.entry.step = step ∧ visited.entry.node = node.id ∧
      visited.entry.kind = node.kind.name := by
  cases settles with
  | passed passes => cases passes <;> exact ⟨rfl, rfl, rfl⟩
  | asked _ _ _ heeds =>
    obtain ⟨same, named, kind, -⟩ := heeds.keeps
    exact ⟨same, named, kind⟩

theorem framed_isSome (settles : Settles engine client earlier step node state visited) :
    visited.entry.framedPrompt.isSome = node.mode?.isSome := by
  cases settles with
  | passed passes =>
    rw [passes.silent]
    cases passes <;> rfl
  | asked _ asks _ heeds =>
    rw [heeds.keeps.2.2.2, asks]
    rfl

end Settles

end

inductive Fails (engine : Engine) (node : Node) (state : RunState) :
    RunError → Option Request → Prop
  | refused {error : ConfigError} (refuses : Refuses engine node state error) :
      Fails engine node state (.configuration error) none
  | unanswered {prompt : Prompt} {mode : Mode} {error : ModelError}
      (built : Prompt.build engine.framing node state.scopes state.extracted state.input =
        .ok prompt)
      (asks : node.mode? = some mode) :
      Fails engine node state (.model error) (some (engine.request node prompt mode))

namespace Engine

variable {engine : Engine} {client : Client} {node : Node} {step : Nat} {state : RunState}
  {journal after : Journal}

theorem promptVisit_eq (engine : Engine) (step : Nat) (state : RunState) (prompt : Prompt)
    (kind : node.kind.isLoop = false)
    (decides : node.kind = .decision → node.isTerminal = false) :
    engine.promptVisit node (node.entry step) state prompt =
      match node.mode? with
      | some mode => .asked (engine.request node prompt mode)
          (heed node (node.framed step prompt) state mode)
      | none => .passed {
          entry := { node.entry step with
            prompt := some prompt.nodePrompt
            nextNode := some (node.firstTarget?.getD "") }
          state
          next := .node (node.firstTarget?.getD "") } := by
  by_cases decision : node.kind = .decision
  · have continues := decides decision
    simp [promptVisit, Node.mode?, NodeKind.isLoop, decision, continues, heed, Node.framed]
  · cases declared : node.schema with
    | some schema =>
      cases last : node.isTerminal <;>
        simp [promptVisit, Node.mode?, kind, decision, declared, last, heed, Node.framed]
    | none =>
      cases last : node.isTerminal <;>
        simp [promptVisit, Node.mode?, kind, decision, declared, last, heed, Node.framed]

theorem continues_of_silent (kind : node.kind.isLoop = false) (silent : node.mode? = none) :
    node.isTerminal = false := by
  cases last : node.isTerminal with
  | false => rfl
  | true =>
    unfold Node.mode? at silent
    rw [if_neg (by simp [kind]), last] at silent
    split at silent
    · cases silent
    · cases declared : node.schema <;> simp [declared] at silent

theorem visit_visits (engine : Engine) (step : Nat) (state : RunState)
    (decides : node.kind = .decision → node.isTerminal = false) :
    Visits engine step node state (engine.visit node step state) := by
  unfold visit
  split
  · rename_i iterator field kind
    have enters := engine.enterLoop_enters node iterator field state
    split
    · rename_i refused
      exact .failed (.entering kind (refused ▸ enters))
    · rename_i next scopes entered
      exact .passed (.entered kind (entered ▸ enters))
  · rename_i owner kind
    have advances := advanceLoop_advances node owner state.scopes
    split
    · rename_i refused
      exact .failed (.advancing kind (refused ▸ advances))
    · rename_i label next scopes advanced
      exact .passed (.advanced kind (advanced ▸ advances))
  · rename_i notStart notContinue
    have kind := NodeKind.isLoop_eq_false notStart notContinue
    split
    · rename_i unbuilt
      exact .failed (.prompting kind unbuilt)
    · rename_i prompt built
      have same := engine.promptVisit_eq step state prompt kind decides
      rw [Node.entry] at same
      rw [same]
      split
      · rename_i mode asks
        exact .asked built asks
      · rename_i silent
        exact .passed (.prompted kind silent built (continues_of_silent kind silent))

theorem request_eq_none {visited : Visited} (found : engine.flowchart.node? node.id = some node)
    (passes : Passes engine step node state visited) : engine.request? visited.entry = none := by
  have named : visited.entry.node = node.id := by
    cases passes <;> rfl
  simp [request?, named, found, passes.silent]

theorem request_eq_some {prompt : Prompt} {mode : Mode} {response : Response} {visited : Visited}
    (found : engine.flowchart.node? node.id = some node) (asks : node.mode? = some mode)
    (heeds : Heeds node (node.framed step prompt) state response visited) :
    engine.request? visited.entry = some (engine.request node prompt mode) := by
  obtain ⟨-, named, -, framed⟩ := heeds.keeps
  simp [request?, named, framed, Node.framed, Node.entry, found, asks, request]

theorem settle_asked (request : Request) {answered : Response → Except RunError Visited} :
    engine.settle client request.node journal (.asked request answered) =
      (journal.sent request, match engine.answer client journal.requests request with
        | .error error => .error (.model error)
        | .ok response => answered response) := rfl

theorem settle_ok {visited : Visited} (valid : engine.flowchart.Valid)
    (found : engine.flowchart.node? node.id = some node)
    (settled : engine.settle client node.id journal (engine.visit node step state) =
      (after, .ok visited)) :
    Settles engine client journal.requests step node state visited ∧
      after = journal.asked (engine.request? visited.entry) := by
  have decides := valid.decision_continues (List.mem_of_find?_eq_some found)
  have visits := engine.visit_visits step state decides
  generalize engine.visit node step state = visit at visits settled
  cases visits with
  | failed => cases settled
  | passed passes =>
    cases settled
    exact ⟨.passed passes, by rw [request_eq_none found passes, Journal.asked_none]⟩
  | @asked prompt mode built asks =>
    have settled := (settle_asked (engine.request node prompt mode)).symm.trans settled
    obtain ⟨rfl, heeded⟩ := Prod.mk.inj settled
    split at heeded
    · cases heeded
    · rename_i response answers
      have heeds := heed_ok (Node.asks_of_mode asks) heeded
      exact ⟨.asked built asks answers heeds, by rw [request_eq_some found asks heeds]; rfl⟩

theorem settle_error {error : RunError} (valid : engine.flowchart.Valid)
    (found : engine.flowchart.node? node.id = some node)
    (settled : engine.settle client node.id journal (engine.visit node step state) =
      (after, .error error)) :
    ∃ sent, Fails engine node state error sent ∧ after = journal.asked sent := by
  have decides := valid.decision_continues (List.mem_of_find?_eq_some found)
  have visits := engine.visit_visits step state decides
  generalize engine.visit node step state = visit at visits settled
  cases visits with
  | failed refuses =>
    cases settled
    exact ⟨none, .refused refuses, journal.asked_none.symm⟩
  | passed passes => cases settled
  | @asked prompt mode built asks =>
    have settled := (settle_asked (engine.request node prompt mode)).symm.trans settled
    obtain ⟨rfl, heeded⟩ := Prod.mk.inj settled
    have model : error.isConfiguration = false := by
      split at heeded
      · cases heeded
        rfl
      · exact heed_error (Node.asks_of_mode asks) decides heeded
    cases error with
    | configuration => cases model
    | model fault => exact ⟨some _, .unanswered built asks, rfl⟩

end Engine

end Colloquy
