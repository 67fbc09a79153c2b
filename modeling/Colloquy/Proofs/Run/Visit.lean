import Colloquy.Proofs.Checks
import Colloquy.Run.Visit

/-!
What a visit can come to, whatever the model answers. Each kind of node has its own account, and
these are all that is used of visits elsewhere.
-/

namespace Colloquy

def Visit.Yields : Visit → Except RunError Visited → Prop
  | .failed error, result => result = .error (.configuration error)
  | .passed visited, result => result = .ok visited
  | .asked _ answered, result =>
    (∃ error, result = .error (.model error)) ∨ ∃ response, result = answered response

theorem Visit.asked_ok {request : Request} {answered : Response → Except RunError Visited}
    {visited : Visited} (yields : (Visit.asked request answered).Yields (.ok visited)) :
    ∃ response, answered response = .ok visited := by
  rcases yields with ⟨fault, ⟨⟩⟩ | ⟨response, same⟩
  exact ⟨response, same.symm⟩

theorem Visit.asked_error {request : Request} {answered : Response → Except RunError Visited}
    {error : RunError} (yields : (Visit.asked request answered).Yields (.error error)) :
    error.isConfiguration = false ∨ ∃ response, answered response = .error error := by
  rcases yields with ⟨fault, ⟨⟩⟩ | ⟨response, same⟩
  · exact .inl rfl
  · exact .inr ⟨response, same.symm⟩

def Innermost (owner : NodeId) (scopes : List LoopScope) : Prop :=
  ∃ scope outer, scopes = scope :: outer ∧ scope.owner = owner

theorem innermost_iff {owner : NodeId} {scopes : List LoopScope} :
    scopes.head?.any (·.owner == owner) = true ↔ Innermost owner scopes := by
  cases scopes <;> simp [Innermost]

inductive Enters (flowchart : Flowchart) (node : Node) (iterator field : String)
    (state : RunState) : Except ConfigError (NodeId × List LoopScope) → Prop
  | again (innermost : Innermost node.id state.scopes) :
      Enters flowchart node iterator field state (.ok (node.firstTarget?.getD "", state.scopes))
  | missing (fresh : ¬ Innermost node.id state.scopes)
      (absent : state.extracted.findField? field = none) :
      Enters flowchart node iterator field state (.error (.missingCollection node.id field))
  | noSequence {value : Json} (fresh : ¬ Innermost node.id state.scopes)
      (found : state.extracted.findField? field = some value)
      (other : LoopScope.elements? value = none) :
      Enters flowchart node iterator field state (.error (.collectionNotSequence node.id field))
  | unpaired (alone : (flowchart.closer? node.id).bind Node.completeTarget? = none) :
      Enters flowchart node iterator field state (.error (.unpairedLoopStart node.id []))
  | skips {value : Json} {target : NodeId} (fresh : ¬ Innermost node.id state.scopes)
      (found : state.extracted.findField? field = some value)
      (empty : LoopScope.elements? value = some [])
      (complete : (flowchart.closer? node.id).bind Node.completeTarget? = some target) :
      Enters flowchart node iterator field state (.ok (target, state.scopes))
  | opens {value : Json} {collection : List String} (fresh : ¬ Innermost node.id state.scopes)
      (found : state.extracted.findField? field = some value)
      (elements : LoopScope.elements? value = some collection) (nonempty : collection ≠ []) :
      Enters flowchart node iterator field state (.ok (node.firstTarget?.getD "",
        ⟨node.id, iterator, collection, 0⟩ :: state.scopes))

theorem Engine.enterLoop_enters (engine : Engine) (node : Node) (iterator field : String)
    (state : RunState) :
    Enters engine.flowchart node iterator field state
      (engine.enterLoop node iterator field state) := by
  unfold enterLoop
  split
  · rename_i own
    exact .again (innermost_iff.mp own)
  · rename_i other
    have fresh := mt innermost_iff.mpr other
    split
    · rename_i absent
      exact .missing fresh absent
    · rename_i value found
      split
      · rename_i other
        exact .noSequence fresh found other
      · rename_i empty
        split
        · rename_i alone
          exact .unpaired alone
        · rename_i target complete
          exact .skips fresh found empty complete
      · rename_i first others elements
        exact .opens fresh found elements (List.cons_ne_nil _ _)

inductive Advances (node : Node) (owner : NodeId) (scopes : List LoopScope) :
    Except ConfigError (String × NodeId × List LoopScope) → Prop
  | outside (other : ¬ Innermost owner scopes) :
      Advances node owner scopes (.error (.continueOutsideLoop node.id owner))
  | unlabelled {label : String} (either : label = hasMoreLabel ∨ label = completeLabel)
      (missing : node.target? label = none) :
      Advances node owner scopes (.error (.loopContinueLabels node.id node.labels))
  | repeats {scope : LoopScope} {outer : List LoopScope} {target : NodeId}
      (innermost : scopes = scope :: outer) (own : scope.owner = owner)
      (more : scope.index + 1 < scope.collection.length)
      (back : node.hasMoreTarget? = some target) :
      Advances node owner scopes (.ok (hasMoreLabel, target, scope.advance :: outer))
  | closes {scope : LoopScope} {outer : List LoopScope} {target : NodeId}
      (innermost : scopes = scope :: outer) (own : scope.owner = owner)
      (last : scope.collection.length ≤ scope.index + 1)
      (on : node.completeTarget? = some target) :
      Advances node owner scopes (.ok (completeLabel, target, outer))

theorem advanceLoop_advances (node : Node) (owner : NodeId) (scopes : List LoopScope) :
    Advances node owner scopes (Engine.advanceLoop node owner scopes) := by
  cases scopes with
  | nil => exact .outside (by simp [Innermost])
  | cons scope outer =>
    by_cases own : scope.owner = owner
    · by_cases more : scope.index + 1 < scope.collection.length
      · cases back : node.target? hasMoreLabel with
        | none => simpa [Engine.advanceLoop, own, Engine.advanceScope, LoopScope.hasMore, more, back]
            using Advances.unlabelled (.inl rfl) back
        | some target =>
          simpa [Engine.advanceLoop, own, Engine.advanceScope, LoopScope.hasMore, more, back]
            using Advances.repeats rfl own more back
      · have last := Nat.le_of_not_lt more
        cases on : node.target? completeLabel with
        | none => simpa [Engine.advanceLoop, own, Engine.advanceScope, LoopScope.hasMore, more, on]
            using Advances.unlabelled (.inr rfl) on
        | some target =>
          simpa [Engine.advanceLoop, own, Engine.advanceScope, LoopScope.hasMore, more, on]
            using Advances.closes rfl own last on
    · simpa [Engine.advanceLoop, own] using Advances.outside (by simp [Innermost, own])

inductive FollowsLabel (node : Node) (label : String) : Connection → List Diagnostic → Prop
  | own {connection : Connection}
      (found : node.connections.find? (·.label == label) = some connection) :
      FollowsLabel node label connection []
  | first {connection : Connection} (unknown : label ∉ node.labels)
      (head : node.connections.head? = some connection) :
      FollowsLabel node label connection [Engine.fallbackNotice node label connection.label]

theorem Engine.followLabel_follows {node : Node} {label : String} {connection : Connection}
    {notices : List Diagnostic} (follows : followLabel node label = .ok (connection, notices)) :
    FollowsLabel node label connection notices := by
  unfold followLabel at follows
  split at follows
  · rename_i found
    cases follows
    exact .own found
  · rename_i missing
    split at follows
    · cases follows
    · rename_i first rest connections
      cases follows
      refine .first ?_ (by rw [connections, List.head?_cons])
      intro declared
      obtain ⟨other, member, named⟩ := List.mem_map.mp declared
      exact List.find?_eq_none.mp missing other member (by simpa using named)

theorem FollowsLabel.target {node : Node} {label : String} {connection : Connection}
    {notices : List Diagnostic} (follows : FollowsLabel node label connection notices) :
    connection ∈ node.connections ∧ node.target? connection.label = some connection.target := by
  cases follows with
  | own found =>
    have named : connection.label = label := by simpa using List.find?_some found
    exact ⟨List.mem_of_find?_eq_some found, by rw [Node.target?, named, found]; rfl⟩
  | first unknown head =>
    obtain ⟨rest, connections⟩ := List.head?_eq_some_iff.mp head
    simp [Node.target?, connections]

theorem FollowsLabel.label {node : Node} {label : String} {connection : Connection}
    {notices : List Diagnostic} (follows : FollowsLabel node label connection notices) :
    (if notices.isEmpty then some label else node.labels.head?) = some connection.label := by
  cases follows with
  | own found =>
    have named : connection.label = label := by simpa using List.find?_some found
    simp [named]
  | first unknown head => simp [Node.labels, head]

/-- A visit of a node with a prompt that goes well follows a connection or ends the run, and leaves
the open loops alone. -/
inductive Proceeds (node : Node) (state : RunState) (visited : Visited) : Prop
  | moves (connection : Connection) (member : connection ∈ node.connections)
      (leads : visited.next = .node connection.target)
      (scopes : visited.state.scopes = state.scopes)
  | ends (output : Output) (last : visited.next = .finish output)
      (scopes : visited.state.scopes = state.scopes)

theorem Proceeds.scopes_eq {node : Node} {state : RunState} {visited : Visited}
    (proceeds : Proceeds node state visited) : visited.state.scopes = state.scopes := by
  cases proceeds with
  | moves _ _ _ scopes | ends _ _ scopes => exact scopes

theorem Node.exists_firstTarget {node : Node} (continues : node.isTerminal = false) :
    ∃ connection ∈ node.connections, node.firstTarget? = some connection.target := by
  cases connections : node.connections with
  | nil => simp [isTerminal, connections] at continues
  | cons first rest => exact ⟨first, List.mem_cons_self, by simp [firstTarget?, connections]⟩

namespace Engine

variable {node : Node} {entry : TraceEntry} {state : RunState} {response : Response}
  {visited : Visited}

theorem followLabel_error {label : String} {error : ConfigError}
    (refused : followLabel node label = .error error) : node.isTerminal = true := by
  unfold followLabel at refused
  split at refused
  · cases refused
  · split at refused
    · rename_i connections
      simp [Node.isTerminal, connections]
    · cases refused

theorem decided_ok (answered : decided node entry state response = .ok visited) :
    Proceeds node state visited := by
  obtain ⟨⟨label, reasoning⟩, -, rest⟩ := bind_ok_iff.mp answered
  obtain ⟨⟨followed, notices⟩, found, same⟩ := bind_ok_iff.mp rest
  cases same
  exact .moves followed (followLabel_follows (mapError_ok_iff.mp found)).target.1 rfl rfl

theorem extracted_ok {schema : Schema} (continues : node.isTerminal = false)
    (answered : extracted node schema (node.firstTarget?.getD "") entry state response =
      .ok visited) : Proceeds node state visited := by
  obtain ⟨value, -, same⟩ := bind_ok_iff.mp answered
  obtain ⟨connection, member, first⟩ := Node.exists_firstTarget continues
  cases same
  exact .moves connection member (by rw [first, Option.getD_some]) rfl

theorem concluded_ok {schema : Schema}
    (answered : concluded node schema entry state response = .ok visited) :
    Proceeds node state visited := by
  obtain ⟨value, -, same⟩ := bind_ok_iff.mp answered
  cases same
  exact .ends _ rfl rfl

theorem replied_ok (answered : replied node entry state response = .ok visited) :
    Proceeds node state visited := by
  obtain ⟨reply, -, same⟩ := bind_ok_iff.mp answered
  cases same
  exact .ends _ rfl rfl

theorem asDecision_error {error : RunError}
    (refused : response.asDecision node.id = .error error) : error.isConfiguration = false := by
  cases response <;> cases refused <;> rfl

theorem asReply_error {error : RunError} (refused : response.asReply node.id = .error error) :
    error.isConfiguration = false := by
  cases response <;> cases refused <;> rfl

theorem asValue_error {schema : Schema} {error : RunError}
    (refused : response.asValue node.id schema = .error error) : error.isConfiguration = false := by
  cases response with
  | structured value =>
    obtain ⟨violation, -, rfl⟩ := mapError_error_iff.mp refused
    rfl
  | text | decision => cases refused; rfl

theorem decided_error {error : RunError} (continues : node.isTerminal = false)
    (answered : decided node entry state response = .error error) :
    error.isConfiguration = false := by
  rcases bind_error_iff.mp answered with refused | ⟨⟨label, reasoning⟩, -, rest⟩
  · exact asDecision_error refused
  · rcases bind_error_iff.mp rest with refused | ⟨_, -, ⟨⟩⟩
    obtain ⟨fault, refused, -⟩ := mapError_error_iff.mp refused
    rw [followLabel_error refused] at continues
    contradiction

theorem extracted_error {schema : Schema} {next : NodeId} {error : RunError}
    (answered : extracted node schema next entry state response = .error error) :
    error.isConfiguration = false := by
  rcases bind_error_iff.mp answered with refused | ⟨_, -, ⟨⟩⟩
  exact asValue_error refused

theorem concluded_error {schema : Schema} {error : RunError}
    (answered : concluded node schema entry state response = .error error) :
    error.isConfiguration = false := by
  rcases bind_error_iff.mp answered with refused | ⟨_, -, ⟨⟩⟩
  exact asValue_error refused

theorem replied_error {error : RunError}
    (answered : replied node entry state response = .error error) :
    error.isConfiguration = false := by
  rcases bind_error_iff.mp answered with refused | ⟨_, -, ⟨⟩⟩
  exact asReply_error refused

theorem promptVisit_ok {engine : Engine} {prompt : Prompt}
    (yields : (engine.promptVisit node entry state prompt).Yields (.ok visited)) :
    Proceeds node state visited := by
  unfold promptVisit at yields
  cases last : node.isTerminal with
  | true =>
    cases schema : node.schema with
    | some schema =>
      simp only [last, schema, if_true] at yields
      obtain ⟨response, answered⟩ := Visit.asked_ok yields
      exact concluded_ok answered
    | none =>
      simp only [last, schema, if_true] at yields
      obtain ⟨response, answered⟩ := Visit.asked_ok yields
      exact replied_ok answered
  | false =>
    simp only [last, Bool.false_eq_true, if_false] at yields
    split at yields
    · obtain ⟨response, answered⟩ := Visit.asked_ok yields
      exact decided_ok answered
    · obtain ⟨response, answered⟩ := Visit.asked_ok yields
      exact extracted_ok last answered
    · cases yields
      obtain ⟨connection, member, first⟩ := Node.exists_firstTarget last
      exact .moves connection member (by rw [first, Option.getD_some]) rfl

theorem promptVisit_error {engine : Engine} {prompt : Prompt} {error : RunError}
    (yields : (engine.promptVisit node entry state prompt).Yields (.error error)) :
    error.isConfiguration = false := by
  unfold promptVisit at yields
  cases last : node.isTerminal with
  | true =>
    cases schema : node.schema with
    | some schema =>
      simp only [last, schema, if_true] at yields
      rcases Visit.asked_error yields with fault | ⟨response, answered⟩
      · exact fault
      · exact concluded_error answered
    | none =>
      simp only [last, schema, if_true] at yields
      rcases Visit.asked_error yields with fault | ⟨response, answered⟩
      · exact fault
      · exact replied_error answered
  | false =>
    simp only [last, Bool.false_eq_true, if_false] at yields
    split at yields
    · rcases Visit.asked_error yields with fault | ⟨response, answered⟩
      · exact fault
      · exact decided_error last answered
    · rcases Visit.asked_error yields with fault | ⟨response, answered⟩
      · exact fault
      · exact extracted_error answered
    · cases yields

end Engine

inductive Comes (flowchart : Flowchart) (node : Node) (before : RunState) (visited : Visited) : Prop
  | entered {iterator field : String} {next : NodeId} {scopes : List LoopScope}
      (kind : node.kind = .loopStart iterator field)
      (enters : Enters flowchart node iterator field before (.ok (next, scopes)))
      (leads : visited.next = .node next) (state : visited.state = { before with scopes })
  | advanced {owner : NodeId} {label : String} {next : NodeId} {scopes : List LoopScope}
      (kind : node.kind = .loopContinue owner)
      (advances : Advances node owner before.scopes (.ok (label, next, scopes)))
      (leads : visited.next = .node next) (state : visited.state = { before with scopes })
      (records : visited.entry.decision = some label)
  | proceeded (kind : node.kind.isLoop = false) (proceeds : Proceeds node before visited)

inductive Refuses (engine : Engine) (node : Node) (state : RunState) (error : ConfigError) : Prop
  | entering {iterator field : String} (kind : node.kind = .loopStart iterator field)
      (enters : Enters engine.flowchart node iterator field state (.error error))
  | advancing {owner : NodeId} (kind : node.kind = .loopContinue owner)
      (advances : Advances node owner state.scopes (.error error))
  | prompting (kind : node.kind.isLoop = false)
      (unbuilt : Prompt.build engine.framing node state.scopes state.extracted state.input =
        .error error)

theorem NodeKind.isLoop_eq_false {kind : NodeKind}
    (notStart : ∀ iterator field, kind = .loopStart iterator field → False)
    (notContinue : ∀ owner, kind = .loopContinue owner → False) : kind.isLoop = false := by
  cases kind with
  | loopStart iterator field => exact (notStart iterator field rfl).elim
  | loopContinue owner => exact (notContinue owner rfl).elim
  | plain | decision | extraction => rfl

namespace Engine

variable {engine : Engine} {node : Node} {step : Nat} {state : RunState}

theorem visit_ok {visited : Visited}
    (yields : (engine.visit node step state).Yields (.ok visited)) :
    Comes engine.flowchart node state visited := by
  unfold visit at yields
  split at yields
  · rename_i iterator field kind
    have enters := engine.enterLoop_enters node iterator field state
    split at yields
    · cases yields
    · rename_i next scopes entered
      cases yields
      exact .entered kind (entered ▸ enters) rfl rfl
  · rename_i owner kind
    have advances := advanceLoop_advances node owner state.scopes
    split at yields
    · cases yields
    · rename_i label next scopes advanced
      cases yields
      exact .advanced kind (advanced ▸ advances) rfl rfl rfl
  · rename_i notStart notContinue
    have kind := NodeKind.isLoop_eq_false notStart notContinue
    split at yields
    · cases yields
    · exact .proceeded kind (promptVisit_ok yields)

theorem visit_error {error : ConfigError}
    (yields : (engine.visit node step state).Yields (.error (.configuration error))) :
    Refuses engine node state error := by
  unfold visit at yields
  split at yields
  · rename_i iterator field kind
    have enters := engine.enterLoop_enters node iterator field state
    split at yields
    · rename_i refused
      cases yields
      exact .entering kind (refused ▸ enters)
    · cases yields
  · rename_i owner kind
    have advances := advanceLoop_advances node owner state.scopes
    split at yields
    · rename_i refused
      cases yields
      exact .advancing kind (refused ▸ advances)
    · cases yields
  · rename_i notStart notContinue
    have kind := NodeKind.isLoop_eq_false notStart notContinue
    split at yields
    · rename_i refused
      cases yields
      exact .prompting kind refused
    · cases promptVisit_error yields

end Engine

end Colloquy
