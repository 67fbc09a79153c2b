import Colloquy.Proofs.Extraction
import Colloquy.Proofs.Run.Faults
import Colloquy.Proofs.Run.Settling
import Colloquy.Proofs.Schema.Alike

/-!
Visits of two runs that differ only in optional fields which one of them was answered as null and
the other not at all. Both ask the same and fail alike or come out alike, unless a loop start looks
such a field up.
-/

namespace Colloquy

inductive Response.Alike (mode : Mode) : Response → Response → Prop
  | same (response : Response) : Alike mode response response
  | values {schema : Schema} {value other : Json} (asks : mode = .structured schema)
      (alike : AlikeAs (.object schema) value other) :
      Alike mode (.structured value) (.structured other)

inductive Answer.Alike (mode : Mode) : Answer → Answer → Prop
  | refused (error : ModelError) (late : Bool) :
      Alike mode ⟨.error error, late⟩ ⟨.error error, late⟩
  | answered {response other : Response} (alike : response.Alike mode other) (late : Bool) :
      Alike mode ⟨.ok response, late⟩ ⟨.ok other, late⟩

/-- The clients answer every request the same way, but for optional fields that one of them answers
with null and the other leaves out. -/
def Client.Alike (client other : Client) : Prop :=
  ∀ earlier request, (client earlier request).Alike request.mode (other earlier request)

def Extractions.Alike (extractions others : Extractions) : Prop :=
  List.Forall₂ (fun told other => told.1 = other.1 ∧ told.2.Alike other.2) extractions.log
    others.log

structure RunState.Alike (state other : RunState) : Prop where
  input : state.input = other.input
  extracted : state.extracted.Alike other.extracted
  scopes : state.scopes = other.scopes
  decisions : state.decisions = other.decisions
  reasoning : state.reasoning = other.reasoning

inductive Next.Alike : Next → Next → Prop
  | node (id : NodeId) : Alike (.node id) (.node id)
  | finish (output other : Output) : Alike (.finish output) (.finish other)

structure Visited.Alike (visited other : Visited) : Prop where
  node : visited.entry.node = other.entry.node
  state : visited.state.Alike other.state
  next : visited.next.Alike other.next

inductive ResultsAlike : Except RunError Visited → Except RunError Visited → Prop
  | error (error : RunError) : ResultsAlike (.error error) (.error error)
  | ok {visited other : Visited} (alike : visited.Alike other) :
      ResultsAlike (.ok visited) (.ok other)

inductive Visit.Alike : Visit → Visit → Prop
  | failed (error : ConfigError) : Alike (.failed error) (.failed error)
  | passed {visited other : Visited} (alike : visited.Alike other) :
      Alike (.passed visited) (.passed other)
  | asked (request : Request) {answered others : Response → Except RunError Visited}
      (heed : ∀ response other, response.Alike request.mode other →
        ResultsAlike (answered response) (others other)) :
      Alike (.asked request answered) (.asked request others)

structure Stumbles (node : Node) (field : String) (state other : RunState) : Prop where
  loops : ∃ iterator, node.kind = .loopStart iterator field
  fresh : ¬ Innermost node.id state.scopes
  null : state.extracted.findField? field = some .null
  apart : (other.extracted.findField? field).map LoopScope.elements? ≠ some none

namespace Extractions.Alike

variable {extractions others : Extractions}

theorem symm (alike : extractions.Alike others) : others.Alike extractions :=
  alike.flip.imp fun _ _ ⟨named, same⟩ => ⟨named.symm, same.symm⟩

theorem contextBlock_eq (alike : extractions.Alike others) :
    extractions.contextBlock = others.contextBlock := by
  unfold contextBlock
  congr 1
  refine (forall₂_map_eq _ _ alike ?_).symm
  rintro ⟨node, value⟩ ⟨other, twin⟩ ⟨named, same⟩
  dsimp only at named same
  simp only [named, same.renderFields_eq, same.schema]

theorem record (alike : extractions.Alike others) (node : NodeId) {value other : StructuredValue}
    (same : value.Alike other) : (extractions.record node value).Alike (others.record node other) := by
  rw [Extractions.Alike, log_record, log_record]
  exact List.rel_append alike (.cons ⟨rfl, same⟩ .nil)

theorem findSome_alike {newest twins : List (NodeId × StructuredValue)}
    (alike : List.Forall₂ (fun told other => told.1 = other.1 ∧ told.2.Alike other.2) newest twins)
    (field : String) :
    let here := newest.findSome? (·.2.get? field)
    let there := twins.findSome? (·.2.get? field)
    here.map LoopScope.elements? = there.map LoopScope.elements? ∨
      (here = some .null ∧ there.map LoopScope.elements? ≠ some none) ∨
      (there = some .null ∧ here.map LoopScope.elements? ≠ some none) := by
  have null : LoopScope.elements? .null = none := rfl
  induction alike with
  | nil => exact .inl rfl
  | @cons told other earlier earlierToo head _ ih =>
    simp only [List.findSome?_cons]
    have found := head.2.found field
    generalize told.2.get? field = here at found
    generalize other.2.get? field = there at found
    cases found with
    | neither => exact ih
    | both same => exact .inl (congrArg some same)
    | left =>
      dsimp only
      by_cases same : (earlierToo.findSome? (·.2.get? field)).map LoopScope.elements? = some none
      · exact .inl (by rw [same, Option.map_some, null])
      · exact .inr (.inl ⟨rfl, same⟩)
    | right =>
      dsimp only
      by_cases same : (earlier.findSome? (·.2.get? field)).map LoopScope.elements? = some none
      · exact .inl (by rw [same, Option.map_some, null])
      · exact .inr (.inr ⟨rfl, same⟩)

theorem findField (alike : extractions.Alike others) (field : String) :
    (extractions.findField? field).map LoopScope.elements? =
        (others.findField? field).map LoopScope.elements? ∨
      (extractions.findField? field = some .null ∧
        (others.findField? field).map LoopScope.elements? ≠ some none) ∨
      (others.findField? field = some .null ∧
        (extractions.findField? field).map LoopScope.elements? ≠ some none) :=
  findSome_alike (List.forall₂_reverse_iff.mpr alike) field

end Extractions.Alike

namespace RunState.Alike

variable {state other : RunState}

theorem symm (alike : state.Alike other) : other.Alike state :=
  ⟨alike.input.symm, alike.extracted.symm, alike.scopes.symm, alike.decisions.symm,
    alike.reasoning.symm⟩

theorem recordDecision (alike : state.Alike other) (node : NodeId) (label reasoning : String) :
    (state.recordDecision node label reasoning).Alike
      (other.recordDecision node label reasoning) where
  input := alike.input
  extracted := alike.extracted
  scopes := alike.scopes
  decisions := congrArg (·.upsert node label) alike.decisions
  reasoning := congrArg (·.upsert node reasoning) alike.reasoning

theorem recordExtraction (alike : state.Alike other) (node : NodeId)
    {value twin : StructuredValue} (same : value.Alike twin) :
    (state.recordExtraction node value).Alike (other.recordExtraction node twin) :=
  { alike with extracted := alike.extracted.record node same }

theorem build_eq (alike : state.Alike other) (framing : Framing) (node : Node) :
    Prompt.build framing node state.scopes state.extracted state.input =
      Prompt.build framing node other.scopes other.extracted other.input := by
  unfold Prompt.build
  rw [alike.scopes, alike.input, alike.extracted.contextBlock_eq]

end RunState.Alike

theorem Response.Alike.asValue {schema : Schema} {response other : Response}
    (alike : response.Alike (.structured schema) other) (node : NodeId) :
    (∃ error, response.asValue node schema = .error error ∧
      other.asValue node schema = .error error) ∨
    ∃ value twin, response.asValue node schema = .ok value ∧
      other.asValue node schema = .ok twin ∧ value.Alike twin := by
  have structured {json twin : Json} (alike : AlikeAs (.object schema) json twin) :
      (∃ error, (Response.structured json).asValue node schema = .error error ∧
        (Response.structured twin).asValue node schema = .error error) ∨
      ∃ value other, (Response.structured json).asValue node schema = .ok value ∧
        (Response.structured twin).asValue node schema = .ok other ∧ value.Alike other := by
    simp only [Response.asValue]
    rcases Schema.validate_alike alike with
      ⟨violation, here, there⟩ | ⟨value, twin, here, there, same⟩
    · exact .inl ⟨_, by rw [here]; rfl, by rw [there]; rfl⟩
    · exact .inr ⟨value, twin, by rw [here]; rfl, by rw [there]; rfl, same⟩
  cases alike with
  | same =>
    cases response with
    | structured json => exact structured (.same json)
    | text | decision => exact .inl ⟨_, rfl, rfl⟩
  | values asks alike =>
    cases asks
    exact structured alike

namespace Engine

variable {engine : Engine} {node : Node} {state other : RunState}

theorem heed_alike {framed : TraceEntry} {mode : Mode} {response twin : Response}
    (states : state.Alike other) (responses : response.Alike mode twin) :
    ResultsAlike (heed node framed state mode response) (heed node framed other mode twin) := by
  cases mode with
  | text =>
    cases responses with
    | same =>
      cases response with
      | text reply => exact .ok ⟨rfl, states, .finish _ _⟩
      | decision | structured => exact .error _
    | values asks => cases asks
  | decision options =>
    cases responses with
    | same =>
      cases response with
      | decision label reasoning =>
        cases follows : followLabel node label with
        | error fault =>
          simp only [heed, decided, Response.asDecision, bind, Except.bind, follows]
          exact .error _
        | ok followed =>
          simp only [heed, decided, Response.asDecision, bind, Except.bind, follows]
          exact .ok ⟨rfl, states.recordDecision _ _ _, .node _⟩
      | text | structured => exact .error _
    | values asks => cases asks
  | structured schema =>
    rw [heed, heed]
    rcases responses.asValue node.id with ⟨error, here, there⟩ | ⟨value, other, here, there, same⟩
    · split
      · simp only [concluded, here, there]
        exact .error error
      · simp only [extracted, here, there]
        exact .error error
    · split
      · simp only [concluded, here, there]
        exact .ok ⟨rfl, states, .finish _ _⟩
      · simp only [extracted, here, there]
        exact .ok ⟨rfl, states.recordExtraction _ same, .node _⟩

/-- What a loop start makes of its field depends on the elements in it only. -/
theorem enterLoop_eq (engine : Engine) (node : Node) (iterator field : String) (state : RunState) :
    engine.enterLoop node iterator field state =
      if state.scopes.head?.any (·.owner == node.id) then
        .ok (node.firstTarget?.getD "", state.scopes)
      else match (state.extracted.findField? field).map LoopScope.elements? with
        | none => .error (.missingCollection node.id field)
        | some none => .error (.collectionNotSequence node.id field)
        | some (some []) =>
          match (engine.flowchart.closer? node.id).bind Node.completeTarget? with
          | none => .error (.unpairedLoopStart node.id [])
          | some complete => .ok (complete, state.scopes)
        | some (some (first :: others)) =>
          .ok (node.firstTarget?.getD "",
            ⟨node.id, iterator, first :: others, 0⟩ :: state.scopes) := by
  unfold enterLoop
  cases state.extracted.findField? field with
  | none => rfl
  | some value =>
    dsimp only [Option.map_some]
    cases LoopScope.elements? value with
    | none => rfl
    | some elements => cases elements <;> rfl

theorem enterLoop_alike (engine : Engine) {iterator field : String}
    (kind : node.kind = .loopStart iterator field) (alike : state.Alike other) :
    engine.enterLoop node iterator field state = engine.enterLoop node iterator field other ∨
      Stumbles node field state other ∨ Stumbles node field other state := by
  rw [enterLoop_eq, enterLoop_eq, ← alike.scopes]
  by_cases own : state.scopes.head?.any (·.owner == node.id) = true
  · exact .inl (by rw [if_pos own, if_pos own])
  · have fresh := mt innermost_iff.mpr own
    rcases alike.extracted.findField field with same | ⟨null, apart⟩ | ⟨null, apart⟩
    · exact .inl (by rw [same])
    · exact .inr (.inl ⟨⟨iterator, kind⟩, fresh, null, apart⟩)
    · exact .inr (.inr ⟨⟨iterator, kind⟩, alike.scopes ▸ fresh, null, apart⟩)

theorem promptVisit_alike {step : Nat} {prompt : Prompt} (kind : node.kind.isLoop = false)
    (decides : node.kind = .decision → node.isTerminal = false) (alike : state.Alike other) :
    (engine.promptVisit node (node.entry step) state prompt).Alike
      (engine.promptVisit node (node.entry step) other prompt) := by
  rw [promptVisit_eq engine step state prompt kind decides,
    promptVisit_eq engine step other prompt kind decides]
  cases node.mode? with
  | none => exact .passed ⟨rfl, alike, .node _⟩
  | some mode => exact .asked _ fun response twin responses => heed_alike alike responses

theorem visit_of_prompt (engine : Engine) (step : Nat) (state : RunState)
    (kind : node.kind.isLoop = false) : engine.visit node step state =
      match Prompt.build engine.framing node state.scopes state.extracted state.input with
      | .error error => .failed error
      | .ok prompt => engine.promptVisit node (node.entry step) state prompt := by
  unfold visit
  split
  · rename_i same
    rw [same] at kind
    cases kind
  · rename_i same
    rw [same] at kind
    cases kind
  · rfl

theorem visit_alike (engine : Engine) (step : Nat)
    (decides : node.kind = .decision → node.isTerminal = false) (alike : state.Alike other) :
    (engine.visit node step state).Alike (engine.visit node step other) ∨
      ∃ field, Stumbles node field state other ∨ Stumbles node field other state := by
  cases kind : node.kind with
  | loopStart iterator field =>
    rcases engine.enterLoop_alike kind alike with same | stumbles
    · refine .inl ?_
      simp only [visit, kind, same]
      cases engine.enterLoop node iterator field other with
      | error error => exact .failed error
      | ok entered => exact .passed ⟨rfl, { alike with scopes := rfl }, .node _⟩
    · exact .inr ⟨field, stumbles⟩
  | loopContinue owner =>
    refine .inl ?_
    simp only [visit, kind, alike.scopes]
    cases advanceLoop node owner other.scopes with
    | error error => exact .failed error
    | ok advanced => exact .passed ⟨rfl, { alike with scopes := rfl }, .node _⟩
  | plain | decision | extraction =>
    have silent : node.kind.isLoop = false := by rw [kind]; rfl
    refine .inl ?_
    rw [engine.visit_of_prompt step state silent, engine.visit_of_prompt step other silent,
      alike.build_eq]
    cases Prompt.build engine.framing node other.scopes other.extracted other.input with
    | error error => exact .failed error
    | ok prompt => exact promptVisit_alike silent decides alike

theorem settle_alike {client twin : Client} {journal behind : Journal} {visit others : Visit}
    (clients : client.Alike twin) (visits : visit.Alike others) (id : NodeId)
    (requests : journal.requests = behind.requests) :
    (engine.settle client id journal visit).1.requests =
        (engine.settle twin id behind others).1.requests ∧
      ResultsAlike (engine.settle client id journal visit).2
        (engine.settle twin id behind others).2 := by
  cases visits with
  | failed error => exact ⟨requests, .error _⟩
  | passed alike => exact ⟨requests, .ok alike⟩
  | asked request heed =>
    refine ⟨congrArg (· ++ [request]) requests, ?_⟩
    have answers := clients journal.requests request
    simp only [settle, ← requests]
    generalize client journal.requests request = answer at answers
    generalize twin journal.requests request = other at answers
    cases answers with
    | refused error late =>
      cases late <;> cases engine.config.invokeTimeout <;> exact .error _
    | answered alike late =>
      have heeded := heed _ _ alike
      cases late <;> cases engine.config.invokeTimeout <;> first | exact heeded | exact .error _

end Engine

namespace Stumbles

variable {engine : Engine} {node : Node} {field : String} {state other : RunState}

theorem visit_eq (stumbles : Stumbles node field state other) (engine : Engine) (step : Nat) :
    engine.visit node step state = .failed (.collectionNotSequence node.id field) := by
  obtain ⟨⟨iterator, kind⟩, fresh, null, -⟩ := stumbles
  simp only [Engine.visit, kind, Engine.enterLoop_eq, if_neg (mt innermost_iff.mp fresh), null,
    Option.map_some]
  rfl

theorem visit_other (stumbles : Stumbles node field state other) (valid : engine.flowchart.Valid)
    (member : node ∈ engine.flowchart.nodes) (scopes : state.scopes = other.scopes) (step : Nat) :
    (other.extracted.findField? field = none ∧
      engine.visit node step other = .failed (.missingCollection node.id field)) ∨
    ∃ texts visited next,
      (other.extracted.findField? field).bind LoopScope.elements? = some texts ∧
      engine.visit node step other = .passed visited ∧ visited.entry.node = node.id ∧
      visited.next = .node next := by
  obtain ⟨⟨iterator, kind⟩, fresh, -, apart⟩ := stumbles
  obtain ⟨target, complete⟩ := valid.exists_completeTarget member kind
  have other_fresh := mt innermost_iff.mp (scopes ▸ fresh)
  simp only [Engine.visit, kind, Engine.enterLoop_eq, if_neg other_fresh]
  cases found : other.extracted.findField? field with
  | none => exact .inl ⟨rfl, rfl⟩
  | some value =>
    cases read : LoopScope.elements? value with
    | none => simp [found, read] at apart
    | some texts =>
      refine .inr ?_
      cases texts with
      | nil =>
        simp only [Option.map_some, read, complete]
        exact ⟨_, _, _, read, rfl, rfl, rfl⟩
      | cons =>
        simp only [Option.map_some, read]
        exact ⟨_, _, _, read, rfl, rfl, rfl⟩

end Stumbles

end Colloquy
