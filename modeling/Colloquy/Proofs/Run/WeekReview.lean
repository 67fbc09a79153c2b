import Colloquy.Proofs.Bundled.WeekReview
import Colloquy.Proofs.Run.Legal
import Colloquy.Proofs.Run.Prompts
import Colloquy.Proofs.Schema.Check

/-!
Runs that review the week. Wherever such a run stands, the visits behind it and the plans that it
has asked about can be read off the node and the open loop, so it asks about one plan after another,
concludes after the last, and ends within five visits for each.
-/

namespace Colloquy

def TraceEntry.Yields (entry : TraceEntry) (names : List String) : Prop :=
  ∃ members : Members, entry.extracted = some (.obj members) ∧
    members.get? "plan_names" = some (.ofTexts names)

theorem TraceEntry.Yields.unique {entry : TraceEntry} {names others : List String}
    (yields : entry.Yields names) (again : entry.Yields others) : names = others := by
  obtain ⟨members, extracted, held⟩ := yields
  obtain ⟨twins, same, given⟩ := again
  cases extracted.symm.trans same
  have equal := Json.arr.inj (Option.some.inj (held.symm.trans given))
  exact List.map_injective_iff.mpr (fun _ _ => Json.str.inj) equal

def Transcript.visits (transcript : Transcript) : Nat :=
  transcript.record.traversal.length +
    match transcript.result with
    | .error (.model _) => 1
    | _ => 0

def Transcript.UpToModel (transcript : Transcript) : Prop :=
  (∃ outcome, transcript.result = .ok outcome) ∨
    ∃ fault, transcript.result = .error (.model fault)

namespace WeekReview

/-- After so many visits, and with so many of the plans asked about, a review stands at a node. -/
inductive Stands (names : List String) (state : RunState) : NodeId → Nat → Nat → Prop
  | starts (outside : state.scopes = []) : Stands names state "Start" 0 0
  | extracts (outside : state.scopes = []) : Stands names state "ExtractPlanNames" 1 0
  | setsOut (outside : state.scopes = [])
      (found : state.extracted.findField? "plan_names" = some (.ofTexts names)) :
      Stands names state "StartPlanLoop" 2 0
  | within {id : NodeId} {before asked index : Nat} (row : (id, before, asked) ∈ round)
      (under : index < names.length)
      (opened : state.scopes = [⟨"StartPlanLoop", "current_plan", names, index⟩]) :
      Stands names state id (2 + 5 * index + before) (index + asked)
  | concludes (outside : state.scopes = []) :
      Stands names state "Conclude" (max 3 (2 + 5 * names.length)) names.length

theorem elements_ofTexts (names : List String) :
    LoopScope.elements? (.ofTexts names) = some names := by
  induction names with
  | nil => rfl
  | cons name rest ih =>
    simp only [LoopScope.elements?, Json.ofTexts] at ih ⊢
    rw [List.map_cons, List.mapM_cons, ih]
    rfl

namespace Stands

variable {names : List String} {state : RunState} {id : NodeId} {visits asked : Nat}

theorem visits_lt (stands : Stands names state id visits asked) :
    visits < max 4 (5 * names.length + 3) := by
  cases stands with
  | starts | extracts | setsOut | concludes => omega
  | @within _ before _ index row under =>
    have few : before ≤ 5 := round_before _ row
    omega

theorem plan (stands : Stands names state id visits asked) (named : id ∉ unnamed) :
    ∃ plan, LoopScope.binding? state.scopes "current_plan" = some plan ∧
      (id = "CheckPlanDiscussed" → names[asked]? = some plan) := by
  cases stands with
  | starts | extracts | setsOut | concludes => exact absurd (by decide) named
  | @within _ before behind index row under opened =>
    refine ⟨names[index], by simp [opened, LoopScope.binding?, LoopScope.current?, under], ?_⟩
    rintro rfl
    obtain ⟨-, rfl⟩ := Prod.mk.inj (round_check _ row rfl)
    simp [under]

theorem all_asked (stands : Stands names state id visits asked) (here : id = "Conclude") :
    asked = names.length := by
  cases stands with
  | starts | extracts | setsOut => exact absurd here (by decide)
  | within row => exact absurd (by simp [here]) (round_goes_on _ row)
  | concludes => rfl

theorem later (stands : Stands names state id visits asked) (begun : 2 ≤ visits) :
    id ≠ "Start" ∧ id ≠ "ExtractPlanNames" := by
  cases stands with
  | starts | extracts => omega
  | setsOut | concludes => decide
  | within row => constructor <;> rintro rfl <;> simpa using round_goes_on _ row

theorem early (stands : Stands names state id visits asked)
    (here : id ∈ ["Start", "ExtractPlanNames"]) :
    visits = if id = "Start" then 0 else 1 := by
  cases stands with
  | starts | extracts => rfl
  | setsOut | concludes => simp at here
  | within row => exact absurd (List.mem_append_left ["Conclude"] here) (round_goes_on _ row)

theorem early_lt (stands : Stands names state id visits asked)
    (here : id ∈ ["Start", "ExtractPlanNames"]) : visits < 2 := by
  rw [stands.early here]
  split <;> decide

theorem innermost_or_found (stands : Stands names state id visits asked)
    (here : id = "StartPlanLoop") : Innermost "StartPlanLoop" state.scopes ∨
      state.extracted.findField? "plan_names" = some (.ofTexts names) := by
  cases stands with
  | starts | extracts | concludes => exact absurd here (by decide)
  | setsOut _ found => exact .inr found
  | within _ _ opened => exact .inl ⟨_, _, opened, rfl⟩

theorem innermost (stands : Stands names state id visits asked) (here : id = "NextPlan") :
    Innermost "StartPlanLoop" state.scopes := by
  cases stands with
  | starts | extracts | setsOut | concludes => exact absurd here (by decide)
  | within _ _ opened => exact ⟨_, _, opened, rfl⟩

end Stands

section

variable {engine : Engine} {names : List String} {visits asked : Nat}

/-- Nothing that the flowchart relies on is ever missing. -/
theorem Stands.not_refuses (bundled : engine.flowchart = flowchart) {node : Node}
    (member : node ∈ flowchart.nodes) {state : RunState} {id : NodeId} (named : node.id = id)
    (stands : Stands names state id visits asked) {error : ConfigError} :
    ¬ Refuses engine node state error := by
  have valid := compile_valid compiles
  intro refuses
  cases refuses with
  | entering kind enters =>
    obtain ⟨here, rfl, rfl⟩ := opens_loop member kind
    rw [bundled] at enters
    cases enters with
    | missing fresh absent =>
      rcases stands.innermost_or_found (named.symm.trans here) with own | found
      · exact fresh (here ▸ own)
      · cases absent.symm.trans found
    | noSequence fresh found other =>
      rcases stands.innermost_or_found (named.symm.trans here) with own | given
      · exact fresh (here ▸ own)
      · cases found.symm.trans given
        cases other.symm.trans (elements_ofTexts names)
    | unpaired alone =>
      rw [here, closer_leads] at alone
      cases alone
  | advancing kind advances =>
    obtain ⟨here, rfl⟩ := advances_loop member kind
    cases advances with
    | outside other => exact other (stands.innermost (named.symm.trans here))
    | unlabelled either missing =>
      obtain ⟨target, labelled⟩ := valid.exists_continueTarget member kind either
      cases missing.symm.trans labelled
  | prompting _ unbuilt =>
    obtain ⟨name, needed, -, unbound⟩ := Prompt.build_error (placeholders_of_mem member) unbuilt
    split at needed
    · cases needed
    · rename_i naming
      obtain ⟨plan, bound, -⟩ := stands.plan (named ▸ naming)
      rw [List.mem_singleton.mp needed, bound] at unbound
      cases unbound

section

variable (bundled : engine.flowchart = flowchart) {stride : Stride} {next : NodeId}
  (taken : engine.Takes stride) (leads : stride.visited.next = .node next)

include bundled taken leads

theorem loop_step (here : stride.node.id = "StartPlanLoop") (outside : stride.before.scopes = [])
    (found : stride.before.extracted.findField? "plan_names" = some (.ofTexts names)) :
    Stands names stride.visited.state next 3 0 := by
  have member : stride.node ∈ flowchart.nodes := bundled ▸ taken.member
  obtain ⟨kind, first⟩ := loop_leads stride.node member here
  obtain ⟨_, scopes, goes, state, enters⟩ := taken.enters kind
  cases leads.symm.trans goes
  rw [state]
  cases enters with
  | again own =>
    obtain ⟨scope, outer, opened, -⟩ := own
    cases outside.symm.trans opened
  | skips _ again empty complete =>
    cases found.symm.trans again
    cases (elements_ofTexts names).symm.trans empty
    rw [bundled, here, closer_leads] at complete
    cases complete
    exact .concludes outside
  | opens _ again elements nonempty =>
    cases found.symm.trans again
    cases (elements_ofTexts names).symm.trans elements
    rw [first, here, outside]
    exact @Stands.within names _ "CheckPlanDiscussed" 1 0 0 (by decide)
      (List.length_pos_of_ne_nil nonempty) rfl

theorem round_step {before behind index : Nat} (row : (stride.node.id, before, behind) ∈ round)
    (under : index < names.length)
    (opened : stride.before.scopes = [⟨"StartPlanLoop", "current_plan", names, index⟩]) :
    Stands names stride.visited.state next (2 + 5 * index + before + 1)
      (index + behind + if stride.node.id = "CheckPlanDiscussed" then 1 else 0) := by
  have member : stride.node ∈ flowchart.nodes := bundled ▸ taken.member
  by_cases start : stride.node.id = "StartPlanLoop"
  · obtain ⟨kind, first⟩ := loop_leads stride.node member start
    obtain ⟨_, scopes, goes, state, enters⟩ := taken.enters kind
    cases leads.symm.trans goes
    obtain ⟨rfl, rfl⟩ := Prod.mk.inj (round_start _ row start)
    rw [state, if_neg (by rw [start]; decide)]
    cases enters with
    | again =>
      rw [first]
      exact @Stands.within names _ "CheckPlanDiscussed" 1 0 index (by decide) under opened
    | skips fresh | opens fresh => exact absurd ⟨_, _, opened, start.symm⟩ fresh
  · by_cases last : stride.node.id = "NextPlan"
    · obtain ⟨kind, back, on⟩ := next_leads stride.node member last
      obtain ⟨label, _, scopes, goes, state, advances⟩ := taken.advances kind
      cases leads.symm.trans goes
      obtain ⟨rfl, rfl⟩ := Prod.mk.inj (round_next _ row last)
      rw [state, if_neg (by rw [last]; decide)]
      cases advances with
      | repeats innermost _ more goes =>
        cases opened.symm.trans innermost
        cases back.symm.trans goes
        have visits : 2 + 5 * index + 4 + 1 = 2 + 5 * (index + 1) + 0 := by omega
        rw [visits]
        exact @Stands.within names _ "StartPlanLoop" 0 0 (index + 1) (by decide) more rfl
      | closes innermost _ exhausted goes =>
        cases opened.symm.trans innermost
        cases on.symm.trans goes
        have whole : names.length = index + 1 := Nat.le_antisymm exhausted under
        have visits : 2 + 5 * index + 4 + 1 = max 3 (2 + 5 * names.length) := by omega
        rw [visits, Nat.add_zero, ← whole]
        exact .concludes rfl
    · have plain := isLoop_eq_false stride.node member start last
      obtain ⟨listed, same⟩ := taken.moves plain leads
      have onwards := round_leads _ row stride.node member rfl plain next listed
      rw [Nat.add_assoc (2 + 5 * index), Nat.add_assoc index]
      exact .within onwards under (same.trans opened)

theorem start_step (here : stride.node.id = "Start") : next = "ExtractPlanNames" := by
  have member : stride.node ∈ flowchart.nodes := bundled ▸ taken.member
  have plain := isLoop_eq_false stride.node member (by simp [here]) (by simp [here])
  simpa [start_leads stride.node member here] using (taken.moves plain leads).1

theorem not_concluding : stride.node.id ≠ "Conclude" := by
  intro here
  have member : stride.node ∈ flowchart.nodes := bundled ▸ taken.member
  have plain := isLoop_eq_false stride.node member (by simp [here]) (by simp [here])
  obtain ⟨target, -⟩ := taken.moves plain leads
  rw [conclude_leads stride.node member here] at target
  cases target

theorem Stands.step {id : NodeId} (named : stride.node.id = id)
    (stands : Stands names stride.before id visits asked)
    (listed : id = "ExtractPlanNames" →
      stride.visited.state.extracted.findField? "plan_names" = some (.ofTexts names)) :
    Stands names stride.visited.state next (visits + 1)
      (asked + if id = "CheckPlanDiscussed" then 1 else 0) := by
  have member : stride.node ∈ flowchart.nodes := bundled ▸ taken.member
  cases stands with
  | starts outside =>
    have plain := isLoop_eq_false stride.node member (by simp [named]) (by simp [named])
    obtain ⟨target, same⟩ := taken.moves plain leads
    rw [start_leads stride.node member named, List.mem_singleton] at target
    rw [target]
    exact .extracts (same.trans outside)
  | extracts outside =>
    have plain := isLoop_eq_false stride.node member (by simp [named]) (by simp [named])
    obtain ⟨target, same⟩ := taken.moves plain leads
    rw [extract_leads stride.node member named, List.mem_singleton] at target
    rw [target]
    exact .setsOut (same.trans outside) (listed rfl)
  | setsOut outside found => exact loop_step bundled taken leads named outside found
  | within row under opened =>
    subst named
    exact round_step bundled taken leads row under opened
  | concludes => exact absurd named (not_concluding bundled taken leads)

end

def Shown (plans : List String) (trace : Trace) : Prop :=
  (trace.filter (·.node == "CheckPlanDiscussed")).map (·.prompt) =
    plans.map fun plan => some (question plan)

def Sent (engine : Engine) (input : String) (plans : List String) (requests : List Request) :
    Prop :=
  List.Forall₂ (fun plan (request : Request) =>
    ∃ context, request.prompt = engine.framing (question plan) context input)
    plans (requests.filter (·.node == "CheckPlanDiscussed"))

/-- A review on its way: where it stands, and that it has asked about the plans so far in order. -/
structure Stage (engine : Engine) (names : List String) (input : String) (state : RunState)
    (journal : Journal) (id : NodeId) (asked : Nat) : Prop where
  stands : Stands names state id journal.trace.length asked
  same : state.input = input
  shown : Shown (names.take asked) journal.trace
  sent : Sent engine input (names.take asked) journal.requests

variable {client : Client} {earlier : List Request} {step : Nat} {node : Node} {state : RunState}
  {visited : Visited} {input : String} {journal after final : Journal}

theorem Stands.asks (stands : Stands names state node.id visits asked)
    (member : node ∈ flowchart.nodes) (here : node.id = "CheckPlanDiscussed") {prompt : Prompt}
    (built : Prompt.build engine.framing node state.scopes state.extracted state.input =
      .ok prompt) :
    ∃ plan, names.take (asked + 1) = names.take asked ++ [plan] ∧
      prompt.nodePrompt = question plan ∧
      ∃ context, prompt.text = engine.framing (question plan) context state.input := by
  obtain ⟨plan, bound, next⟩ := stands.plan (by rw [here]; decide)
  obtain ⟨renders, framed⟩ := Prompt.build_ok built
  have asks := question_of_renders member here bound renders
  refine ⟨plan, ?_, asks, _, asks ▸ framed⟩
  rw [List.take_add_one, next here, Option.toList_some]

namespace Stage

theorem shows (stage : Stage engine names input state journal node.id asked)
    (member : node ∈ flowchart.nodes)
    (settles : Settles engine client earlier step node state visited) :
    Shown (names.take (asked + if node.id = "CheckPlanDiscussed" then 1 else 0))
      (journal.trace ++ [visited.entry]) := by
  have entry : visited.entry.node = node.id := settles.entry.2.1
  have before := stage.shown
  unfold Shown at before ⊢
  rw [List.filter_append, List.map_append, before]
  split
  · rename_i here
    have kind := check_decides node member here
    obtain ⟨prompt, built, shows, -⟩ := settles.prompted (by rw [kind]; rfl)
    obtain ⟨plan, next, same, -⟩ := stage.stands.asks member here built
    simp [next, entry, here, shows, same]
  · rename_i other
    simp [entry, other]

theorem sends (stage : Stage engine names input state journal node.id asked)
    (member : node ∈ flowchart.nodes) {prompt : Prompt}
    (built : Prompt.build engine.framing node state.scopes state.extracted state.input =
      .ok prompt) (mode : Mode) :
    Sent engine input (names.take (asked + if node.id = "CheckPlanDiscussed" then 1 else 0))
      (journal.requests ++ [engine.request node prompt mode]) := by
  have before := stage.sent
  unfold Sent at before ⊢
  rw [List.filter_append]
  split
  · rename_i here
    obtain ⟨plan, next, -, framed⟩ := stage.stands.asks member here built
    have single : [engine.request node prompt mode].filter (·.node == "CheckPlanDiscussed") =
        [engine.request node prompt mode] := by
      simp [Engine.request, here]
    rw [next, single]
    exact List.rel_append before (.cons (stage.same ▸ framed) .nil)
  · rename_i other
    simpa [Engine.request, other] using before

theorem sends_settled (stage : Stage engine names input state journal node.id asked)
    (member : node ∈ flowchart.nodes) (found : engine.flowchart.node? node.id = some node)
    (settles : Settles engine client earlier step node state visited) :
    Sent engine input (names.take (asked + if node.id = "CheckPlanDiscussed" then 1 else 0))
      (journal.requests ++ (engine.request? visited.entry).toList) := by
  cases settles with
  | passed passes =>
    have other : node.id ≠ "CheckPlanDiscussed" := fun here =>
      Node.not_decides_of_silent passes.silent (check_decides node member here)
    rw [Engine.request_eq_none found passes, if_neg other]
    simpa using stage.sent
  | asked built asks _ heeds =>
    rw [Engine.request_eq_some found asks heeds]
    exact stage.sends member built _

theorem onwards (stage : Stage engine names input state journal node.id asked)
    (bundled : engine.flowchart = flowchart)
    (found : engine.flowchart.node? node.id = some node)
    (settled : engine.settle client node.id journal
      (engine.visit node journal.trace.length state) = (after, .ok visited))
    {next : NodeId} (leads : visited.next = .node next)
    (listed : node.id = "ExtractPlanNames" →
      visited.state.extracted.findField? "plan_names" = some (.ofTexts names)) :
    Stage engine names input visited.state (after.visited visited) next
      (asked + if node.id = "CheckPlanDiscussed" then 1 else 0) := by
  have valid : engine.flowchart.Valid := bundled ▸ compile_valid compiles
  have member : node ∈ flowchart.nodes := bundled ▸ List.mem_of_find?_eq_some found
  have taken := Engine.takes_of_settled found settled
  obtain ⟨settles, rfl⟩ := Engine.settle_ok valid found settled
  have stands := stage.stands.step bundled taken leads rfl listed
  have length : (journal.trace ++ [visited.entry]).length = journal.trace.length + 1 := by simp
  rw [← length] at stands
  exact ⟨stands, (settles.input_eq found).trans stage.same, stage.shows member settles,
    stage.sends_settled member found settles⟩

end Stage

theorem exists_ofTexts {value : Json} (fits : (FieldType.array .string).violation? value = none) :
    ∃ names, value = .ofTexts names := by
  obtain ⟨items, rfl, fit⟩ := FieldType.array_violation_eq_none_iff.mp fits
  have texts : ∀ item ∈ items, ∃ text, item = Json.str text := by
    intro item member
    have fits := fit item member
    cases item with
    | str text => exact ⟨text, rfl⟩
    | null | bool | num | arr | obj => simp [FieldType.violation?] at fits
  obtain ⟨names, pairs⟩ := forall₂_exists texts
  refine ⟨names, ?_⟩
  rw [Json.ofTexts, forall₂_map_eq id Json.str pairs fun _ _ same => same.symm, List.map_id]

theorem extract_yields (member : node ∈ flowchart.nodes) (named : node.id = "ExtractPlanNames")
    (settles : Settles engine client earlier step node state visited) :
    ∃ names, visited.entry.Yields names ∧
      visited.state.extracted.findField? "plan_names" = some (.ofTexts names) := by
  obtain ⟨kind, schema⟩ := extract_asks member named
  have leads := extract_leads node member named
  have asks : node.mode? = some (.structured Bundled.planNames) := by
    simp [Node.mode?, kind, schema, NodeKind.isLoop]
  cases settles with
  | passed passes => cases passes.silent.symm.trans asks
  | asked _ _ _ heeds =>
    cases heeds with
    | decided other => cases kind.symm.trans other
    | @extracted _ _ value _ _ declared conforms =>
      cases schema.symm.trans declared
      obtain ⟨-, -, passes, -⟩ := Schema.validate_ok_iff.mp conforms
      obtain ⟨found, held, fits⟩ := (passes _ List.mem_cons_self).of_required rfl
      obtain ⟨names, rfl⟩ := exists_ofTexts fits
      refine ⟨names, ⟨value.members, rfl, held⟩, ?_⟩
      have first : value.get? "plan_names" = some (.ofTexts names) := held
      simp [RunState.recordExtraction, Extractions.findField?, first]
    | concluded _ last =>
      have none : node.connections = [] := by simpa [Node.isTerminal] using last
      simp [Node.targets, none] at leads
    | replied _ _ plain => cases schema.symm.trans plain

structure Reviewed (engine : Engine) (names : List String) (input : String) (current : NodeId)
    (strides : List Stride) (ending : Ending) (final : Journal) : Prop where
  few : final.trace.length + ending.stop?.toList.length ≤ max 4 (5 * names.length + 3)
  model : ∀ stop error, ending = .failed stop error → error.isConfiguration = false
  shown : ∃ asked, Shown (names.take asked) final.trace
  sent : ∃ asked, Sent engine input (names.take asked) final.requests
  concludes : (current = "Conclude" ∨ ∃ stride ∈ strides,
    stride.node.id = "Conclude" ∨ stride.visited.entry.nextNode = some "Conclude") →
    Shown names final.trace

section

variable {runId : RunId} {remaining : Nat} {current : NodeId} {strides : List Stride}
  {ending : Ending}

theorem Reviewed.cons {stride : Stride} {next : NodeId}
    (reviewed : Reviewed engine names input next strides ending final)
    (here : stride.node.id = current) (goesOn : current ≠ "Conclude")
    (records : stride.visited.entry.nextNode = some next) :
    Reviewed engine names input current (stride :: strides) ending final := by
  refine { reviewed with concludes := ?_ }
  rintro (there | ⟨other, member, reaches⟩)
  · exact absurd there goesOn
  · rcases List.mem_cons.mp member with rfl | later
    · rcases reaches with there | leads
      · exact absurd (here.symm.trans there) goesOn
      · exact reviewed.concludes (.inl (Option.some.inj (records.symm.trans leads)))
    · exact reviewed.concludes (.inr ⟨other, later, reaches⟩)

theorem Stands.all_shown (stands : Stands names state current visits asked)
    (here : current = "Conclude") {trace : Trace} (shown : Shown (names.take asked) trace) :
    Shown names trace := by
  rwa [stands.all_asked here, List.take_length] at shown

theorem Stage.stops (stage : Stage engine names input state journal current asked)
    (trace : final.trace = journal.trace) (stop : ending.stop? = some current)
    (model : ∀ stop error, ending = .failed stop error → error.isConfiguration = false)
    (sent : ∃ asked, Sent engine input (names.take asked) final.requests) :
    Reviewed engine names input current [] ending final := by
  have few : final.trace.length + ending.stop?.toList.length ≤ max 4 (5 * names.length + 3) := by
    rw [stop, trace]
    exact stage.stands.visits_lt
  have shown := trace ▸ stage.shown
  refine ⟨few, model, ⟨asked, shown⟩, sent, ?_⟩
  rintro (here | ⟨_, ⟨⟩, -⟩)
  exact stage.stands.all_shown here shown

/-- Once its plans are listed, a review of them is seen through but for the model and the limit. -/
theorem Stage.reviewed (bundled : engine.flowchart = flowchart)
    (course : engine.Course client runId remaining current state journal strides ending final)
    (stage : Stage engine names input state journal current asked)
    (begun : 2 ≤ journal.trace.length) :
    Reviewed engine names input current strides ending final ∧
      ∀ stride ∈ strides, stride.node.id ≠ "ExtractPlanNames" := by
  have valid : engine.flowchart.Valid := bundled ▸ compile_valid compiles
  induction course generalizing asked with
  | capped => exact ⟨stage.stops rfl rfl nofun ⟨asked, stage.sent⟩, by simp⟩
  | failed found settled =>
    have member := bundled ▸ List.mem_of_find?_eq_some found
    obtain ⟨request, fails, rfl⟩ := Engine.settle_error valid found settled
    cases fails with
    | refused refuses => exact absurd refuses (stage.stands.not_refuses bundled member rfl)
    | unanswered built asks =>
      refine ⟨stage.stops rfl rfl ?_ ⟨_, stage.sends member built _⟩, by simp⟩
      rintro _ _ ⟨⟩
      rfl
  | @completed _ node state journal _ visited output found settled last =>
    have member : node ∈ flowchart.nodes := bundled ▸ List.mem_of_find?_eq_some found
    obtain ⟨settles, rfl⟩ := Engine.settle_ok valid found settled
    have few : journal.trace.length + 1 ≤ max 4 (5 * names.length + 3) := stage.stands.visits_lt
    have shown := stage.shows member settles
    refine ⟨⟨by simpa [Journal.asked_trace, Ending.stop?] using few, nofun, ⟨_, shown⟩,
      ⟨_, stage.sends_settled member found settles⟩, ?_⟩,
      by simpa using (stage.stands.later begun).2⟩
    intro reaches
    have here : node.id = "Conclude" := by
      rcases reaches with here | ⟨stride, member, here | leads⟩
      · exact here
      · rwa [List.mem_singleton.mp member] at here
      · rw [List.mem_singleton.mp member] at leads
        have ends := settles.nextNode_of_finish valid (List.mem_of_find?_eq_some found) last
        cases ends.1.symm.trans leads
    rw [if_neg (by rw [here]; decide)] at shown
    exact stage.stands.all_shown here shown
  | step found settled leads rest ih =>
    have earlier := (stage.stands.later begun).2
    have onwards := stage.onwards bundled found settled leads fun here => absurd here earlier
    have taken := Engine.takes_of_settled found settled
    obtain ⟨settles, rfl⟩ := Engine.settle_ok valid found settled
    have records := settles.nextNode_of_node valid (List.mem_of_find?_eq_some found) leads
    obtain ⟨reviewed, elsewhere⟩ := ih onwards (by simp [Journal.asked_trace]; omega)
    exact ⟨reviewed.cons rfl (not_concluding bundled taken leads) records,
      List.forall_mem_cons.mpr ⟨earlier, elsewhere⟩⟩

structure Unlisted (strides : List Stride) (ending : Ending) (final : Journal) : Prop where
  few : final.trace.length + ending.stop?.toList.length ≤ 2
  stops : ending.stop? ≠ none
  model : ∀ stop error, ending = .failed stop error → error.isConfiguration = false
  none : ∀ stride ∈ strides, stride.node.id ≠ "ExtractPlanNames"

theorem unlisted_or_reviewed (bundled : engine.flowchart = flowchart)
    (course : engine.Course client runId remaining current state journal strides ending final)
    (early : current ∈ ["Start", "ExtractPlanNames"])
    (stage : ∀ names, Stage engine names input state journal current 0) :
    Unlisted strides ending final ∨
      ∃ names, Reviewed engine names input current strides ending final ∧
        (∃ stride ∈ strides, stride.node.id = "ExtractPlanNames") ∧
        ∀ stride ∈ strides, stride.node.id = "ExtractPlanNames" →
          stride.visited.entry.Yields names := by
  have valid : engine.flowchart.Valid := bundled ▸ compile_valid compiles
  have few := (stage []).stands.early_lt early
  induction course with
  | capped => exact .inl ⟨few, nofun, nofun, by simp⟩
  | failed found settled =>
    have member := bundled ▸ List.mem_of_find?_eq_some found
    obtain ⟨request, fails, rfl⟩ := Engine.settle_error valid found settled
    cases fails with
    | refused refuses => exact absurd refuses ((stage []).stands.not_refuses bundled member rfl)
    | unanswered =>
      refine .inl ⟨few, nofun, ?_, by simp⟩
      rintro _ _ ⟨⟩
      rfl
  | @completed _ node _ _ _ _ _ found settled last =>
    have member : node ∈ flowchart.nodes := bundled ▸ List.mem_of_find?_eq_some found
    obtain ⟨settles, -⟩ := Engine.settle_ok valid found settled
    have ends := settles.nextNode_of_finish valid (List.mem_of_find?_eq_some found) last
    cases ends.2.symm.trans (early_continues node member early)
  | @step _ node next _ _ after _ visited _ _ found settled leads rest ih =>
    have member : node ∈ flowchart.nodes := bundled ▸ List.mem_of_find?_eq_some found
    have taken := Engine.takes_of_settled found settled
    obtain ⟨settles, recorded⟩ := Engine.settle_ok valid found settled
    have records := settles.nextNode_of_node valid (List.mem_of_find?_eq_some found) leads
    have onwards : ∀ names, (node.id = "ExtractPlanNames" →
        visited.state.extracted.findField? "plan_names" = some (.ofTexts names)) →
        Stage engine names input visited.state (after.visited visited) next 0 := by
      intro names listed
      have stage := (stage names).onwards bundled found settled leads listed
      rwa [if_neg (by rintro here; simp [here] at early)] at stage
    by_cases start : node.id = "Start"
    · cases start_step bundled taken leads start
      have stage := fun names => onwards names fun here => by simp [start] at here
      rcases ih (by decide) stage ((stage []).stands.early_lt (by decide)) with
        unlisted | ⟨names, reviewed, ⟨stride, later, there⟩, yields⟩
      · exact .inl { unlisted with
          none := List.forall_mem_cons.mpr ⟨by simp [start], unlisted.none⟩ }
      · exact .inr ⟨names, reviewed.cons rfl (by simp [start]) records,
          ⟨stride, List.mem_cons_of_mem _ later, there⟩,
          List.forall_mem_cons.mpr ⟨by simp [start], yields⟩⟩
    · have here : node.id = "ExtractPlanNames" := by simpa [start] using early
      obtain ⟨names, yields, listed⟩ := extract_yields member here settles
      have visits := (stage names).stands.early early
      rw [if_neg start] at visits
      have begun : 2 ≤ (after.visited visited).trace.length := by
        simp [recorded, Journal.asked_trace, visits]
      obtain ⟨reviewed, elsewhere⟩ := (onwards names fun _ => listed).reviewed bundled rest begun
      refine .inr ⟨names, reviewed.cons rfl (by simp [here]) records,
        ⟨_, List.mem_cons_self, here⟩, ?_⟩
      exact List.forall_mem_cons.mpr ⟨fun _ => yields,
        fun stride later again => absurd again (elsewhere stride later)⟩

end

end

/-- What a run shows in which these plans have been listed: so many visits at the most, a question
about one plan after the other, and a conclusion only after the last. -/
structure Reviews (engine : Engine) (names : List String) (input : String)
    (transcript : Transcript) : Prop where
  visits : transcript.visits ≤ max 4 (5 * names.length + 3)
  ends : max 4 (5 * names.length + 3) ≤ engine.config.maxSteps → transcript.UpToModel
  covered : names.length ≤ 50 → engine.config.maxSteps = ({} : EngineConfig).maxSteps →
    transcript.UpToModel
  shown : ∃ asked, Shown (names.take asked) transcript.record.traversal
  sent : ∃ asked, Sent engine input (names.take asked) transcript.requests
  concludes : ∀ entry ∈ transcript.record.traversal,
    entry.node = "Conclude" ∨ entry.nextNode = some "Conclude" →
      Shown names transcript.record.traversal

section

variable {engine : Engine} {client : Client} {stamp : RunStamp} {input : String}
  {names : List String}
  {strides : List Stride} {ending : Ending} {final : Journal}

theorem visits_le {bound : Nat}
    (course : engine.Course client stamp.runId engine.config.maxSteps engine.flowchart.start
      { input } {} strides ending final)
    (few : final.trace.length + ending.stop?.toList.length ≤ bound) :
    (engine.run client stamp input).visits ≤ bound := by
  rw [Transcript.visits, course.run_traversal, course.run_result]
  cases ending with
  | capped => exact Nat.le_of_succ_le few
  | completed => exact few
  | failed stop error =>
    cases error with
    | configuration => exact Nat.le_of_succ_le few
    | model => exact few

theorem upToModel (valid : engine.flowchart.Valid) {bound : Nat}
    (course : engine.Course client stamp.runId engine.config.maxSteps engine.flowchart.start
      { input } {} strides ending final)
    (few : final.trace.length + ending.stop?.toList.length ≤ bound)
    (model : ∀ stop error, ending = .failed stop error → error.isConfiguration = false)
    (enough : bound ≤ engine.config.maxSteps) :
    (engine.run client stamp input).UpToModel := by
  rw [Transcript.UpToModel, course.run_result]
  cases ending with
  | capped stop =>
    have visits := course.length_of_capped rfl
    rw [course.trace valid] at few
    simp only [List.nil_append, List.length_map, Ending.stop?, Option.toList_some,
      List.length_singleton] at few
    omega
  | completed => exact .inl ⟨_, rfl⟩
  | failed stop error =>
    cases error with
    | configuration => cases model stop _ rfl
    | model fault => exact .inr ⟨fault, rfl⟩

theorem Reviewed.reviews (valid : engine.flowchart.Valid)
    (course : engine.Course client stamp.runId engine.config.maxSteps engine.flowchart.start
      { input } {} strides ending final)
    (reviewed : Reviewed engine names input engine.flowchart.start strides ending final) :
    Reviews engine names input (engine.run client stamp input) := by
  have ends := upToModel valid course reviewed.few reviewed.model
  have traversal := course.run_traversal
  refine ⟨visits_le course reviewed.few, ends, ?_, ?_, ?_, ?_⟩
  · intro few default
    have enough : max 4 (5 * names.length + 3) ≤ 256 := by omega
    exact ends (default ▸ enough)
  · rw [traversal]
    exact reviewed.shown
  · rw [course.run_requests]
    exact reviewed.sent
  · rw [traversal]
    intro entry member reaches
    rw [course.trace valid] at member
    obtain ⟨stride, taken, rfl⟩ := List.mem_map.mp member
    obtain ⟨-, _, _, settles⟩ := course.settles_of_mem valid taken
    rw [settles.entry.2.1] at reaches
    exact reviewed.concludes (.inr ⟨stride, taken, reaches⟩)

end

/-- A review of the week is safe with any model. Before the plans are listed only the model can stop
it, or a limit of less than two visits. Once they are listed, it makes at most five visits for each
plan and three more, or four if there is none; with as many allowed it completes unless the model
fails; and it asks about the plans in order and concludes only after the last. -/
theorem week_review_is_safe {engine : Engine}
    (compiled : Flowchart.compile Bundled.weekReview = .ok engine.flowchart) (client : Client)
    (stamp : RunStamp) (input : String) :
    ((∀ entry ∈ (engine.run client stamp input).record.traversal,
      entry.node ≠ "ExtractPlanNames") →
      (engine.run client stamp input).visits ≤ 2 ∧
      (2 ≤ engine.config.maxSteps →
        ∃ fault, (engine.run client stamp input).result = .error (.model fault))) ∧
    ∀ entry ∈ (engine.run client stamp input).record.traversal,
      entry.node = "ExtractPlanNames" →
      (∃ names, entry.Yields names) ∧
      ∀ names, entry.Yields names →
        Reviews engine names input (engine.run client stamp input) := by
  have bundled : engine.flowchart = flowchart := Except.ok.inj (compiled.symm.trans compiles)
  have valid := compile_valid compiled
  have start : engine.flowchart.start = "Start" := by
    rw [bundled]
    rfl
  obtain ⟨ending, final, course, -, -⟩ := Engine.run_course valid client stamp input
  have node : ∀ stride ∈ engine.strides client input,
      stride.visited.entry.node = stride.node.id := by
    intro stride taken
    obtain ⟨-, _, _, settles⟩ := course.settles_of_mem valid taken
    exact settles.entry.2.1
  rw [engine.run_trace]
  have stage : ∀ names, Stage engine names input { input } {} engine.flowchart.start 0 :=
    fun names => ⟨start ▸ .starts rfl, rfl, rfl, .nil⟩
  rcases unlisted_or_reviewed bundled course (by simp [start]) stage with
    unlisted | ⟨names, reviewed, ⟨stride, taken, here⟩, yields⟩
  · constructor
    · rintro -
      refine ⟨visits_le course unlisted.few, fun enough => ?_⟩
      rcases upToModel valid course unlisted.few unlisted.model enough with
        ⟨outcome, completed⟩ | failed
      · obtain ⟨output, gathered, rfl, -⟩ := course.completed_of_ok completed
        exact absurd rfl unlisted.stops
      · exact failed
    · intro entry member there
      obtain ⟨stride, taken, rfl⟩ := List.mem_map.mp member
      exact absurd ((node stride taken).symm.trans there) (unlisted.none stride taken)
  · constructor
    · intro none
      exact absurd ((node stride taken).trans here) (none _ (List.mem_map_of_mem taken))
    · intro entry member there
      obtain ⟨stride, taken, rfl⟩ := List.mem_map.mp member
      have listed := yields stride taken ((node stride taken).symm.trans there)
      refine ⟨⟨names, listed⟩, fun others again => ?_⟩
      rw [again.unique listed]
      exact reviewed.reviews valid course

def shipped : Engine := { flowchart }

def settled : Client := fun _ request =>
  match request.mode with
  | .structured _ =>
    { content := .ok (.structured (.obj [("plan_names", .ofTexts ["Running", "Reading"])])) }
  | .decision _ =>
    let label := if request.node = "CheckSuggestedChanges" then "No" else "Yes"
    { content := .ok (.decision label "") }
  | .text => { content := .ok (.text "Have a good week.") }

def listed : Json := .obj [("plan_names", .ofTexts ["Running", "Reading"])]

-- A template is read character by character.
set_option maxRecDepth 4096 in
theorem settled_walk : (shipped.run settled RollCall.stamp "").record.traversal.map
    (fun entry => (entry.node, entry.extracted)) = [("Start", none),
      ("ExtractPlanNames", some listed), ("StartPlanLoop", none), ("CheckPlanDiscussed", none),
      ("CheckNextWeekPlans", none), ("CheckSuggestedChanges", none), ("NextPlan", none),
      ("StartPlanLoop", none), ("CheckPlanDiscussed", none), ("CheckNextWeekPlans", none),
      ("CheckSuggestedChanges", none), ("NextPlan", none), ("Conclude", none)] := by rfl

/-- A review of two plans is seen through under the limit that it is shipped with, and takes all the
visits that it may. -/
theorem two_plans_are_covered :
    Flowchart.compile Bundled.weekReview = .ok shipped.flowchart ∧
    ∃ transcript, transcript = shipped.run settled RollCall.stamp "" ∧
      (∃ entry ∈ transcript.record.traversal,
        entry.node = "ExtractPlanNames" ∧ entry.Yields ["Running", "Reading"]) ∧
      Reviews shipped ["Running", "Reading"] "" transcript ∧ transcript.UpToModel ∧
      transcript.record.traversal.length = max 4 (5 * 2 + 3) ∧
      "Conclude" ∈ transcript.record.traversal.path ∧
      Shown ["Running", "Reading"] transcript.record.traversal := by
  generalize same : shipped.run settled RollCall.stamp "" = transcript
  have walk := same ▸ settled_walk
  obtain ⟨entry, taken, extracts⟩ : ∃ entry ∈ transcript.record.traversal,
      (entry.node, entry.extracted) = ("ExtractPlanNames", some listed) := by
    rw [← List.mem_map, walk]
    simp
  obtain ⟨last, ending, concludes⟩ : ∃ entry ∈ transcript.record.traversal,
      (entry.node, entry.extracted) = ("Conclude", none) := by
    rw [← List.mem_map, walk]
    simp
  obtain ⟨node, extracted⟩ := Prod.mk.inj extracts
  obtain ⟨lastNode, -⟩ := Prod.mk.inj concludes
  have yields : entry.Yields ["Running", "Reading"] := ⟨_, extracted, rfl⟩
  have reviews := ((@week_review_is_safe shipped compiles settled RollCall.stamp "").2
    entry (same ▸ taken) node).2 _ yields
  rw [same] at reviews
  refine ⟨compiles, _, rfl, ⟨entry, taken, node, yields⟩, reviews,
    reviews.covered (by decide) rfl, by simpa using congrArg List.length walk,
    List.mem_map.mpr ⟨last, ending, lastNode⟩, reviews.concludes last ending (.inl lastNode)⟩

end WeekReview

end Colloquy
