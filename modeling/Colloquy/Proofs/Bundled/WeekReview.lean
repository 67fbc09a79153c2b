import Colloquy.Persona.Bundled
import Colloquy.Proofs.Flowchart.Valid
import Colloquy.Proofs.Template

/-!
The flowchart that goes through the plans of the user one by one, and what there is to know of it:
where each node leads, which prompts name a plan, and how far a node lies into the round that every
plan takes.
-/

namespace Colloquy.WeekReview

def kinds : List NodeKind := [
  .plain, .extraction, .loopStart "current_plan" "plan_names", .decision, .plain, .decision, .plain,
  .decision, .extraction, .plain, .loopContinue "StartPlanLoop", .plain]

def flowchart : Flowchart where
  nodes := List.zipWith (fun spec kind => {
    id := spec.id
    template := spec.text
    connections := spec.connections.map fun (label, target) => ⟨label, target⟩
    schema := spec.schema
    temperature := spec.temperature.getD Outline.defaultTemperature
    kind }) Bundled.weekReview kinds
  start := "Start"

def unnamed : List NodeId := [
  "Start", "ExtractPlanNames", "StartPlanLoop", "InformTheUserAboutTheChanges", "NextPlan",
  "Conclude"]

theorem placeholders_eq :
    flowchart.nodes.map (fun node => (node.id, Template.placeholders node.template)) =
      (Bundled.weekReview.map (·.id)).map fun id =>
        (id, some (if id ∈ unnamed then [] else ["current_plan"])) := by
  simp only [flowchart, Bundled.weekReview, kinds, List.zipWith, List.map, Template.placeholders,
    Template.segments, Template.hole, String.toList_append]
  repeat rw [String.toList_ofList]
  rfl

variable {node : Node}

theorem placeholders_of_mem (member : node ∈ flowchart.nodes) :
    Template.placeholders node.template =
      some (if node.id ∈ unnamed then [] else ["current_plan"]) := by
  have row := List.mem_map_of_mem (f := fun node => (node.id, Template.placeholders node.template))
    member
  rw [placeholders_eq] at row
  obtain ⟨id, -, same⟩ := List.mem_map.mp row
  obtain ⟨rfl, placeholders⟩ := Prod.mk.inj same
  exact placeholders.symm

theorem compiles : Flowchart.compile Bundled.weekReview = .ok flowchart := by
  simp only [Flowchart.compile, bind_ok_iff]
  refine ⟨(), rfl, (), rfl, _, rfl, _, rfl, _, rfl, (), rfl, (), ?_, (), ?_, rfl⟩
  · exact Flowchart.checkCycles_of_order [
      "Start", "ExtractPlanNames", "StartPlanLoop", "CheckPlanDiscussed", "AskToDiscussPlan",
      "CheckNextWeekPlans", "AskNextWeekPlans", "CheckSuggestedChanges", "SuggestedChanges",
      "InformTheUserAboutTheChanges", "NextPlan", "Conclude"] (by decide)
  · refine forM_ok_iff.mpr fun node member => Flowchart.checkTemplate_ok_iff.mpr ?_
    refine ⟨_, placeholders_of_mem member, ?_⟩
    split
    · exact List.forall_mem_nil _
    · decide

/-! What the nodes do and where they lead. -/

theorem extract_asks (member : node ∈ flowchart.nodes) (named : node.id = "ExtractPlanNames") :
    node.kind = .extraction ∧ node.schema = some Bundled.planNames := by
  simp only [flowchart, kinds, Bundled.weekReview, List.zipWith, List.mem_cons, List.not_mem_nil,
    or_false] at member
  rcases member with rfl | rfl | rfl | rfl | rfl | rfl | rfl | rfl | rfl | rfl | rfl | rfl
  case inr.inl => exact ⟨rfl, rfl⟩
  all_goals simp at named

theorem check_decides : ∀ node ∈ flowchart.nodes, node.id = "CheckPlanDiscussed" →
    node.kind = .decision := by decide

theorem isLoop_eq_false : ∀ node ∈ flowchart.nodes, node.id ≠ "StartPlanLoop" →
    node.id ≠ "NextPlan" → node.kind.isLoop = false := by decide

theorem start_leads : ∀ node ∈ flowchart.nodes, node.id = "Start" →
    node.targets = ["ExtractPlanNames"] := by decide

theorem extract_leads : ∀ node ∈ flowchart.nodes, node.id = "ExtractPlanNames" →
    node.targets = ["StartPlanLoop"] := by decide

theorem early_continues : ∀ node ∈ flowchart.nodes, node.id ∈ ["Start", "ExtractPlanNames"] →
    node.isTerminal = false := by decide

theorem loop_leads : ∀ node ∈ flowchart.nodes, node.id = "StartPlanLoop" →
    node.kind = .loopStart "current_plan" "plan_names" ∧
      node.firstTarget? = some "CheckPlanDiscussed" := by decide

theorem next_leads : ∀ node ∈ flowchart.nodes, node.id = "NextPlan" →
    node.kind = .loopContinue "StartPlanLoop" ∧ node.hasMoreTarget? = some "StartPlanLoop" ∧
      node.completeTarget? = some "Conclude" := by decide

theorem opens_loop (member : node ∈ flowchart.nodes) {iterator field : String}
    (kind : node.kind = .loopStart iterator field) :
    node.id = "StartPlanLoop" ∧ iterator = "current_plan" ∧ field = "plan_names" := by
  have here : node.id = "StartPlanLoop" :=
    (by decide : ∀ node ∈ flowchart.nodes, node.kind.name = "loop_start" →
      node.id = "StartPlanLoop") node member (by rw [kind]; rfl)
  cases kind.symm.trans (loop_leads node member here).1
  exact ⟨here, rfl, rfl⟩

theorem advances_loop (member : node ∈ flowchart.nodes) {owner : NodeId}
    (kind : node.kind = .loopContinue owner) :
    node.id = "NextPlan" ∧ owner = "StartPlanLoop" := by
  have here : node.id = "NextPlan" :=
    (by decide : ∀ node ∈ flowchart.nodes, node.kind.name = "loop_continue" →
      node.id = "NextPlan") node member (by rw [kind]; rfl)
  cases kind.symm.trans (next_leads node member here).1
  exact ⟨here, rfl⟩

theorem closer_leads :
    (flowchart.closer? "StartPlanLoop").bind Node.completeTarget? = some "Conclude" := by decide

theorem conclude_leads : ∀ node ∈ flowchart.nodes, node.id = "Conclude" → node.targets = [] := by
  decide

/-- The nodes that a plan may be taken through, each with the visits that the plan has had by then
and with whether it has been asked about. -/
def round : List (NodeId × Nat × Nat) := [
  ("StartPlanLoop", 0, 0), ("CheckPlanDiscussed", 1, 0), ("AskToDiscussPlan", 2, 1),
  ("CheckNextWeekPlans", 2, 1), ("AskNextWeekPlans", 3, 1), ("CheckSuggestedChanges", 3, 1),
  ("SuggestedChanges", 4, 1), ("NextPlan", 4, 1), ("InformTheUserAboutTheChanges", 5, 1)]

theorem round_start : ∀ row ∈ round, row.1 = "StartPlanLoop" → row.2 = (0, 0) := by decide

theorem round_check : ∀ row ∈ round, row.1 = "CheckPlanDiscussed" → row.2 = (1, 0) := by decide

theorem round_next : ∀ row ∈ round, row.1 = "NextPlan" → row.2 = (4, 1) := by decide

theorem round_before : ∀ row ∈ round, row.2.1 ≤ 5 := by decide

theorem round_goes_on : ∀ row ∈ round, row.1 ∉ ["Start", "ExtractPlanNames", "Conclude"] := by
  decide

theorem round_leads : ∀ row ∈ round, ∀ node ∈ flowchart.nodes, node.id = row.1 →
    node.kind.isLoop = false → ∀ next ∈ node.targets,
      (next, row.2.1 + 1, row.2.2 + if row.1 = "CheckPlanDiscussed" then 1 else 0) ∈ round := by
  decide

/-! The question that every plan is asked about with. -/

def opening : String :=
  "Based exclusively on the very conversation, have you asked the user to " ++
    "specifically discuss '"

def closing : String := "' and the user accepted?"

def question (plan : String) : String := opening ++ plan ++ closing

theorem template_eq (member : node ∈ flowchart.nodes) (named : node.id = "CheckPlanDiscussed") :
    node.template = opening ++ Template.hole "current_plan" ++ closing := by
  simp only [flowchart, kinds, Bundled.weekReview, List.zipWith, List.mem_cons, List.not_mem_nil,
    or_false] at member
  rcases member with rfl | rfl | rfl | rfl | rfl | rfl | rfl | rfl | rfl | rfl | rfl | rfl
  case inr.inr.inr.inl => rfl
  all_goals simp at named

theorem segments_eq (member : node ∈ flowchart.nodes) (named : node.id = "CheckPlanDiscussed") :
    Template.segments node.template = some [
      .literal opening.toList, .placeholder "current_plan".toList, .literal closing.toList] := by
  have plain : '$' ∉ opening.toList := by
    unfold opening
    rw [String.toList_append, String.toList_ofList, String.toList_ofList]
    decide
  have plainAfter : '$' ∉ closing.toList := by
    unfold closing
    rw [String.toList_ofList]
    decide
  rw [template_eq member named]
  exact Template.segments_of_hole plain (by decide) plainAfter

theorem question_of_renders (member : node ∈ flowchart.nodes)
    (named : node.id = "CheckPlanDiscussed") {bound : String → Option String} {plan text : String}
    (known : bound "current_plan" = some plan)
    (renders : Template.Renders bound node.template text) : text = question plan := by
  obtain ⟨parts, texts, split, -, filled, rfl⟩ := renders
  cases (segments_eq member named).symm.trans split
  simp only [List.mapM_cons, List.mapM_nil, Segment.filled?, String.ofList_toList, known] at filled
  cases filled
  simp [question, String.join]

end Colloquy.WeekReview
