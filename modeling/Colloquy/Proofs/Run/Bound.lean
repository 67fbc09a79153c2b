import Colloquy.Proofs.Extraction
import Colloquy.Proofs.Run.Course
import Colloquy.Proofs.Run.Measure

/-!
Runs end by themselves. Where loops are nested and go back to where they begin, and the model
answers with no more than so many elements at a time, each loop multiplies the number of visits by
its turns at most. The limit on visits is then never what ends a run.
-/

namespace Colloquy

/-- The second value is the first one or stands in it, at any depth. -/
inductive Json.Holds : Json → Json → Prop
  | self {value : Json} : Holds value value
  | item {items : List Json} {item value : Json} (member : item ∈ items)
      (holds : Holds item value) : Holds (.arr items) value
  | member {members : Members} {entry : String × Json} {value : Json} (member : entry ∈ members)
      (holds : Holds entry.2 value) : Holds (.obj members) value

def Client.AnswersWithin (client : Client) (most : Nat) : Prop :=
  ∀ earlier request value, (client earlier request).content = .ok (.structured value) →
    ∀ items, value.Holds (.arr items) → items.length ≤ most

def Extractions.Short (most : Nat) (extractions : Extractions) : Prop :=
  ∀ entry ∈ extractions.log, ∀ field items, entry.2.get? field = some (.arr items) →
    items.length ≤ most

theorem StructuredValue.holds_of_get {value : StructuredValue} {field : String} {part : Json}
    (found : value.get? field = some part) : value.toJson.Holds part := by
  obtain ⟨entry, first, rfl⟩ := Option.map_eq_some_iff.mp found
  exact .member (List.mem_of_find?_eq_some first) .self

theorem LoopScope.elements_length {value : Json} {collection : List String}
    (elements : elements? value = some collection) :
    ∃ items, value = .arr items ∧ collection.length = items.length := by
  cases value with
  | arr items => exact ⟨items, rfl, mapM_some_length elements⟩
  | null | bool | num | str | obj => cases elements

namespace Extractions.Short

variable {most : Nat} {extractions : Extractions}

theorem record {node : NodeId} {value : StructuredValue} (short : extractions.Short most)
    (few : ∀ field items, value.get? field = some (.arr items) → items.length ≤ most) :
    (extractions.record node value).Short most := by
  intro entry member
  rw [log_record] at member
  rcases List.mem_append.mp member with earlier | latest
  · exact short entry earlier
  · obtain rfl := List.mem_singleton.mp latest
    exact few

theorem elements_le {field : String} {value : Json} {collection : List String}
    (short : extractions.Short most) (found : extractions.findField? field = some value)
    (elements : LoopScope.elements? value = some collection) : collection.length ≤ most := by
  obtain ⟨entry, member, got⟩ := List.exists_of_findSome?_eq_some found
  obtain ⟨items, rfl, same⟩ := LoopScope.elements_length elements
  rw [same]
  exact short entry (List.mem_reverse.mp member) field items got

end Extractions.Short

theorem Answer.within_ok {answer : Answer} {node : NodeId} {deadline : Option Duration}
    {response : Response} (arrives : answer.within node deadline = .ok response) :
    answer.content = .ok response := by
  unfold within at arrives
  split at arrives
  · cases arrives
  · exact arrives

section

variable {engine : Engine} {client : Client} {most : Nat}

theorem Settles.short {earlier : List Request} {step : Nat} {node : Node} {state : RunState}
    {visited : Visited} (settles : Settles engine client earlier step node state visited)
    (answers : client.AnswersWithin most) (before : state.extracted.Short most) :
    visited.state.extracted.Short most := by
  cases settles with
  | passed passes => cases passes <;> exact before
  | asked _ _ answered heeds =>
    cases heeds with
    | decided | concluded | replied => exact before
    | extracted _ _ _ conforms =>
      refine before.record ?_
      intro field items got
      have holds := StructuredValue.holds_of_get got
      rw [(Schema.validate_ok conforms).2] at holds
      exact answers _ _ _ (Answer.within_ok answered) items holds

namespace Shifts

variable {flowchart : Flowchart} {stride : Stride} {next : NodeId}

theorem few (shifts : Shifts flowchart stride next) (short : stride.before.extracted.Short most)
    (before : ∀ scope ∈ stride.before.scopes, scope.collection.length ≤ most) :
    ∀ scope ∈ stride.visited.state.scopes, scope.collection.length ≤ most := by
  cases shifts with
  | keeps same => exact same ▸ before
  | opens _ opens after =>
    obtain ⟨field, value, -, found, elements⟩ := opens.snapshot
    rw [after]
    exact List.forall_mem_cons.mpr ⟨short.elements_le found elements, before⟩
  | repeats innermost after =>
    rw [innermost, List.forall_mem_cons] at before
    rw [after]
    exact List.forall_mem_cons.mpr before
  | closes innermost after =>
    rw [innermost, List.forall_mem_cons] at before
    rw [after]
    exact before.2

end Shifts

theorem Gauged.step {stride : Stride} {next : NodeId} (valid : engine.flowchart.Valid)
    (taken : engine.Takes stride) (shifts : Shifts engine.flowchart stride next)
    (short : stride.before.extracted.Short most) (leads : stride.visited.next = .node next)
    (gauged : Gauged engine.flowchart most stride.node.id stride.before) :
    Gauged engine.flowchart most next stride.visited.state := by
  have underway : stride.before.Underway := fun scope opened => (gauged.small scope opened).1
  have few := shifts.few short fun scope opened => (gauged.small scope opened).2
  exact {
    declared := taken.leads_inside valid leads
    stacked := shifts.stacked valid gauged.declared gauged.stacked
    owned := taken.owned gauged.owned
    small := fun scope opened => ⟨taken.underway underway scope opened, few scope opened⟩ }

namespace Engine.Course

variable {runId : RunId} {remaining : Nat} {current : NodeId} {state : RunState}
  {journal final : Journal} {strides : List Stride} {ending : Ending}

/-- A course makes no more visits than progress is left, the one that it stops before included. -/
theorem length_le (valid : engine.flowchart.Valid) (inside : engine.flowchart.StaysInside)
    (nested : engine.flowchart.Nested) (answers : client.AnswersWithin most)
    (course : engine.Course client runId remaining current state journal strides ending final)
    (gauged : Gauged engine.flowchart most current state) (short : state.extracted.Short most) :
    strides.length + ending.stop?.toList.length +
        engine.flowchart.progress most current state.scopes ≤
      engine.flowchart.size * (most + 1) ^ engine.flowchart.loopStarts.length := by
  induction course with
  | capped | failed | completed =>
    have below := gauged.progress_lt valid
    simp only [Ending.stop?, Option.toList, List.length_cons, List.length_nil]
    omega
  | step found settled leads rest ih =>
    have taken := takes_of_settled found settled
    obtain ⟨settles, -⟩ := settle_ok valid found settled
    have shifts := taken.shifts valid inside nested leads
    have further := shifts.progress_lt valid gauged
    have visits := ih (gauged.step valid taken shifts short leads) (settles.short answers short)
    rw [List.length_cons]
    dsimp only at further
    omega

end Engine.Course

end

def Flowchart.Homeward (flowchart : Flowchart) : Prop :=
  ∀ closer ∈ flowchart.nodes, ∀ owner, closer.kind = .loopContinue owner →
    closer.hasMoreTarget? = some owner ∨
      closer.hasMoreTarget? = (flowchart.node? owner).bind Node.firstTarget?

section

variable {engine : Engine} {specs : List NodeSpec}

theorem staysInside_of_homeward (compiled : Flowchart.compile specs = .ok engine.flowchart)
    (homeward : engine.flowchart.Homeward) : engine.flowchart.StaysInside := by
  have valid := compile_valid compiled
  intro closer member owner target kind back
  rcases homeward closer member owner kind with home | body
  · exact .inl (Option.some.inj (back.symm.trans home))
  · obtain ⟨start, listed, rfl, iterator, field, starts⟩ := compile_owner compiled member kind
    have found := (Flowchart.node_some_iff valid.ids).mpr ⟨listed, rfl⟩
    obtain ⟨connection, declared, first⟩ :=
      Node.exists_firstTarget (valid.start_continues listed starts)
    rw [back, found, Option.bind_some, first] at body
    rw [Option.some.inj body]
    have ahead := valid.ahead_of_connection listed declared (by simp [Node.isLoopContinue, starts])
    exact .inr (valid.later_of_ahead ahead)

/-- Where every loop continue lies ahead of its loop start and goes back to it or into its body, and
no answer has more than so many items in an array, a run makes at most as many visits as there are
nodes for every choice of turns in all loops. A run that fails has made one more than its trace
records. -/
theorem runs_end (compiled : Flowchart.compile specs = .ok engine.flowchart)
    (homeward : engine.flowchart.Homeward) (nested : engine.flowchart.Nested) {client : Client}
    {most : Nat} (answers : client.AnswersWithin most) (stamp : RunStamp) (input : String) :
    let bound := engine.flowchart.size * (most + 1) ^ engine.flowchart.loopStarts.length
    (engine.run client stamp input).record.traversal.length ≤ bound ∧
    (∀ error, (engine.run client stamp input).result = .error error →
      (engine.run client stamp input).record.traversal.length + 1 ≤ bound) ∧
    (bound ≤ engine.config.maxSteps → ∀ limit,
      (engine.run client stamp input).result ≠ .error (.configuration (.stepLimit limit))) := by
  have valid := compile_valid compiled
  have inside := staysInside_of_homeward compiled homeward
  obtain ⟨ending, final, course, -, result⟩ := engine.run_course valid client stamp input
  have start : Gauged engine.flowchart most engine.flowchart.start { input } :=
    ⟨valid.start, ⟨.nil, by simp⟩, by simp [RunState.Owned], by simp [RunState.Small]⟩
  have visits := course.length_le valid inside nested answers start (by simp [Extractions.Short])
  rw [engine.run_trace, List.length_map]
  refine ⟨by omega, ?_, ?_⟩
  · intro error failed
    have stopped : ending.stop?.toList.length = 1 := by
      cases ending with
      | capped | failed => rfl
      | completed => cases (result error).mp failed
    omega
  · intro enough limit limited
    obtain ⟨stop, rfl⟩ := course.capped_of_limit valid ((result _).mp limited)
    have all := course.length_of_capped rfl
    have stopped : (Ending.capped stop).stop?.toList.length = 1 := rfl
    omega

end

theorem Grid.client_answersWithin : Grid.client.AnswersWithin 2 := by
  intro earlier request value answered items holds
  have same : value = .obj [("items", .arr [.str "a", .str "b"])] := by
    unfold client at answered
    split at answered <;> cases answered
    rfl
  subst same
  cases holds with
  | member entry holds =>
    obtain rfl := List.mem_singleton.mp entry
    cases holds with
    | self => exact Nat.le_refl 2
    | item text holds =>
      simp only [List.mem_cons, List.not_mem_nil, or_false] at text
      rcases text with rfl | rfl <;> cases holds

theorem grid_ends :
    Flowchart.compile (grid "cells") = .ok (Grid.engine "cells" 63).flowchart ∧
    (Grid.flowchart "cells").Homeward ∧ (Grid.flowchart "cells").Nested ∧
    Grid.client.AnswersWithin 2 ∧
    ((Grid.engine "cells" 63).run Grid.client RollCall.stamp "").record.traversal.length ≤ 63 ∧
    ∀ limit, ((Grid.engine "cells" 63).run Grid.client RollCall.stamp "").result ≠
      .error (.configuration (.stepLimit limit)) := by
  have homeward : (Grid.flowchart "cells").Homeward := by
    intro closer member owner kind
    obtain ⟨target, back⟩ := (compile_valid (Grid.compiles (.inl rfl) 63)).exists_continueTarget
      member kind (.inl rfl)
    have home := Grid.returns closer member owner target kind back
    exact .inl (home ▸ back)
  obtain ⟨visits, -, unlimited⟩ := runs_end (Grid.compiles (.inl rfl) 63) homeward Grid.nested
    Grid.client_answersWithin RollCall.stamp ""
  have bound : (Grid.flowchart "cells").size *
      (2 + 1) ^ (Grid.flowchart "cells").loopStarts.length = 63 := by rfl
  exact ⟨Grid.compiles (.inl rfl) 63, homeward, Grid.nested, Grid.client_answersWithin,
    visits.trans_eq bound, unlimited bound.le⟩

end Colloquy
