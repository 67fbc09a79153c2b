import Colloquy.Proofs.Run.Prompts

/-!
The limit of a run only cuts it off. With more visits allowed a run does what it did, and goes on
only where it had to stop.
-/

namespace Colloquy

def Engine.withLimit (engine : Engine) (limit : Nat) : Engine :=
  { engine with config := { engine.config with maxSteps := limit } }

/-- How a run under a limit compares with one of the same client that may make more visits. -/
structure Transcript.CutOff (short long : Transcript) (limit : Nat) : Prop where
  whole : (∀ count, short.result ≠ .error (.configuration (.stepLimit count))) →
    long.result = short.result.map ({ · with runId := long.record.runId }) ∧
    long.record.traversal = short.record.traversal ∧ long.requests = short.requests
  cut : ∀ count, short.result = .error (.configuration (.stepLimit count)) →
    count = limit ∧ short.record.traversal.length = limit ∧
    short.record.traversal <+: long.record.traversal ∧ short.requests <+: long.requests
  enough : ∀ outcome, long.result = .ok outcome → outcome.trace.length ≤ limit →
    short.result = .ok { outcome with runId := short.record.runId }

namespace Engine

theorem settle_withLimit (engine : Engine) (limit : Nat) :
    (engine.withLimit limit).settle = engine.settle := by
  funext client node journal visit
  cases visit <;> rfl

theorem visit_withLimit (engine : Engine) (limit : Nat) :
    (engine.withLimit limit).visit = engine.visit := rfl

namespace Course

variable {engine : Engine} {client : Client} {runId : RunId} {remaining : Nat} {current : NodeId}
  {state : RunState} {journal final : Journal} {strides : List Stride} {ending : Ending}

theorem length_le_of_free
    (course : engine.Course client runId remaining current state journal strides ending final)
    (free : ∀ stop, ending ≠ .capped stop) :
    strides.length + ending.stop?.toList.length ≤ remaining := by
  induction course with
  | capped => exact absurd rfl (free _)
  | failed => exact Nat.succ_le_succ (Nat.zero_le _)
  | completed => exact Nat.succ_le_succ (Nat.zero_le _)
  | step found settled leads rest ih =>
    rw [List.length_cons, Nat.succ_add]
    exact Nat.succ_le_succ (ih free)

theorem withLimit (course : engine.Course client runId remaining current state journal strides
      ending final) (limit : Nat) (other : RunId) {left : Nat}
    (free : ∀ stop, ending ≠ .capped stop)
    (enough : strides.length + ending.stop?.toList.length ≤ left) :
    (engine.withLimit limit).Course client other left current state journal strides ending
      final := by
  induction course generalizing left with
  | capped => exact absurd rfl (free _)
  | failed found settled =>
    obtain ⟨left, rfl⟩ := Nat.exists_eq_succ_of_ne_zero (Nat.ne_of_gt enough)
    rw [← engine.settle_withLimit limit, ← engine.visit_withLimit limit] at settled
    exact .failed found settled
  | completed found settled last =>
    obtain ⟨left, rfl⟩ := Nat.exists_eq_succ_of_ne_zero (Nat.ne_of_gt enough)
    rw [← engine.settle_withLimit limit, ← engine.visit_withLimit limit] at settled
    exact .completed found settled last
  | step found settled leads rest ih =>
    rw [List.length_cons, Nat.succ_add] at enough
    obtain ⟨left, rfl⟩ := Nat.exists_eq_succ_of_ne_zero (Nat.ne_zero_of_lt enough)
    rw [← engine.settle_withLimit limit, ← engine.visit_withLimit limit] at settled
    exact .step found settled leads (ih free (Nat.le_of_succ_le_succ enough))

/-- A run that has come to its limit could go on from there. -/
theorem resumes (valid : engine.flowchart.Valid) (limit : Nat) (other : RunId) {stop : NodeId}
    (course : engine.Course client runId remaining current state journal strides
      (.capped stop) final) (inside : current ∈ engine.flowchart.ids) :
    stop ∈ engine.flowchart.ids ∧ ∃ gathered behind,
      final = behind.emit [.diagnostic (engine.capNotice runId stop)] ∧
      ∀ left more ending whole,
        (engine.withLimit limit).Course client other left stop gathered behind more ending whole →
        (engine.withLimit limit).Course client other (remaining + left) current state journal
          (strides ++ more) ending whole := by
  generalize capped : Ending.capped stop = ending at course
  -- Induction on the strides: each is put before whatever course goes on from where they end.
  induction course with
  | @capped _ gathered behind =>
    cases capped
    refine ⟨inside, gathered, behind, rfl, ?_⟩
    intro left more ending whole rest
    rwa [Nat.zero_add]
  | failed | completed => cases capped
  | step found settled leads rest ih =>
    have onwards := (takes_of_settled found settled).leads_inside valid leads
    obtain ⟨within, gathered, behind, noticed, goesOn⟩ := ih onwards capped
    refine ⟨within, gathered, behind, noticed, ?_⟩
    intro left more ending whole further
    rw [← engine.settle_withLimit limit, ← engine.visit_withLimit limit] at settled
    rw [Nat.succ_add]
    exact .step found settled leads (goesOn left more ending whole further)

end Course

end Engine

section

variable {engine : Engine} {specs : List NodeSpec}

namespace Engine.Course

variable {client : Client} {stamp : RunStamp} {input : String} {strides : List Stride}
  {ending : Ending} {final : Journal}

/-- A run that its limit does not stop shows the same under any limit that leaves it its visits. -/
theorem same_of_free
    (course : engine.Course client stamp.runId engine.config.maxSteps engine.flowchart.start
      { input } {} strides ending final)
    (free : ∀ stop, ending ≠ .capped stop) (other : RunStamp) {limit : Nat}
    (enough : strides.length + ending.stop?.toList.length ≤ limit) :
    ((engine.withLimit limit).run client other input).result =
      (engine.run client stamp input).result.map ({ · with runId := other.runId }) ∧
    ((engine.withLimit limit).run client other input).record.traversal =
      (engine.run client stamp input).record.traversal ∧
    ((engine.withLimit limit).run client other input).requests =
      (engine.run client stamp input).requests := by
  have again : (engine.withLimit limit).Course client other.runId limit engine.flowchart.start
      { input } {} strides ending final := course.withLimit limit other.runId free enough
  refine ⟨?_, again.run_traversal.trans course.run_traversal.symm,
    again.run_requests.trans course.run_requests.symm⟩
  rw [course.run_result, Course.run_result again]
  cases ending with
  | capped stop => exact absurd rfl (free stop)
  | failed | completed => rfl

/-- A run that its limit stops has begun what any longer one does. -/
theorem begun_of_capped (valid : engine.flowchart.Valid) {stop : NodeId}
    (course : engine.Course client stamp.runId engine.config.maxSteps engine.flowchart.start
      { input } {} strides (.capped stop) final) (other : RunStamp) {limit : Nat}
    (higher : engine.config.maxSteps ≤ limit) :
    (engine.run client stamp input).record.traversal <+:
      ((engine.withLimit limit).run client other input).record.traversal ∧
    (engine.run client stamp input).requests <+:
      ((engine.withLimit limit).run client other input).requests := by
  have longValid : (engine.withLimit limit).flowchart.Valid := valid
  obtain ⟨left, split⟩ := Nat.exists_eq_add_of_le higher
  obtain ⟨inside, gathered, behind, rfl, further⟩ :=
    course.resumes valid limit other.runId valid.start
  obtain ⟨ending, rest, -⟩ :=
    (engine.withLimit limit).drive_course longValid client other.runId left gathered behind inside
  have longer := further left _ _ _ rest
  rw [← split] at longer
  obtain ⟨last, sent, -⟩ := rest.requests longValid
  constructor
  · rw [course.run_traversal, Course.run_traversal longer, course.trace valid,
      longer.trace longValid, List.map_append, ← List.append_assoc]
    exact List.prefix_append _ _
  · rw [course.run_requests, Course.run_requests longer, sent, List.append_assoc]
    exact List.prefix_append _ _

end Engine.Course

/-- The limit only cuts runs off: a run that it does not stop is the same under any higher limit,
and one that it stops has done as many visits as it allows, the first ones of any longer run. -/
theorem limit_only_cuts_off (compiled : Flowchart.compile specs = .ok engine.flowchart)
    (client : Client) (stamp other : RunStamp) (input : String) {limit : Nat}
    (higher : engine.config.maxSteps ≤ limit) :
    (engine.run client stamp input).CutOff ((engine.withLimit limit).run client other input)
      engine.config.maxSteps := by
  have valid := compile_valid compiled
  have longValid : (engine.withLimit limit).flowchart.Valid := valid
  obtain ⟨ending, final, course, -, result⟩ := Engine.run_course valid client stamp input
  refine ⟨?_, ?_, ?_⟩
  · intro unlimited
    have free : ∀ stop, ending ≠ .capped stop := by
      rintro stop rfl
      exact unlimited _ ((result _).mpr rfl)
    exact course.same_of_free free other ((course.length_le_of_free free).trans higher)
  · intro count limited
    have limited := (result _).mp limited
    obtain ⟨stop, rfl⟩ := course.capped_of_limit valid limited
    cases limited
    have visits : (engine.run client stamp input).record.traversal.length =
        engine.config.maxSteps := by
      rw [Engine.run_trace, List.length_map]
      exact course.length_of_capped rfl
    exact ⟨rfl, visits, course.begun_of_capped valid other higher⟩
  · intro outcome completed few
    obtain ⟨ending, final, longer, -, -⟩ := Engine.run_course longValid client other input
    obtain ⟨output, gathered, rfl, rfl⟩ := longer.completed_of_ok completed
    have visits : ((engine.withLimit limit).strides client input).length ≤
        engine.config.maxSteps := by
      have whole := congrArg List.length (longer.trace longValid)
      simp only [List.nil_append, List.length_map] at whole
      exact whole ▸ few
    have same := (longer.same_of_free (by simp) stamp visits).1
    rw [completed] at same
    exact same

end

theorem interview_cut_off :
    Flowchart.compile interview = .ok (Interview.engine.withLimit 9).flowchart ∧
    ((Interview.engine.withLimit 9).run Interview.client RollCall.stamp "Hi").result =
      .error (.configuration (.stepLimit 9)) ∧
    ((Interview.engine.withLimit 9).run Interview.client RollCall.stamp "Hi").CutOff
      ((Interview.engine.withLimit 10).run Interview.client RollCall.stamp "Hi") 9 ∧
    ((Interview.engine.withLimit 10).run Interview.client RollCall.stamp "Hi").result.map
      (·.trace.length) = .ok 10 ∧
    ((Interview.engine.withLimit 10).run Interview.client RollCall.stamp "Hi").CutOff
      (Interview.engine.run Interview.client RollCall.stamp "Hi") 10 := by
  have nine : Flowchart.compile interview = .ok (Interview.engine.withLimit 9).flowchart :=
    Interview.compiles
  have ten : Flowchart.compile interview = .ok (Interview.engine.withLimit 10).flowchart :=
    Interview.compiles
  exact ⟨nine, rfl, limit_only_cuts_off nine Interview.client RollCall.stamp RollCall.stamp "Hi"
    (by decide : 9 ≤ 10), rfl, limit_only_cuts_off ten Interview.client RollCall.stamp
    RollCall.stamp "Hi" (by decide : 10 ≤ 256)⟩

end Colloquy
