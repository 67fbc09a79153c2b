import Colloquy.Proofs.Flowchart.Valid
import Colloquy.Proofs.Run.Walk

/-!
Loops run through their collections. A scope that is opened stays where it is on the stack, whatever
opens and closes above it, and moves on by one element at each turn of its own loop continue until
the last element is done.
-/

namespace Colloquy

/-- Every open loop has reached one of its elements. -/
def RunState.Underway (state : RunState) : Prop :=
  ∀ scope ∈ state.scopes, scope.index < scope.collection.length

theorem Engine.Takes.underway {engine : Engine} {stride : Stride} (taken : engine.Takes stride)
    (before : stride.before.Underway) : stride.visited.state.Underway := by
  cases taken.comes with
  | entered kind enters leads after =>
    rw [after]
    cases enters with
    | again | skips => exact before
    | opens fresh found elements nonempty =>
      exact List.forall_mem_cons.mpr ⟨List.length_pos_of_ne_nil nonempty, before⟩
  | advanced kind advances leads after =>
    rw [after]
    cases advances with
    | repeats innermost own more =>
      rw [RunState.Underway, innermost, List.forall_mem_cons] at before
      exact List.forall_mem_cons.mpr ⟨more, before.2⟩
    | closes innermost =>
      rw [RunState.Underway, innermost, List.forall_mem_cons] at before
      exact before.2
  | proceeded kind proceeds =>
    rw [RunState.Underway, proceeds.scopes_eq]
    exact before

structure Stride.Opens (stride : Stride) (scope : LoopScope) : Prop where
  owner : scope.owner = stride.node.id
  first : scope.index = 0
  snapshot : ∃ field value, stride.node.kind = .loopStart scope.iterator field ∧
    stride.before.extracted.findField? field = some value ∧
    LoopScope.elements? value = some scope.collection

theorem Engine.Takes.opens {engine : Engine} {stride : Stride} (taken : engine.Takes stride)
    {scope : LoopScope} (pushed : stride.visited.state.scopes = scope :: stride.before.scopes) :
    stride.Opens scope := by
  cases taken.comes with
  | entered kind enters leads state =>
    have after := congrArg RunState.scopes state
    cases enters with
    | again | skips => exact absurd (pushed.symm.trans after) (List.cons_ne_self _ _)
    | @opens value collection fresh found elements nonempty =>
      obtain ⟨rfl, -⟩ := List.cons.inj (after.symm.trans pushed)
      exact ⟨rfl, rfl, _, value, kind, found, elements⟩
  | advanced kind advances leads state =>
    have after := congrArg (fun state => state.scopes.length) state
    cases advances with
    | repeats innermost | closes innermost =>
      simp only [pushed, innermost, List.length_cons] at after
      omega
  | proceeded kind proceeds =>
    exact absurd (pushed.symm.trans proceeds.scopes_eq) (List.cons_ne_self _ _)

theorem Engine.Takes.opens_none {engine : Engine} {stride : Stride} (taken : engine.Takes stride)
    {iterator field : String} {value : Json} (kind : stride.node.kind = .loopStart iterator field)
    (found : stride.before.extracted.findField? field = some value)
    (empty : LoopScope.elements? value = some []) :
    stride.visited.state.scopes = stride.before.scopes := by
  obtain ⟨next, scopes, -, state, enters⟩ := taken.enters kind
  rw [state]
  cases enters with
  | again | skips => rfl
  | opens fresh again elements nonempty =>
    cases found.symm.trans again
    cases empty.symm.trans elements
    contradiction

def Stride.turns (owner : NodeId) (depth : Nat) (stride : Stride) : Bool :=
  stride.node.kind == .loopContinue owner && stride.before.scopes.length == depth

inductive Treats (scope : LoopScope) (base : List LoopScope) (stride : Stride) : Prop
  | keeps (inner : List LoopScope) (idle : stride.turns scope.owner (base.length + 1) = false)
      (after : stride.visited.state.scopes = inner ++ scope :: base)
  | advances (turn : stride.turns scope.owner (base.length + 1) = true)
      (more : scope.index + 1 < scope.collection.length)
      (records : stride.visited.entry.decision = some hasMoreLabel)
      (after : stride.visited.state.scopes = scope.advance :: base)
  | closes (turn : stride.turns scope.owner (base.length + 1) = true)
      (last : scope.collection.length ≤ scope.index + 1)
      (records : stride.visited.entry.decision = some completeLabel)
      (after : stride.visited.state.scopes = base)

theorem Engine.Takes.treats {engine : Engine} {stride : Stride} (taken : engine.Takes stride)
    {scope : LoopScope} {inner base : List LoopScope}
    (stack : stride.before.scopes = inner ++ scope :: base) : Treats scope base stride := by
  cases taken.comes with
  | entered kind enters leads state =>
    have idle : stride.turns scope.owner (base.length + 1) = false := by simp [Stride.turns, kind]
    have after := congrArg RunState.scopes state
    cases enters with
    | again | skips => exact .keeps inner idle (after.trans stack)
    | opens => exact .keeps (_ :: inner) idle (by rw [after, stack]; rfl)
  | advanced kind advances leads state records =>
    have after := congrArg RunState.scopes state
    cases inner with
    | nil =>
      cases advances with
      | repeats innermost own more =>
        obtain ⟨rfl, rfl⟩ := List.cons.inj (stack.symm.trans innermost)
        exact .advances (by simp [Stride.turns, kind, own, stack]) more records after
      | closes innermost own last =>
        obtain ⟨rfl, rfl⟩ := List.cons.inj (stack.symm.trans innermost)
        exact .closes (by simp [Stride.turns, kind, own, stack]) last records after
    | cons top inner =>
      rw [List.cons_append] at stack
      have deeper : stride.turns scope.owner (base.length + 1) = false := by
        simp only [Stride.turns, stack, List.length_cons, List.length_append, Bool.and_eq_false_iff,
          beq_eq_false_iff_ne]
        omega
      cases advances with
      | repeats innermost =>
        obtain ⟨rfl, rfl⟩ := List.cons.inj (stack.symm.trans innermost)
        exact .keeps (_ :: inner) deeper after
      | closes innermost =>
        obtain ⟨rfl, rfl⟩ := List.cons.inj (stack.symm.trans innermost)
        exact .keeps inner deeper after
  | proceeded kind proceeds =>
    have idle : stride.turns scope.owner (base.length + 1) = false := by
      cases found : stride.node.kind with
      | loopContinue owner => simp [found, NodeKind.isLoop] at kind
      | plain | decision | extraction | loopStart => simp [Stride.turns, found]
    exact .keeps inner idle (proceeds.scopes_eq.trans stack)

def LoopScope.after (scope : LoopScope) (turns : Nat) : LoopScope :=
  { scope with index := scope.index + turns }

theorem LoopScope.advance_after (scope : LoopScope) (turns : Nat) :
    scope.advance.after turns = scope.after (turns + 1) := by
  simp only [advance, after, Nat.add_assoc, Nat.add_comm 1]

/-- The strides take a scope that stands on `base` from the element it has reached through the last
one, and end by closing it. -/
structure RunsThrough (scope : LoopScope) (base : List LoopScope) (strides : List Stride) :
    Prop where
  turns : ∃ more, scope.index + more + 1 = scope.collection.length ∧
    (strides.filter (·.turns scope.owner (base.length + 1))).map (·.visited.entry.decision) =
      List.replicate more (some hasMoreLabel) ++ [some completeLabel]
  /-- Before every stride it stands where its turns so far have brought it. -/
  stands : ∀ earlier stride later, strides = earlier ++ stride :: later →
    ∃ reached inner,
      reached = scope.after (earlier.countP (·.turns scope.owner (base.length + 1))) ∧
      reached.index < scope.collection.length ∧ stride.before.scopes = inner ++ reached :: base
  closed : ∃ earlier closing, strides = earlier ++ [closing] ∧
    closing.turns scope.owner (base.length + 1) = true ∧ closing.visited.state.scopes = base

namespace RunsThrough

variable {scope : LoopScope} {base inner : List LoopScope} {stride : Stride}
  {strides : List Stride}

theorem last (underway : scope.index < scope.collection.length)
    (stack : stride.before.scopes = inner ++ scope :: base)
    (turn : stride.turns scope.owner (base.length + 1) = true)
    (done : scope.collection.length ≤ scope.index + 1)
    (records : stride.visited.entry.decision = some completeLabel)
    (after : stride.visited.state.scopes = base) : RunsThrough scope base [stride] := by
  refine ⟨⟨0, by omega, by simp [turn, records]⟩, ?_, [], stride, rfl, turn, after⟩
  exact forall_place_cons ⟨scope, inner, rfl, underway, stack⟩ (by simp)

theorem keep (underway : scope.index < scope.collection.length)
    (stack : stride.before.scopes = inner ++ scope :: base)
    (idle : stride.turns scope.owner (base.length + 1) = false)
    (rest : RunsThrough scope base strides) : RunsThrough scope base (stride :: strides) := by
  obtain ⟨earlier, closing, split, turn, after⟩ := rest.closed
  refine ⟨?_, ?_, stride :: earlier, closing, by rw [split, List.cons_append], turn, after⟩
  · rw [List.filter_cons_of_neg (by simp [idle])]
    exact rest.turns
  · refine forall_place_cons ⟨scope, inner, rfl, underway, stack⟩ ?_
    intro earlier other later split
    rw [List.countP_cons_of_neg (by simp [idle])]
    exact rest.stands earlier other later split

theorem advance (stack : stride.before.scopes = inner ++ scope :: base)
    (turn : stride.turns scope.owner (base.length + 1) = true)
    (more : scope.index + 1 < scope.collection.length)
    (records : stride.visited.entry.decision = some hasMoreLabel)
    (rest : RunsThrough scope.advance base strides) :
    RunsThrough scope base (stride :: strides) := by
  obtain ⟨earlier, closing, split, last, after⟩ := rest.closed
  obtain ⟨others, count, labels⟩ := rest.turns
  refine ⟨⟨others + 1, ?_, ?_⟩, ?_, stride :: earlier, closing, by rw [split, List.cons_append],
    last, after⟩
  · have count : scope.index + 1 + others + 1 = scope.collection.length := count
    omega
  · rw [List.filter_cons_of_pos turn, List.map_cons, records, List.replicate_succ]
    exact congrArg _ labels
  · refine forall_place_cons ⟨scope, inner, rfl, Nat.lt_of_succ_lt more, stack⟩ ?_
    intro earlier other later split
    rw [List.countP_cons_of_pos turn, ← LoopScope.advance_after]
    exact rest.stands earlier other later split

end RunsThrough

/-- A scope that stands on `base` at the start of a walk is run through by the time the stack is
down to `base`. -/
theorem Engine.Walk.runs_through {engine : Engine} {current : NodeId} {state : RunState}
    {scope : LoopScope} {inner base : List LoopScope} {during later : List Stride}
    {closing : Stride}
    (walk : engine.Walk current state (during ++ closing :: later))
    (stack : state.scopes = inner ++ scope :: base)
    (underway : scope.index < scope.collection.length)
    (standing : ∀ stride ∈ during, base.length < stride.visited.state.scopes.length)
    (fallen : closing.visited.state.scopes.length ≤ base.length) :
    RunsThrough scope base (during ++ [closing]) := by
  induction during generalizing current state scope inner with
  | nil =>
    obtain ⟨taken, -, rfl, -⟩ := walk.first
    cases taken.treats stack with
    | keeps inner idle after =>
      rw [after, List.length_append, List.length_cons] at fallen
      omega
    | advances turn more records after =>
      rw [after, List.length_cons] at fallen
      omega
    | closes turn last records after => exact .last underway stack turn last records after
  | cons stride during ih =>
    obtain ⟨taken, -, rfl, next, rest⟩ := walk.first
    obtain ⟨still, others⟩ := List.forall_mem_cons.mp standing
    cases taken.treats stack with
    | keeps inner idle after => exact .keep underway stack idle (ih rest after underway others)
    | advances turn more records after =>
      have moved : stride.visited.state.scopes = [] ++ scope.advance :: base := after
      exact .advance stack turn more records (ih rest moved more others)
    | closes turn last records after =>
      rw [after] at still
      exact absurd still (Nat.lt_irrefl _)

section

variable {engine : Engine} {specs : List NodeSpec}

/-- A loop that a run opens and closes has run through the elements it was opened with, one turn of
its own loop continue for each, with what was open before as it was. Open loops have always reached
one of their elements, and without elements no loop is opened. -/
theorem loops_run_through (compiled : Flowchart.compile specs = .ok engine.flowchart)
    (client : Client) (stamp : RunStamp) (input : String) :
    (engine.run client stamp input).record.traversal =
      (engine.strides client input).map (·.visited.entry) ∧
    (∀ stride ∈ engine.strides client input,
      stride.before.Underway ∧ stride.visited.state.Underway) ∧
    (∀ stride ∈ engine.strides client input, ∀ iterator field value,
      stride.node.kind = .loopStart iterator field →
      stride.before.extracted.findField? field = some value →
      LoopScope.elements? value = some [] →
      stride.visited.state.scopes = stride.before.scopes) ∧
    ∀ earlier opening during closing later scope,
      engine.strides client input = earlier ++ opening :: (during ++ closing :: later) →
      opening.visited.state.scopes = scope :: opening.before.scopes →
      (∀ stride ∈ during, opening.before.scopes.length < stride.visited.state.scopes.length) →
      closing.visited.state.scopes.length ≤ opening.before.scopes.length →
      opening.Opens scope ∧ RunsThrough scope opening.before.scopes (during ++ [closing]) ∧
        ∀ stride ∈ during ++ [closing], ∀ depth, stride.turns scope.owner depth = true →
          engine.flowchart.closer? opening.node.id = some stride.node := by
  have walk := engine.strides_walk client input
  have takes := walk.takes
  have underway := walk.keeps RunState.Underway (fun _ taken => taken.underway)
    (by simp [RunState.Underway])
  refine ⟨engine.run_trace client stamp input, underway, ?_, ?_⟩
  · intro stride visited iterator field value kind found empty
    exact (takes stride visited).opens_none kind found empty
  · intro earlier opening during closing later scope split pushed standing fallen
    rw [split] at walk takes underway
    obtain ⟨taken, next, rest⟩ := walk.after
    have opens := taken.opens pushed
    have stack : opening.visited.state.scopes = [] ++ scope :: opening.before.scopes := pushed
    have reached := (underway opening (by simp)).2 scope (by simp [pushed])
    refine ⟨opens, rest.runs_through stack reached standing fallen, ?_⟩
    intro stride visited depth turn
    have member := (takes stride (by simp at visited ⊢; tauto)).member
    have kind : stride.node.kind = .loopContinue scope.owner := by
      simp only [Stride.turns, Bool.and_eq_true, beq_iff_eq] at turn
      exact turn.1
    rw [← opens.owner]
    exact (compile_valid compiled).closes stride.node member _ kind

end

theorem rollCall_runs_through :
    Flowchart.compile rollCall = .ok RollCall.engine.flowchart ∧
    ∃ asking opening first back second last,
      RollCall.engine.strides RollCall.client "" = [asking, opening, first, back, second, last] ∧
      opening.Opens ⟨"each", "name", ["Ada", "Ben"], 0⟩ ∧
      RunsThrough ⟨"each", "name", ["Ada", "Ben"], 0⟩ [] [first, back, second, last] := by
  let reached (index : Nat) : LoopScope := ⟨"each", "name", ["Ada", "Ben"], index⟩
  have scopes : (RollCall.engine.strides RollCall.client "").map
      (fun stride => (stride.before.scopes, stride.visited.state.scopes)) =
      [([], []), ([], [reached 0]), ([reached 0], [reached 0]), ([reached 0], [reached 1]),
       ([reached 1], [reached 1]), ([reached 1], [])] := by rfl
  simp only [List.map_eq_cons_iff, List.map_eq_nil_iff, Prod.mk.injEq] at scopes
  obtain ⟨asking, _, split, -, opening, _, rfl, ⟨base, opened⟩, first, _, rfl, ⟨-, called⟩,
    back, _, rfl, ⟨-, again⟩, second, _, rfl, ⟨-, more⟩, last, _, rfl, ⟨-, done⟩, rfl⟩ := scopes
  obtain ⟨opens, through, -⟩ :=
    (loops_run_through RollCall.compiles RollCall.client RollCall.stamp "").2.2.2
      [asking] opening [first, back, second] last [] (reached 0) split (by rw [opened, base])
      (by simp [base, called, again, more]) (by simp [done])
  exact ⟨RollCall.compiles, asking, opening, first, back, second, last, split, opens,
    base ▸ through⟩

end Colloquy
