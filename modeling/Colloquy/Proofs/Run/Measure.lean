import Colloquy.Proofs.Run.Stack

/-!
How far a run has come. Every loop start is a digit: the element that its loop has reached while it
is open, the most there can be once the run has passed it, and nothing before. Outer loops weigh
more than inner ones, and what the digits leave open is settled by the place in dependency order.
A turn of a loop may set all loops behind it back to nothing, and the whole still grows.
-/

namespace Colloquy

section

variable {α : Type} {base : Nat} {f g : α → Nat} {xs before after : List α} {a : α}

/-- The number whose digits are those of the list, the first one the weightiest. -/
def weigh (base : Nat) (digit : α → Nat) : List α → Nat
  | [] => 0
  | a :: rest => digit a * base ^ rest.length + weigh base digit rest

/-- Whatever stands below a digit does not make up for a greater one. -/
theorem mul_add_lt_mul {low high weight rest : Nat} (less : low < high) (proper : rest < weight) :
    low * weight + rest < high * weight :=
  calc low * weight + rest
      < low * weight + weight := Nat.add_lt_add_left proper _
    _ = (low + 1) * weight := (Nat.succ_mul _ _).symm
    _ ≤ high * weight := Nat.mul_le_mul_right _ less

theorem weigh_lt (proper : ∀ a ∈ xs, f a < base) : weigh base f xs < base ^ xs.length := by
  induction xs with
  | nil => exact Nat.one_pos
  | cons a rest ih =>
    obtain ⟨digit, digits⟩ := List.forall_mem_cons.mp proper
    rw [List.length_cons, Nat.pow_succ, Nat.mul_comm]
    exact mul_add_lt_mul digit (ih digits)

theorem weigh_le (grows : ∀ a ∈ xs, f a ≤ g a) : weigh base f xs ≤ weigh base g xs := by
  induction xs with
  | nil => exact Nat.le_refl _
  | cons a rest ih =>
    obtain ⟨digit, digits⟩ := List.forall_mem_cons.mp grows
    exact Nat.add_le_add (Nat.mul_le_mul_right _ digit) (ih digits)

/-- A digit that grows makes up for whatever comes of the lighter ones. -/
theorem weigh_lt_of_digit (grows : ∀ b ∈ before, f b ≤ g b) (digit : f a < g a)
    (proper : ∀ b ∈ after, f b < base) :
    weigh base f (before ++ a :: after) < weigh base g (before ++ a :: after) := by
  induction before with
  | nil => exact (mul_add_lt_mul digit (weigh_lt proper)).trans_le (Nat.le_add_right _ _)
  | cons b before ih =>
    obtain ⟨first, others⟩ := List.forall_mem_cons.mp grows
    exact Nat.add_lt_add_of_le_of_lt (Nat.mul_le_mul_right _ first) (ih others)

end

namespace Flowchart

def orderedStarts (flowchart : Flowchart) : List NodeId :=
  flowchart.topologicalOrder.filter (· ∈ flowchart.loopStarts)

namespace Valid

variable {flowchart : Flowchart}

theorem order_perm (valid : flowchart.Valid) :
    flowchart.topologicalOrder.Perm flowchart.ids := by
  simpa using valid.peeled.perm

theorem order_nodup (valid : flowchart.Valid) : flowchart.topologicalOrder.Nodup :=
  valid.order_perm.nodup_iff.mpr valid.ids

theorem place_lt (valid : flowchart.Valid) {id : NodeId} (declared : id ∈ flowchart.ids) :
    flowchart.place id < flowchart.size := by
  have length : flowchart.topologicalOrder.length = flowchart.size := by
    rw [valid.order_perm.length_eq, Flowchart.ids, List.length_map, size]
  exact length ▸ List.idxOf_lt_length_of_mem (valid.mem_order.mpr declared)

theorem mem_orderedStarts (valid : flowchart.Valid) {id : NodeId} :
    id ∈ flowchart.orderedStarts ↔ id ∈ flowchart.loopStarts := by
  have declared : id ∈ flowchart.loopStarts → id ∈ flowchart.topologicalOrder := by
    intro starts
    obtain ⟨node, member, rfl⟩ := List.mem_map.mp starts
    exact valid.mem_order.mpr (List.mem_map_of_mem (List.mem_of_mem_filter member))
  simpa [orderedStarts] using declared

theorem orderedStarts_length (valid : flowchart.Valid) :
    flowchart.orderedStarts.length = flowchart.loopStarts.length := by
  have once : flowchart.loopStarts.Nodup :=
    List.Sublist.nodup (List.filter_sublist.map _) valid.ids
  have same := (List.perm_ext_iff_of_nodup (valid.order_nodup.filter _) once).mpr
    fun _ => valid.mem_orderedStarts
  exact same.length_eq

theorem orderedStarts_pairwise (valid : flowchart.Valid) :
    flowchart.orderedStarts.Pairwise fun a b => flowchart.place a < flowchart.place b :=
  (pairwise_idxOf valid.order_nodup).filter _

end Valid

variable (flowchart : Flowchart) (most : Nat) (current : NodeId) (scopes : List LoopScope)

def digit (start : NodeId) : Nat :=
  match scopes.find? (·.owner == start) with
  | some scope => scope.index
  | none => if flowchart.place start < flowchart.place current then most else 0

def progress : Nat :=
  weigh (most + 1) (flowchart.digit most current scopes) flowchart.orderedStarts *
    flowchart.size + flowchart.place current

end Flowchart

def RunState.Small (most : Nat) (state : RunState) : Prop :=
  ∀ scope ∈ state.scopes, scope.index < scope.collection.length ∧ scope.collection.length ≤ most

namespace Flowchart

section

variable {flowchart : Flowchart} {most : Nat} {current next start : NodeId}
  {scope : LoopScope} {scopes outer : List LoopScope}

theorem digit_cons (own : scope.owner = start) :
    flowchart.digit most current (scope :: scopes) start = scope.index := by
  simp [digit, own]

theorem digit_cons_of_ne (other : scope.owner ≠ start) :
    flowchart.digit most current (scope :: scopes) start =
      flowchart.digit most current scopes start := by
  simp [digit, other]

theorem digit_of_closed (closed : ∀ scope ∈ scopes, scope.owner ≠ start) :
    flowchart.digit most current scopes start =
      if flowchart.place start < flowchart.place current then most else 0 := by
  have none : scopes.find? (·.owner == start) = none := by simpa using closed
  rw [digit, none]

theorem digit_le (small : ∀ scope ∈ scopes, scope.index ≤ most) :
    flowchart.digit most current scopes start ≤ most := by
  unfold digit
  split
  · rename_i scope found
    exact small scope (List.mem_of_find?_eq_some found)
  · split <;> omega

theorem digit_mono (further : flowchart.place start < flowchart.place current →
      flowchart.place start < flowchart.place next) :
    flowchart.digit most current scopes start ≤ flowchart.digit most next scopes start := by
  unfold digit
  split
  · exact Nat.le_refl _
  · split
    · rename_i passed
      rw [if_pos (further passed)]
    · exact Nat.zero_le _

theorem digit_le_of_opened
    (ahead : ∀ other ∈ scopes, flowchart.place other.owner < flowchart.place scope.owner)
    (further : flowchart.place scope.owner < flowchart.place next) :
    flowchart.digit most scope.owner scopes start ≤
      flowchart.digit most next (scope :: scopes) start := by
  by_cases own : scope.owner = start
  · subst own
    have closed : ∀ other ∈ scopes, other.owner ≠ scope.owner := by
      intro other opened same
      exact absurd (same ▸ ahead other opened) (Nat.lt_irrefl _)
    rw [digit_of_closed closed, if_neg (Nat.lt_irrefl _)]
    exact Nat.zero_le _
  · rw [digit_cons_of_ne own]
    exact digit_mono fun passed => passed.trans further

/-- The digit of a loop that is closed is from then on the most there can be. -/
theorem digit_le_of_closed (stacked : Stacked flowchart current (scope :: outer))
    (few : scope.index ≤ most) (further : flowchart.place current < flowchart.place next) :
    flowchart.digit most current (scope :: outer) start ≤
      flowchart.digit most next outer start := by
  by_cases own : scope.owner = start
  · subst own
    have closed : ∀ other ∈ outer, other.owner ≠ scope.owner := by
      intro other opened same
      exact absurd (same ▸ stacked.inner_later other opened) (Nat.lt_irrefl _)
    have passed := (stacked.reached scope List.mem_cons_self).trans_lt further
    rwa [digit_cons rfl, digit_of_closed closed, if_pos passed]
  · rw [digit_cons_of_ne own]
    exact digit_mono fun passed => passed.trans further

theorem weigh_lt_of_turn (valid : flowchart.Valid) (starts : scope.owner ∈ flowchart.loopStarts)
    (small : ∀ other ∈ scope :: outer, other.index ≤ most)
    (inside : flowchart.place scope.owner ≤ flowchart.place next) :
    weigh (most + 1) (flowchart.digit most current (scope :: outer)) flowchart.orderedStarts <
      weigh (most + 1) (flowchart.digit most next (scope.advance :: outer))
        flowchart.orderedStarts := by
  have same : scope.advance.owner = scope.owner := rfl
  obtain ⟨earlier, later, split⟩ := List.append_of_mem (valid.mem_orderedStarts.mpr starts)
  have sorted := valid.orderedStarts_pairwise
  rw [split, List.pairwise_append] at sorted
  rw [split]
  -- Loops before this one do not fall, this one moves on, and those behind it may begin anew.
  refine weigh_lt_of_digit ?_ ?_ ?_
  · intro start outside
    have ahead := sorted.2.2 start outside scope.owner List.mem_cons_self
    have other : scope.owner ≠ start := by
      rintro rfl
      exact Nat.lt_irrefl _ ahead
    rw [digit_cons_of_ne other, digit_cons_of_ne (same ▸ other)]
    exact digit_mono fun _ => ahead.trans_le inside
  · rw [digit_cons rfl, digit_cons same]
    exact Nat.lt_succ_self _
  · intro start _
    exact Nat.lt_succ_of_le (digit_le small)

theorem progress_lt_of_further
    (grows : ∀ start, flowchart.digit most current scopes start ≤
      flowchart.digit most next outer start)
    (further : flowchart.place current < flowchart.place next) :
    flowchart.progress most current scopes < flowchart.progress most next outer :=
  Nat.add_lt_add_of_le_of_lt (Nat.mul_le_mul_right _ (weigh_le fun start _ => grows start)) further

theorem progress_lt_of_turn (inside : flowchart.place current < flowchart.size)
    (grows : weigh (most + 1) (flowchart.digit most current scopes) flowchart.orderedStarts <
      weigh (most + 1) (flowchart.digit most next outer) flowchart.orderedStarts) :
    flowchart.progress most current scopes < flowchart.progress most next outer :=
  (mul_add_lt_mul grows inside).trans_le (Nat.le_add_right _ _)

end

end Flowchart

structure Gauged (flowchart : Flowchart) (most : Nat) (current : NodeId) (state : RunState) :
    Prop where
  declared : current ∈ flowchart.ids
  stacked : Stacked flowchart current state.scopes
  owned : state.Owned flowchart
  small : state.Small most

theorem RunState.Small.index_le {most : Nat} {state : RunState} (small : state.Small most) :
    ∀ scope ∈ state.scopes, scope.index ≤ most := by
  intro scope opened
  obtain ⟨reached, few⟩ := small scope opened
  exact reached.le.trans few

theorem Gauged.progress_lt {flowchart : Flowchart} {most : Nat} {current : NodeId}
    {state : RunState} (gauged : Gauged flowchart most current state) (valid : flowchart.Valid) :
    flowchart.progress most current state.scopes <
      flowchart.size * (most + 1) ^ flowchart.loopStarts.length := by
  have proper : ∀ start ∈ flowchart.orderedStarts,
      flowchart.digit most current state.scopes start < most + 1 :=
    fun _ _ => Nat.lt_succ_of_le (Flowchart.digit_le gauged.small.index_le)
  have digits := weigh_lt proper
  rw [valid.orderedStarts_length] at digits
  rw [Nat.mul_comm]
  exact mul_add_lt_mul digits (valid.place_lt gauged.declared)

/-- Every stride that leads on makes progress. -/
theorem Shifts.progress_lt {flowchart : Flowchart} {most : Nat} {stride : Stride} {next : NodeId}
    (shifts : Shifts flowchart stride next) (valid : flowchart.Valid)
    (gauged : Gauged flowchart most stride.node.id stride.before) :
    flowchart.progress most stride.node.id stride.before.scopes <
      flowchart.progress most next stride.visited.state.scopes := by
  obtain ⟨declared, stacked, owned, small⟩ := gauged
  have indices := small.index_le
  cases shifts with
  | keeps same further =>
    rw [same]
    refine Flowchart.progress_lt_of_further ?_ further
    intro start
    exact Flowchart.digit_mono fun passed => passed.trans further
  | opens fresh opens after further =>
    have ahead := stacked.fresh_later valid declared fresh
    rw [← opens.owner] at ahead further ⊢
    rw [after]
    exact Flowchart.progress_lt_of_further
      (fun _ => Flowchart.digit_le_of_opened ahead further) further
  | repeats before after inside =>
    rw [before] at indices
    have starts := owned _ (before ▸ List.mem_cons_self)
    rw [before, after]
    exact Flowchart.progress_lt_of_turn (valid.place_lt declared)
      (Flowchart.weigh_lt_of_turn valid starts indices inside)
  | closes before after further =>
    rw [before] at stacked indices
    have few := indices _ List.mem_cons_self
    rw [before, after]
    exact Flowchart.progress_lt_of_further
      (fun _ => Flowchart.digit_le_of_closed stacked few further) further

end Colloquy
