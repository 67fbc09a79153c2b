import Colloquy.Proofs.Flowchart.Worklist

/-!
Sorting by dependency over arbitrary graphs. The ids that come out sorted are those that no cycle
leads to; of the others, those that lead to a cycle again are named. Counting in worklists gives the
same two lists, and no counter ever falls below zero.
-/

namespace Colloquy

open Relation (ReflTransGen TransGen)

section

variable {α : Type} {successors others : α → List α} {ids left : List α}

theorem afterCycle_congr (same : ∀ a b, Follows successors ids a b ↔ Follows others ids a b)
    {id : α} : AfterCycle successors ids id ↔ AfterCycle others ids id := by
  have equal : Follows successors ids = Follows others ids := by
    funext a b
    exact propext (same a b)
  rw [AfterCycle, equal, AfterCycle]

theorem beforeCycle_congr (same : ∀ a b, Follows successors ids a b ↔ Follows others ids a b)
    {id : α} : BeforeCycle successors ids id ↔ BeforeCycle others ids id := by
  have equal : Follows successors ids = Follows others ids := by
    funext a b
    exact propext (same a b)
  rw [BeforeCycle, equal, BeforeCycle]

variable [DecidableEq α]

theorem mem_successorsAmong {a b : α} :
    b ∈ successorsAmong successors ids a ↔ b ∈ successors a ∧ b ∈ ids := by
  simp [successorsAmong]

theorem successorsAmong_subset (successors : α → List α) (ids : List α) (id : α) :
    successorsAmong successors ids id ⊆ ids := fun _ member => (mem_successorsAmong.mp member).2

theorem predecessorsAmong_subset (successors : α → List α) (ids : List α) (id : α) :
    predecessorsAmong successors ids id ⊆ ids := fun _ member =>
  (mem_predecessorsAmong.mp member).1

theorem follows_among_iff (a b : α) :
    Follows (successorsAmong successors ids) ids a b ↔ Follows successors ids a b := by
  simp only [Follows, mem_successorsAmong]
  tauto

theorem follows_reversed_iff (members : ∀ id, id ∈ left ↔ AfterCycle successors ids id) {a b : α} :
    Follows (predecessorsAmong successors left) left a b ↔
      AfterCycle successors ids b ∧ Follows successors ids b a := by
  simp only [Follows, mem_predecessorsAmong, members]
  constructor
  · rintro ⟨first, second, -, edge⟩
    exact ⟨second, second.mem, first.mem, edge⟩
  · rintro ⟨after, source, target, edge⟩
    exact ⟨after.next ⟨source, target, edge⟩, after, after, edge⟩

/-- Behind a cycle every way stays behind it, and so can be walked back. -/
theorem AfterCycle.back (members : ∀ id, id ∈ left ↔ AfterCycle successors ids id) {a b : α}
    (after : AfterCycle successors ids a) (way : ReflTransGen (Follows successors ids) a b) :
    AfterCycle successors ids b ∧
      ReflTransGen (Follows (predecessorsAmong successors left) left) b a := by
  induction way with
  | refl => exact ⟨after, .refl⟩
  | tail first edge ih =>
    obtain ⟨between, back⟩ := ih
    exact ⟨between.next edge, .head ((follows_reversed_iff members).mpr ⟨between, edge⟩) back⟩

theorem afterCycle_reversed_iff (members : ∀ id, id ∈ left ↔ AfterCycle successors ids id)
    {id : α} :
    AfterCycle (predecessorsAmong successors left) left id ↔
      AfterCycle successors ids id ∧ BeforeCycle successors ids id := by
  have forth : ∀ a b, Follows (predecessorsAmong successors left) left a b →
      Function.swap (Follows successors ids) a b := fun a b edge =>
    ((follows_reversed_iff members).mp edge).2
  constructor
  · intro after
    have member := (members id).mp after.mem
    obtain ⟨turning, cycle, way⟩ := after
    exact ⟨member, turning, Relation.transGen_swap.mp (TransGen.mono forth turning turning cycle),
      Relation.reflTransGen_swap.mp (ReflTransGen.mono forth turning id way)⟩
  · rintro ⟨after, turning, cycle, way⟩
    obtain ⟨again, back⟩ := after.back members way
    obtain ⟨last, first, edge⟩ := TransGen.tail'_iff.mp cycle
    obtain ⟨between, round⟩ := again.back members first
    exact ⟨turning, TransGen.head' ((follows_reversed_iff members).mpr ⟨between, edge⟩) round, back⟩

/-- What is left when the ids that no cycle leads to are taken away, and then, from the other end,
those that lead to none. -/
theorem mem_core_iff {before again : α → α → Prop} {sorted stripped : List α}
    (first : ReadyOrder before successors ids [] sorted)
    (members : ∀ id, id ∈ left ↔ id ∈ ids ∧ id ∉ sorted)
    (second : ReadyOrder again (predecessorsAmong successors left) left [] stripped) {id : α} :
    id ∈ left ∧ id ∉ stripped ↔
      AfterCycle successors ids id ∧ BeforeCycle successors ids id := by
  have remains : ∀ id, id ∈ left ↔ AfterCycle successors ids id := by
    intro id
    rw [members, first.mem_iff]
    constructor
    · rintro ⟨declared, unsorted⟩
      by_contra clean
      exact unsorted ⟨declared, clean⟩
    · intro after
      exact ⟨after.mem, fun sorted => sorted.2 after⟩
  rw [second.mem_iff, afterCycle_reversed_iff remains, remains]
  tauto

end

section

variable (ids : List NodeId) (successors : NodeId → List NodeId)

/-- The two lists that sorting `ids` by dependency owes: those that no cycle leads to, in the one
order that always takes the earliest id that is ready, and by name those on or between cycles. -/
structure Sorts (sorted cyclic : List NodeId) : Prop where
  distinct : sorted.Nodup
  members : ∀ id, id ∈ sorted ↔ id ∈ ids ∧ ¬ AfterCycle successors ids id
  precedes : ∀ a ∈ ids, ∀ b ∈ sorted, b ∈ successors a →
    a ∈ sorted ∧ sorted.idxOf a < sorted.idxOf b
  earliest : ∀ order, EarliestFirst successors ids order ↔ order = sorted
  core : ∀ id, id ∈ cyclic ↔ AfterCycle successors ids id ∧ BeforeCycle successors ids id
  byName : cyclic.Pairwise (· < ·)
  acyclic : cyclic = [] ↔ ∀ id, ¬ TransGen (Follows successors ids) id id
  whole : cyclic = [] → sorted.Perm ids

variable {ids successors}

theorem Peeled.mem_left_iff {taken left : List NodeId} (peeled : Peeled successors ids taken left)
    (distinct : ids.Nodup) {id : NodeId} : id ∈ left ↔ id ∈ ids ∧ id ∉ taken := by
  have apart := List.nodup_append.mp (peeled.perm.nodup_iff.mpr distinct)
  rw [← peeled.perm.mem_iff, List.mem_append]
  constructor
  · intro member
    exact ⟨.inr member, fun taken => apart.2.2 id taken id member rfl⟩
  · rintro ⟨member, waits⟩
    exact member.resolve_left waits

theorem Peeled.nodup_left {taken left : List NodeId} (peeled : Peeled successors ids taken left)
    (distinct : ids.Nodup) : left.Nodup :=
  (List.nodup_append.mp (peeled.perm.nodup_iff.mpr distinct)).2.1

theorem pairwise_mergeSort (names : List NodeId) : names.mergeSort.Pairwise (· ≤ ·) := by
  have sorted : names.mergeSort.Pairwise fun a b => decide (a ≤ b) = true :=
    List.pairwise_mergeSort (by simpa using fun _ _ _ => String.le_trans)
      (by simpa using String.le_total) names
  exact sorted.imp of_decide_eq_true

theorem mergeSort_congr {names others : List NodeId} (distinct : names.Nodup)
    (unrepeated : others.Nodup) (same : ∀ id, id ∈ names ↔ id ∈ others) :
    names.mergeSort = others.mergeSort := by
  have perm := (List.perm_ext_iff_of_nodup distinct unrepeated).mpr same
  have sorted : names.mergeSort.Perm others.mergeSort :=
    (List.mergeSort_perm names _).trans (perm.trans (List.mergeSort_perm others _).symm)
  exact List.Perm.eq_of_pairwise (fun _ _ _ _ => String.le_antisymm) (pairwise_mergeSort names)
    (pairwise_mergeSort others) sorted

variable (ids successors) in
theorem topologicalSort_core (distinct : ids.Nodup) :
    ∃ core : List NodeId, (topologicalSort ids successors).2 = core.mergeSort ∧ core.Nodup ∧
      ∀ id, id ∈ core ↔ AfterCycle successors ids id ∧ BeforeCycle successors ids id := by
  have first := settle_peeled successors ids
  have remains := first.nodup_left distinct
  have second := settle_peeled
    (predecessorsAmong successors (settle successors (inDegrees successors ids)).2)
    (settle successors (inDegrees successors ids)).2
  refine ⟨_, rfl, second.nodup_left remains, fun id => ?_⟩
  rw [second.mem_left_iff remains]
  exact mem_core_iff (EarliestFirst.of_peeled first distinct)
    (fun id => first.mem_left_iff distinct) (EarliestFirst.of_peeled second remains)

theorem topologicalSort_earliestFirst (distinct : ids.Nodup) :
    EarliestFirst successors ids (topologicalSort ids successors).1 :=
  .of_peeled (settle_peeled successors ids) distinct

theorem topologicalSort_sorts (distinct : ids.Nodup) :
    Sorts ids successors (topologicalSort ids successors).1 (topologicalSort ids successors).2 := by
  have first : EarliestFirst successors ids _ := topologicalSort_earliestFirst distinct
  obtain ⟨core, named, unrepeated, members⟩ := topologicalSort_core ids successors distinct
  have perm := List.mergeSort_perm core (fun a b => decide (a ≤ b))
  refine {
    distinct := first.nodup
    members := fun id => first.mem_iff
    precedes := fun a declared b member edge =>
      (settle_peeled successors ids).precedes declared member edge
    earliest := fun order => ⟨fun again => again.unique first, fun same => same ▸ first⟩
    core := fun id => by rw [named, perm.mem_iff, members]
    byName := ?byName
    acyclic := topologicalSort_cyclic_eq_nil_iff ids successors
    whole := fun none => ?whole }
  case byName =>
    rw [named]
    exact (pairwise_mergeSort core).imp₂ (fun _ _ least other => Std.lt_of_le_of_ne least other)
      (perm.nodup_iff.mpr unrepeated)
  case whole => simpa using (topologicalSort_peeled ids successors none).perm

theorem sortByWorklists_eq (distinct : ids.Nodup) :
    sortByWorklists ids successors = some (topologicalSort ids successors) := by
  obtain ⟨sorted, worked, ordered⟩ := worklist_readyOrder (Queue.byPosition ids) distinct
    (successorsAmong_subset successors ids)
    ((pairwise_idxOf distinct).imp fun less => Nat.le_of_lt less)
  have same : sorted = (topologicalSort ids successors).1 :=
    EarliestFirst.unique (ordered.congr (by simp +contextual [mem_successorsAmong]))
      (topologicalSort_earliestFirst distinct)
  obtain ⟨core, named, unrepeated, members⟩ := topologicalSort_core ids successors distinct
  have result : topologicalSort ids successors = (sorted, core.mergeSort) := by rw [same, ← named]
  rw [result, sortByWorklists]
  simp only [worked, Option.bind_eq_bind, Option.bind_some]
  split
  · rename_i all
    have perm := (List.subperm_of_subset ordered.nodup ordered.subset).perm_of_length_le all.ge
    have none : core = [] := by
      refine List.eq_nil_iff_forall_not_mem.mpr fun id member => ?_
      obtain ⟨after, -⟩ := (members id).mp member
      have taken := perm.mem_iff.mpr after.mem
      exact (ordered.mem_iff.mp taken).2 ((afterCycle_congr follows_among_iff).mpr after)
    simp [none]
  · have remains : (ids.filter (· ∉ sorted)).Nodup := distinct.filter _
    obtain ⟨stripped, workedToo, orderedToo⟩ := worklist_readyOrder Queue.append remains
      (predecessorsAmong_subset (successorsAmong successors ids) _)
      (List.pairwise_of_forall fun _ _ => trivial)
    simp only [workedToo, Option.bind_some]
    congr 2
    refine mergeSort_congr (remains.filter _) unrepeated fun id => ?_
    rw [members, List.mem_filter, decide_eq_true_eq, mem_core_iff ordered (by simp) orderedToo,
      afterCycle_congr follows_among_iff, beforeCycle_congr follows_among_iff]

/-- Whatever the graph, the sort is right, and so is the count of the worklists that find it: no
counter is lowered below zero, and each worklist is empty after as many turns as it has ids. -/
theorem topologicalSort_sorts_and_counts (distinct : ids.Nodup) :
    Sorts ids successors (topologicalSort ids successors).1 (topologicalSort ids successors).2 ∧
      sortByWorklists ids successors = some (topologicalSort ids successors) :=
  ⟨topologicalSort_sorts distinct, sortByWorklists_eq distinct⟩

end

namespace Editing

def steps : List NodeId :=
  ["plan", "write", "review", "revise", "consult", "proofread", "publish"]

/-- The way from the plan to the writing counts twice, a proofreading follows on itself, and nobody
knows the printer. -/
def follow : NodeId → List NodeId
  | "plan" => ["write", "printer", "write"]
  | "write" => ["review"]
  | "review" => ["revise", "consult"]
  | "revise" => ["review"]
  | "consult" => ["proofread"]
  | "proofread" => ["proofread", "publish"]
  | _ => []

theorem steps_sort :
    steps.Nodup ∧
      Sorts steps follow (topologicalSort steps follow).1 (topologicalSort steps follow).2 ∧
      sortByWorklists steps follow = some (topologicalSort steps follow) :=
  have distinct : steps.Nodup := by decide
  ⟨distinct, topologicalSort_sorts_and_counts distinct⟩

example : worklist (enqueueByPosition steps) (successorsAmong follow steps) steps =
    some ["plan", "write"] := by decide

end Editing

end Colloquy
