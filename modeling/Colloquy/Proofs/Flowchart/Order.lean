import Colloquy.Flowchart.Order
import Mathlib.Data.Fintype.Card
import Mathlib.Data.Set.Finite.List
import Mathlib.Logic.Relation
import Mathlib.Order.WellFounded

/-!
Dependency order is what it says. The lowering of counts is described by a relation without counts,
which always takes the first id that nothing waiting leads to. From it follow the two facts that
flowcharts rely on: ids are left exactly when there is a cycle, and without one every edge leads
to a later position.
-/

namespace Colloquy

section

variable {α : Type} {successors : α → List α}

/-- From the waiting `ids`, `taken` are taken in this order and `left` remain. What is taken is the
first id that no waiting one, itself included, leads to. -/
inductive Peeled (successors : α → List α) : List α → List α → List α → Prop
  | stuck {ids : List α} (blocked : ∀ id ∈ ids, id ∈ ids.flatMap successors) :
      Peeled successors ids [] ids
  | take {before after taken left : List α} {next : α}
      (blocked : ∀ id ∈ before, id ∈ (before ++ next :: after).flatMap successors)
      (free : next ∉ (before ++ next :: after).flatMap successors)
      (rest : Peeled successors (before ++ after) taken left) :
      Peeled successors (before ++ next :: after) (next :: taken) left

def Follows (successors : α → List α) (ids : List α) (a b : α) : Prop :=
  a ∈ ids ∧ b ∈ ids ∧ b ∈ successors a

theorem eq_nil_of_always_leads {R : α → α → Prop} {xs : List α}
    (acyclic : ∀ a, ¬ Relation.TransGen R a a) (leads : ∀ a ∈ xs, ∃ b ∈ xs, R a b) : xs = [] := by
  by_contra nonempty
  let after (b a : { a // a ∈ xs }) : Prop := Relation.TransGen R a.1 b.1
  have : Finite { a // a ∈ xs } := xs.finite_toSet
  have : IsTrans { a // a ∈ xs } after := ⟨fun _ _ _ first second => second.trans first⟩
  have : Std.Irrefl after := ⟨fun a => acyclic a.1⟩
  have wellFounded : WellFounded after := Finite.wellFounded_of_trans_of_irrefl after
  obtain ⟨last, -, minimal⟩ :=
    wellFounded.has_min Set.univ ⟨⟨xs.head nonempty, List.head_mem _⟩, trivial⟩
  obtain ⟨next, member, edge⟩ := leads last.1 last.2
  exact minimal ⟨next, member⟩ trivial (.single edge)

namespace Peeled

variable {ids taken left : List α}

theorem perm (peeled : Peeled successors ids taken left) : (taken ++ left).Perm ids := by
  induction peeled with
  | stuck blocked => exact .refl _
  | take blocked free rest ih => exact (ih.cons _).trans List.perm_middle.symm

theorem left_blocked (peeled : Peeled successors ids taken left) :
    ∀ id ∈ left, id ∈ left.flatMap successors := by
  induction peeled with
  | stuck blocked => exact blocked
  | take blocked free rest ih => exact ih

end Peeled

variable [DecidableEq α]

theorem eq_nil_of_always_later {xs : List α}
    (later : ∀ a ∈ xs, ∃ b ∈ xs, xs.idxOf a < xs.idxOf b) : xs = [] := by
  by_contra nonempty
  have beyond : ∀ n, ∃ a ∈ xs, n ≤ xs.idxOf a := by
    intro n
    induction n with
    | zero => exact ⟨xs.head nonempty, List.head_mem _, Nat.zero_le _⟩
    | succ n ih =>
      obtain ⟨a, member, reached⟩ := ih
      obtain ⟨b, follows, further⟩ := later a member
      exact ⟨b, follows, Nat.lt_of_le_of_lt reached further⟩
  obtain ⟨a, member, far⟩ := beyond xs.length
  exact absurd (List.idxOf_lt_length_of_mem member) (Nat.not_lt_of_le far)

theorem pairwise_idxOf {xs : List α} (distinct : xs.Nodup) :
    xs.Pairwise fun a b => xs.idxOf a < xs.idxOf b := by
  rw [List.pairwise_iff_getElem]
  intro i j low high before
  rwa [distinct.idxOf_getElem, distinct.idxOf_getElem]

theorem mem_predecessorsAmong {ids : List α} {source target : α} :
    source ∈ predecessorsAmong successors ids target ↔
      source ∈ ids ∧ target ∈ successors source := by
  simp [predecessorsAmong, List.mem_flatMap, List.mem_replicate, List.count_eq_zero, and_comm]

theorem find_free {ids : List α} {next : α} {count : Nat}
    (found : (inDegrees successors ids).find? (·.2 == 0) = some (next, count)) :
    ∃ before after, ids = before ++ next :: after ∧ next ∉ ids.flatMap successors ∧
      ∀ id ∈ before, id ∈ ids.flatMap successors := by
  simp only [inDegrees, List.find?_map, Option.map_eq_some_iff] at found
  obtain ⟨id, first, same⟩ := found
  cases same
  obtain ⟨zero, before, after, split, positive⟩ := List.find?_eq_some_iff_append.mp first
  refine ⟨before, after, split, ?_, ?_⟩
  · simpa [List.count_eq_zero] using zero
  · intro id member
    simpa [List.count_eq_zero] using positive id member

theorem lower_inDegrees {before after : List α} {next : α}
    (blocked : ∀ id ∈ before, id ∈ (before ++ next :: after).flatMap successors)
    (free : next ∉ (before ++ next :: after).flatMap successors) :
    ((inDegrees successors (before ++ next :: after)).eraseP (·.2 == 0)).map
        (fun (id, count) => (id, count - (successors next).count id)) =
      inDegrees successors (before ++ after) := by
  have kept : ∀ entry ∈ before.map fun id =>
      (id, ((before ++ next :: after).flatMap successors).count id), ¬ (entry.2 == 0) = true := by
    intro entry member
    obtain ⟨id, declared, rfl⟩ := List.mem_map.mp member
    have positive := List.count_pos_iff.mpr (blocked id declared)
    simp only [beq_iff_eq]
    omega
  have zero := List.count_eq_zero.mpr free
  have lowered : ∀ id, ((before ++ next :: after).flatMap successors).count id -
      (successors next).count id = ((before ++ after).flatMap successors).count id := by
    intro id
    simp only [List.flatMap_append, List.flatMap_cons, List.count_append]
    omega
  simp only [inDegrees, List.map_append, List.map_cons]
  rw [List.eraseP_append_right _ kept, List.eraseP_cons_of_pos (by simpa using zero)]
  simp only [List.map_append, List.map_map, Function.comp_def, lowered]

theorem settle_peeled (successors : α → List α) (ids : List α) :
    Peeled successors ids (settle successors (inDegrees successors ids)).1
      (settle successors (inDegrees successors ids)).2 := by
  generalize counted : inDegrees successors ids = waiting
  fun_induction settle successors waiting generalizing ids with
  | case1 waiting found =>
    subst counted
    have names : (inDegrees successors ids).map (·.1) = ids := by
      simp [inDegrees, Function.comp_def]
    rw [names]
    apply Peeled.stuck
    intro id declared
    have positive := List.find?_eq_none.mp found _ (List.mem_map_of_mem declared)
    simpa [List.count_eq_zero] using positive
  | case2 waiting next count found rest taken left tail ih =>
    subst counted
    obtain ⟨before, after, rfl, free, blocked⟩ := find_free found
    have further := ih (before ++ after) (lower_inDegrees blocked free).symm
    rw [tail] at further
    exact .take blocked free further

namespace Peeled

variable {ids taken left : List α}

theorem precedes (peeled : Peeled successors ids taken left) {a b : α} (source : a ∈ ids)
    (target : b ∈ taken) (edge : b ∈ successors a) :
    a ∈ taken ∧ taken.idxOf a < taken.idxOf b := by
  induction peeled with
  | stuck blocked => cases target
  | @take before after taken left next blocked free rest ih =>
    have other : b ≠ next := by
      rintro rfl
      exact free (List.mem_flatMap.mpr ⟨a, source, edge⟩)
    by_cases same : a = next
    · subst same
      refine ⟨List.mem_cons_self, ?_⟩
      rw [List.idxOf_cons_self, List.idxOf_cons_ne _ other.symm]
      exact Nat.succ_pos _
    · have waiting : a ∈ before ++ after := by
        rcases List.mem_append.mp source with first | second
        · exact List.mem_append_left _ first
        · exact List.mem_append_right _ ((List.mem_cons.mp second).resolve_left same)
      obtain ⟨member, earlier⟩ := ih waiting ((List.mem_cons.mp target).resolve_left other)
      refine ⟨List.mem_cons_of_mem _ member, ?_⟩
      rw [List.idxOf_cons_ne _ (Ne.symm same), List.idxOf_cons_ne _ other.symm]
      exact Nat.succ_lt_succ earlier

theorem precedes_of_transGen (peeled : Peeled successors ids taken []) {a b : α}
    (way : Relation.TransGen (Follows successors ids) a b) : taken.idxOf a < taken.idxOf b := by
  have all : ∀ id ∈ ids, id ∈ taken := by
    intro id member
    simpa using peeled.perm.mem_iff.mpr member
  induction way with
  | single edge => exact (peeled.precedes edge.1 (all _ edge.2.1) edge.2.2).2
  | tail first edge ih => exact ih.trans (peeled.precedes edge.1 (all _ edge.2.1) edge.2.2).2

theorem left_eq_nil_iff (peeled : Peeled successors ids taken left) :
    left = [] ↔ ∀ id, ¬ Relation.TransGen (Follows successors ids) id id := by
  constructor
  · rintro rfl id cycle
    exact Nat.lt_irrefl _ (peeled.precedes_of_transGen cycle)
  · intro acyclic
    have member : ∀ id ∈ left, id ∈ ids := fun id remains =>
      peeled.perm.mem_iff.mp (List.mem_append_right _ remains)
    apply eq_nil_of_always_leads (R := Function.swap (Follows successors ids))
    · intro id cycle
      exact acyclic id (Relation.transGen_swap.mp cycle)
    · intro id remains
      obtain ⟨source, waits, edge⟩ := List.mem_flatMap.mp (peeled.left_blocked id remains)
      exact ⟨source, waits, member source waits, member id remains, edge⟩

theorem core_eq_nil_iff {again core : List α} (peeled : Peeled successors ids taken left)
    (backwards : Peeled (predecessorsAmong successors left) left again core) :
    core = [] ↔ left = [] := by
  have whole := backwards.perm
  constructor
  · rintro rfl
    rw [List.append_nil] at whole
    -- Each id left has a predecessor left, which can only be taken away after it.
    have none : again = [] := by
      apply eq_nil_of_always_later
      intro id member
      have remains := whole.mem_iff.mp member
      obtain ⟨source, waits, edge⟩ := List.mem_flatMap.mp (peeled.left_blocked id remains)
      have later := whole.mem_iff.mpr waits
      exact ⟨source, later, (backwards.precedes remains later
        (mem_predecessorsAmong.mpr ⟨waits, edge⟩)).2⟩
    subst none
    exact List.nil_perm.mp whole
  · rintro rfl
    exact (List.append_eq_nil_iff.mp (List.perm_nil.mp whole)).2

end Peeled

end

section

variable (ids : List NodeId) (successors : NodeId → List NodeId)

theorem topologicalSort_cyclic_eq_nil_iff :
    (topologicalSort ids successors).2 = [] ↔
      ∀ id, ¬ Relation.TransGen (Follows successors ids) id id := by
  have peeled := settle_peeled successors ids
  have backwards := settle_peeled
    (predecessorsAmong successors (settle successors (inDegrees successors ids)).2)
    (settle successors (inDegrees successors ids)).2
  rw [← peeled.left_eq_nil_iff, ← peeled.core_eq_nil_iff backwards, topologicalSort]
  constructor
  · intro sorted
    exact List.nil_perm.mp (sorted ▸ (List.mergeSort_perm _ _))
  · intro none
    simp only [none, List.mergeSort_nil]

theorem topologicalSort_peeled (sorted : (topologicalSort ids successors).2 = []) :
    Peeled successors ids (topologicalSort ids successors).1 [] := by
  have peeled := settle_peeled successors ids
  rw [topologicalSort_cyclic_eq_nil_iff, ← peeled.left_eq_nil_iff] at sorted
  rw [sorted] at peeled
  exact peeled

end

end Colloquy
