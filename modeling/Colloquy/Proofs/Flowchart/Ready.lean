import Colloquy.Proofs.Flowchart.Order

/-!
Orders in which every id is ready when its turn comes. Whatever the choice among the ready ones, the
ids that get their turn are those that no cycle leads to; where the choice is by position, there is
one such order, and lowering counts finds it.
-/

namespace Colloquy

open Relation (ReflTransGen TransGen)

section

variable {α : Type} {successors : α → List α} {ids done order : List α} {before : α → α → Prop}

/-- Some cycle leads to the id, which may lie on it. -/
def AfterCycle (successors : α → List α) (ids : List α) (id : α) : Prop :=
  ∃ turning, TransGen (Follows successors ids) turning turning ∧
    ReflTransGen (Follows successors ids) turning id

def BeforeCycle (successors : α → List α) (ids : List α) (id : α) : Prop :=
  ∃ turning, TransGen (Follows successors ids) turning turning ∧
    ReflTransGen (Follows successors ids) id turning

structure Ready (successors : α → List α) (ids done : List α) (id : α) : Prop where
  declared : id ∈ ids
  waits : id ∉ done
  led : ∀ source ∈ ids, id ∈ successors source → source ∈ done

/-- After `done`, each id is ready when its turn comes and goes `before` every other one that is
ready then; the order ends when none is. -/
def ReadyOrder (before : α → α → Prop) (successors : α → List α) (ids : List α) :
    List α → List α → Prop
  | done, [] => ∀ id, ¬ Ready successors ids done id
  | done, next :: rest =>
    Ready successors ids done next ∧
      (∀ other, Ready successors ids done other → before next other) ∧
      ReadyOrder before successors ids (next :: done) rest

theorem ready_congr {others : α → List α}
    (same : ∀ source ∈ ids, ∀ id ∈ ids, id ∈ successors source ↔ id ∈ others source) {id : α} :
    Ready successors ids done id ↔ Ready others ids done id := by
  constructor
  · rintro ⟨declared, waits, led⟩
    exact ⟨declared, waits, fun source member edge =>
      led source member ((same source member id declared).mpr edge)⟩
  · rintro ⟨declared, waits, led⟩
    exact ⟨declared, waits, fun source member edge =>
      led source member ((same source member id declared).mp edge)⟩

theorem ReadyOrder.congr {others : α → List α}
    (same : ∀ source ∈ ids, ∀ id ∈ ids, id ∈ successors source ↔ id ∈ others source)
    (sorted : ReadyOrder before successors ids done order) :
    ReadyOrder before others ids done order := by
  induction order generalizing done with
  | nil => exact fun id ready => sorted id ((ready_congr same).mpr ready)
  | cons next rest ih =>
    obtain ⟨ready, first, later⟩ := sorted
    exact ⟨(ready_congr same).mp ready,
      fun other comes => first other ((ready_congr same).mpr comes), ih later⟩

namespace AfterCycle

theorem source {id : α} (after : AfterCycle successors ids id) :
    ∃ source, Follows successors ids source id ∧ AfterCycle successors ids source := by
  obtain ⟨turning, cycle, way⟩ := after
  obtain ⟨source, first, last⟩ := TransGen.tail'_iff.mp (cycle.trans_left way)
  exact ⟨source, last, turning, cycle, first⟩

theorem next {a b : α} (after : AfterCycle successors ids a)
    (edge : Follows successors ids a b) : AfterCycle successors ids b := by
  obtain ⟨turning, cycle, way⟩ := after
  exact ⟨turning, cycle, way.tail edge⟩

theorem mem {id : α} (after : AfterCycle successors ids id) : id ∈ ids := by
  obtain ⟨_, edge, _⟩ := after.source
  exact edge.2.1

end AfterCycle

namespace ReadyOrder

theorem subset (sorted : ReadyOrder before successors ids done order) : order ⊆ ids := by
  induction order generalizing done with
  | nil => exact List.nil_subset _
  | cons next rest ih => exact List.cons_subset.mpr ⟨sorted.1.declared, ih sorted.2.2⟩

theorem disjoint (sorted : ReadyOrder before successors ids done order) :
    ∀ id ∈ order, id ∉ done := by
  induction order generalizing done with
  | nil => exact fun id member => absurd member List.not_mem_nil
  | cons next rest ih =>
    intro id member
    rcases List.mem_cons.mp member with rfl | member
    · exact sorted.1.waits
    · exact fun taken => ih sorted.2.2 id member (List.mem_cons_of_mem _ taken)

theorem nodup (sorted : ReadyOrder before successors ids done order) : order.Nodup := by
  induction order generalizing done with
  | nil => exact .nil
  | cons next rest ih =>
    have fresh : next ∉ rest := fun member => disjoint sorted.2.2 next member List.mem_cons_self
    exact List.nodup_cons.mpr ⟨fresh, ih sorted.2.2⟩

/-- An id that a cycle leads to never becomes ready: one that leads to it would have been taken. -/
theorem not_afterCycle (sorted : ReadyOrder before successors ids done order)
    (clean : ∀ id ∈ done, ¬ AfterCycle successors ids id) :
    ∀ id ∈ order, ¬ AfterCycle successors ids id := by
  induction order generalizing done with
  | nil => exact fun id member => absurd member List.not_mem_nil
  | cons next rest ih =>
    have fresh : ¬ AfterCycle successors ids next := by
      intro after
      obtain ⟨source, edge, again⟩ := after.source
      exact clean source (sorted.1.led source edge.1 edge.2.2) again
    have cleaned : ∀ id ∈ next :: done, ¬ AfterCycle successors ids id :=
      List.forall_mem_cons.mpr ⟨fresh, clean⟩
    exact List.forall_mem_cons.mpr ⟨fresh, ih sorted.2.2 cleaned⟩

theorem exhausts (sorted : ReadyOrder before successors ids done order) {id : α}
    (declared : id ∈ ids) (clean : ¬ AfterCycle successors ids id) : id ∈ done ∨ id ∈ order := by
  classical
  induction order generalizing done with
  | nil =>
    by_contra missed
    have none : (ids.filter fun id => id ∉ done ∧ ¬ AfterCycle successors ids id) = [] := by
      apply eq_nil_of_always_leads (R := fun a b =>
        Function.swap (Follows successors ids) a b ∧ ¬ AfterCycle successors ids a)
      · intro a cycle
        have fresh : ¬ AfterCycle successors ids a := by
          obtain ⟨_, edge, _⟩ := TransGen.head'_iff.mp cycle
          exact edge.2
        have turning : TransGen (Function.swap (Follows successors ids)) a a :=
          TransGen.mono (fun _ _ edge => edge.1) a a cycle
        exact fresh ⟨a, Relation.transGen_swap.mp turning, .refl⟩
      · intro a member
        simp only [List.mem_filter, decide_eq_true_eq] at member
        obtain ⟨declared, waits, fresh⟩ := member
        have blocked : ∃ source ∈ ids, a ∈ successors source ∧ source ∉ done := by
          by_contra free
          push Not at free
          exact sorted a ⟨declared, waits, free⟩
        obtain ⟨source, listed, edge, left⟩ := blocked
        have follows : Follows successors ids source a := ⟨listed, declared, edge⟩
        refine ⟨source, ?_, follows, fresh⟩
        simp only [List.mem_filter, decide_eq_true_eq]
        exact ⟨listed, left, fun after => fresh (after.next follows)⟩
    refine List.not_mem_nil (none ▸ List.mem_filter.mpr ⟨declared, ?_⟩)
    simpa [clean] using missed
  | cons next rest ih =>
    rcases ih sorted.2.2 with taken | later
    · rcases List.mem_cons.mp taken with rfl | taken
      · exact .inr List.mem_cons_self
      · exact .inl taken
    · exact .inr (List.mem_cons_of_mem _ later)

theorem mem_iff (sorted : ReadyOrder before successors ids [] order) {id : α} :
    id ∈ order ↔ id ∈ ids ∧ ¬ AfterCycle successors ids id := by
  constructor
  · intro member
    exact ⟨sorted.subset member, sorted.not_afterCycle (fun _ none => absurd none List.not_mem_nil)
      id member⟩
  · rintro ⟨declared, clean⟩
    exact (sorted.exhausts declared clean).resolve_left List.not_mem_nil

theorem unique {other : List α} (antisymm : ∀ a ∈ ids, ∀ b, before a b → before b a → a = b)
    (sorted : ReadyOrder before successors ids done order)
    (again : ReadyOrder before successors ids done other) : order = other := by
  induction order generalizing done other with
  | nil =>
    cases other with
    | nil => rfl
    | cons next rest => exact absurd again.1 (sorted next)
  | cons next rest ih =>
    cases other with
    | nil => exact absurd sorted.1 (again next)
    | cons first others =>
      obtain ⟨ready, least, later⟩ := sorted
      obtain ⟨comes, minimal, after⟩ := again
      obtain rfl := antisymm next ready.declared first (least first comes) (minimal next ready)
      rw [ih later after]

end ReadyOrder

variable [DecidableEq α]

def EarliestFirst (successors : α → List α) (ids order : List α) : Prop :=
  ReadyOrder (fun a b => ids.idxOf a ≤ ids.idxOf b) successors ids [] order

theorem EarliestFirst.unique {other : List α} (sorted : EarliestFirst successors ids order)
    (again : EarliestFirst successors ids other) : order = other := by
  apply ReadyOrder.unique _ sorted again
  intro a declared b first second
  exact (List.idxOf_inj declared).mp (Nat.le_antisymm first second)

theorem Peeled.readyOrder {waiting taken left : List α}
    (peeled : Peeled successors waiting taken left) (distinct : ids.Nodup)
    (inside : waiting.Sublist ids) (waits : ∀ id ∈ ids, id ∈ waiting ↔ id ∉ done) :
    ReadyOrder (fun a b => ids.idxOf a ≤ ids.idxOf b) successors ids done taken := by
  induction peeled generalizing done with
  | @stuck waiting blocked =>
    intro id ready
    have member := (waits id ready.declared).mpr ready.waits
    obtain ⟨source, pending, edge⟩ := List.mem_flatMap.mp (blocked id member)
    have declared := inside.subset pending
    exact (waits source declared).mp pending (ready.led source declared edge)
  | @take front back taken left next blocked free rest ih =>
    have member : next ∈ front ++ next :: back := List.mem_append_right _ List.mem_cons_self
    have declared := inside.subset member
    have unrepeated := List.nodup_middle.mp (inside.nodup distinct)
    refine ⟨⟨declared, (waits next declared).mp member, ?_⟩, ?_, ?_⟩
    · intro source listed edge
      by_contra waiting
      exact free (List.mem_flatMap.mpr ⟨source, (waits source listed).mpr waiting, edge⟩)
    · intro other ready
      have pending := (waits other ready.declared).mpr ready.waits
      have increasing := List.pairwise_append.mp ((pairwise_idxOf distinct).sublist inside)
      rcases List.mem_append.mp pending with early | late
      · obtain ⟨source, listed, edge⟩ := List.mem_flatMap.mp (blocked other early)
        have known := inside.subset listed
        exact absurd (ready.led source known edge) ((waits source known).mp listed)
      · rcases List.mem_cons.mp late with rfl | late
        · exact Nat.le_refl _
        · exact Nat.le_of_lt ((List.pairwise_cons.mp increasing.2.1).1 other late)
    · apply ih
      · exact (List.Sublist.append_left (List.sublist_cons_self next back) front).trans inside
      · intro id listed
        by_cases same : id = next
        · subst same
          simpa using (List.nodup_cons.mp unrepeated).1
        · rw [List.mem_cons, not_or, ← waits id listed]
          simp [same]

theorem EarliestFirst.of_peeled {taken left : List α} (peeled : Peeled successors ids taken left)
    (distinct : ids.Nodup) : EarliestFirst successors ids taken :=
  peeled.readyOrder distinct (.refl _) (by simp)

end

end Colloquy
