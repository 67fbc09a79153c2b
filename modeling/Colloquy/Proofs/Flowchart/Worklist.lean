import Colloquy.Proofs.Flowchart.Ready
import Mathlib.Data.List.Sort
import Mathlib.Logic.Function.Basic

/-!
Worklists with counters. Every id has a counter of the edges that lead to it from ids still to come;
an id that leaves the worklist takes its edges away one at a time, and a target whose counter comes
down to zero enters. Here a counter below zero and a turn too many are failures, and neither
happens: whatever the order in which the worklist is served, the ids leave it in an order in which
each is ready.
-/

namespace Colloquy

section

variable {α : Type}

def enter (enqueue : α → List α → List α) (target : α) (count : Nat) (ready : List α) : List α :=
  if count = 0 then enqueue target ready else ready

structure Queue (before : α → α → Prop) (enqueue : α → List α → List α) : Prop where
  perm : ∀ id ready, (enqueue id ready).Perm (id :: ready)
  keeps : ∀ id ready, ready.Pairwise before → (enqueue id ready).Pairwise before
  self : ∀ id, before id id

namespace Queue

variable {before : α → α → Prop} {enqueue : α → List α → List α} {ready : List α} {id target : α}
  {count : Nat}

theorem append : Queue (fun _ _ : α => True) fun id ready => ready ++ [id] where
  perm _ _ := List.perm_append_comm
  keeps _ _ _ := List.pairwise_of_forall fun _ _ => trivial
  self _ := trivial

theorem mem_enter (queue : Queue before enqueue) :
    id ∈ enter enqueue target count ready ↔ id ∈ ready ∨ id = target ∧ count = 0 := by
  by_cases last : count = 0
  · simp [enter, last, (queue.perm target ready).mem_iff, or_comm]
  · simp [enter, last]

theorem nodup_enter (queue : Queue before enqueue) (absent : target ∉ ready)
    (distinct : ready.Nodup) : (enter enqueue target count ready).Nodup := by
  rw [enter]
  split
  · exact (queue.perm target ready).nodup_iff.mpr (List.nodup_cons.mpr ⟨absent, distinct⟩)
  · exact distinct

theorem pairwise_enter (queue : Queue before enqueue) (queued : ready.Pairwise before) :
    (enter enqueue target count ready).Pairwise before := by
  rw [enter]
  split
  · exact queue.keeps target ready queued
  · exact queued

end Queue

variable [DecidableEq α]

def enqueueByPosition (ids : List α) (id : α) (ready : List α) : List α :=
  ready.orderedInsert (fun a b => ids.idxOf a ≤ ids.idxOf b) id

theorem Queue.byPosition (ids : List α) :
    Queue (fun a b => ids.idxOf a ≤ ids.idxOf b) (enqueueByPosition ids) := by
  have : Std.Total fun a b : α => ids.idxOf a ≤ ids.idxOf b := ⟨fun _ _ => Nat.le_total _ _⟩
  have : IsTrans α fun a b => ids.idxOf a ≤ ids.idxOf b := ⟨fun _ _ _ => Nat.le_trans⟩
  exact ⟨fun id ready => List.perm_orderedInsert _ id ready,
    fun id ready increasing => List.Pairwise.orderedInsert id ready increasing,
    fun _ => Nat.le_refl _⟩

/-- Takes one edge after another away from its target. There is no result where a counter at zero
would be lowered. -/
def release (enqueue : α → List α → List α) (counters : α → Nat) (ready : List α) :
    List α → Option ((α → Nat) × List α)
  | [] => some (counters, ready)
  | target :: rest =>
    match counters target with
    | 0 => none
    | count + 1 =>
      release enqueue (Function.update counters target count) (enter enqueue target count ready) rest

def drain (enqueue : α → List α → List α) (targets : α → List α) :
    Nat → (α → Nat) → List α → Option (List α)
  | _, _, [] => some []
  | 0, _, _ :: _ => none
  | turns + 1, counters, next :: ready => do
    let (counters, ready) ← release enqueue counters ready (targets next)
    return next :: (← drain enqueue targets turns counters ready)

def worklist (enqueue : α → List α → List α) (targets : α → List α) (ids : List α) :
    Option (List α) :=
  let degree id := (ids.flatMap targets).count id
  drain enqueue targets ids.length degree (ids.filter (degree · = 0))

section

variable {before : α → α → Prop} {enqueue : α → List α → List α} {targets : α → List α}
  {ids done ready edges : List α} {counters : α → Nat} {target : α} {count : Nat}

theorem update_count (counted : counters target = count + 1) (rest : List α) (id : α) :
    Function.update counters target count id - rest.count id =
      counters id - (target :: rest).count id := by
  rw [Function.update_apply, List.count_cons]
  by_cases same : id = target
  · subst same
    simp [counted]
  · simp [same, Ne.symm same]

theorem release_ok (queue : Queue before enqueue) (enough : ∀ id, edges.count id ≤ counters id)
    (zero : ∀ id ∈ ready, counters id = 0) (distinct : ready.Nodup)
    (queued : ready.Pairwise before) :
    ∃ later, release enqueue counters ready edges =
        some (fun id => counters id - edges.count id, later) ∧
      (∀ id, id ∈ later ↔ id ∈ ready ∨ id ∈ edges ∧ counters id - edges.count id = 0) ∧
      later.Nodup ∧ later.Pairwise before := by
  induction edges generalizing counters ready with
  | nil => exact ⟨ready, rfl, by simp, distinct, queued⟩
  | cons target rest ih =>
    have positive := enough target
    rw [List.count_cons_self] at positive
    obtain ⟨count, counted⟩ : ∃ count, counters target = count + 1 :=
      Nat.exists_eq_add_one.mpr (by omega)
    have absent : target ∉ ready := fun member => by simp [zero target member] at counted
    have enoughLeft : ∀ id, rest.count id ≤ Function.update counters target count id := by
      intro id
      have := enough id
      rw [Function.update_apply]
      split
      · rename_i same
        subst same
        omega
      · exact List.count_le_count_cons.trans this
    have zeroLeft : ∀ id ∈ enter enqueue target count ready,
        Function.update counters target count id = 0 := by
      intro id member
      rw [Function.update_apply]
      split
      · rename_i same
        exact ((queue.mem_enter.mp member).resolve_left (same ▸ absent)).2
      · rename_i other
        exact zero id ((queue.mem_enter.mp member).resolve_right fun entered => other entered.1)
    obtain ⟨later, released, enters, unrepeated, served⟩ :=
      ih enoughLeft zeroLeft (queue.nodup_enter absent distinct) (queue.pairwise_enter queued)
    simp only [update_count counted] at released enters
    refine ⟨later, ?_, ?_, unrepeated, served⟩
    · rw [release, counted]
      exact released
    · intro id
      rw [enters, queue.mem_enter, List.mem_cons]
      by_cases same : id = target
      · subst same
        by_cases again : id ∈ rest
        · have := List.count_pos_iff.mpr again
          have := enoughLeft id
          rw [Function.update_self] at this
          simp [again, absent]
          omega
        · simp [again, absent, counted, List.count_eq_zero_of_not_mem again]
      · simp [same]

/-- While the ids of `done` have left the worklist, the counters count the edges from the others, and
those without any are in it. -/
structure Underway (before : α → α → Prop) (targets : α → List α) (ids done : List α)
    (counters : α → Nat) (ready : List α) : Prop where
  counted : ∀ id, counters id = ((ids.filter (· ∉ done)).flatMap targets).count id
  waiting : ∀ id, id ∈ ready ↔ id ∈ ids ∧ id ∉ done ∧ counters id = 0
  settled : ∀ id ∈ done, counters id = 0
  distinct : ready.Nodup
  queued : ready.Pairwise before

theorem filter_perm_cons (distinct : ids.Nodup) {next : α} (declared : next ∈ ids)
    (waits : next ∉ done) :
    (ids.filter (· ∉ done)).Perm (next :: ids.filter (· ∉ next :: done)) := by
  have member : next ∈ ids.filter (· ∉ done) := by simpa using ⟨declared, waits⟩
  have rest : (ids.filter (· ∉ done)).erase next = ids.filter (· ∉ next :: done) := by
    rw [(distinct.filter _).erase_eq_filter, List.filter_filter]
    refine List.filter_congr fun id _ => ?_
    simp [bne, Bool.beq_eq_decide_eq]
  exact rest ▸ List.perm_cons_erase member

namespace Underway

theorem ready_iff (underway : Underway before targets ids done counters ready) {id : α} :
    id ∈ ready ↔ Ready targets ids done id := by
  rw [underway.waiting, underway.counted, List.count_eq_zero, List.mem_flatMap]
  constructor
  · rintro ⟨declared, waits, free⟩
    refine ⟨declared, waits, fun source listed edge => ?_⟩
    by_contra left
    exact free ⟨source, by simpa using ⟨listed, left⟩, edge⟩
  · rintro ⟨declared, waits, led⟩
    refine ⟨declared, waits, ?_⟩
    rintro ⟨source, pending, edge⟩
    obtain ⟨listed, left⟩ := List.mem_filter.mp pending
    exact of_decide_eq_true left (led source listed edge)

/-- One turn: the edges of the id that leaves are still in the counters, so none falls below
zero. -/
theorem turn (queue : Queue before enqueue) (distinct : ids.Nodup) {next : α}
    (inside : targets next ⊆ ids)
    (underway : Underway before targets ids done counters (next :: ready)) :
    ∃ later, release enqueue counters ready (targets next) =
        some (fun id => counters id - (targets next).count id, later) ∧
      Underway before targets ids (next :: done)
        (fun id => counters id - (targets next).count id) later := by
  obtain ⟨declared, waits, free⟩ := (underway.waiting next).mp List.mem_cons_self
  obtain ⟨fresh, unrepeated⟩ := List.nodup_cons.mp underway.distinct
  have split : ∀ id, counters id = (targets next).count id +
      ((ids.filter (· ∉ next :: done)).flatMap targets).count id := by
    intro id
    rw [underway.counted, ((filter_perm_cons distinct declared waits).flatMap_right _).count_eq,
      List.flatMap_cons, List.count_append]
  have zero : ∀ id ∈ ready, counters id = 0 := fun id member =>
    ((underway.waiting id).mp (List.mem_cons_of_mem _ member)).2.2
  obtain ⟨later, released, enters, unrepeatedToo, served⟩ :=
    release_ok queue (fun id => (split id).symm ▸ Nat.le_add_right _ _) zero unrepeated
      (List.pairwise_cons.mp underway.queued).2
  refine ⟨later, released, ⟨?_, ?_, ?_, unrepeatedToo, served⟩⟩
  · intro id
    rw [split, Nat.add_sub_cancel_left]
  · intro id
    have waiting := underway.waiting id
    rw [List.mem_cons] at waiting
    rw [enters, List.mem_cons, not_or]
    constructor
    · rintro (member | ⟨edge, last⟩)
      · obtain ⟨listed, left, none⟩ := waiting.mp (.inr member)
        exact ⟨listed, ⟨fun same => fresh (same ▸ member), left⟩, by omega⟩
      · have positive : counters id ≠ 0 := by
          have := List.count_pos_iff.mpr edge
          have := split id
          omega
        exact ⟨inside edge, ⟨fun same => positive (same ▸ free),
          fun left => positive (underway.settled id left)⟩, last⟩
    · rintro ⟨listed, ⟨other, left⟩, last⟩
      by_cases edge : id ∈ targets next
      · exact .inr ⟨edge, last⟩
      · have same : counters id = 0 := by simpa [List.count_eq_zero_of_not_mem edge] using last
        exact .inl ((waiting.mpr ⟨listed, left, same⟩).resolve_left other)
  · intro id left
    rcases List.mem_cons.mp left with rfl | left
    · simp [free]
    · simp [underway.settled id left]

theorem drain_readyOrder (queue : Queue before enqueue) (distinct : ids.Nodup)
    (inside : ∀ id, targets id ⊆ ids) {turns : Nat}
    (underway : Underway before targets ids done counters ready)
    (enough : (ids.filter (· ∉ done)).length ≤ turns) :
    ∃ order, drain enqueue targets turns counters ready = some order ∧
      ReadyOrder before targets ids done order := by
  induction turns generalizing done counters ready with
  | zero =>
    have none : ∀ id, ¬ Ready targets ids done id := by
      intro id comes
      have member : id ∈ ids.filter (· ∉ done) := by simpa using ⟨comes.declared, comes.waits⟩
      exact absurd (List.length_pos_of_mem member) (Nat.not_lt_of_le enough)
    cases ready with
    | nil => exact ⟨[], by rw [drain], none⟩
    | cons next rest => exact absurd (underway.ready_iff.mp List.mem_cons_self) (none next)
  | succ turns ih =>
    cases ready with
    | nil =>
      exact ⟨[], by rw [drain], fun id comes =>
        absurd (underway.ready_iff.mpr comes) List.not_mem_nil⟩
    | cons next rest =>
      have comes := underway.ready_iff.mp List.mem_cons_self
      obtain ⟨later, released, onwards⟩ := underway.turn queue distinct (inside next)
      have fewer := (filter_perm_cons distinct comes.declared comes.waits).length_eq
      rw [List.length_cons] at fewer
      obtain ⟨order, drained, sorted⟩ := ih onwards (by omega)
      refine ⟨next :: order, ?_, comes, ?_, sorted⟩
      · simp [drain, released, drained]
      · intro other ready
        rcases List.mem_cons.mp (underway.ready_iff.mpr ready) with rfl | waiting
        · exact queue.self other
        · exact (List.pairwise_cons.mp underway.queued).1 other waiting

end Underway

theorem worklist_readyOrder (queue : Queue before enqueue) (distinct : ids.Nodup)
    (inside : ∀ id, targets id ⊆ ids) (queued : ids.Pairwise before) :
    ∃ order, worklist enqueue targets ids = some order ∧
      ReadyOrder before targets ids [] order := by
  have underway : Underway before targets ids [] (fun id => (ids.flatMap targets).count id)
      (ids.filter fun id => (ids.flatMap targets).count id = 0) := by
    refine ⟨?_, ?_, ?_, distinct.filter _, queued.filter _⟩ <;> simp
  exact underway.drain_readyOrder queue distinct inside (by simp)

end

def successorsAmong (successors : α → List α) (ids : List α) (id : α) : List α :=
  (successors id).filter (· ∈ ids)

end

/-- Both lists of the sort by two worklists: one of the ids, served by position, and, if that leaves
some, one of those left with the edges the other way round, first in first out. -/
def sortByWorklists (ids : List NodeId) (successors : NodeId → List NodeId) :
    Option (List NodeId × List NodeId) := do
  let sorted ← worklist (enqueueByPosition ids) (successorsAmong successors ids) ids
  if sorted.length = ids.length then
    return (sorted, [])
  let left := ids.filter (· ∉ sorted)
  let stripped ← worklist (fun id ready => ready ++ [id])
    (predecessorsAmong (successorsAmong successors ids) left) left
  return (sorted, (left.filter (· ∉ stripped)).mergeSort)

end Colloquy
