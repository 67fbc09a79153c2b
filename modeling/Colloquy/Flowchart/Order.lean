import Colloquy.Flowchart.Basic

/-!
Dependency order. Of the ids that nothing pending leads to, the one declared first comes next; what
never gets there is reachable from a cycle.
-/

namespace Colloquy

section

variable {α : Type} [DecidableEq α]

/-- Takes the first waiting id whose count is zero, lowers the counts of its successors, and starts
over. The ids taken, in order, and those left when no count is zero. -/
def settle (successors : α → List α) (waiting : List (α × Nat)) : List α × List α :=
  match _found : waiting.find? (·.2 == 0) with
  | none => ([], waiting.map (·.1))
  | some (next, _) =>
    let rest := waiting.eraseP (·.2 == 0)
    let (taken, left) := settle successors
      (rest.map fun (id, count) => (id, count - (successors next).count id))
    (next :: taken, left)
termination_by waiting.length
decreasing_by
  have member := List.mem_of_find?_eq_some _found
  have zero := List.find?_some _found
  simp only [List.length_map]
  rw [List.length_eraseP_of_mem member zero]
  have := List.length_pos_of_mem member
  omega

def inDegrees (successors : α → List α) (ids : List α) : List (α × Nat) :=
  let targets := ids.flatMap successors
  ids.map fun id => (id, targets.count id)

def predecessorsAmong (successors : α → List α) (ids : List α) (target : α) : List α :=
  ids.flatMap fun id => List.replicate ((successors id).count target) id

end

/-- The ids in dependency order, and then, by name, those on a cycle or between cycles: of the ids
that are left over, the ones that nothing left over follows are taken away again from the end.
Successors that are not among `ids` do not count. -/
def topologicalSort (ids : List NodeId) (successors : NodeId → List NodeId) :
    List NodeId × List NodeId :=
  let (sorted, left) := settle successors (inDegrees successors ids)
  let backwards := predecessorsAmong successors left
  let (_, core) := settle backwards (inDegrees backwards left)
  (sorted, core.mergeSort)

namespace Flowchart

def forwardTargets (flowchart : Flowchart) (id : NodeId) : List NodeId :=
  match flowchart.node? id with
  | some node => node.forwardTargets
  | none => []

/-- The ids in dependency order, the ways back of loops aside; ties go to the node declared
first. -/
def topologicalOrder (flowchart : Flowchart) : List NodeId :=
  (topologicalSort flowchart.ids flowchart.forwardTargets).1

def cyclic (flowchart : Flowchart) : List NodeId :=
  (topologicalSort flowchart.ids flowchart.forwardTargets).2

end Flowchart

end Colloquy
