/-!
Repetition in lists.
-/

namespace Colloquy

section

variable {α : Type} [DecidableEq α]

def firstRepeated? (seen : List α) : List α → Option α
  | [] => none
  | a :: rest => if a ∈ seen then some a else firstRepeated? (a :: seen) rest

def firstOccurrences (seen : List α) : List α → List α
  | [] => []
  | a :: rest => if a ∈ seen then firstOccurrences seen rest else a :: firstOccurrences (a :: seen) rest

end

end Colloquy
