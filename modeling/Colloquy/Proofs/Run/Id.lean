import Colloquy.Run.Id
import Mathlib.Data.List.Basic

/-!
The identity of a run comes back from its text.
-/

namespace Colloquy.RunId

variable {digits : List Char}

def Proper (id : RunId) : Prop :=
  ∃ digits : List Char, digits.length = 32 ∧
    (∀ c ∈ digits, isHexDigit c = true ∧ c.toLower = c) ∧
    id.text = String.ofList (hyphenated digits)

theorem hyphen_not_hex {c : Char} (hex : isHexDigit c = true) : (c != '-') = true := by
  rw [bne_iff_ne]
  rintro rfl
  exact absurd hex (by decide)

theorem hyphenated_length (enough : digits.length = 32) : (hyphenated digits).length = 36 := by
  simp [hyphenated, enough]

theorem filter_hyphenated (hex : ∀ c ∈ digits, isHexDigit c = true) :
    (hyphenated digits).filter (· != '-') = digits := by
  have kept : ∀ group : List Char, group ⊆ digits → group.filter (· != '-') = group := by
    intro group inside
    exact List.filter_eq_self.mpr fun c member => hyphen_not_hex (hex c (inside member))
  have taken : ∀ i n, ((digits.drop i).take n).filter (· != '-') = (digits.drop i).take n :=
    fun i n => kept _ (List.Subset.trans (List.take_subset _ _) (List.drop_subset _ _))
  have joined : ∀ i n, (digits.drop i).take n ++ digits.drop (i + n) = digits.drop i := by
    intro i n
    rw [← List.drop_drop, List.take_append_drop]
  have hyphen : ∀ cs : List Char, ('-' :: cs).filter (· != '-') = cs.filter (· != '-') :=
    fun cs => List.filter_cons_of_neg (by decide)
  have first := taken 0 8
  rw [List.drop_zero] at first
  simp only [hyphenated, List.filter_append, hyphen, first, taken,
    kept _ (List.drop_subset 20 digits), List.append_assoc]
  rw [joined 16 4, joined 12 4, joined 8 4, List.take_append_drop]

theorem unhyphenated?_hyphenated (enough : digits.length = 32)
    (hex : ∀ c ∈ digits, isHexDigit c = true) :
    unhyphenated? (hyphenated digits) = some digits := by
  simp [unhyphenated?, filter_hyphenated hex, enough]

theorem parse?_text {id : RunId} (proper : id.Proper) : parse? id.text = some id := by
  obtain ⟨digits, enough, lower, same⟩ := proper
  have hex : ∀ c ∈ digits, isHexDigit c = true := fun c member => (lower c member).1
  have dressed : digits? (hyphenated digits) = some digits := by
    simp [digits?, hyphenated_length enough, unhyphenated?_hyphenated enough hex]
  have kept : digits.map Char.toLower = digits :=
    (List.map_congr_left fun c member => (lower c member).2).trans (List.map_id' digits)
  rw [parse?, same, String.toList_ofList, dressed, Option.bind_eq_bind, Option.bind_some, guard,
    if_pos (List.all_eq_true.mpr hex), kept, ← same]
  rfl

end Colloquy.RunId
