import Colloquy.Text.Blank
import Mathlib.Data.List.Basic

/-!
Trimming: a text is what trimming leaves of it, between blanks.
-/

namespace Colloquy.Text

abbrev AllBlank (cs : List Char) : Prop := ∀ c ∈ cs, isBlank c = true

def Trimmed (s : String) : Prop :=
  (∀ c ∈ s.toList.head?, isBlank c = false) ∧ ∀ c ∈ s.toList.getLast?, isBlank c = false

def TrimsTo (text core : String) : Prop :=
  Trimmed core ∧ ∃ before after, AllBlank before ∧ AllBlank after ∧
    text.toList = before ++ core.toList ++ after

section

variable {cs before after : List Char}

theorem trimLeft_split (cs : List Char) : ∃ before, AllBlank before ∧ cs = before ++ trimLeft cs :=
  ⟨cs.takeWhile isBlank, fun _ member => List.all_eq_true.mp List.all_takeWhile _ member,
    List.takeWhile_append_dropWhile.symm⟩

theorem trimLeft_head (cs : List Char) : ∀ c ∈ (trimLeft cs).head?, isBlank c = false := by
  intro c first
  have stops := List.head?_dropWhile_not isBlank cs
  rw [trimLeft, Option.mem_def] at first
  rw [first] at stops
  simpa using stops

theorem trimLeft_append (blank : AllBlank before) (first : ∀ c ∈ cs.head?, isBlank c = false) :
    trimLeft (before ++ cs) = cs := by
  rw [trimLeft, List.dropWhile_append_of_pos blank]
  cases cs with
  | nil => rfl
  | cons c rest => rw [List.dropWhile_cons_of_neg (by simp [first c rfl])]

theorem trimBoth_split (cs : List Char) :
    ∃ after, AllBlank after ∧ trimLeft cs = trimBoth cs ++ after := by
  obtain ⟨after, blank, back⟩ := trimLeft_split (trimLeft cs).reverse
  refine ⟨after.reverse, fun c member => blank c (List.mem_reverse.mp member), ?_⟩
  rw [trimBoth, ← List.reverse_append, ← back, List.reverse_reverse]

theorem trimBoth_between (blank : AllBlank before) (blankToo : AllBlank after)
    (first : ∀ c ∈ cs.head?, isBlank c = false) (last : ∀ c ∈ cs.getLast?, isBlank c = false) :
    trimBoth (before ++ cs ++ after) = cs := by
  have front : trimLeft (before ++ cs ++ after) = trimLeft (cs ++ after) := by
    rw [trimLeft, List.append_assoc, List.dropWhile_append_of_pos blank, trimLeft]
  have back : trimLeft (after.reverse ++ cs.reverse) = cs.reverse :=
    trimLeft_append (fun c member => blankToo c (List.mem_reverse.mp member)) (by simpa using last)
  cases cs with
  | nil =>
    have nothing : trimLeft (after ++ []) = [] := trimLeft_append blankToo (by simp)
    rw [List.append_nil] at nothing
    rw [trimBoth, front, List.nil_append, nothing]
    rfl
  | cons c rest =>
    have whole : trimLeft ([] ++ (c :: rest ++ after)) = c :: rest ++ after :=
      trimLeft_append (List.forall_mem_nil _) (by simpa using first)
    rw [List.nil_append] at whole
    rw [trimBoth, front, whole, List.reverse_append, back, List.reverse_reverse]

end

theorem trim_trimsTo (s : String) : TrimsTo s (trim s) := by
  obtain ⟨before, blank, front⟩ := trimLeft_split s.toList
  obtain ⟨after, blankToo, back⟩ := trimBoth_split s.toList
  refine ⟨⟨?_, ?_⟩, before, after, blank, blankToo, ?_⟩
  · intro c first
    rw [trim, String.toList_ofList] at first
    apply trimLeft_head s.toList c
    rw [back, List.head?_append, Option.mem_def.mp first]
    rfl
  · intro c last
    rw [trim, String.toList_ofList, trimBoth, List.getLast?_reverse] at last
    exact trimLeft_head _ c last
  · rw [trim, String.toList_ofList, List.append_assoc, ← back, ← front]

theorem trim_eq_iff {text core : String} : trim text = core ↔ TrimsTo text core := by
  constructor
  · rintro rfl
    exact trim_trimsTo text
  · rintro ⟨⟨first, last⟩, before, after, blank, blankToo, split⟩
    rw [trim, split, trimBoth_between blank blankToo first last, String.ofList_toList]

end Colloquy.Text
