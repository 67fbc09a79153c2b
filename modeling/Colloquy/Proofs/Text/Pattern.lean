import Colloquy.Text.Pattern
import Mathlib.Data.List.Basic

/-!
A pattern finds a match if there is one. Giving characters back loses none: whatever some match
leaves, a piece that takes as many as it can leaves a match too.
-/

namespace Colloquy.Text.Pattern

inductive Matches : Pattern → List Char → Prop
  | nil : Matches [] []
  | one {among : Char → Bool} {c : Char} {others : Pattern} {cs : List Char}
      (fits : among c = true) (onwards : Matches others cs) : Matches (.one among :: others) (c :: cs)
  | many {among : Char → Bool} {run : List Char} {others : Pattern} {cs : List Char}
      (fits : ∀ c ∈ run, among c = true) (onwards : Matches others cs) :
      Matches (.many among :: others) (run ++ cs)

section

variable {among : Char → Bool} {others : Pattern} {taken : List Char}

theorem matches_nil_iff : Matches [] taken ↔ taken = [] := by
  constructor
  · rintro ⟨⟩
    rfl
  · rintro rfl
    exact .nil

theorem matches_one_iff : Matches (.one among :: others) taken ↔
    ∃ c cs, among c = true ∧ Matches others cs ∧ taken = c :: cs := by
  constructor
  · rintro (_ | ⟨fits, onwards⟩ | _)
    exact ⟨_, _, fits, onwards, rfl⟩
  · rintro ⟨c, cs, fits, onwards, rfl⟩
    exact .one fits onwards

theorem matches_many_iff : Matches (.many among :: others) taken ↔
    ∃ run cs, (∀ c ∈ run, among c = true) ∧ Matches others cs ∧ taken = run ++ cs := by
  constructor
  · rintro (_ | _ | ⟨fits, onwards⟩)
    exact ⟨_, _, fits, onwards, rfl⟩
  · rintro ⟨run, cs, fits, onwards, rfl⟩
    exact .many fits onwards

theorem matches_literal_iff {name : List Char} :
    Matches (literal name ++ others) taken ↔ ∃ cs, Matches others cs ∧ taken = name ++ cs := by
  induction name generalizing taken with
  | nil => simp [literal]
  | cons c rest ih =>
    change Matches (.one (· == c) :: (literal rest ++ others)) taken ↔ _
    rw [matches_one_iff]
    constructor
    · rintro ⟨d, ds, same, onwards, rfl⟩
      obtain ⟨cs, fits, rfl⟩ := ih.mp onwards
      exact ⟨cs, fits, by rw [beq_iff_eq.mp same, List.cons_append]⟩
    · rintro ⟨cs, fits, rfl⟩
      exact ⟨c, rest ++ cs, beq_self_eq_true c, ih.mpr ⟨cs, fits, rfl⟩, rfl⟩

end

section

variable {among : Char → Bool} {onwards : List Char → Option (List Char)} {cs rest : List Char}

theorem longest?_some (found : longest? among onwards cs = some rest) : ∃ run left,
    (∀ c ∈ run, among c = true) ∧ cs = run ++ left ∧ onwards left = some rest := by
  induction cs with
  | nil => exact ⟨[], [], List.forall_mem_nil _, rfl, found⟩
  | cons c cs ih =>
    rw [longest?] at found
    split at found
    · rename_i fits
      cases more : longest? among onwards cs with
      | none =>
        rw [more] at found
        exact ⟨[], c :: cs, List.forall_mem_nil _, rfl, found⟩
      | some other =>
        rw [more] at found
        cases found
        obtain ⟨run, left, all, rfl, found⟩ := ih more
        exact ⟨c :: run, left, List.forall_mem_cons.mpr ⟨fits, all⟩, rfl, found⟩
    · exact ⟨[], c :: cs, List.forall_mem_nil _, rfl, found⟩

theorem longest?_isSome {run : List Char} (all : ∀ c ∈ run, among c = true)
    (found : (onwards cs).isSome) : (longest? among onwards (run ++ cs)).isSome := by
  induction run with
  | nil =>
    cases cs with
    | nil => exact found
    | cons c cs =>
      rw [List.nil_append, longest?]
      split
      · cases longest? among onwards cs <;> simp [found]
      · exact found
  | cons c run ih =>
    obtain ⟨fits, others⟩ := List.forall_mem_cons.mp all
    rw [List.cons_append, longest?, if_pos fits]
    obtain ⟨left, more⟩ := Option.isSome_iff_exists.mp (ih others)
    rw [more]
    rfl

theorem longest?_last (cs : List Char) : longest? among some cs = some (cs.dropWhile among) := by
  induction cs with
  | nil => rfl
  | cons c cs ih => by_cases fits : among c = true <;> simp [longest?, fits, ih]

end

variable {pattern : Pattern} {cs rest taken : List Char}

theorem rest?_sound (found : pattern.rest? cs = some rest) :
    ∃ taken, pattern.Matches taken ∧ cs = taken ++ rest := by
  induction pattern generalizing cs with
  | nil =>
    cases found
    exact ⟨[], .nil, rfl⟩
  | cons piece others ih =>
    cases piece with
    | one among =>
      cases cs with
      | nil => cases found
      | cons c cs =>
        rw [rest?] at found
        split at found
        · rename_i fits
          obtain ⟨taken, onwards, rfl⟩ := ih found
          exact ⟨c :: taken, .one fits onwards, rfl⟩
        · cases found
    | many among =>
      obtain ⟨run, left, fits, rfl, more⟩ := longest?_some found
      obtain ⟨taken, onwards, rfl⟩ := ih more
      exact ⟨run ++ taken, .many fits onwards, (List.append_assoc run taken rest).symm⟩

theorem rest?_complete (matched : pattern.Matches taken) (rest : List Char) :
    (pattern.rest? (taken ++ rest)).isSome := by
  induction matched with
  | nil => rfl
  | one fits onwards ih => rwa [List.cons_append, rest?, if_pos fits]
  | many fits onwards ih =>
    rw [List.append_assoc, rest?]
    exact longest?_isSome fits ih

theorem rest?_eq_none_iff :
    pattern.rest? cs = none ↔ ∀ taken rest, pattern.Matches taken → cs ≠ taken ++ rest := by
  constructor
  · rintro none taken rest matched rfl
    simpa [none] using rest?_complete matched rest
  · intro unmatched
    cases found : pattern.rest? cs with
    | none => rfl
    | some rest =>
      obtain ⟨taken, matched, split⟩ := rest?_sound found
      exact absurd split (unmatched taken rest matched)

theorem rest?_head {among : Char → Bool} (found : rest? (pattern ++ [.many among]) cs = some rest) :
    ∀ c ∈ rest.head?, among c = false := by
  induction pattern generalizing cs with
  | nil =>
    have last : longest? among some cs = some rest := found
    rw [longest?_last] at last
    cases last
    intro c first
    have stops := List.head?_dropWhile_not among cs
    rw [Option.mem_def.mp first] at stops
    simpa using stops
  | cons piece others ih =>
    cases piece with
    | one another =>
      cases cs with
      | nil => cases found
      | cons c cs =>
        rw [List.cons_append, rest?] at found
        split at found
        · exact ih found
        · cases found
    | many another =>
      obtain ⟨run, left, -, -, more⟩ := longest?_some found
      exact ih more

end Colloquy.Text.Pattern
