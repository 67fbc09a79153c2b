import Colloquy.Proofs.Json.Literals
import Colloquy.Proofs.Json.Members

/-!
Values on one line end where they end: what follows a value is told from the value itself. So values
that print the same are the same.
-/

namespace Colloquy

section

variable {α : Type} {f : α → List Char} {closing : Char} {separator : List Char} {xs ys : List α}
  {s t : List Char}

theorem intercalate_cons (x : List Char) (rest : List (List Char)) :
    separator.intercalate (x :: rest) = x ++ rest.flatMap (separator ++ ·) := by
  induction rest generalizing x with
  | nil => simp
  | cons next rest ih => simp [ih]

/-- The parts tell where they end, each in its place, as far as no character of a number follows. -/
def PartsEnd (f : α → List Char) (xs ys : List α) : Prop :=
  ∀ (i : ℕ) (x y : α), xs[i]? = some x → ys[i]? = some y → ∀ s t, Json.Stops s → Json.Stops t →
    f x ++ s = f y ++ t → x = y ∧ s = t

theorem PartsEnd.tail {x y : α} (ends : PartsEnd f (x :: xs) (y :: ys)) : PartsEnd f xs ys :=
  fun i => ends (i + 1)

def tails (f : α → List Char) (gap : List Char) (xs : List α) : List Char :=
  xs.flatMap fun x => ',' :: (gap ++ f x)

theorem stops_tails (gap : List Char) (stops : Json.isNumberChar closing = false) :
    Json.Stops (tails f gap xs ++ closing :: s) := by
  cases xs with
  | nil => simpa [tails, Json.Stops] using stops
  | cons x rest => simp [tails, Json.Stops]; decide

theorem tails_cancel {gap : List Char} (ends : PartsEnd f xs ys) (other : closing ≠ ',')
    (stops : Json.isNumberChar closing = false)
    (same : tails f gap xs ++ closing :: s = tails f gap ys ++ closing :: t) : xs = ys ∧ s = t := by
  induction xs generalizing ys with
  | nil =>
    cases ys with
    | nil => exact ⟨rfl, by simpa [tails] using same⟩
    | cons y ys => exact absurd (by simpa [tails] using congrArg List.head? same) other
  | cons x xs ih =>
    cases ys with
    | nil => exact absurd (by simpa [tails] using congrArg List.head? same.symm) other
    | cons y ys =>
      have after : f x ++ (tails f gap xs ++ closing :: s) =
          f y ++ (tails f gap ys ++ closing :: t) := by
        simpa [tails] using same
      obtain ⟨rfl, rest⟩ :=
        ends 0 x y rfl rfl _ _ (stops_tails gap stops) (stops_tails gap stops) after
      obtain ⟨rfl, behind⟩ := ih ends.tail rest
      exact ⟨rfl, behind⟩

theorem intercalate_map_cons {gap : List Char} (x : α) (rest : List α) :
    (',' :: gap).intercalate ((x :: rest).map f) = f x ++ tails f gap rest := by
  rw [List.map_cons, intercalate_cons, List.flatMap_map]
  rfl

theorem eq_nil_iff_of_joined {gap : List Char}
    (opens : ∀ x rest rest', f x ++ rest ≠ closing :: rest')
    (same : (',' :: gap).intercalate (xs.map f) ++ closing :: s =
      (',' :: gap).intercalate (ys.map f) ++ closing :: t) : xs = [] ↔ ys = [] := by
  cases xs with
  | nil =>
    cases ys with
    | nil => simp
    | cons y ys =>
      rw [intercalate_map_cons, List.append_assoc] at same
      exact absurd same.symm (opens y _ _)
  | cons x xs =>
    cases ys with
    | nil =>
      rw [intercalate_map_cons, List.append_assoc] at same
      exact absurd same (opens x _ _)
    | cons y ys => simp

theorem joined_cancel {gap : List Char} (ends : PartsEnd f xs ys) (other : closing ≠ ',')
    (stops : Json.isNumberChar closing = false) (none : xs = [] ↔ ys = [])
    (same : (',' :: gap).intercalate (xs.map f) ++ closing :: s =
      (',' :: gap).intercalate (ys.map f) ++ closing :: t) : xs = ys ∧ s = t := by
  cases xs with
  | nil =>
    obtain rfl := none.mp rfl
    exact ⟨rfl, by simpa using same⟩
  | cons x xs =>
    cases ys with
    | nil => cases none.mpr rfl
    | cons y ys =>
      rw [intercalate_map_cons, intercalate_map_cons, List.append_assoc, List.append_assoc] at same
      obtain ⟨rfl, rest⟩ :=
        ends 0 x y rfl rfl _ _ (stops_tails gap stops) (stops_tails gap stops) same
      obtain ⟨rfl, behind⟩ := tails_cancel ends.tail other stops rest
      exact ⟨rfl, behind⟩

end

namespace Json

/-- Every number in the value is an integer or a double in its form. -/
inductive Proper : Json → Prop
  | null : Proper .null
  | bool (flag : Bool) : Proper (.bool flag)
  | num {n : Number} (proper : n.Proper) : Proper (.num n)
  | str (text : String) : Proper (.str text)
  | arr {items : List Json} (each : ∀ item ∈ items, Proper item) : Proper (.arr items)
  | obj {members : Members} (each : ∀ entry ∈ members, Proper entry.2) : Proper (.obj members)

attribute [simp] Proper.null Proper.bool Proper.str

@[simp]
theorem proper_num {n : Number} : (Json.num n).Proper ↔ n.Proper :=
  ⟨fun | .num proper => proper, .num⟩

@[simp]
theorem proper_arr {items : List Json} : (Json.arr items).Proper ↔ ∀ item ∈ items, item.Proper :=
  ⟨fun | .arr each => each, .arr⟩

@[simp]
theorem proper_obj {members : Members} :
    (Json.obj members).Proper ↔ ∀ entry ∈ members, entry.2.Proper :=
  ⟨fun | .obj each => each, .obj⟩

def compactMember (entry : String × Json) : List Char :=
  (textLiteral entry.1).toList ++ ':' :: (compact entry.2).toList

theorem compactItems_eq (items : List Json) : compactItems items = items.map compact := by
  induction items with
  | nil => rfl
  | cons item rest ih => rw [compactItems, ih, List.map_cons]

theorem compactMembers_eq (members : Members) :
    compactMembers members =
      members.map fun entry => textLiteral entry.1 ++ ":" ++ compact entry.2 := by
  induction members with
  | nil => rfl
  | cons entry rest ih => rw [compactMembers, ih, List.map_cons]

theorem compact_arr (items : List Json) : (compact (.arr items)).toList =
    '[' :: ([','].intercalate (items.map fun item => (compact item).toList) ++ [']']) := by
  simp [compact, compactItems_eq, Function.comp_def]

theorem compact_obj (members : Members) : (compact (.obj members)).toList =
    '{' :: ([','].intercalate (members.map compactMember) ++ ['}']) := by
  have member : ∀ entry : String × Json,
      (textLiteral entry.1 ++ ":" ++ compact entry.2).toList = compactMember entry := by
    simp [compactMember]
  simp [compact, compactMembers_eq, Function.comp_def, member]

def leading (c : Char) : Char := if isNumberChar c then '0' else if c = 'f' then 't' else c

def opening : Json → Char
  | null => 'n'
  | bool _ => 't'
  | num _ => '0'
  | str _ => '"'
  | arr _ => '['
  | obj _ => '{'

theorem compact_opening (value : Json) : ∃ c rest, (compact value).toList = c :: rest ∧
    leading c = value.opening := by
  cases value with
  | null => exact ⟨_, _, rfl, rfl⟩
  | bool flag => cases flag <;> exact ⟨_, _, rfl, rfl⟩
  | num n =>
    obtain ⟨nonempty, chars⟩ := number_numberLiteral n
    obtain ⟨c, rest, same⟩ := List.exists_cons_of_ne_nil nonempty
    exact ⟨c, rest, same, if_pos (chars c (same ▸ List.mem_cons_self))⟩
  | str text => exact ⟨_, _, textLiteral_toList text, rfl⟩
  | arr items => exact ⟨_, _, compact_arr items, rfl⟩
  | obj members => exact ⟨_, _, compact_obj members, rfl⟩

theorem opening_eq {a b : Json} {s t : List Char}
    (same : (compact a).toList ++ s = (compact b).toList ++ t) : a.opening = b.opening := by
  obtain ⟨c, rest, written, first⟩ := compact_opening a
  obtain ⟨d, more, writtenToo, firstToo⟩ := compact_opening b
  rw [written, writtenToo] at same
  rw [← first, ← firstToo, (List.cons.inj same).1]

theorem compact_ne_bracket (value : Json) (s t : List Char) :
    (compact value).toList ++ s ≠ ']' :: t := by
  obtain ⟨c, rest, written, first⟩ := compact_opening value
  intro same
  rw [written] at same
  obtain rfl := (List.cons.inj same).1
  cases value with
  | bool flag => cases flag <;> cases first
  | null | num | str | arr | obj => cases first

theorem member_cancel {a b : String × Json} {s t : List Char}
    (value : ∀ {s t}, Stops s → Stops t →
      (compact a.2).toList ++ s = (compact b.2).toList ++ t → a.2 = b.2 ∧ s = t)
    (stops : Stops s) (stopsToo : Stops t)
    (same : compactMember a ++ s = compactMember b ++ t) : a = b ∧ s = t := by
  simp only [compactMember, List.append_assoc, List.cons_append] at same
  obtain ⟨key, behind⟩ := textLiteral_cancel same
  obtain ⟨held, rest⟩ := value stops stopsToo (List.cons.inj behind).2
  exact ⟨Prod.ext key held, rest⟩

theorem compact_cancel {a b : Json} {s t : List Char} (one : a.Proper) (other : b.Proper)
    (stops : Stops s) (stopsToo : Stops t)
    (same : (compact a).toList ++ s = (compact b).toList ++ t) : a = b ∧ s = t := by
  induction a using Json.induct generalizing b s t with
  | null =>
    cases b <;> try cases opening_eq same
    exact ⟨rfl, by simpa [compact] using same⟩
  | bool flag =>
    cases b <;> try cases opening_eq same
    rename_i flagToo
    cases flag <;> cases flagToo <;> simp_all [compact, boolLiteral]
  | num n =>
    cases b <;> try cases opening_eq same
    rw [proper_num] at one other
    obtain ⟨rfl, rest⟩ := numberLiteral_cancel one other stops stopsToo same
    exact ⟨rfl, rest⟩
  | str text =>
    cases b <;> try cases opening_eq same
    obtain ⟨rfl, rest⟩ := textLiteral_cancel same
    exact ⟨rfl, rest⟩
  | arr items ih =>
    cases b <;> try cases opening_eq same
    rename_i others
    rw [proper_arr] at one other
    simp only [compact_arr, List.cons_append, List.append_assoc, List.nil_append, List.cons.injEq,
      true_and] at same
    have ends : PartsEnd (fun item => (compact item).toList) items others := by
      intro i x y first second s t stops stopsToo same
      have member := List.mem_of_getElem? first
      exact ih x member (one x member) (other y (List.mem_of_getElem? second)) stops stopsToo same
    have none := eq_nil_iff_of_joined compact_ne_bracket same
    obtain ⟨rfl, rest⟩ := joined_cancel ends (by decide) (by decide) none same
    exact ⟨rfl, rest⟩
  | obj members ih =>
    cases b <;> try cases opening_eq same
    rename_i others
    rw [proper_obj] at one other
    simp only [compact_obj, List.cons_append, List.append_assoc, List.nil_append, List.cons.injEq,
      true_and] at same
    have ends : PartsEnd compactMember members others := by
      intro i x y first second s t stops stopsToo same
      have member := List.mem_of_getElem? first
      exact member_cancel (ih x member (one x member) (other y (List.mem_of_getElem? second)))
        stops stopsToo same
    have quoted : ∀ x rest rest', compactMember x ++ rest ≠ '}' :: rest' := by
      simp [compactMember, textLiteral_toList]
    have none := eq_nil_iff_of_joined quoted same
    obtain ⟨rfl, rest⟩ := joined_cancel ends (by decide) (by decide) none same
    exact ⟨rfl, rest⟩

end Json

end Colloquy
