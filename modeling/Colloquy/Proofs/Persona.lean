import Colloquy.Persona.Basic
import Colloquy.Proofs.Checks
import Colloquy.Proofs.Run.Walk
import Colloquy.Proofs.Text.Blank
import Colloquy.Proofs.Text.Pattern

/-!
What is taken off the front of a reply: the name of the persona and a colon, with a remark in
parentheses between them or without, and all blanks that follow.
-/

namespace Colloquy

open Text

theorem parts_unique {α : Type} {among : α → Bool} {a b : α} {xs ys rest others : List α}
    (run : ∀ x ∈ xs, among x = true) (runToo : ∀ y ∈ ys, among y = true)
    (ends : among a = false) (endsToo : among b = false)
    (same : xs ++ a :: rest = ys ++ b :: others) : xs = ys ∧ a = b ∧ rest = others := by
  have left : (xs ++ a :: rest).takeWhile among = xs ++ (a :: rest).takeWhile among :=
    List.takeWhile_append_of_pos run
  have right : (ys ++ b :: others).takeWhile among = ys ++ (b :: others).takeWhile among :=
    List.takeWhile_append_of_pos runToo
  rw [same, right] at left
  simp only [List.takeWhile_cons, ends, endsToo, Bool.false_eq_true, if_false,
    List.append_nil] at left
  subst left
  exact ⟨rfl, List.cons.inj (List.append_cancel_left same)⟩

namespace Speaker

/-- The name, a remark in parentheses that holds no closing one, and a colon; blanks around the
remark and behind the colon. -/
def Remarked (name taken : List Char) : Prop :=
  ∃ before remark between after, AllBlank before ∧ ')' ∉ remark ∧ AllBlank between ∧
    AllBlank after ∧
    taken = name ++ (before ++ '(' :: (remark ++ ')' :: (between ++ ':' :: after)))

def Bare (name taken : List Char) : Prop :=
  ∃ after, AllBlank after ∧ taken = name ++ ':' :: after

def Leaves (text taken rest : List Char) : Prop :=
  text = taken ++ rest ∧ ∀ c ∈ rest.head?, isBlank c = false

def Starts (form : List Char → Prop) (text : List Char) : Prop :=
  ∃ taken rest, form taken ∧ text = taken ++ rest

/-- What is left of a text. The name next to its colon counts where no remark does. -/
inductive Strips (name text : List Char) : List Char → Prop
  | remarked {taken rest : List Char} (form : Remarked name taken) (leaves : Leaves text taken rest) :
      Strips name text rest
  | bare {taken rest : List Char} (unremarked : ¬ Starts (Remarked name) text)
      (form : Bare name taken) (leaves : Leaves text taken rest) : Strips name text rest
  | whole (unremarked : ¬ Starts (Remarked name) text) (unnamed : ¬ Starts (Bare name) text) :
      Strips name text text

/-! ### What is taken is told by the text -/

section

variable {name text taken other rest others : List Char}

theorem Leaves.starts {form : List Char → Prop} (leaves : Leaves text taken rest)
    (holds : form taken) : Starts form text := ⟨taken, rest, holds, leaves.1⟩

theorem blanks_unique {after more : List Char} (blank : AllBlank after) (blankToo : AllBlank more)
    (first : ∀ c ∈ rest.head?, isBlank c = false) (firstToo : ∀ c ∈ others.head?, isBlank c = false)
    (same : after ++ rest = more ++ others) : after = more := by
  have left := trimLeft_append blank first
  rw [same, trimLeft_append blankToo firstToo] at left
  rw [left] at same
  exact List.append_cancel_right same

theorem remarked_unique (form : Remarked name taken) (leaves : Leaves text taken rest)
    (formToo : Remarked name other) (leavesToo : Leaves text other others) : taken = other := by
  obtain ⟨before, remark, between, after, blank, inside, blanks, last, rfl⟩ := form
  obtain ⟨prior, note, amid, more, blankToo, insideToo, blanksToo, lastToo, rfl⟩ := formToo
  have same := leaves.1.symm.trans leavesToo.1
  simp only [List.append_assoc, List.cons_append, List.append_cancel_left_eq] at same
  have unclosed : ∀ cs : List Char, ')' ∉ cs → ∀ c ∈ cs, (c != ')') = true := by
    intro cs absent c member
    exact bne_iff_ne.mpr fun closing => absent (closing ▸ member)
  obtain ⟨rfl, -, same⟩ := parts_unique blank blankToo rfl rfl same
  obtain ⟨rfl, -, same⟩ := parts_unique (unclosed _ inside) (unclosed _ insideToo) rfl rfl same
  obtain ⟨rfl, -, same⟩ := parts_unique blanks blanksToo rfl rfl same
  rw [blanks_unique last lastToo leaves.2 leavesToo.2 same]

theorem bare_unique (form : Bare name taken) (leaves : Leaves text taken rest)
    (formToo : Bare name other) (leavesToo : Leaves text other others) : taken = other := by
  obtain ⟨after, last, rfl⟩ := form
  obtain ⟨more, lastToo, rfl⟩ := formToo
  have same := leaves.1.symm.trans leavesToo.1
  simp only [List.append_assoc, List.cons_append, List.append_cancel_left_eq,
    List.cons.injEq, true_and] at same
  rw [blanks_unique last lastToo leaves.2 leavesToo.2 same]

/-- A remark is opened before the colon comes, so that no text has both forms. -/
theorem not_bare_of_remarked (remarked : Starts (Remarked name) text) :
    ¬ Starts (Bare name) text := by
  obtain ⟨_, rest, ⟨before, remark, between, after, blank, -, -, -, rfl⟩, split⟩ := remarked
  rintro ⟨_, others, ⟨more, -, rfl⟩, splitToo⟩
  have same := split.symm.trans splitToo
  simp only [List.append_assoc, List.cons_append, List.append_cancel_left_eq] at same
  have opened := (parts_unique blank (List.forall_mem_nil _) rfl rfl same).2.1
  exact absurd opened (by decide)

theorem taken_unique (form : Remarked name taken ∨ Bare name taken)
    (leaves : Leaves text taken rest) (formToo : Remarked name other ∨ Bare name other)
    (leavesToo : Leaves text other others) : taken = other := by
  rcases form with remarked | bare <;> rcases formToo with remarkedToo | bareToo
  · exact remarked_unique remarked leaves remarkedToo leavesToo
  · exact absurd (leavesToo.starts bareToo) (not_bare_of_remarked (leaves.starts remarked))
  · exact absurd (leaves.starts bare) (not_bare_of_remarked (leavesToo.starts remarkedToo))
  · exact bare_unique bare leaves bareToo leavesToo

theorem Strips.unique (strips : Strips name text rest) (stripsToo : Strips name text others) :
    rest = others := by
  cases strips with
  | remarked form leaves =>
    cases stripsToo with
    | remarked formToo leavesToo =>
      obtain rfl := remarked_unique form leaves formToo leavesToo
      exact List.append_cancel_left (leaves.1.symm.trans leavesToo.1)
    | bare unremarked => exact absurd (leaves.starts form) unremarked
    | whole unremarked => exact absurd (leaves.starts form) unremarked
  | bare unremarked form leaves =>
    cases stripsToo with
    | remarked formToo leavesToo => exact absurd (leavesToo.starts formToo) unremarked
    | bare _ formToo leavesToo =>
      obtain rfl := bare_unique form leaves formToo leavesToo
      exact List.append_cancel_left (leaves.1.symm.trans leavesToo.1)
    | whole _ unnamed => exact absurd (leaves.starts form) unnamed
  | whole unremarked unnamed =>
    cases stripsToo with
    | remarked formToo leavesToo => exact absurd (leavesToo.starts formToo) unremarked
    | bare _ formToo leavesToo => exact absurd (leavesToo.starts formToo) unnamed
    | whole => rfl

theorem Strips.exists_taken (strips : Strips name text rest) (changed : rest ≠ text) :
    ∃ taken, (Remarked name taken ∨ Bare name taken) ∧ Leaves text taken rest := by
  cases strips with
  | remarked form leaves => exact ⟨_, .inl form, leaves⟩
  | bare _ form leaves => exact ⟨_, .inr form, leaves⟩
  | whole => exact absurd rfl changed

end

/-! ### What the pattern and the colon take -/

section

variable {name text taken rest : List Char}

theorem matches_pattern_iff : (pattern name).Matches taken ↔ Remarked name taken := by
  have unclosed : ∀ remark : List Char, (∀ c ∈ remark, (c != ')') = true) ↔ ')' ∉ remark := by
    intro remark
    simp [bne_iff_ne, List.forall_mem_ne']
  simp only [pattern, Pattern.matches_literal_iff, Pattern.matches_many_iff,
    Pattern.matches_one_iff, Pattern.matches_nil_iff, beq_iff_eq, unclosed]
  constructor
  · rintro ⟨_, ⟨before, _, blank, ⟨_, _, rfl, ⟨remark, _, inside, ⟨_, _, rfl, ⟨between, _, blanks,
      ⟨_, _, rfl, ⟨after, _, last, rfl, rfl⟩, rfl⟩, rfl⟩, rfl⟩, rfl⟩, rfl⟩, rfl⟩, rfl⟩
    exact ⟨before, remark, between, after, blank, inside, blanks, last, by simp⟩
  · rintro ⟨before, remark, between, after, blank, inside, blanks, last, rfl⟩
    exact ⟨_, ⟨before, _, blank, ⟨_, _, rfl, ⟨remark, _, inside, ⟨_, _, rfl, ⟨between, _, blanks,
      ⟨_, _, rfl, ⟨after, [], last, rfl, rfl⟩, rfl⟩, rfl⟩, rfl⟩, rfl⟩, rfl⟩, rfl⟩, by simp⟩

theorem pattern_rest_some (found : (pattern name).rest? text = some rest) :
    ∃ taken, Remarked name taken ∧ Leaves text taken rest := by
  obtain ⟨taken, matched, split⟩ := Pattern.rest?_sound found
  have last : Pattern.rest? (Pattern.literal name ++ [.many isBlank, .one (· == '('),
      .many (· != ')'), .one (· == ')'), .many isBlank, .one (· == ':')] ++ [.many isBlank]) text =
      some rest := by
    rw [List.append_assoc]
    exact found
  exact ⟨taken, matches_pattern_iff.mp matched, split, Pattern.rest?_head last⟩

theorem pattern_rest_none_iff :
    (pattern name).rest? text = none ↔ ¬ Starts (Remarked name) text := by
  rw [Pattern.rest?_eq_none_iff]
  constructor
  · rintro none ⟨taken, rest, form, split⟩
    exact none taken rest (matches_pattern_iff.mpr form) split
  · intro none taken rest matched split
    exact none ⟨taken, rest, matches_pattern_iff.mp matched, split⟩

theorem afterColon_some (found : afterColon? name text = some rest) :
    ∃ taken, Bare name taken ∧ Leaves text taken rest := by
  obtain ⟨behind, named, found⟩ := Option.bind_eq_some_iff.mp found
  have parts := List.isPrefixOf?_eq_some_iff_append_eq.mp named
  split at found
  · rename_i behind
    cases found
    obtain ⟨after, blank, rest⟩ := trimLeft_split behind
    refine ⟨name ++ ':' :: after, ⟨after, blank, rfl⟩, ?_, trimLeft_head behind⟩
    rw [List.append_assoc, List.cons_append, ← rest, parts]
  · cases found

theorem afterColon_none_iff : afterColon? name text = none ↔ ¬ Starts (Bare name) text := by
  constructor
  · rintro none ⟨_, rest, ⟨after, -, rfl⟩, rfl⟩
    rw [List.append_assoc, afterColon?, List.isPrefixOf?_eq_some_iff_append_eq.mpr rfl] at none
    cases none
  · intro unnamed
    cases found : afterColon? name text with
    | none => rfl
    | some rest =>
      obtain ⟨taken, form, leaves⟩ := afterColon_some found
      exact absurd (leaves.starts form) unnamed

theorem after_strips (name text : List Char) : Strips name text ((after? name text).getD text) := by
  rw [after?]
  cases remarked : (pattern name).rest? text with
  | some rest =>
    obtain ⟨taken, form, leaves⟩ := pattern_rest_some remarked
    exact .remarked form leaves
  | none =>
    have unremarked := pattern_rest_none_iff.mp remarked
    cases named : afterColon? name text with
    | some rest =>
      obtain ⟨taken, form, leaves⟩ := afterColon_some named
      exact .bare unremarked form leaves
    | none => exact .whole unremarked (afterColon_none_iff.mp named)

end

end Speaker

namespace Persona

theorem new_ok_iff {name systemPrompt : String} {greeting conversation : Flowchart}
    {persona : Persona} : new name systemPrompt greeting conversation = .ok persona ↔
      isBlankText name = false ∧ persona = ⟨name, systemPrompt, greeting, conversation⟩ := by
  rw [new]
  split
  · rename_i blank
    simp [blank]
  · rename_i some
    simp [some, eq_comm]

theorem stripSpeaker_toList (persona : Persona) (text : String) :
    (persona.stripSpeaker text).toList =
      (Speaker.after? persona.name.toList text.toList).getD text.toList := by
  rw [stripSpeaker]
  cases Speaker.after? persona.name.toList text.toList with
  | none => rfl
  | some rest => exact String.toList_ofList

/-- One prefix is taken off at most, and it is told by the text. -/
theorem speaker_is_taken_off_once {name systemPrompt : String} {greeting conversation : Flowchart}
    {persona : Persona} (accepted : new name systemPrompt greeting conversation = .ok persona) :
    (∀ text rest, persona.stripSpeaker text = rest ↔
      Speaker.Strips name.toList text.toList rest.toList) ∧
    (∀ text taken rest other others,
      Speaker.Remarked name.toList taken ∨ Speaker.Bare name.toList taken →
      Speaker.Leaves text taken rest →
      Speaker.Remarked name.toList other ∨ Speaker.Bare name.toList other →
      Speaker.Leaves text other others → taken = other) ∧
    ∀ text, persona.stripSpeaker text ≠ text → ∃ taken,
      (Speaker.Remarked name.toList taken ∨ Speaker.Bare name.toList taken) ∧
      Speaker.Leaves text.toList taken (persona.stripSpeaker text).toList := by
  obtain ⟨-, rfl⟩ := new_ok_iff.mp accepted
  have strips : ∀ text, Speaker.Strips name.toList text.toList
      (stripSpeaker ⟨name, systemPrompt, greeting, conversation⟩ text).toList := by
    intro text
    rw [stripSpeaker_toList]
    exact Speaker.after_strips name.toList text.toList
  refine ⟨fun text rest => ⟨?_, fun left => ?_⟩, fun _ _ _ _ _ => Speaker.taken_unique,
    fun text changed => (strips text).exists_taken (mt String.toList_inj.mp changed)⟩
  · rintro rfl
    exact strips text
  · exact String.toList_inj.mp ((strips text).unique left)

/-- What would be a pattern is a name like any other, and named twice it is taken off once. -/
theorem named_twice_is_stripped_once :
    new "C (3.*)" "" RollCall.flowchart RollCall.flowchart =
      .ok ⟨"C (3.*)", "", RollCall.flowchart, RollCall.flowchart⟩ ∧
    stripSpeaker ⟨"C (3.*)", "", RollCall.flowchart, RollCall.flowchart⟩
      "C (3.*)  (calm) :\nC (3.*): hi" = "C (3.*): hi" := by
  have accepted : new "C (3.*)" "" RollCall.flowchart RollCall.flowchart =
      .ok ⟨"C (3.*)", "", RollCall.flowchart, RollCall.flowchart⟩ := rfl
  have form : Speaker.Remarked "C (3.*)".toList "C (3.*)  (calm) :\n".toList :=
    ⟨[' ', ' '], "calm".toList, [' '], ['\n'], List.all_eq_true.mp rfl, by decide,
      List.all_eq_true.mp rfl, List.all_eq_true.mp rfl, rfl⟩
  have leaves : Speaker.Leaves "C (3.*)  (calm) :\nC (3.*): hi".toList
      "C (3.*)  (calm) :\n".toList "C (3.*): hi".toList := by
    refine ⟨rfl, ?_⟩
    rintro _ ⟨⟩
    rfl
  exact ⟨accepted, ((speaker_is_taken_off_once accepted).1 _ _).mpr (.remarked form leaves)⟩

end Persona

end Colloquy
