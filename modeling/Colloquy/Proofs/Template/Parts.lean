import Colloquy.Flowchart.Compile
import Colloquy.Proofs.Template
import Mathlib.Data.List.Infix

/-!
Templates taken apart. A text is a template if it can be written as literals and placeholders in
turn. There is one way to do so, which is what is read of it, and rendering puts a value for every
placeholder and leaves the literals as they are.
-/

namespace Colloquy

namespace Template

/-- A template in parts: a literal, and the names of the placeholders, each with the literal that
follows it. -/
structure Parts where
  first : String
  holes : List (String × String)

namespace Parts

def literals (parts : Parts) : List String := parts.first :: parts.holes.map (·.2)

def names (parts : Parts) : List String := parts.holes.map (·.1)

def written (put : String → String) (parts : Parts) : String :=
  parts.first ++ String.join (parts.holes.map fun (name, literal) => put name ++ literal)

def segments (parts : Parts) : List Segment :=
  .literal parts.first.toList :: parts.holes.flatMap fun (name, literal) =>
    [.placeholder name.toList, .literal literal.toList]

end Parts

def ProperName (name : String) : Prop :=
  name ≠ "" ∧ ∀ c ∈ name.toList, Text.isAlphanumeric c = true ∨ c = '_'

/-- No literal opens a placeholder, and every name is the name of one. -/
structure Parts.Proper (parts : Parts) : Prop where
  literals : ∀ literal ∈ parts.literals, ¬ ['$', '{'] <:+: literal.toList
  names : ∀ name ∈ parts.names, ProperName name

theorem isName_iff {name : String} : isName name.toList = true ↔ ProperName name := by
  simp [isName, isNameChar, ProperName]

theorem ProperName.inside {name : String} (proper : ProperName name) : '}' ∉ name.toList := by
  intro member
  have chars := proper.2 _ member
  revert chars
  decide

namespace Parts

variable {parts other : Parts} {first literal name template : String}
  {holes : List (String × String)}

theorem proper_nil : Proper ⟨first, []⟩ ↔ ¬ ['$', '{'] <:+: first.toList := by
  constructor
  · intro proper
    exact proper.literals first (by simp [literals])
  · intro plain
    exact ⟨by simpa [literals] using plain, by simp [names]⟩

theorem proper_cons : Proper ⟨first, (name, literal) :: holes⟩ ↔
    ¬ ['$', '{'] <:+: first.toList ∧ ProperName name ∧ Proper ⟨literal, holes⟩ := by
  constructor
  · rintro ⟨literals, names⟩
    obtain ⟨plain, literals⟩ := List.forall_mem_cons.mp literals
    obtain ⟨proper, names⟩ := List.forall_mem_cons.mp names
    exact ⟨plain, proper, literals, names⟩
  · rintro ⟨plain, proper, literals, names⟩
    exact ⟨List.forall_mem_cons.mpr ⟨plain, literals⟩, List.forall_mem_cons.mpr ⟨proper, names⟩⟩

theorem written_cons (put : String → String) :
    written put ⟨first, (name, literal) :: holes⟩ =
      first ++ (put name ++ written put ⟨literal, holes⟩) := by
  simp [written, String.append_assoc]

theorem segments_cons : segments ⟨first, (name, literal) :: holes⟩ =
    .literal first.toList :: .placeholder name.toList :: segments ⟨literal, holes⟩ := rfl

theorem flatMap_segments (parts : Parts) :
    parts.segments.flatMap Segment.written = (parts.written hole).toList := by
  obtain ⟨first, holes⟩ := parts
  induction holes generalizing first with
  | nil => simp [segments, written, Segment.written]
  | cons entry rest ih =>
    obtain ⟨name, literal⟩ := entry
    rw [segments_cons, written_cons, List.flatMap_cons, List.flatMap_cons, ih]
    simp [Segment.written, hole]

theorem segments_injective (same : parts.segments = other.segments) : parts = other := by
  obtain ⟨first, holes⟩ := parts
  obtain ⟨second, others⟩ := other
  induction holes generalizing first second others with
  | nil =>
    cases others with
    | nil => simpa [segments, String.toList_inj] using same
    | cons => simp [segments] at same
  | cons entry rest ih =>
    cases others with
    | nil => simp [segments] at same
    | cons other others =>
      obtain ⟨name, literal⟩ := entry
      obtain ⟨otherName, otherLiteral⟩ := other
      rw [segments_cons, segments_cons] at same
      obtain ⟨opened, tail⟩ := List.cons.inj same
      obtain ⟨named, behind⟩ := List.cons.inj tail
      obtain rfl := String.toList_inj.mp (Segment.literal.inj opened)
      obtain rfl := String.toList_inj.mp (Segment.placeholder.inj named)
      cases ih _ _ _ behind
      rfl

end Parts

/-! ### Reading -/

theorem literalFrom_plain {cs : List Char} (plain : ¬ ['$', '{'] <:+: cs) (read : List Char)
    {rest : List Char} (closed : rest.head? ≠ some '{') :
    literalFrom read (cs ++ rest) = literalFrom (cs.reverse ++ read) rest := by
  induction cs generalizing read with
  | nil => rfl
  | cons c cs ih =>
    rw [List.infix_cons_iff, not_or] at plain
    have other : ∀ behind, c = '$' → cs ++ rest = '{' :: behind → False := by
      rintro behind rfl opens
      cases cs with
      | nil => exact closed (by simp [List.nil_append _ ▸ opens])
      | cons d cs =>
        obtain rfl := (List.cons.inj opens).1
        exact plain.1 ⟨cs, rfl⟩
    rw [List.cons_append, literalFrom.eq_2 read c (cs ++ rest) other, ih plain.2,
      List.reverse_cons, List.append_assoc, List.singleton_append]

theorem Parts.Proper.segments_written {parts : Parts} (proper : parts.Proper) :
    Template.segments (parts.written hole) = some parts.segments := by
  obtain ⟨first, holes⟩ := parts
  rw [Template.segments, ← flatMap_segments]
  induction holes generalizing first with
  | nil =>
    have ends : ([] : List Char).head? ≠ some '{' := by simp
    have plain := literalFrom_plain (proper_nil.mp proper) [] ends
    simpa [Parts.segments, Segment.written, literalFrom] using plain
  | cons entry rest ih =>
    obtain ⟨name, literal⟩ := entry
    obtain ⟨plain, named, proper⟩ := proper_cons.mp proper
    have read := ih literal proper
    rw [segments_cons, List.flatMap_cons, List.flatMap_cons]
    simp only [Segment.written, List.cons_append, List.append_assoc, List.nil_append]
    rw [literalFrom_plain plain [] (by simp), literalFrom, nameFrom_append named.inside, nameFrom]
    simp [isName_iff.mpr named, read]

theorem opens_concat_iff {cs : List Char} {c d : Char} :
    ['$', '{'] <:+: cs ++ [c, d] ↔ ['$', '{'] <:+: cs ++ [c] ∨ c = '$' ∧ d = '{' := by
  rw [List.append_cons, List.infix_concat_iff, or_comm]
  refine or_congr_right ⟨?_, ?_⟩
  · rintro ⟨before, same⟩
    have backwards := congrArg List.reverse same
    simp only [List.reverse_append, List.reverse_cons, List.reverse_nil, List.nil_append,
      List.cons_append, List.cons.injEq] at backwards
    exact ⟨backwards.2.1.symm, backwards.1.symm⟩
  · rintro ⟨rfl, rfl⟩
    exact ⟨cs, by simp⟩

/-- What is read has proper parts. A literal that has begun must not open a placeholder, not even
with what comes next. -/
theorem parts_of_from :
    (∀ read cs segments, literalFrom read cs = some segments →
      ¬ ['$', '{'] <:+: read.reverse ++ cs.take 1 →
      ∃ parts : Parts, parts.Proper ∧ parts.segments = segments) ∧
    ∀ read cs segments, nameFrom read cs = some segments →
      ∃ (name : String) (parts : Parts), ProperName name ∧ parts.Proper ∧
        .placeholder name.toList :: parts.segments = segments := by
  apply literalFrom.mutual_induct
  case case1 =>
    intro read rest ih segments split plain
    obtain ⟨others, named, rfl⟩ := Option.map_eq_some_iff.mp split
    obtain ⟨name, parts, proper, rest, rfl⟩ := ih others named
    refine ⟨⟨String.ofList read.reverse, (name, parts.first) :: parts.holes⟩,
      Parts.proper_cons.mpr ⟨?_, proper, rest⟩, by simp [Parts.segments_cons]⟩
    intro opens
    exact plain (opens.trans (by simpa using List.infix_append [] read.reverse ['$']))
  case case2 =>
    intro read c rest other ih segments split plain
    rw [literalFrom.eq_2 read c rest other] at split
    refine ih segments split ?_
    cases rest with
    | nil => simpa using plain
    | cons d rest =>
      intro opens
      simp only [List.reverse_cons, List.append_assoc, List.singleton_append, List.take_succ_cons,
        List.take_zero] at opens
      rcases opens_concat_iff.mp opens with opens | ⟨rfl, rfl⟩
      · exact plain (by simpa using opens)
      · exact other rest rfl rfl
  case case3 =>
    intro read segments split plain
    cases split
    exact ⟨⟨String.ofList read.reverse, []⟩, Parts.proper_nil.mpr (by simpa using plain),
      by simp [Parts.segments]⟩
  case case4 =>
    intro read rest proper ih segments split
    rw [nameFrom, if_pos proper] at split
    obtain ⟨others, after, rfl⟩ := Option.map_eq_some_iff.mp split
    obtain ⟨parts, rest, rfl⟩ := ih others after fun opens => by
      simpa using opens.length_le.trans (List.length_take_le 1 rest)
    exact ⟨String.ofList read.reverse, parts, isName_iff.mp (by simpa using proper), rest,
      by simp⟩
  case case5 =>
    intro read rest improper segments split
    rw [nameFrom, if_neg improper] at split
    cases split
  case case6 =>
    intro read c rest inside ih segments split
    rw [nameFrom.eq_2 read c rest inside] at split
    exact ih segments split
  case case7 =>
    intro read segments split
    cases split

theorem segments_eq_some_iff {template : String} {segments : List Segment} :
    Template.segments template = some segments ↔
      ∃ parts : Parts, parts.Proper ∧ parts.written hole = template ∧
        parts.segments = segments := by
  constructor
  · intro split
    have read := Template.segments_written split
    obtain ⟨parts, proper, rfl⟩ := parts_of_from.1 [] template.toList segments split fun opens => by
      simpa using opens.length_le.trans (List.length_take_le 1 _)
    rw [parts.flatMap_segments, String.toList_inj] at read
    exact ⟨parts, proper, read, rfl⟩
  · rintro ⟨parts, proper, rfl, rfl⟩
    exact proper.segments_written

theorem Parts.Proper.unique {parts other : Parts} (proper : parts.Proper) (properToo : other.Proper)
    (same : parts.written hole = other.written hole) : parts = other := by
  apply segments_injective
  rw [← Option.some_inj, ← proper.segments_written, ← properToo.segments_written, same]

theorem Parts.filterMap_name (parts : Parts) :
    parts.segments.filterMap Segment.name? = parts.names := by
  obtain ⟨first, holes⟩ := parts
  induction holes generalizing first with
  | nil => rfl
  | cons entry rest ih =>
    obtain ⟨name, literal⟩ := entry
    have skipped : Segment.name? (.literal first.toList) = none := rfl
    have named : Segment.name? (.placeholder name.toList) = some name := by simp [Segment.name?]
    rw [segments_cons, List.filterMap_cons_none skipped, List.filterMap_cons_some named, ih]
    rfl

/-! ### Rendering -/

theorem Parts.substitute_segments {bound : String → Option String} {value : String → String}
    {parts : Parts} (binds : ∀ name ∈ parts.names, bound name = some (value name)) :
    substitute bound parts.segments = .ok (parts.written value) := by
  obtain ⟨first, holes⟩ := parts
  induction holes generalizing first with
  | nil => simp [Parts.segments, written, substitute, pure, Except.pure, bind, Except.bind]
  | cons entry rest ih =>
    obtain ⟨name, literal⟩ := entry
    obtain ⟨here, others⟩ := List.forall_mem_cons.mp binds
    rw [segments_cons, written_cons, substitute, substitute, String.ofList_toList,
      String.ofList_toList, here, ih literal others]
    simp [pure, Except.pure, bind, Except.bind]

end Template

/-- Of the open loops over the name the innermost one has reached the value. Scopes stand innermost
first. -/
def LoopScope.Binds (scopes : List LoopScope) (name value : String) : Prop :=
  ∃ inner scope outer, scopes = inner ++ scope :: outer ∧ scope.iterator = name ∧
    (∀ other ∈ inner, other.iterator ≠ name) ∧ scope.collection[scope.index]? = some value

theorem LoopScope.binding_eq_some_iff {scopes : List LoopScope} {name value : String} :
    binding? scopes name = some value ↔ Binds scopes name value := by
  simp only [binding?, current?, Binds, Option.bind_eq_some_iff, List.find?_eq_some_iff_append,
    beq_iff_eq, Bool.not_eq_true', beq_eq_false_iff_ne]
  constructor
  · rintro ⟨scope, ⟨named, inner, outer, split, others⟩, reached⟩
    exact ⟨inner, scope, outer, split, named, others, reached⟩
  · rintro ⟨inner, scope, outer, split, named, others, reached⟩
    exact ⟨scope, ⟨named, inner, outer, split, others⟩, reached⟩

/-- A text can be read as a template if it can be written as literals and placeholders in turn, and
it can be in one way at the most. That way is what is read of it, its names are the placeholders,
and once they are all bound the template is rendered with a value in place of each. -/
theorem templates_are_read_one_way (template : String) :
    ((∃ segments, Template.segments template = some segments) ↔
      ∃ parts : Template.Parts, parts.Proper ∧ parts.written Template.hole = template) ∧
    ∀ parts : Template.Parts, parts.Proper → parts.written Template.hole = template →
      Template.segments template = some parts.segments ∧
      Template.placeholders template = some parts.names ∧
      (∀ other : Template.Parts, other.Proper → other.written Template.hole = template →
        other = parts) ∧
      ∀ (node : Node) (scopes : List LoopScope) (value : String → String),
        node.template = template →
        (∀ name ∈ parts.names, LoopScope.Binds scopes name (value name)) →
        Prompt.renderTemplate node scopes = .ok (parts.written value) := by
  constructor
  · simp only [Template.segments_eq_some_iff]
    constructor
    · rintro ⟨_, parts, proper, written, -⟩
      exact ⟨parts, proper, written⟩
    · rintro ⟨parts, proper, written⟩
      exact ⟨_, parts, proper, written, rfl⟩
  · rintro parts proper rfl
    have read := proper.segments_written
    refine ⟨read, ?_, fun other properToo same => properToo.unique proper same, ?_⟩
    · rw [Template.placeholders, read, Option.map_some, parts.filterMap_name]
    · intro node scopes value same binds
      have bound : ∀ name ∈ parts.names, LoopScope.binding? scopes name = some (value name) :=
        fun name member => LoopScope.binding_eq_some_iff.mpr (binds name member)
      rw [Prompt.renderTemplate, same, read]
      simp only [Template.Parts.substitute_segments bound]
      rfl

/-! A text with a dollar sign ahead of a placeholder, in loops over elements that look like
placeholders themselves. -/

namespace Relay

def parts : Template.Parts := ⟨"$", [("a", " and "), ("b", ", "), ("a", "")]⟩

def node : Node where
  id := "relay"
  template := parts.written Template.hole
  connections := []
  schema := none
  temperature := Outline.defaultTemperature
  kind := .plain

def scopes : List LoopScope := [
  ⟨"inner", "b", ["$\x7b", "x"], 1⟩,
  ⟨"middle", "a", [Template.hole "b"], 0⟩,
  ⟨"outer", "b", ["y"], 0⟩]

def value (name : String) : String := if name = "a" then Template.hole "b" else "x"

theorem parts_proper : parts.Proper := by
  have plain : ∀ literal ∈ parts.literals, ¬ ['$', '{'] <:+: literal.toList := by decide
  have named : ∀ name ∈ parts.names, Template.isName name.toList = true := by decide
  exact ⟨plain, fun name member => Template.isName_iff.mp (named name member)⟩

theorem binds : ∀ name ∈ parts.names, LoopScope.Binds scopes name (value name) := by
  intro name member
  rw [← LoopScope.binding_eq_some_iff]
  revert name member
  decide

end Relay

/-- The bound text is put as it is, and the inner loop hides the outer one of its name. -/
theorem relay_renders_once : Relay.parts.Proper ∧
    Relay.node.template = "$" ++ Template.hole "a" ++ " and " ++ Template.hole "b" ++ ", " ++
      Template.hole "a" ∧
    (∀ name ∈ Relay.parts.names, LoopScope.Binds Relay.scopes name (Relay.value name)) ∧
    Template.placeholders Relay.node.template = some ["a", "b", "a"] ∧
    Prompt.renderTemplate Relay.node Relay.scopes =
      .ok ("$" ++ Template.hole "b" ++ " and x, " ++ Template.hole "b") := by
  obtain ⟨-, names, -, renders⟩ :=
    (templates_are_read_one_way Relay.node.template).2 Relay.parts Relay.parts_proper rfl
  have rendered := renders Relay.node Relay.scopes Relay.value rfl Relay.binds
  exact ⟨Relay.parts_proper, by decide, Relay.binds, names, rendered.trans (congrArg _ (by decide))⟩

end Colloquy
