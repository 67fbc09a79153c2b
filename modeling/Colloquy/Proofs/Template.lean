import Colloquy.Prompt
import Colloquy.Proofs.Checks

/-!
Templates and what is made of them: the segments of a template are the whole of it, and a prompt is
its template with every placeholder replaced.
-/

namespace Colloquy

def Segment.written : Segment → List Char
  | .literal text => text
  | .placeholder name => '$' :: '{' :: (name ++ ['}'])

def Segment.filled? (bound : String → Option String) : Segment → Option String
  | .literal text => some (String.ofList text)
  | .placeholder name => bound (String.ofList name)

namespace Template

theorem written_of_from :
    (∀ read cs segments, literalFrom read cs = some segments →
      segments.flatMap Segment.written = read.reverse ++ cs) ∧
    ∀ read cs segments, nameFrom read cs = some segments →
      segments.flatMap Segment.written = '$' :: '{' :: (read.reverse ++ cs) := by
  apply literalFrom.mutual_induct
  case case1 =>
    intro read rest ih segments split
    obtain ⟨others, named, rfl⟩ := Option.map_eq_some_iff.mp split
    simp [Segment.written, ih others named]
  case case2 =>
    intro read c rest plain ih segments split
    rw [literalFrom.eq_2 read c rest plain] at split
    simp [ih segments split]
  case case3 =>
    intro read segments split
    cases split
    simp [Segment.written]
  case case4 =>
    intro read rest proper ih segments split
    rw [nameFrom, if_pos proper] at split
    obtain ⟨others, after, rfl⟩ := Option.map_eq_some_iff.mp split
    simp [Segment.written, ih others after]
  case case5 =>
    intro read rest improper segments split
    rw [nameFrom, if_neg improper] at split
    cases split
  case case6 =>
    intro read c rest inside ih segments split
    rw [nameFrom.eq_2 read c rest inside] at split
    simp [ih segments split]
  case case7 =>
    intro read segments split
    cases split

theorem segments_written {template : String} {parts : List Segment}
    (split : segments template = some parts) :
    parts.flatMap Segment.written = template.toList := by
  simpa using written_of_from.1 [] template.toList parts split

theorem substitute_ok {bound : String → Option String} {parts : List Segment} {text : String}
    (substituted : substitute bound parts = .ok text) :
    ∃ texts, parts.mapM (Segment.filled? bound) = some texts ∧ text = String.join texts := by
  induction parts generalizing text with
  | nil =>
    cases substituted
    exact ⟨[], rfl, rfl⟩
  | cons part rest ih =>
    cases part with
    | literal held =>
      obtain ⟨others, later, same⟩ := bind_ok_iff.mp substituted
      cases same
      obtain ⟨texts, filled, rfl⟩ := ih later
      exact ⟨String.ofList held :: texts, by simp [Segment.filled?, filled], by simp⟩
    | placeholder name =>
      rw [substitute] at substituted
      split at substituted
      · cases substituted
      · rename_i value found
        obtain ⟨others, later, same⟩ := bind_ok_iff.mp substituted
        cases same
        obtain ⟨texts, filled, rfl⟩ := ih later
        exact ⟨value :: texts, by simp [Segment.filled?, found, filled], by simp⟩

theorem literalFrom_append {cs : List Char} (plain : '$' ∉ cs) (read rest : List Char) :
    literalFrom read (cs ++ rest) = literalFrom (cs.reverse ++ read) rest := by
  induction cs generalizing read with
  | nil => rfl
  | cons c cs ih =>
    obtain ⟨other, plain⟩ := not_or.mp (mt List.mem_cons.mpr plain)
    rw [List.cons_append, literalFrom.eq_2 read c (cs ++ rest) fun _ same => absurd same.symm other,
      ih plain, List.reverse_cons, List.append_assoc, List.singleton_append]

theorem nameFrom_append {cs : List Char} (inside : '\x7d' ∉ cs) (read rest : List Char) :
    nameFrom read (cs ++ rest) = nameFrom (cs.reverse ++ read) rest := by
  induction cs generalizing read with
  | nil => rfl
  | cons c cs ih =>
    obtain ⟨other, inside⟩ := not_or.mp (mt List.mem_cons.mpr inside)
    rw [List.cons_append, nameFrom.eq_2 read c (cs ++ rest) fun same => absurd same.symm other,
      ih inside, List.reverse_cons, List.append_assoc, List.singleton_append]

theorem segments_of_hole {before after name : String} (plain : '$' ∉ before.toList)
    (proper : isName name.toList = true) (plainAfter : '$' ∉ after.toList) :
    segments (before ++ hole name ++ after) =
      some [.literal before.toList, .placeholder name.toList, .literal after.toList] := by
  have inside : '\x7d' ∉ name.toList := by
    intro member
    have chars := List.all_eq_true.mp (Bool.and_eq_true_iff.mp proper).2 _ member
    revert chars
    decide
  have written : (before ++ hole name ++ after).toList =
      before.toList ++ ('$' :: '\x7b' :: (name.toList ++ '\x7d' :: after.toList)) := by
    simp [hole]
  have last := literalFrom_append plainAfter [] []
  rw [List.append_nil, List.append_nil, literalFrom, List.reverse_reverse] at last
  rw [segments, written, literalFrom_append plain, literalFrom, nameFrom_append inside, nameFrom]
  simp [proper, last]

/-- The text is the template with each placeholder replaced by what its name is bound to, and
nothing else changed. -/
def Renders (bound : String → Option String) (template text : String) : Prop :=
  ∃ parts texts, segments template = some parts ∧
    parts.flatMap Segment.written = template.toList ∧
    parts.mapM (Segment.filled? bound) = some texts ∧ text = String.join texts

end Template

theorem Prompt.build_ok {framing : Framing} {node : Node} {scopes : List LoopScope}
    {extracted : Extractions} {input : String} {prompt : Prompt}
    (built : build framing node scopes extracted input = .ok prompt) :
    Template.Renders (LoopScope.binding? scopes) node.template prompt.nodePrompt ∧
      prompt.text = framing prompt.nodePrompt extracted.contextBlock input := by
  obtain ⟨rendered, renders, same⟩ := bind_ok_iff.mp built
  cases same
  rw [renderTemplate] at renders
  split at renders
  · cases renders
  · rename_i parts split
    obtain ⟨texts, filled, joined⟩ := Template.substitute_ok (mapError_ok_iff.mp renders)
    exact ⟨⟨parts, texts, split, Template.segments_written split, filled, joined⟩, rfl⟩

end Colloquy
