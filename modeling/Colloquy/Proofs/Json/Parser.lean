import Colloquy.Json.Parser
import Colloquy.Proofs.Json.Printer
import Colloquy.Proofs.Number.Rounding

/-!
Values that are read. The numbers in them are integers or doubles in their form, and in canonical
form the keys of every object increase.
-/

namespace Colloquy

namespace Json

theorem numeral?_proper {cs : List Char} {n : Number} (read : numeral? cs = some (some n)) :
    n.Proper := by
  unfold numeral? at read
  iterate 3 split at read
  rename_i negative _ _ _ whole _ _ _ fraction rest pointed _
  dsimp only at read
  generalize (if negative = true then -(digitsValue whole : Int) else digitsValue whole) = k at read
  split at read
  · cases read
  · split at read
    · cases read
    · split at read
      · cases read
        trivial
      · obtain ⟨d, scaled, rfl⟩ := Option.map_eq_some_iff.mp (Option.some.inj read)
        exact Decimal.scaled?_holds scaled

def Token.Proper : Token → Prop
  | .leaf (some value) => value.Proper
  | _ => True

theorem scanToken_proper {cs rest : List Char} {token : Token}
    (scanned : scanToken cs = some (token, rest)) : token.Proper := by
  rw [scanToken.eq_def] at scanned
  split at scanned
  case h_7 =>
    obtain ⟨_, _, ⟨⟩⟩ := Option.map_eq_some_iff.mp scanned
    trivial
  case h_11 =>
    split at scanned
    · obtain ⟨n, read, ⟨⟩⟩ := Option.map_eq_some_iff.mp scanned
      cases n with
      | none => trivial
      | some n => exact .num (numeral?_proper read)
    · cases scanned
  case h_12 => cases scanned
  case h_8 | h_9 | h_10 => cases scanned; constructor
  all_goals cases scanned; trivial

theorem tokensFrom_proper {read all : List Token} {cs : List Char}
    (proper : ∀ token ∈ read, token.Proper) (scanned : tokensFrom read cs = some all) :
    ∀ token ∈ all, token.Proper := by
  fun_induction tokensFrom read cs with
  | case1 read =>
    cases scanned
    exact fun token member => proper token (List.mem_reverse.mp member)
  | case2 read c rest space ih => exact ih proper scanned
  | case3 => cases scanned
  | case4 read c rest space token left found ih =>
    exact ih (List.forall_mem_cons.mpr ⟨scanToken_proper found, proper⟩) scanned

end Json

namespace Form

/-- Every number in the form, as far as it has a value, is an integer or a double in its form. -/
inductive Proper : Form → Prop
  | leaf {value : Option Json} (proper : ∀ json, value = some json → json.Proper) :
      Proper (.leaf value)
  | arr {items : List Form} (each : ∀ item ∈ items, Proper item) : Proper (.arr items)
  | obj {members : List (Option String × Form)} (each : ∀ entry ∈ members, Proper entry.2) :
      Proper (.obj members)

theorem selectItems_origin {interest : Interest} {depth place : Nat} {items : List Form}
    {selected : List Json} (read : selectItems interest depth place items = some selected) :
    ∀ json ∈ selected, ∃ item ∈ items, ∃ part, item.select part depth = some json := by
  induction items generalizing place selected with
  | nil =>
    cases read
    simp
  | cons item rest ih =>
    simp only [selectItems, Option.bind_eq_bind, Option.bind_eq_some_iff] at read
    obtain ⟨value, head, others, tail, ⟨⟩⟩ := read
    refine List.forall_mem_cons.mpr ⟨⟨item, List.mem_cons_self, _, head⟩, fun json member => ?_⟩
    obtain ⟨source, later, origin⟩ := ih tail json member
    exact ⟨source, List.mem_cons_of_mem _ later, origin⟩

theorem selectMembers_origin {interest : Interest} {depth : Nat}
    {members : List (Option String × Form)} {selected : Members}
    (read : selectMembers interest depth members = some selected) :
    ∀ entry ∈ selected, entry.2 = .null ∨
      ∃ member ∈ members, ∃ part, member.2.select part depth = some entry.2 := by
  induction members generalizing selected with
  | nil =>
    cases read
    simp
  | cons member rest ih =>
    obtain ⟨key, form⟩ := member
    simp only [selectMembers, Option.bind_eq_bind, Option.bind_eq_some_iff] at read
    obtain ⟨name, -, read⟩ := read
    have after : ∀ {others}, selectMembers interest depth rest = some others →
        ∀ entry ∈ others, entry.2 = .null ∨
          ∃ member ∈ (key, form) :: rest, ∃ part, member.2.select part depth = some entry.2 := by
      intro others tail entry among
      refine (ih tail entry among).imp_right ?_
      rintro ⟨source, later, origin⟩
      exact ⟨source, List.mem_cons_of_mem _ later, origin⟩
    split at read
    · simp only [Option.bind_eq_some_iff] at read
      obtain ⟨value, head, others, tail, ⟨⟩⟩ := read
      exact List.forall_mem_cons.mpr ⟨.inr ⟨_, List.mem_cons_self, _, head⟩, after tail⟩
    · simp only [Option.bind_some, Option.bind_eq_some_iff] at read
      obtain ⟨others, tail, ⟨⟩⟩ := read
      exact List.forall_mem_cons.mpr ⟨.inl rfl, after tail⟩

theorem select_proper {form : Form} (proper : form.Proper) {interest : Interest} {depth : Nat}
    {json : Json} (selected : form.select interest depth = some json) : json.Proper := by
  induction proper generalizing interest depth json with
  | leaf proper => exact proper json selected
  | arr each ih =>
    cases depth with
    | zero => cases selected
    | succ depth =>
      simp only [select, Option.bind_eq_bind, Option.bind_eq_some_iff] at selected
      obtain ⟨values, read, ⟨⟩⟩ := selected
      refine .arr fun value member => ?_
      obtain ⟨item, among, part, origin⟩ := selectItems_origin read value member
      exact ih item among origin
  | obj each ih =>
    cases depth with
    | zero => cases selected
    | succ depth =>
      simp only [select, Option.bind_eq_bind, Option.bind_eq_some_iff] at selected
      obtain ⟨entries, read, ⟨⟩⟩ := selected
      refine .obj fun entry member => ?_
      rcases selectMembers_origin read entry member with null | ⟨source, among, part, origin⟩
      · exact null ▸ .null
      · exact ih source among origin

/-! ### Parsing -/

def Frame.Proper : Frame → Prop
  | .array items => ∀ item ∈ items, item.Proper
  | .object members => ∀ entry ∈ members, entry.2.Proper
  | .member _ => True

namespace ParseState

structure Proper (s : ParseState) : Prop where
  frames : ∀ frame ∈ s.frames, frame.Proper
  result : ∀ form, s.result = some form → form.Proper

theorem put_proper {frames : List Frame} {form : Form} {s : ParseState}
    (proper : ∀ frame ∈ frames, frame.Proper) (properForm : form.Proper)
    (next : put frames form = some s) : s.Proper := by
  unfold put at next
  split at next
  · cases next
    exact ⟨by simp, by rintro _ ⟨⟩; exact properForm⟩
  · cases next
    obtain ⟨items, outer⟩ := List.forall_mem_cons.mp proper
    refine ⟨List.forall_mem_cons.mpr ⟨?_, outer⟩, by simp⟩
    exact List.forall_mem_cons.mpr ⟨properForm, items⟩
  · cases next
    obtain ⟨-, rest⟩ := List.forall_mem_cons.mp proper
    obtain ⟨members, outer⟩ := List.forall_mem_cons.mp rest
    refine ⟨List.forall_mem_cons.mpr ⟨?_, outer⟩, by simp⟩
    exact List.forall_mem_cons.mpr ⟨properForm, members⟩
  · cases next

variable {s next : ParseState} {token : Json.Token}

theorem startsValue_proper (proper : s.Proper) (properToken : token.Proper)
    (stepped : s.startsValue token = some next) : next.Proper := by
  unfold startsValue at stepped
  split at stepped
  · cases stepped
    exact ⟨List.forall_mem_cons.mpr ⟨by simp [Frame.Proper], proper.frames⟩, by simp⟩
  · cases stepped
    exact ⟨List.forall_mem_cons.mpr ⟨by simp [Frame.Proper], proper.frames⟩, by simp⟩
  · refine put_proper proper.frames (.leaf ?_) stepped
    intro json held
    obtain ⟨text, -, rfl⟩ := Option.map_eq_some_iff.mp held
    exact .str text
  · refine put_proper proper.frames (.leaf ?_) stepped
    rintro json rfl
    exact properToken
  · cases stepped

theorem closes_proper (proper : s.Proper) (stepped : s.closes token = some next) :
    next.Proper := by
  obtain ⟨frames, due, result⟩ := s
  have properFrames := proper.frames
  unfold closes at stepped
  split at stepped
  · dsimp only at stepped
    split at stepped
    · obtain ⟨items, outer⟩ := List.forall_mem_cons.mp properFrames
      exact put_proper outer (.arr fun item member => items item (List.mem_reverse.mp member))
        stepped
    · cases stepped
  · dsimp only at stepped
    split at stepped
    · obtain ⟨members, outer⟩ := List.forall_mem_cons.mp properFrames
      exact put_proper outer (.obj fun entry member => members entry (List.mem_reverse.mp member))
        stepped
    · cases stepped
  · cases stepped

theorem startsMember_proper (proper : s.Proper) (stepped : s.startsMember token = some next) :
    next.Proper := by
  unfold startsMember at stepped
  split at stepped
  · cases stepped
    exact ⟨List.forall_mem_cons.mpr ⟨trivial, proper.frames⟩, proper.result⟩
  · cases stepped

theorem continues_proper (proper : s.Proper) (stepped : s.continues token = some next) :
    next.Proper := by
  unfold continues at stepped
  split at stepped
  · split at stepped
    · cases stepped
      exact ⟨proper.frames, proper.result⟩
    · cases stepped
      exact ⟨proper.frames, proper.result⟩
    · cases stepped
  · exact closes_proper proper stepped

theorem step_proper (proper : s.Proper) (properToken : token.Proper)
    (stepped : s.step token = some next) : next.Proper := by
  unfold step at stepped
  split at stepped
  · exact startsValue_proper proper properToken stepped
  · exact closes_proper proper stepped
  · exact startsValue_proper proper properToken stepped
  · exact closes_proper proper stepped
  · exact startsMember_proper proper stepped
  · exact startsMember_proper proper stepped
  · cases stepped
    exact ⟨proper.frames, proper.result⟩
  · cases stepped
  · exact continues_proper proper stepped
  · cases stepped

theorem foldlM_step_proper {tokens : List Json.Token} (proper : s.Proper)
    (properTokens : ∀ token ∈ tokens, token.Proper)
    (run : tokens.foldlM step s = some next) : next.Proper := by
  induction tokens generalizing s with
  | nil =>
    cases run
    exact proper
  | cons token rest ih =>
    obtain ⟨first, later⟩ := List.forall_mem_cons.mp properTokens
    rw [List.foldlM_cons, Option.bind_eq_bind, Option.bind_eq_some_iff] at run
    obtain ⟨middle, stepped, run⟩ := run
    exact ih (step_proper proper first stepped) later run

end ParseState

theorem parse?_proper {text : String} {form : Form} (parsed : parse? text = some form) :
    form.Proper := by
  simp only [parse?, Option.bind_eq_bind, Option.bind_eq_some_iff] at parsed
  obtain ⟨tokens, scanned, final, run, result⟩ := parsed
  have properTokens := Json.tokensFrom_proper (by simp) scanned
  have start : ParseState.initial.Proper := ⟨by simp [ParseState.initial],
    by simp [ParseState.initial]⟩
  exact (ParseState.foldlM_step_proper start properTokens run).result form result

end Form

/-! ### Canonical form -/

namespace Members

variable {members : Members} {key : String} {value : Json}

theorem mem_set {entry : String × Json} (member : entry ∈ set key value members) :
    entry = (key, value) ∨ entry ∈ members := by
  induction members with
  | nil => exact .inl (List.mem_singleton.mp member)
  | cons held rest ih =>
    obtain ⟨name, kept⟩ := held
    rw [set] at member
    split at member
    · exact List.mem_cons.mp member
    · split at member
      · exact (List.mem_cons.mp member).imp_right (List.mem_cons_of_mem _)
      · rcases List.mem_cons.mp member with rfl | later
        · exact .inr List.mem_cons_self
        · exact (ih later).imp_right (List.mem_cons_of_mem _)

theorem set_increasing (increasing : members.Increasing) : (set key value members).Increasing := by
  induction members with
  | nil => simp [set, Increasing]
  | cons held rest ih =>
    obtain ⟨name, kept⟩ := held
    obtain ⟨above, later⟩ := List.pairwise_cons.mp increasing
    rw [set]
    split
    · rename_i less
      refine List.pairwise_cons.mpr ⟨?_, increasing⟩
      refine List.forall_mem_cons.mpr ⟨less, fun other member => ?_⟩
      exact String.lt_trans less (above other member)
    · rename_i noLess
      split
      · rename_i same
        exact List.pairwise_cons.mpr ⟨same ▸ above, later⟩
      · rename_i apart
        refine List.pairwise_cons.mpr ⟨fun other member => ?_, ih later⟩
        obtain ⟨entry, among, rfl⟩ := List.mem_map.mp member
        rcases mem_set among with rfl | old
        · have notAbove := String.not_lt.mp noLess
          exact String.not_le.mp fun below => apart (String.le_antisymm below notAbove)
        · exact above _ (List.mem_map.mpr ⟨entry, old, rfl⟩)

theorem foldl_set_increasing {held : Members} (increasing : held.Increasing) :
    (members.foldl (fun held (key, value) => set key value held) held).Increasing := by
  induction members generalizing held with
  | nil => exact increasing
  | cons entry rest ih => exact ih (set_increasing increasing)

theorem sorted_increasing : members.sorted.Increasing :=
  foldl_set_increasing List.Pairwise.nil

theorem mem_foldl_set {held : Members} {entry : String × Json}
    (member : entry ∈ members.foldl (fun held (key, value) => set key value held) held) :
    entry ∈ held ∨ entry ∈ members := by
  induction members generalizing held with
  | nil => exact .inl member
  | cons first rest ih =>
    rcases ih member with earlier | later
    · rcases mem_set earlier with rfl | old
      · exact .inr List.mem_cons_self
      · exact .inl old
    · exact .inr (List.mem_cons_of_mem _ later)

theorem mem_of_mem_sorted {entry : String × Json} (member : entry ∈ members.sorted) :
    entry ∈ members :=
  (mem_foldl_set member).resolve_left List.not_mem_nil

end Members

namespace Json

theorem canonicalItems_eq (items : List Json) : canonicalItems items = items.map canonical := by
  induction items with
  | nil => rfl
  | cons item rest ih => rw [canonicalItems, ih, List.map_cons]

theorem canonicalMembers_eq (members : Members) :
    canonicalMembers members = members.map fun entry => (entry.1, entry.2.canonical) := by
  induction members with
  | nil => rfl
  | cons entry rest ih => rw [canonicalMembers, ih, List.map_cons]

theorem mem_canonical {members : Members} {entry : String × Json}
    (member : entry ∈ Members.sorted (canonicalMembers members)) :
    ∃ source ∈ members, entry = (source.1, source.2.canonical) := by
  have among := Members.mem_of_mem_sorted member
  rw [canonicalMembers_eq] at among
  obtain ⟨source, held, rfl⟩ := List.mem_map.mp among
  exact ⟨source, held, rfl⟩

theorem canonical_canonical (value : Json) : value.canonical.Canonical := by
  induction value using Json.induct with
  | null | bool | num | str => trivial
  | arr items ih =>
    rw [canonical, Canonical, canonicalItems_iff, canonicalItems_eq]
    exact List.forall_mem_map.mpr ih
  | obj members ih =>
    rw [canonical, Canonical, canonicalMembers_iff]
    refine ⟨Members.sorted_increasing, fun entry member => ?_⟩
    obtain ⟨source, held, rfl⟩ := mem_canonical member
    exact ih source held

theorem canonical_proper {value : Json} (proper : value.Proper) : value.canonical.Proper := by
  induction proper with
  | null | bool | str => constructor
  | num proper => exact .num proper
  | arr each ih =>
    rw [canonical, canonicalItems_eq]
    exact .arr (List.forall_mem_map.mpr ih)
  | obj each ih =>
    refine .obj fun entry member => ?_
    obtain ⟨source, held, rfl⟩ := mem_canonical member
    exact ih source held

/-- What a text is read as is in canonical form, and its numbers are in theirs. -/
theorem parseValue?_wellFormed {text : String} {value : Json}
    (read : parseValue? text = some value) : value.Canonical ∧ value.Proper := by
  obtain ⟨document, parsed, rfl⟩ := Option.map_eq_some_iff.mp read
  obtain ⟨form, shaped, selected⟩ := Option.bind_eq_some_iff.mp parsed
  have proper := Form.select_proper (Form.parse?_proper shaped) selected
  exact ⟨canonical_canonical document, canonical_proper proper⟩

end Json

end Colloquy
