import Colloquy.Proofs.Json.Records
import Colloquy.Proofs.Json.Reread
import Mathlib.Data.List.Induction

/-!
Maps by their history. However a map has come about, by single changes, from pairs or from a
document, its entries stand in the order in which their keys first came, and each holds what it was
last set to. So it can be written and read again.
-/

namespace Colloquy

namespace OrderedMap

variable {V : Type}

inductive Change (V : Type) where
  | insert (key : String) (value : V)
  | upsert (key : String) (value : V)

namespace Change

def key : Change V → String
  | .insert key _ => key
  | .upsert key _ => key

def value : Change V → V
  | .insert _ value => value
  | .upsert _ value => value

def upserted? : Change V → Option V
  | .insert _ _ => none
  | .upsert _ value => some value

def apply (map : OrderedMap V) : Change V → OrderedMap V
  | .insert key value => (map.insert key value).2
  | .upsert key value => map.upsert key value

end Change

def after (history : List (Change V)) : OrderedMap V := history.foldl Change.apply empty

/-- What is to be found under a key: what it was last set to since it came, or what it came with. -/
def told (history : List (Change V)) (key : String) : Option V :=
  match history.filter (·.key == key) with
  | [] => none
  | first :: later => some ((later.filterMap Change.upserted?).getLast?.getD first.value)

section

variable {map : OrderedMap V} {history : List (Change V)} {change : Change V} {key other : String}
  {value : V}

/-! ### One change -/

theorem insert_known (known : key ∈ map.keys) : map.insert key value = (false, map) :=
  if_pos (contains_iff_mem_keys.mpr known)

theorem insert_new (new : key ∉ map.keys) : map.insert key value = (true, map.push key value) :=
  if_neg (mt contains_iff_mem_keys.mp new)

theorem upsert_new (new : key ∉ map.keys) : map.upsert key value = map.push key value :=
  if_neg (mt contains_iff_mem_keys.mp new)

theorem keys_push : (map.push key value).keys = map.keys ++ [key] := by
  simp [push, keys]

theorem get?_eq_none_iff : map.get? key = none ↔ key ∉ map.keys := by
  rw [get?, Option.map_eq_none_iff, List.find?_eq_none, keys, List.mem_map]
  constructor
  · rintro none ⟨entry, member, same⟩
    exact none entry member (beq_iff_eq.mpr same)
  · intro absent entry member same
    exact absent ⟨entry, member, beq_iff_eq.mp same⟩

theorem keys_insert : (map.insert key value).2.keys =
    if key ∈ map.keys then map.keys else map.keys ++ [key] := by
  by_cases known : key ∈ map.keys
  · rw [insert_known known, if_pos known]
  · rw [insert_new known, if_neg known, keys_push]

theorem get?_insert : (map.insert key value).2.get? other =
    if other = key then some ((map.get? key).getD value) else map.get? other := by
  by_cases known : key ∈ map.keys
  · have present := mt get?_eq_none_iff.mp (not_not.mpr known)
    obtain ⟨held, found⟩ := Option.ne_none_iff_exists'.mp present
    rw [insert_known known]
    by_cases same : other = key
    · rw [if_pos same, same, found, Option.getD_some]
    · rw [if_neg same]
  · rw [insert_new known, ← upsert_new known, get?_upsert, get?_eq_none_iff.mpr known,
      Option.getD_none]

theorem keys_apply : (change.apply map).keys =
    if change.key ∈ map.keys then map.keys else map.keys ++ [change.key] := by
  cases change with
  | insert key value => exact keys_insert
  | upsert key value => exact keys_upsert

theorem get?_apply : (change.apply map).get? key =
    if key = change.key then some (change.upserted?.getD ((map.get? change.key).getD change.value))
    else map.get? key := by
  cases change with
  | insert key value => exact get?_insert
  | upsert key value => exact get?_upsert

theorem replace_split {entries : List (String × V)} (known : key ∈ entries.map (·.1)) :
    ∃ earlier held later, entries = earlier ++ (key, held) :: later ∧ key ∉ earlier.map (·.1) ∧
      replace key value entries = earlier ++ (key, value) :: later := by
  induction entries with
  | nil => cases known
  | cons entry rest ih =>
    obtain ⟨name, held⟩ := entry
    by_cases same : name = key
    · subst same
      exact ⟨[], held, rest, rfl, List.not_mem_nil, if_pos rfl⟩
    · have behind : key ∈ rest.map (·.1) := by simpa [Ne.symm same] using known
      obtain ⟨earlier, old, later, rfl, first, replaced⟩ := ih behind
      refine ⟨(name, held) :: earlier, old, later, rfl, ?_, ?_⟩
      · simpa [Ne.symm same] using first
      · rw [replace, if_neg same, replaced]
        rfl

theorem upsert_known (known : key ∈ map.keys) : ∃ earlier held later,
    map.entries = earlier ++ (key, held) :: later ∧ key ∉ earlier.map (·.1) ∧
      (map.upsert key value).entries = earlier ++ (key, value) :: later := by
  rw [upsert, if_pos (contains_iff_mem_keys.mpr known)]
  exact replace_split known

/-! ### A whole history -/

theorem after_concat : after (history ++ [change]) = change.apply (after history) := by
  rw [after, List.foldl_append]
  rfl

theorem keys_after : (after history).keys = firstOccurrences [] (history.map (·.key)) := by
  induction history using List.reverseRecOn with
  | nil => rfl
  | append_singleton history change ih =>
    rw [after_concat, keys_apply, ih, List.map_append, List.map_singleton, firstOccurrences_concat]
    simp only [mem_firstOccurrences, List.not_mem_nil, not_false_eq_true, and_true, false_or]
    split <;> simp

theorem told_concat : told (history ++ [change]) key =
    if key = change.key then
      some (change.upserted?.getD ((told history change.key).getD change.value))
    else told history key := by
  unfold told
  rw [List.filter_append]
  by_cases same : key = change.key
  · subst same
    rw [if_pos rfl, List.filter_cons_of_pos (by simp), List.filter_nil]
    cases history.filter (·.key == change.key) with
    | nil => cases change <;> rfl
    | cons first later => cases change <;> simp [Change.upserted?]
  · rw [if_neg same, List.filter_cons_of_neg (by simpa using Ne.symm same), List.filter_nil,
      List.append_nil]

theorem get?_after : (after history).get? key = told history key := by
  induction history using List.reverseRecOn generalizing key with
  | nil => rfl
  | append_singleton history change ih => rw [after_concat, get?_apply, ih, ih, told_concat]

theorem nodup_keys_after : (after history).keys.Nodup := by
  rw [keys_after]
  exact nodup_firstOccurrences [] _

end

/-! ### Maps from pairs and from documents -/

def inserts (pairs : List (String × V)) : List (Change V) :=
  pairs.map fun (key, value) => .insert key value

theorem ofList_eq_after (pairs : List (String × V)) : ofList pairs = after (inserts pairs) := by
  rw [ofList, after, inserts, List.foldl_map]
  rfl

theorem after_inserts {pairs : List (String × V)} (distinct : (pairs.map (·.1)).Nodup) :
    after (inserts pairs) = ⟨pairs⟩ := by
  induction pairs using List.reverseRecOn with
  | nil => rfl
  | append_singleton pairs pair ih =>
    rw [List.map_append, List.nodup_append'] at distinct
    obtain ⟨earlier, -, apart⟩ := distinct
    have new : pair.1 ∉ keys ⟨pairs⟩ := by
      intro known
      exact apart known (by simp)
    rw [inserts, List.map_append, List.map_singleton, after_concat]
    have before := ih earlier
    rw [inserts] at before
    rw [before]
    exact congrArg Prod.snd (insert_new new)

def Holds (read : Json → Read V) (member : String × Json) (pair : String × V) : Prop :=
  pair.1 = member.1 ∧ read member.2 = .ok pair.2

theorem holds_names {read : Json → Read V} {members : Members} {pairs : List (String × V)}
    (values : List.Forall₂ (Holds read) members pairs) :
    pairs.map (·.1) = members.map (·.1) := by
  induction values with
  | nil => rfl
  | cons head _ ih => rw [List.map_cons, List.map_cons, head.1, ih]

theorem holds_unique {read : Json → Read V} : Relator.RightUnique (Holds read) := by
  rintro member ⟨name, value⟩ ⟨nameToo, valueToo⟩ ⟨named, held⟩ ⟨namedToo, heldToo⟩
  cases named.trans namedToo.symm
  cases held.symm.trans heldToo
  rfl

inductive Built : List (Change V) → OrderedMap V → Prop
  | empty : Built [] empty
  | ofList (pairs : List (String × V)) : Built (inserts pairs) (ofList pairs)
  | read {read : Json → Read V} {members : Members} {pairs : List (String × V)} {map : OrderedMap V}
      (values : List.Forall₂ (Holds read) members pairs)
      (accepted : Read.orderedMap read (.obj members) = .ok map) : Built (inserts pairs) map
  | insert {history : List (Change V)} {map : OrderedMap V} (built : Built history map)
      (key : String) (value : V) :
      Built (history ++ [.insert key value]) (map.insert key value).2
  | upsert {history : List (Change V)} {map : OrderedMap V} (built : Built history map)
      (key : String) (value : V) :
      Built (history ++ [.upsert key value]) (map.upsert key value)

theorem Built.eq_after {history : List (Change V)} {map : OrderedMap V}
    (built : Built history map) : map = after history := by
  induction built with
  | empty => rfl
  | ofList pairs => exact ofList_eq_after pairs
  | @read read members pairs map values accepted =>
    -- A document that is accepted has no repeated key, so that inserting refuses nothing.
    obtain ⟨_, ⟨⟩, distinct, rows⟩ := Read.orderedMap_ok_iff.mp accepted
    obtain rfl : pairs = map.entries := List.right_unique_forall₂' holds_unique values rows
    exact (after_inserts (holds_names values ▸ distinct)).symm
  | insert built key value ih => rw [after_concat, ← ih, Change.apply]
  | upsert built key value ih => rw [after_concat, ← ih, Change.apply]

/-! ### Writing and reading -/

section

variable {map : OrderedMap V} {read : Json → Read V} {write : V → Json}

theorem orderedMap_toJson (distinct : map.Distinct)
    (values : ∀ entry ∈ map.entries, read (write entry.2) = .ok entry.2) :
    Read.orderedMap read (map.toJson write) = .ok map := by
  refine Read.orderedMap_ok_iff.mpr ⟨_, rfl, ?_, ?_⟩
  · rw [List.map_map]
    exact distinct
  · rw [List.forall₂_map_left_iff, List.forall₂_same]
    exact fun entry member => ⟨rfl, values entry member⟩

theorem ofText_toJson (distinct : map.Distinct)
    (values : ∀ entry ∈ map.entries, read (write entry.2) = .ok entry.2)
    (plain : ∀ entry ∈ map.entries, Json.Plain (Form.maxDepth - 1) (write entry.2)) :
    Read.ofText .whole (Read.orderedMap read) (map.toJson write).compact = .ok map := by
  have object : Json.Plain Form.maxDepth (map.toJson write) :=
    .obj (List.forall_mem_map.mpr plain)
  rw [Read.ofText_compact object, orderedMap_toJson distinct values]
  rfl

theorem entries_repeated {members : Members} {earlier : OrderedMap V} {seen : List String}
    {key : String} (readable : ∀ member ∈ members, ∃ value, read member.2 = .ok value)
    (same : ∀ name, name ∈ seen ↔ name ∈ earlier.keys)
    (repeated : firstRepeated? seen (members.map (·.1)) = some key) :
    Read.entries read earlier members = .error (.duplicateKey key) := by
  induction members generalizing earlier seen with
  | nil => cases repeated
  | cons member rest ih =>
    obtain ⟨name, json⟩ := member
    obtain ⟨⟨value, held⟩, others⟩ := List.forall_mem_cons.mp readable
    rw [List.map_cons, firstRepeated?] at repeated
    have reads : Read.entries read earlier ((name, json) :: rest) =
        if earlier.contains name then .error (.duplicateKey name)
        else Read.entries read (earlier.push name value) rest := by
      rw [Read.entries, held]
      split <;> rfl
    rw [reads]
    by_cases known : name ∈ seen
    · obtain rfl : name = key := by simpa [known] using repeated
      rw [if_pos (contains_iff_mem_keys.mpr ((same name).mp known))]
    · rw [if_neg known] at repeated
      rw [if_neg (mt contains_iff_mem_keys.mp (mt (same name).mpr known))]
      refine ih others (fun other => ?_) repeated
      rw [keys_push, List.mem_cons, List.mem_append, List.mem_singleton, same other, or_comm]

theorem orderedMap_repeated {members : Members} (repeated : ¬ (members.map (·.1)).Nodup) :
    (∃ problem, Read.orderedMap read (.obj members) = .error problem) ∧
    ((∀ member ∈ members, ∃ value, read member.2 = .ok value) →
      ∃ key, firstRepeated? [] (members.map (·.1)) = some key ∧
        Read.orderedMap read (.obj members) = .error (.duplicateKey key)) := by
  constructor
  · cases outcome : Read.orderedMap read (.obj members) with
    | error problem => exact ⟨problem, rfl⟩
    | ok map =>
      obtain ⟨_, ⟨⟩, distinct, -⟩ := Read.orderedMap_ok_iff.mp outcome
      exact absurd distinct repeated
  · intro readable
    have first : firstRepeated? [] (members.map (·.1)) ≠ none := fun none =>
      repeated (firstRepeated_eq_none_iff.mp none).1
    obtain ⟨key, found⟩ := Option.ne_none_iff_exists'.mp first
    exact ⟨key, found, entries_repeated readable (by simp [keys, empty]) found⟩

theorem ofText_repeated {members : Members} {text : String}
    (parsed : Json.parse? text = some (.obj members)) (repeated : ¬ (members.map (·.1)).Nodup) :
    ∃ problem, Read.ofText .whole (Read.orderedMap read) text = .error (.problem problem) := by
  obtain ⟨form, formed, whole⟩ := Option.bind_eq_some_iff.mp parsed
  have refusal : ∃ problem, Read.orderedMap read (.obj members) = .error problem :=
    (orderedMap_repeated repeated).1
  obtain ⟨problem, refused⟩ := refusal
  have selected : form.select .whole Form.maxDepth = some (.obj members) := whole
  refine ⟨problem, ?_⟩
  simp [Read.ofText, formed, selected, refused, whole]

end

structure Tells (history : List (Change V)) (map : OrderedMap V) : Prop where
  distinct : map.keys.Nodup
  ordered : map.keys = firstOccurrences [] (history.map (·.key))
  told : ∀ key, map.get? key = told history key
  refuses : ∀ key value, (map.insert key value).1 = false ↔ key ∈ map.keys
  unchanged : ∀ key value, (map.insert key value).1 = false → (map.insert key value).2 = map
  inPlace : ∀ key value, key ∈ map.keys → ∃ earlier held later,
    map.entries = earlier ++ (key, held) :: later ∧
      (map.upsert key value).entries = earlier ++ (key, value) :: later
  reread : ∀ (read : Json → Read V) (write : V → Json),
    (∀ entry ∈ map.entries, read (write entry.2) = .ok entry.2) →
    Read.orderedMap read (map.toJson write) = .ok map ∧
    ((∀ entry ∈ map.entries, Json.Plain (Form.maxDepth - 1) (write entry.2)) →
      Read.ofText .whole (Read.orderedMap read) (map.toJson write).compact = .ok map)

structure Refused (read : Json → Read V) (members : Members) : Prop where
  refused : ∃ problem, Read.orderedMap read (.obj members) = .error problem
  /-- Where nothing else is wrong, the first key that comes again is named. -/
  named : (∀ member ∈ members, ∃ value, read member.2 = .ok value) →
    ∃ key, firstRepeated? [] (members.map (·.1)) = some key ∧
      Read.orderedMap read (.obj members) = .error (.duplicateKey key)
  text : ∀ text, Json.parse? text = some (.obj members) →
    ∃ problem, Read.ofText .whole (Read.orderedMap read) text = .error (.problem problem)

/-- However a map has come about, its history tells what is in it and in which order. It is written
and read back as it is, and what repeats a key is not read as a map. -/
theorem history_tells {history : List (Change V)} {map : OrderedMap V} (built : Built history map) :
    Tells history map ∧ ∀ (read : Json → Read V) (members : Members),
      ¬ (members.map (·.1)).Nodup → Refused read members := by
  obtain rfl := built.eq_after
  refine ⟨?_, fun read members repeated => ?_⟩
  · constructor
    case distinct => exact nodup_keys_after
    case ordered => exact keys_after
    case told => exact fun key => get?_after
    case refuses =>
      intro key value
      by_cases known : key ∈ (after history).keys
      · simp [insert_known known, known]
      · simp [insert_new known, known]
    case unchanged =>
      intro key value refused
      by_cases known : key ∈ (after history).keys
      · rw [insert_known known]
      · rw [insert_new known] at refused
        cases refused
    case inPlace =>
      intro key value known
      obtain ⟨earlier, held, later, split, -, changed⟩ := upsert_known known
      exact ⟨earlier, held, later, split, changed⟩
    case reread =>
      intro read write values
      exact ⟨orderedMap_toJson nodup_keys_after values, ofText_toJson nodup_keys_after values⟩
  · obtain ⟨refused, named⟩ := orderedMap_repeated repeated
    exact ⟨refused, named, fun text parsed => ofText_repeated parsed repeated⟩

theorem changed_map_is_read_back : ∃ (history : List (Change ℕ)) (map : OrderedMap ℕ),
    Built history map ∧ map.entries = [("b", 4), ("a", 2), ("c", 5)] ∧ map.get? "b" = some 4 ∧
      Read.ofText .whole (Read.orderedMap (Read.natural "u32")) (map.toJson .ofNat).compact =
        .ok map := by
  have accepted : Read.orderedMap (Read.natural "u32") (.obj [("b", .ofNat 1), ("a", .ofNat 2)]) =
      .ok ⟨[("b", 1), ("a", 2)]⟩ := rfl
  have start : Built (inserts [("b", 1), ("a", 2)]) ⟨[("b", 1), ("a", 2)]⟩ :=
    .read (.cons ⟨rfl, rfl⟩ (.cons ⟨rfl, rfl⟩ .nil)) accepted
  have built := ((start.insert "a" 3).upsert "b" 4).insert "c" 5
  have tells := (history_tells built).1
  refine ⟨_, _, built, rfl, (tells.told "b").trans rfl, ?_⟩
  apply (tells.reread (Read.natural "u32") .ofNat ?_).2
  · intro entry member
    apply Json.Plain.int
    rcases member with _ | ⟨_, _ | ⟨_, _ | ⟨_, ⟨⟩⟩⟩⟩ <;> rfl
  · intro entry member
    rcases member with _ | ⟨_, _ | ⟨_, _ | ⟨_, ⟨⟩⟩⟩⟩ <;> rfl

end OrderedMap

end Colloquy
