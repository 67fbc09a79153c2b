import Colloquy.Extraction
import Colloquy.Proofs.Checks
import Colloquy.Proofs.OrderedMap
import Mathlib.Data.List.Induction
import Mathlib.Data.List.Nodup

/-!
What has been recorded is kept: nothing is lost, nothing comes twice, and the order of the visits is
told by where their values stand. Recording moves no value that stands already, so that every visit
finds its value for good.
-/

namespace Colloquy

namespace Extraction

def ofValues : List StructuredValue → Extraction
  | [value] => single value
  | values => accumulated values

theorem values_ofValues (values : List StructuredValue) : (ofValues values).values = values := by
  unfold ofValues
  split <;> rfl

theorem ofValues_eq_single_iff {values : List StructuredValue} :
    (∃ value, ofValues values = single value) ↔ values.length = 1 := by
  rw [List.length_eq_one_iff]
  constructor
  · rintro ⟨value, same⟩
    exact ⟨value, by rw [← values_ofValues values, same, Extraction.values]⟩
  · rintro ⟨value, rfl⟩
    exact ⟨value, rfl⟩

theorem latest?_eq (extraction : Extraction) :
    extraction.latest? = extraction.values.getLast? := by
  cases extraction <;> rfl

theorem values_push (extraction : Extraction) (value : StructuredValue) :
    (extraction.push value).values = extraction.values ++ [value] := by
  cases extraction <;> rfl

theorem push_ofValues {values : List StructuredValue} (some : values ≠ [])
    (value : StructuredValue) : (ofValues values).push value = ofValues (values ++ [value]) := by
  match values with
  | [first] => rfl
  | first :: second :: others => rfl

end Extraction

section

variable {α : Type}

theorem exists_split_of_findFinIdx {p : α → Bool} {xs : List α} {place : Fin xs.length}
    (found : xs.findFinIdx? p = some place) : ∃ earlier a later, xs[place] = a ∧
      xs = earlier ++ a :: later ∧ earlier.length = place ∧
      (∀ b, xs.set place b = earlier ++ b :: later) ∧ p a = true ∧ ∀ b ∈ earlier, p b = false := by
  obtain ⟨holds, before⟩ := List.findFinIdx?_eq_some_iff.mp found
  refine ⟨xs.take place, xs[place], xs.drop (place + 1), rfl, ?_, ?_, fun b => ?_, holds, ?_⟩
  · exact (List.take_append_drop place.val xs).symm.trans
      (congrArg _ (List.drop_eq_getElem_cons place.isLt))
  · exact List.length_take_of_le (Nat.le_of_lt place.isLt)
  · exact List.set_eq_take_cons_drop b place.isLt
  · intro b member
    obtain ⟨j, short, rfl⟩ := List.mem_take_iff_getElem.mp member
    have inside : j < place.val ∧ j < xs.length := by omega
    simpa using before ⟨j, inside.2⟩ inside.1

theorem getElem?_replaced {earlier later : List α} {a b : α} {i : Nat}
    (elsewhere : i ≠ earlier.length) : (earlier ++ a :: later)[i]? = (earlier ++ b :: later)[i]? := by
  rcases Nat.lt_or_gt_of_ne elsewhere with before | behind
  · rw [List.getElem?_append_left before, List.getElem?_append_left before]
  · obtain ⟨j, rfl⟩ := Nat.exists_eq_add_of_lt behind
    rw [List.getElem?_append_right (by omega), List.getElem?_append_right (by omega),
      Nat.add_assoc, Nat.add_sub_cancel_left, List.getElem?_cons_succ, List.getElem?_cons_succ]

end

namespace Extractions.Store

/-- What a store does when it records: the value joins the others of its node, or stands first in an
entry of its own. -/
inductive Records (store : Store) (node : NodeId) (value : StructuredValue) : Store → Prop
  | joins {earlier later : List (NodeId × Extraction)} {extraction : Extraction}
      (split : store.entries = earlier ++ (node, extraction) :: later)
      (first : node ∉ earlier.map (·.1)) :
      Records store node value
        ⟨earlier ++ (node, extraction.push value) :: later,
          store.visits ++ [(earlier.length, extraction.values.length)]⟩
  | opens (fresh : node ∉ store.entries.map (·.1)) :
      Records store node value
        ⟨store.entries ++ [(node, .single value)], store.visits ++ [(store.entries.length, 0)]⟩

variable {store next : Store} {node : NodeId} {value : StructuredValue}
  {told : List (NodeId × StructuredValue)}

theorem record_records (store : Store) (node : NodeId) (value : StructuredValue) :
    store.Records node value (store.record node value) := by
  rw [record]
  split
  · rename_i place found
    obtain ⟨earlier, ⟨id, extraction⟩, later, here, split, length, set, named, others⟩ :=
      exists_split_of_findFinIdx found
    obtain rfl : id = node := by simpa using named
    have first : id ∉ earlier.map (·.1) := by
      intro again
      obtain ⟨entry, before, same⟩ := List.mem_map.mp again
      simpa [same] using others entry before
    dsimp only
    rw [here, set, Extraction.values_push, List.length_append, List.length_singleton,
      Nat.add_sub_cancel, ← length]
    exact .joins split first
  · rename_i absent
    refine .opens fun known => ?_
    obtain ⟨entry, member, named⟩ := List.mem_map.mp known
    exact List.findFinIdx?_eq_none_iff.mp absent entry member (by simpa using named)

theorem at?_eq_some_iff {visit : Nat × Nat} : store.at? visit = some (node, value) ↔
    ∃ extraction, store.entries[visit.1]? = some (node, extraction) ∧
      extraction.values[visit.2]? = some value := by
  simp only [at?, Option.bind_eq_bind, Option.bind_eq_some_iff]
  constructor
  · rintro ⟨⟨id, extraction⟩, here, held, there, ⟨⟩⟩
    exact ⟨extraction, here, there⟩
  · rintro ⟨extraction, here, there⟩
    exact ⟨(node, extraction), here, value, there, rfl⟩

theorem Records.keeps (records : store.Records node value next) {visit : Nat × Nat}
    {told : NodeId × StructuredValue} (found : store.at? visit = some told) :
    next.at? visit = some told := by
  obtain ⟨id, held⟩ := told
  obtain ⟨extraction, here, there⟩ := at?_eq_some_iff.mp found
  apply at?_eq_some_iff.mpr
  cases records with
  | @joins earlier later other split first =>
    rw [split] at here
    by_cases same : visit.1 = earlier.length
    · rw [same, List.getElem?_append_right (Nat.le_refl _), Nat.sub_self] at here
      cases here
      have inside := (List.getElem?_eq_some_iff.mp there).1
      refine ⟨extraction.push value, by simp [same], ?_⟩
      rw [Extraction.values_push, List.getElem?_append_left inside, there]
    · refine ⟨extraction, ?_, there⟩
      rw [← here]
      exact getElem?_replaced same
  | opens fresh =>
    have inside := (List.getElem?_eq_some_iff.mp here).1
    exact ⟨extraction, by rw [List.getElem?_append_left inside, here], there⟩

theorem Records.found (records : store.Records node value next) : ∃ visit,
    next.visits = store.visits ++ [visit] ∧ next.at? visit = some (node, value) := by
  cases records with
  | @joins earlier later extraction split first =>
    refine ⟨_, rfl, at?_eq_some_iff.mpr ⟨extraction.push value, ?_, ?_⟩⟩
    · rw [List.getElem?_append_right (Nat.le_refl _), Nat.sub_self, List.getElem?_cons_zero]
    · rw [Extraction.values_push, List.getElem?_append_right (Nat.le_refl _), Nat.sub_self,
        List.getElem?_cons_zero]
  | opens fresh =>
    refine ⟨_, rfl, at?_eq_some_iff.mpr ⟨.single value, ?_, rfl⟩⟩
    rw [List.getElem?_append_right (Nat.le_refl _), Nat.sub_self, List.getElem?_cons_zero]

end Extractions.Store

def valuesOf (told : List (NodeId × StructuredValue)) (node : NodeId) : List StructuredValue :=
  (told.filter (·.1 == node)).map (·.2)

section

variable {told : List (NodeId × StructuredValue)} {node other : NodeId} {value : StructuredValue}

theorem valuesOf_concat_self :
    valuesOf (told ++ [(node, value)]) node = valuesOf told node ++ [value] := by
  simp [valuesOf]

theorem valuesOf_concat_of_ne (apart : node ≠ other) :
    valuesOf (told ++ [(node, value)]) other = valuesOf told other := by
  simp [valuesOf, apart]

theorem valuesOf_length : (valuesOf told node).length = (told.map (·.1)).count node := by
  rw [valuesOf, List.length_map, ← List.countP_eq_length_filter, List.count, List.countP_map]
  rfl

theorem valuesOf_eq_nil_iff : valuesOf told node = [] ↔ node ∉ told.map (·.1) := by
  rw [valuesOf, List.map_eq_nil_iff, List.filter_eq_nil_iff, List.mem_map]
  constructor
  · rintro none ⟨one, member, named⟩
    exact none one member (by simpa using named)
  · intro absent one member named
    exact absent ⟨one, member, by simpa using named⟩

end

namespace Extractions.Store

/-- The store holds what was told: every visit finds its value, and every node has its values. -/
structure Tells (store : Store) (told : List (NodeId × StructuredValue)) : Prop where
  visits : store.visits.map store.at? = told.map some
  nodes : store.entries.map (·.1) = firstOccurrences [] (told.map (·.1))
  grouped : ∀ entry ∈ store.entries, entry.2 = .ofValues (valuesOf told entry.1)

namespace Tells

variable {store next : Store} {node : NodeId} {value : StructuredValue}
  {told : List (NodeId × StructuredValue)}

theorem nodup (tells : store.Tells told) : (store.entries.map (·.1)).Nodup :=
  tells.nodes ▸ nodup_firstOccurrences [] _

theorem mem_nodes (tells : store.Tells told) :
    node ∈ store.entries.map (·.1) ↔ node ∈ told.map (·.1) := by
  rw [tells.nodes, mem_firstOccurrences, and_iff_left List.not_mem_nil]

theorem next_nodes (tells : store.Tells told) (records : store.Records node value next) :
    next.entries.map (·.1) = firstOccurrences [] ((told ++ [(node, value)]).map (·.1)) := by
  rw [List.map_append, List.map_singleton, firstOccurrences_concat, ← tells.nodes]
  cases records with
  | joins split first =>
    have known : node ∈ told.map (·.1) := tells.mem_nodes.mp (by simp [split])
    rw [if_pos (.inr known), split]
    simp
  | opens fresh =>
    have new : ¬ (node ∈ [] ∨ node ∈ told.map (·.1)) :=
      not_or.mpr ⟨List.not_mem_nil, mt tells.mem_nodes.mpr fresh⟩
    rw [if_neg new]
    simp

theorem next_grouped (tells : store.Tells told) (records : store.Records node value next) :
    ∀ entry ∈ next.entries, entry.2 = .ofValues (valuesOf (told ++ [(node, value)]) entry.1) := by
  have others : ∀ entry ∈ store.entries, node ≠ entry.1 →
      entry.2 = .ofValues (valuesOf (told ++ [(node, value)]) entry.1) := by
    intro entry member apart
    rw [valuesOf_concat_of_ne apart]
    exact tells.grouped entry member
  intro entry member
  cases records with
  | @joins earlier later extraction split first =>
    have once := tells.nodup
    rw [split, List.map_append, List.map_cons, List.nodup_middle, List.nodup_cons,
      List.mem_append, not_or] at once
    have here : (node, extraction) ∈ store.entries := by simp [split]
    simp only [List.mem_append, List.mem_cons] at member
    rcases member with before | rfl | behind
    · exact others entry (by simp [split, before]) fun same =>
        first (List.mem_map.mpr ⟨entry, before, same.symm⟩)
    · have known : valuesOf told node ≠ [] := by
        rw [Ne, valuesOf_eq_nil_iff, not_not]
        exact tells.mem_nodes.mp (List.mem_map.mpr ⟨_, here, rfl⟩)
      rw [valuesOf_concat_self, ← Extraction.push_ofValues known, ← tells.grouped _ here]
    · exact others entry (by simp [split, behind]) fun same =>
        once.1.2 (List.mem_map.mpr ⟨entry, behind, same.symm⟩)
  | opens fresh =>
    rcases List.mem_append.mp member with before | new
    · exact others entry before fun same => fresh (List.mem_map.mpr ⟨entry, before, same.symm⟩)
    · obtain rfl := List.mem_singleton.mp new
      have none : valuesOf told node = [] := valuesOf_eq_nil_iff.mpr (mt tells.mem_nodes.mpr fresh)
      rw [valuesOf_concat_self, none]
      rfl

theorem record (tells : store.Tells told) (node : NodeId) (value : StructuredValue) :
    (store.record node value).Tells (told ++ [(node, value)]) := by
  have records := store.record_records node value
  refine ⟨?_, tells.next_nodes records, tells.next_grouped records⟩
  obtain ⟨visit, visits, found⟩ := records.found
  have kept : store.visits.map (store.record node value).at? = store.visits.map store.at? := by
    refine List.map_congr_left fun visit member => ?_
    have held : store.at? visit ∈ told.map some := tells.visits ▸ List.mem_map_of_mem member
    obtain ⟨one, -, same⟩ := List.mem_map.mp held
    rw [← same, records.keeps same.symm]
  rw [visits, List.map_append, kept, tells.visits, List.map_singleton, found, List.map_append,
    List.map_singleton]

end Tells

theorem recordAll_tells (told : List (NodeId × StructuredValue)) :
    (recordAll {} told).Tells told := by
  induction told using List.reverseRecOn with
  | nil => exact ⟨rfl, rfl, List.forall_mem_nil _⟩
  | append_singleton told one tells =>
    rw [recordAll, List.foldl_append, List.foldl_cons, List.foldl_nil]
    exact tells.record one.1 one.2

end Extractions.Store

namespace Extractions

variable {extractions : Extractions} {node : NodeId} {told : List (NodeId × StructuredValue)}

theorem log_eq (tells : extractions.Tells told) : extractions.log = told := by
  have found : extractions.log = (extractions.visits.map extractions.at?).filterMap id := by
    rw [List.filterMap_map]
    rfl
  rw [found, tells.visits, List.filterMap_map]
  exact List.filterMap_some

theorem tells (extractions : Extractions) : extractions.Tells extractions.log := by
  obtain ⟨told, filled⟩ := extractions.recorded
  have tells : extractions.Tells told := filled ▸ Store.recordAll_tells told
  rwa [log_eq tells]

@[simp]
theorem log_empty : ({} : Extractions).log = [] := rfl

@[simp]
theorem log_record (extractions : Extractions) (node : NodeId) (value : StructuredValue) :
    (extractions.record node value).log = extractions.log ++ [(node, value)] :=
  log_eq (extractions.tells.record node value)

theorem log_recordAll (extractions : Extractions) (told : List (NodeId × StructuredValue)) :
    (extractions.recordAll told).log = extractions.log ++ told := by
  induction told generalizing extractions with
  | nil => simp [recordAll]
  | cons one rest ih =>
    change ((extractions.record one.1 one.2).recordAll rest).log = _
    rw [ih, log_record, List.append_assoc, List.singleton_append]

theorem contains_iff : extractions.contains node = true ↔ node ∈ extractions.log.map (·.1) := by
  rw [← extractions.tells.mem_nodes]
  simp [contains, get?]

def Latest (extractions : Extractions) (field : String) (value : Json) : Prop :=
  ∃ earlier told later, extractions.log = earlier ++ told :: later ∧
    told.2.get? field = some value ∧ ∀ other ∈ later, other.2.get? field = none

theorem findField_some_iff {field : String} {value : Json} :
    extractions.findField? field = some value ↔ extractions.Latest field value := by
  rw [findField?, List.findSome?_eq_some_iff]
  constructor
  · rintro ⟨later, told, earlier, split, found, none⟩
    refine ⟨earlier.reverse, told, later.reverse, ?_, found, by simpa using none⟩
    simpa using congrArg List.reverse split
  · rintro ⟨earlier, told, later, split, found, none⟩
    exact ⟨later.reverse, told, earlier.reverse, by simp [split], found, by simpa using none⟩

structure Keeps (kept : Extractions) (told : List (NodeId × StructuredValue)) : Prop where
  log : kept.log = told
  visits : kept.visits.map kept.at? = told.map some
  nodes : kept.entries.map (·.1) = firstOccurrences [] (told.map (·.1))
  distinct : (kept.entries.map (·.1)).Nodup
  listed : ∀ node extraction, (node, extraction) ∈ kept.entries ↔ kept.get? node = some extraction
  absent : ∀ node, kept.get? node = none ↔ node ∉ told.map (·.1)
  values : ∀ node extraction, kept.get? node = some extraction →
    extraction.values = valuesOf told node
  latest : ∀ node extraction, kept.get? node = some extraction →
    ∃ value, (valuesOf told node).getLast? = some value ∧ extraction.latest? = some value
  single : ∀ node extraction, kept.get? node = some extraction →
    ((∃ value, extraction = .single value) ↔ (told.map (·.1)).count node = 1)
  field : ∀ field value, kept.findField? field = some value ↔ ∃ earlier one later,
    told = earlier ++ one :: later ∧ one.2.get? field = some value ∧
      ∀ other ∈ later, other.2.get? field = none

theorem get?_eq_some_iff {extraction : Extraction} :
    extractions.get? node = some extraction ↔ (node, extraction) ∈ extractions.entries := by
  rw [get?, Option.map_eq_some_iff]
  constructor
  · rintro ⟨entry, found, rfl⟩
    have named : entry.1 = node := by simpa using List.find?_some found
    exact named ▸ List.mem_of_find?_eq_some found
  · intro member
    exact ⟨_, find_of_nodup extractions.tells.nodup member, rfl⟩

theorem get?_eq_none_iff : extractions.get? node = none ↔ node ∉ extractions.log.map (·.1) := by
  rw [← contains_iff, contains, Bool.not_eq_true, Option.isSome_eq_false_iff, Option.isNone_iff_eq_none]

theorem eq_ofValues {extraction : Extraction} (found : extractions.get? node = some extraction) :
    extraction = .ofValues (valuesOf extractions.log node) :=
  extractions.tells.grouped _ (get?_eq_some_iff.mp found)

theorem keeps_log (kept : Extractions) : kept.Keeps kept.log where
  log := rfl
  visits := kept.tells.visits
  nodes := kept.tells.nodes
  distinct := kept.tells.nodup
  listed _ _ := get?_eq_some_iff.symm
  absent _ := get?_eq_none_iff
  values node extraction found := by
    rw [eq_ofValues found, Extraction.values_ofValues]
  latest node extraction found := by
    have known : valuesOf kept.log node ≠ [] := by
      intro none
      rw [get?_eq_none_iff.mpr (valuesOf_eq_nil_iff.mp none)] at found
      cases found
    refine ⟨_, List.getLast?_eq_some_getLast known, ?_⟩
    rw [eq_ofValues found, Extraction.latest?_eq, Extraction.values_ofValues,
      List.getLast?_eq_some_getLast known]
  single node extraction found := by
    rw [eq_ofValues found, Extraction.ofValues_eq_single_iff, valuesOf_length]
  field _ _ := findField_some_iff

/-- Nothing that is recorded is lost, comes twice or changes places. -/
theorem recordings_are_kept (told : List (NodeId × StructuredValue)) :
    (empty.recordAll told).Keeps told := by
  have log : (empty.recordAll told).log = told := by
    rw [log_recordAll]
    exact List.nil_append told
  have keeps := keeps_log (empty.recordAll told)
  rwa [log] at keeps

end Extractions

end Colloquy
