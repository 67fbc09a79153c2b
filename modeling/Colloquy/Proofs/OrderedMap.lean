import Colloquy.Distinct
import Colloquy.OrderedMap
import Mathlib.Data.List.Basic

/-!
Maps whose keys are set one after another: the keys stand in the order in which they first came, and
each holds what it was set to last.
-/

namespace Colloquy

section

variable {α : Type} [DecidableEq α]

/-- What has been seen matters, and not in which order. -/
theorem firstOccurrences_congr {seen others : List α} (same : ∀ a, a ∈ seen ↔ a ∈ others)
    (xs : List α) : firstOccurrences seen xs = firstOccurrences others xs := by
  induction xs generalizing seen others with
  | nil => rfl
  | cons x rest ih =>
    rw [firstOccurrences, firstOccurrences]
    by_cases repeated : x ∈ seen
    · rw [if_pos repeated, if_pos ((same x).mp repeated), ih same]
    · have more : ∀ a, a ∈ x :: seen ↔ a ∈ x :: others := by simp [same]
      rw [if_neg repeated, if_neg (mt (same x).mpr repeated), ih more]

theorem mem_firstOccurrences {seen xs : List α} {a : α} :
    a ∈ firstOccurrences seen xs ↔ a ∈ xs ∧ a ∉ seen := by
  induction xs generalizing seen with
  | nil => simp [firstOccurrences]
  | cons x rest ih =>
    rw [firstOccurrences]
    by_cases repeated : x ∈ seen
    · rw [if_pos repeated, ih, List.mem_cons]
      constructor
      · rintro ⟨later, fresh⟩
        exact ⟨.inr later, fresh⟩
      · rintro ⟨rfl | later, fresh⟩
        · exact absurd repeated fresh
        · exact ⟨later, fresh⟩
    · rw [if_neg repeated, List.mem_cons, ih, List.mem_cons, List.mem_cons]
      by_cases first : a = x
      · subst first
        simp [repeated]
      · simp [first]

theorem firstOccurrences_concat (seen xs : List α) (a : α) : firstOccurrences seen (xs ++ [a]) =
    firstOccurrences seen xs ++ if a ∈ seen ∨ a ∈ xs then [] else [a] := by
  induction xs generalizing seen with
  | nil => by_cases known : a ∈ seen <;> simp [firstOccurrences, known]
  | cons x rest ih =>
    rw [List.cons_append, firstOccurrences, firstOccurrences]
    by_cases repeated : x ∈ seen
    · have same : a ∈ seen ∨ a ∈ x :: rest ↔ a ∈ seen ∨ a ∈ rest := by
        rw [List.mem_cons]
        constructor
        · rintro (known | rfl | later)
          · exact .inl known
          · exact .inl repeated
          · exact .inr later
        · exact Or.imp_right .inr
      rw [if_pos repeated, if_pos repeated, ih, if_congr same rfl rfl]
    · have same : a ∈ x :: seen ∨ a ∈ rest ↔ a ∈ seen ∨ a ∈ x :: rest := by
        rw [List.mem_cons, List.mem_cons, or_assoc, or_left_comm]
      rw [if_neg repeated, if_neg repeated, ih, if_congr same rfl rfl, List.cons_append]

theorem nodup_firstOccurrences (seen xs : List α) : (firstOccurrences seen xs).Nodup := by
  induction xs generalizing seen with
  | nil => exact .nil
  | cons x rest ih =>
    rw [firstOccurrences]
    split
    · exact ih seen
    · have fresh : x ∉ firstOccurrences (x :: seen) rest := by simp [mem_firstOccurrences]
      exact List.nodup_cons.mpr ⟨fresh, ih (x :: seen)⟩

end

namespace OrderedMap

variable {V : Type} {map : OrderedMap V} {key other : String} {value : V}

theorem contains_iff_mem_keys : map.contains key = true ↔ key ∈ map.keys := by
  simp [contains, keys]

theorem replace_keys (key : String) (value : V) (entries : List (String × V)) :
    (replace key value entries).map (·.1) = entries.map (·.1) := by
  induction entries with
  | nil => rfl
  | cons entry rest ih =>
    obtain ⟨name, held⟩ := entry
    rw [replace]
    split
    · rename_i same
      simp [same]
    · simp [ih]

theorem keys_upsert :
    (map.upsert key value).keys = if key ∈ map.keys then map.keys else map.keys ++ [key] := by
  rw [upsert]
  by_cases known : key ∈ map.keys
  · rw [if_pos (contains_iff_mem_keys.mpr known), if_pos known]
    exact replace_keys key value map.entries
  · rw [if_neg (mt contains_iff_mem_keys.mp known), if_neg known]
    simp [push, keys]

theorem find_replace (entries : List (String × V)) (known : key ∈ entries.map (·.1)) :
    ((replace key value entries).find? (·.1 == other)).map (·.2) =
      if other = key then some value else (entries.find? (·.1 == other)).map (·.2) := by
  induction entries with
  | nil => cases known
  | cons entry rest ih =>
    obtain ⟨name, held⟩ := entry
    by_cases same : name = key
    · subst same
      by_cases asked : other = name
      · simp [replace, asked]
      · simp [replace, asked, Ne.symm asked]
    · have later : key ∈ rest.map (·.1) := by simpa [Ne.symm same] using known
      by_cases asked : other = name
      · subst asked
        simp [replace, same]
      · simpa [replace, same, Ne.symm asked] using ih later

theorem get?_upsert :
    (map.upsert key value).get? other = if other = key then some value else map.get? other := by
  rw [upsert]
  by_cases known : key ∈ map.keys
  · rw [if_pos (contains_iff_mem_keys.mpr known)]
    exact find_replace map.entries known
  · rw [if_neg (mt contains_iff_mem_keys.mp known), get?, push, List.find?_append]
    by_cases asked : other = key
    · subst asked
      have absent : map.entries.find? (·.1 == other) = none := by
        rw [List.find?_eq_none]
        intro entry member same
        exact known (List.mem_map.mpr ⟨entry, member, by simpa using same⟩)
      simp [absent]
    · simp [get?, asked, Ne.symm asked]

def upsertAll (map : OrderedMap V) (pairs : List (String × V)) : OrderedMap V :=
  pairs.foldl (fun map pair => map.upsert pair.1 pair.2) map

theorem upsertAll_append (map : OrderedMap V) (pairs more : List (String × V)) :
    map.upsertAll (pairs ++ more) = (map.upsertAll pairs).upsertAll more :=
  List.foldl_append

theorem keys_upsertAll (map : OrderedMap V) (pairs : List (String × V)) :
    (map.upsertAll pairs).keys = map.keys ++ firstOccurrences map.keys (pairs.map (·.1)) := by
  induction pairs generalizing map with
  | nil => simp [upsertAll, firstOccurrences]
  | cons pair rest ih =>
    change ((map.upsert pair.1 pair.2).upsertAll rest).keys = _
    rw [ih, keys_upsert, List.map_cons, firstOccurrences]
    by_cases known : pair.1 ∈ map.keys
    · rw [if_pos known, if_pos known]
    · rw [if_neg known, if_neg known, List.append_assoc, List.singleton_append]
      congr 2
      exact firstOccurrences_congr (by simp [or_comm]) _

theorem get?_upsertAll (map : OrderedMap V) (pairs : List (String × V)) (key : String) :
    (map.upsertAll pairs).get? key =
      (((pairs.filter (·.1 == key)).getLast?).map (·.2)).or (map.get? key) := by
  induction pairs generalizing map with
  | nil => rfl
  | cons pair rest ih =>
    change ((map.upsert pair.1 pair.2).upsertAll rest).get? key = _
    rw [ih, get?_upsert]
    by_cases same : key = pair.1
    · cases later : (rest.filter (·.1 == key)).getLast? with
      | none => simp [List.getLast?_cons, ← same, later]
      | some last => simp [List.getLast?_cons, ← same, later]
    · simp [same, Ne.symm same]

end OrderedMap

end Colloquy
