import Colloquy.Json.Basic
import Mathlib.Data.List.Nodup
import Mathlib.Data.List.Perm.Basic

/-!
Members of objects: what a key holds, and members in the order of their keys, which are determined
by what each key holds.
-/

namespace Colloquy

namespace Members

variable {members others : Members} {key other : String} {value held : Json}

theorem get?_nil : get? [] key = none := rfl

theorem get?_cons {entry : String × Json} :
    get? (entry :: members) key = if entry.1 = key then some entry.2 else get? members key := by
  by_cases same : entry.1 = key <;> simp [get?, same]

theorem mem_of_get? (found : members.get? key = some value) : (key, value) ∈ members := by
  obtain ⟨⟨name, held⟩, first, rfl⟩ := Option.map_eq_some_iff.mp found
  have same : name = key := by simpa using List.find?_some first
  exact same ▸ List.mem_of_find?_eq_some first

theorem get?_eq_none_iff : members.get? key = none ↔ ∀ entry ∈ members, entry.1 ≠ key := by
  simp [get?]

theorem get?_eq_some_iff (distinct : (members.map (·.1)).Nodup) :
    members.get? key = some value ↔ (key, value) ∈ members := by
  refine ⟨mem_of_get?, fun member => ?_⟩
  induction members with
  | nil => cases member
  | cons entry rest ih =>
    obtain ⟨fresh, distinct⟩ := List.nodup_cons.mp distinct
    rw [get?_cons]
    rcases List.mem_cons.mp member with rfl | later
    · simp
    · have apart : entry.1 ≠ key := by
        rintro rfl
        exact fresh (List.mem_map.mpr ⟨_, later, rfl⟩)
      rw [if_neg apart]
      exact ih distinct later

/-! ### Sorting -/

theorem get?_set_of_ne (apart : key ≠ other) : (set key value members).get? other =
    members.get? other := by
  induction members with
  | nil => simp [set, get?_cons, apart]
  | cons entry rest ih =>
    obtain ⟨name, held⟩ := entry
    rw [set]
    split
    · simp [get?_cons, apart]
    · split
      · rename_i same
        simp [get?_cons, same ▸ apart, apart]
      · simp [get?_cons, ih]

theorem set_perm (fresh : key ∉ members.map (·.1)) :
    (set key value members).Perm ((key, value) :: members) := by
  induction members with
  | nil => exact .refl _
  | cons entry rest ih =>
    obtain ⟨name, held⟩ := entry
    simp only [List.map_cons, List.mem_cons, not_or] at fresh
    rw [set, if_neg fresh.1]
    split
    · exact .refl _
    · exact ((ih fresh.2).cons _).trans (.swap _ _ _)

theorem foldl_set_perm (members others : Members)
    (distinct : ((members ++ others).map (·.1)).Nodup) :
    (others.foldl (fun held (key, value) => set key value held) members).Perm
      (members ++ others) := by
  induction others generalizing members with
  | nil => simp
  | cons entry rest ih =>
    obtain ⟨key, value⟩ := entry
    have fresh : key ∉ members.map (·.1) := by
      rw [List.map_append, List.nodup_append] at distinct
      exact fun member => distinct.2.2 key member key List.mem_cons_self rfl
    have moved : (set key value members ++ rest).Perm (members ++ (key, value) :: rest) :=
      ((set_perm fresh).append_right rest).trans List.perm_middle.symm
    exact (ih _ ((moved.map _).nodup_iff.mpr distinct)).trans moved

theorem sorted_perm (distinct : (members.map (·.1)).Nodup) : members.sorted.Perm members :=
  foldl_set_perm [] members distinct

/-! ### Increasing keys -/

theorem Increasing.nodup (increasing : members.Increasing) : (members.map (·.1)).Nodup := by
  refine List.Pairwise.imp ?_ increasing
  rintro a _ less rfl
  exact String.lt_irrefl a less

theorem Increasing.ext (increasing : members.Increasing) (increasingToo : others.Increasing)
    (same : ∀ key, members.get? key = others.get? key) : members = others := by
  have mem : ∀ entry, entry ∈ members ↔ entry ∈ others := fun (key, value) => by
    rw [← get?_eq_some_iff increasing.nodup, ← get?_eq_some_iff increasingToo.nodup, same]
  have perm := (List.perm_ext_iff_of_nodup (.of_map _ increasing.nodup)
    (.of_map _ increasingToo.nodup)).mpr mem
  refine perm.eq_of_pairwise (fun a b _ _ less greater => ?_)
    (List.pairwise_map.mp increasing) (List.pairwise_map.mp increasingToo)
  exact absurd greater (String.lt_asymm less)

end Members

@[elab_as_elim]
theorem Json.induct {motive : Json → Prop} (null : motive .null)
    (bool : ∀ flag, motive (.bool flag)) (num : ∀ n, motive (.num n))
    (str : ∀ text, motive (.str text))
    (arr : ∀ items, (∀ item ∈ items, motive item) → motive (.arr items))
    (obj : ∀ members, (∀ entry ∈ members, motive entry.2) → motive (.obj members))
    (value : Json) : motive value :=
  @Json.rec motive (fun items => ∀ item ∈ items, motive item)
    (fun members => ∀ entry ∈ members, motive entry.2) (fun entry => motive entry.2)
    null bool num str arr obj (fun _ none => absurd none List.not_mem_nil)
    (fun _ _ first rest => List.forall_mem_cons.mpr ⟨first, rest⟩)
    (fun _ none => absurd none List.not_mem_nil)
    (fun _ _ first rest => List.forall_mem_cons.mpr ⟨first, rest⟩) (fun _ _ held => held) value

theorem Json.canonicalItems_iff {items : List Json} :
    CanonicalItems items ↔ ∀ item ∈ items, item.Canonical := by
  induction items with
  | nil => simp [CanonicalItems]
  | cons item rest ih => simp [CanonicalItems, ih]

theorem Json.canonicalMembers_iff {members : Members} :
    CanonicalMembers members ↔ ∀ entry ∈ members, entry.2.Canonical := by
  induction members with
  | nil => simp [CanonicalMembers]
  | cons entry rest ih => simp [CanonicalMembers, ih]

end Colloquy
