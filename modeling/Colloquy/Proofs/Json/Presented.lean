import Colloquy.Json.Reader
import Colloquy.Proofs.Checks
import Colloquy.Proofs.Json.Parser

/-!
Values presented in another order. Readers of records look their fields up by name, so what they
read does not depend on the order in which the members are presented.
-/

namespace Colloquy

namespace Members

variable {members others : Members} {key : String}

theorem get?_perm (perm : members.Perm others) (distinct : (members.map (·.1)).Nodup) :
    members.get? key = others.get? key := by
  have distinctToo : (others.map (·.1)).Nodup := (perm.map _).nodup_iff.mp distinct
  ext value
  rw [get?_eq_some_iff distinct, get?_eq_some_iff distinctToo, perm.mem_iff]

theorem get?_map_value (f : Json → Json) :
    get? (members.map fun entry => (entry.1, f entry.2)) key = (members.get? key).map f := by
  induction members with
  | nil => rfl
  | cons entry rest ih =>
    rw [List.map_cons, get?_cons, get?_cons, ih]
    split <;> rfl

theorem get?_append : get? (members ++ others) key = (members.get? key).or (others.get? key) := by
  simp [get?, Option.map_or]

theorem get?_filter {known : List String} (listed : key ∈ known) :
    get? (members.filter fun entry => known.contains entry.1) key = members.get? key := by
  induction members with
  | nil => rfl
  | cons entry rest ih =>
    rw [List.filter_cons, get?_cons, ← ih]
    by_cases same : entry.1 = key
    · simp [same, listed, get?_cons]
    · split <;> simp [get?_cons, same]

def ofSlots (slots : List (String × Option Json)) : Members :=
  slots.filterMap fun slot => slot.2.map (slot.1, ·)

section

variable {slots : List (String × Option Json)} {slot : String × Option Json}

theorem ofSlots_cons :
    ofSlots (slot :: slots) = (slot.2.map (slot.1, ·)).toList ++ ofSlots slots :=
  filterMap_cons_toList _ slot slots

theorem ofSlots_keys : ((ofSlots slots).map (·.1)).Sublist (slots.map (·.1)) := by
  induction slots with
  | nil => exact .slnil
  | cons slot rest ih =>
    obtain ⟨key, held | value⟩ := slot
    · exact ih.cons key
    · exact ih.cons_cons key

theorem get?_ofSlots (distinct : (slots.map (·.1)).Nodup) (member : slot ∈ slots) :
    (ofSlots slots).get? slot.1 = slot.2 := by
  induction slots with
  | nil => cases member
  | cons first rest ih =>
    obtain ⟨fresh, distinct⟩ := List.nodup_cons.mp distinct
    rw [ofSlots_cons, get?_append]
    rcases List.mem_cons.mp member with rfl | later
    · have absent : (ofSlots rest).get? slot.1 = none := by
        refine get?_eq_none_iff.mpr fun entry held same => fresh ?_
        have listed := ofSlots_keys.subset (List.mem_map_of_mem held)
        rwa [same] at listed
      rw [absent]
      cases slot.2 with
      | none => exact congrArg (·.or none) get?_nil
      | some value => simp [get?_cons]
    · have apart : first.1 ≠ slot.1 := fun same => fresh (List.mem_map.mpr ⟨slot, later, same.symm⟩)
      rw [ih distinct later]
      cases first.2 <;> simp [get?_nil, get?_cons, apart]

end

theorem Increasing.sorted_eq (increasing : members.Increasing) : members.sorted = members :=
  sorted_increasing.ext increasing fun _ =>
    get?_perm (sorted_perm increasing.nodup) sorted_increasing.nodup

end Members

theorem Json.canonical_eq_of_canonical {value : Json} (canonical : value.Canonical) :
    value.canonical = value := by
  induction value using Json.induct with
  | null | bool | num | str => rfl
  | arr items ih =>
    rw [Json.canonical, canonicalItems_eq]
    have each := canonicalItems_iff.mp canonical
    congr 1
    exact (List.map_congr_left fun item member => ih item member (each item member)).trans
      (List.map_id' items)
  | obj members ih =>
    obtain ⟨increasing, inner⟩ := canonical
    have each := canonicalMembers_iff.mp inner
    have same : canonicalMembers members = members := by
      rw [canonicalMembers_eq]
      refine (List.map_congr_left fun entry member => ?_).trans (List.map_id' members)
      rw [ih entry member (each entry member)]
    rw [Json.canonical, same, increasing.sorted_eq]

/-- A way to present values that leaves everything but the order of members as it is. -/
structure Presents (lay : Json → Json) : Prop where
  null : lay .null = .null
  bool : ∀ flag, lay (.bool flag) = .bool flag
  num : ∀ n, lay (.num n) = .num n
  str : ∀ text, lay (.str text) = .str text
  arr : ∀ items, lay (.arr items) = .arr (items.map lay)
  obj : ∀ members, (members.map (·.1)).Nodup → ∃ others, lay (.obj members) = .obj others ∧
    others.Perm (members.map fun entry => (entry.1, lay entry.2))
  canonical : ∀ value, value.Canonical → lay value = value

theorem presents_id : Presents id where
  null := rfl
  bool _ := rfl
  num _ := rfl
  str _ := rfl
  arr items := by simp
  obj members _ := ⟨members, rfl, by simp⟩
  canonical _ _ := rfl

theorem presents_canonical : Presents Json.canonical where
  null := rfl
  bool _ := rfl
  num _ := rfl
  str _ := rfl
  arr items := by rw [Json.canonical, Json.canonicalItems_eq]
  obj members distinct := by
    refine ⟨_, rfl, ?_⟩
    rw [← Json.canonicalMembers_eq]
    apply Members.sorted_perm
    rw [Json.canonicalMembers_eq, List.map_map]
    exact distinct
  canonical _ := Json.canonical_eq_of_canonical

namespace Presents

variable {lay : Json → Json} (presents : Presents lay) {members others : Members}
  {wanted : String}
include presents

theorem single (key : String) (value : Json) :
    lay (.obj [(key, value)]) = .obj [(key, lay value)] := by
  obtain ⟨others, laid, perm⟩ := presents.obj [(key, value)] (by simp)
  rw [laid, List.perm_singleton.mp perm]

omit presents in
theorem record_of_perm (fields : List String) (wanted : String)
    (distinct : (members.map (·.1)).Nodup)
    (perm : others.Perm (members.map fun entry => (entry.1, lay entry.2))) :
    ∃ written, Read.record fields wanted (.obj others) = .ok written ∧
      written.arrangement = .named ∧
      ∀ field ∈ fields, written.get? field = (members.get? field).map lay := by
  have distinctToo : (others.map (·.1)).Nodup := by
    rw [(perm.map _).nodup_iff, List.map_map]
    exact distinct
  have known : ((others.filter fun entry => fields.contains entry.1).map (·.1)).Nodup :=
    distinctToo.sublist (List.filter_sublist.map _)
  refine ⟨⟨others.filter fun entry => fields.contains entry.1, .named⟩, ?_, rfl, ?_⟩
  · have once := firstRepeated_eq_none_iff.mpr ⟨known, fun _ _ => List.not_mem_nil⟩
    simp only [Read.record, once]
  · intro field listed
    rw [Written.get?, Members.get?_filter listed, Members.get?_perm perm distinctToo,
      Members.get?_map_value]

theorem record (fields : List String) (wanted : String) (slots : List (String × Option Json))
    (listed : slots.map (·.1) = fields) (distinct : fields.Nodup) :
    ∃ written, Read.record fields wanted (lay (.obj (Members.ofSlots slots))) = .ok written ∧
      written.arrangement = .named ∧
      ∀ slot ∈ slots, written.get? slot.1 = slot.2.map lay := by
  have keys : (slots.map (·.1)).Nodup := listed ▸ distinct
  have distinctToo := Members.ofSlots_keys.nodup keys
  obtain ⟨others, laid, perm⟩ := presents.obj (Members.ofSlots slots) distinctToo
  obtain ⟨written, read, named, held⟩ := record_of_perm fields wanted distinctToo perm
  refine ⟨written, laid ▸ read, named, fun slot member => ?_⟩
  rw [held slot.1 (listed ▸ List.mem_map_of_mem member), Members.get?_ofSlots keys member]

theorem tagged (tag wanted word : String) (members : Members)
    (distinct : (((tag, .str word) :: members).map (·.1)).Nodup) :
    ∃ others, Read.tagged tag wanted (lay (.obj ((tag, .str word) :: members))) =
        .ok (word, .obj others) ∧
      others.Perm (members.map fun entry => (entry.1, lay entry.2)) := by
  obtain ⟨others, laid, perm⟩ := presents.obj _ distinct
  rw [List.map_cons, presents.str] at perm
  have fresh : ∀ entry ∈ members, entry.1 ≠ tag := by
    intro entry member same
    exact (List.nodup_cons.mp distinct).1 (List.mem_map.mpr ⟨entry, member, same⟩)
  have apart : ∀ entry ∈ members.map fun entry => (entry.1, lay entry.2), entry.1 ≠ tag :=
    List.forall_mem_map.mpr fresh
  generalize members.map (fun entry => (entry.1, lay entry.2)) = rest at perm apart ⊢
  have none : rest.filter (·.1 == tag) = [] :=
    List.filter_eq_nil_iff.mpr fun entry member => by simpa using apart entry member
  have all : rest.filter (·.1 != tag) = rest :=
    List.filter_eq_self.mpr fun entry member => by simpa using apart entry member
  have one : others.filter (·.1 == tag) = [(tag, .str word)] := by
    have among := perm.filter (·.1 == tag)
    rwa [List.filter_cons_of_pos (by simp), none, List.perm_singleton] at among
  have left := perm.filter (·.1 != tag)
  rw [List.filter_cons_of_neg (by simp), all] at left
  refine ⟨_, ?_, left⟩
  simp only [laid, Read.tagged, one]

theorem text (text : String) : Read.text (lay (.str text)) = .ok text := by
  rw [presents.str]
  rfl

theorem natural (n : Nat) : Read.natural wanted (lay (.ofNat n)) = .ok n := by
  rw [Json.ofNat, presents.num]
  simp [Read.natural]

theorem optional_text (text : Option String) :
    Read.optional Read.text (lay (.ofText? text)) = .ok text := by
  cases text with
  | none => rw [Json.ofText?, presents.null]; rfl
  | some text => rw [Json.ofText?, presents.str]; rfl

theorem list {α : Type} {read : Json → Read α} {write : α → Json} {xs : List α}
    (each : ∀ x ∈ xs, read (lay (write x)) = .ok x) :
    Read.list read wanted (lay (.arr (xs.map write))) = .ok xs := by
  rw [presents.arr, List.map_map, Read.list, mapM_ok_iff, List.forall₂_map_left_iff]
  exact List.forall₂_same.mpr each

end Presents

end Colloquy
