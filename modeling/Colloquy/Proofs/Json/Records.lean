import Colloquy.Json.Reader
import Colloquy.Proofs.Checks
import Colloquy.Proofs.Json.Members
import Colloquy.Proofs.OrderedMap

/-!
What readers of maps and of records accept. A map has distinct keys, and its entries are told by its
members in order. A record is told by what stands under its keys, each of which is there once, and
not by the order of its members.
-/

namespace Colloquy

def Json.children : Json → List Json
  | arr items => items
  | obj members => members.map (·.2)
  | _ => []

@[elab_as_elim]
theorem Json.inductChildren {motive : Json → Prop}
    (step : ∀ json, (∀ child ∈ json.children, motive child) → motive json) (json : Json) :
    motive json := by
  induction json using Json.induct with
  | null | bool | num | str => exact step _ (by simp [children])
  | arr items each => exact step _ each
  | obj members each => exact step _ (List.forall_mem_map.mpr each)

/-! ### Maps -/

namespace Read

variable {α : Type} {read : Json → Read α} {members : Members} {earlier map : OrderedMap α}

theorem entries_ok_iff : entries read earlier members = .ok map ↔
    (members.map (·.1)).Nodup ∧ (∀ member ∈ members, member.1 ∉ earlier.keys) ∧
      ∃ later, map.entries = earlier.entries ++ later ∧
        List.Forall₂ (fun member entry => entry.1 = member.1 ∧ read member.2 = .ok entry.2)
          members later := by
  induction members generalizing earlier with
  | nil =>
    obtain ⟨entries⟩ := map
    obtain ⟨held⟩ := earlier
    simp [Read.entries, eq_comm]
  | cons member rest ih =>
    obtain ⟨key, json⟩ := member
    have fresh : earlier.contains key = false ↔ key ∉ earlier.keys := by
      rw [← Bool.not_eq_true, OrderedMap.contains_iff_mem_keys]
    rw [Read.entries, bind_ok_iff]
    simp only [refuse_ok_iff, ih, fresh, List.map_cons, List.nodup_cons, List.forall_mem_cons,
      List.forall₂_cons_left_iff]
    have pushed : ∀ value : α, (earlier.push key value).keys = earlier.keys ++ [key] := by
      simp [OrderedMap.push, OrderedMap.keys]
    constructor
    · rintro ⟨value, held, new, distinct, unseen, later, split, rows⟩
      have apart : ∀ member ∈ rest, member.1 ∉ earlier.keys ∧ member.1 ≠ key := by
        simpa [pushed, not_or] using unseen
      refine ⟨⟨fun again => ?_, distinct⟩, ⟨new, fun member there => (apart member there).1⟩,
        (key, value) :: later, by simpa [OrderedMap.push] using split, (key, value), later,
        ⟨rfl, held⟩, rows, rfl⟩
      obtain ⟨member, there, same⟩ := List.mem_map.mp again
      exact (apart member there).2 same
    · rintro ⟨⟨once, distinct⟩, ⟨new, unseen⟩, _, split, ⟨_, value⟩, later, ⟨rfl, held⟩, rows, rfl⟩
      refine ⟨value, held, new, distinct, fun member there => ?_, later,
        by simpa [OrderedMap.push] using split, rows⟩
      rw [pushed, List.mem_append, List.mem_singleton, not_or]
      exact ⟨unseen member there, fun same => once (List.mem_map.mpr ⟨member, there, same⟩)⟩

theorem orderedMap_ok_iff {json : Json} : orderedMap read json = .ok map ↔
    ∃ members, json = .obj members ∧ (members.map (·.1)).Nodup ∧
      List.Forall₂ (fun member entry => entry.1 = member.1 ∧ read member.2 = .ok entry.2)
        members map.entries := by
  cases json with
  | obj members =>
    rw [orderedMap, entries_ok_iff]
    simp [OrderedMap.empty, OrderedMap.keys]
  | null | bool | num | str | arr => simp [orderedMap]

theorem text_ok_iff {json : Json} {s : String} : text json = .ok s ↔ json = .str s := by
  cases json <;> simp [text]

theorem members_of_texts {members : Members} {entries : List (String × String)}
    (rows : List.Forall₂ (fun member entry => entry.1 = member.1 ∧ text member.2 = .ok entry.2)
      members entries) : members = entries.map fun entry => (entry.1, .str entry.2) := by
  induction rows with
  | nil => rfl
  | cons head _ ih => rw [List.map_cons, ← ih, head.1, ← text_ok_iff.mp head.2]

end Read

/-! ### Records -/

namespace Read

theorem fill_ok_iff {α Draft : Type} {slot : Option α} {field : String} {read : Read α}
    {fill : Option α → Draft} {next : Draft} :
    (once slot field read >>= fun held => pure (fill held)) = .ok next ↔
      slot = none ∧ ∃ held, read = .ok held ∧ next = fill (some held) := by
  cases slot with
  | none => cases read <;> simp [Read.once, bind, Except.bind, pure, Except.pure, eq_comm]
  | some held => simp [Read.once, bind, Except.bind]

theorem optional_eq {α : Type} (read : Json → Read α) (value : Json) :
    optional read value = if value.isNull then .ok none else some <$> read value := by
  cases value <;> rfl

theorem optional_ok_iff {α : Type} {read : Json → Read α} {json : Json} {held : Option α} :
    optional read json = .ok held ↔ json = .null ∧ held = none ∨
      json ≠ .null ∧ ∃ value, read json = .ok value ∧ held = some value := by
  cases json with
  | null => simp [optional, eq_comm]
  | bool | num | str | arr | obj =>
    rw [optional]
    · cases read _ <;> simp [eq_comm]
    · exact nofun

theorem eq_of_optional {α : Type} {read : Json → Read α} {json : Json} {value : α}
    (accepted : optional read json = .ok (some value)) : read json = .ok value := by
  obtain ⟨-, ⟨⟩⟩ | ⟨-, _, read, ⟨⟩⟩ := optional_ok_iff.mp accepted
  exact read

end Read

namespace RecordReader

variable {Key Draft : Type} {reader : RecordReader Key Draft}

inductive Keyed (reader : RecordReader Key Draft) : Json → List (Key × Json) → Prop
  | obj {members : Members} {keyed : List (Key × Json)}
      (entries : List.Forall₂ (fun member slot => reader.keyOf? member.1 = some slot.1 ∧
        slot.2 = member.2) members keyed) : Keyed reader (.obj members) keyed
  | arr {items : List Json} (short : items.length ≤ reader.positions.length) :
      Keyed reader (.arr items) (reader.positions.zip items)

inductive Holds (reader : RecordReader Key Draft) : Json → Key → Json → Prop
  | obj {members : Members} {member : String × Json} {key : Key} (there : member ∈ members)
      (known : reader.keyOf? member.1 = some key) : Holds reader (.obj members) key member.2
  | arr {items : List Json} {key : Key} {value : Json}
      (there : (key, value) ∈ reader.positions.zip items) : Holds reader (.arr items) key value

theorem Holds.mem_children {json value : Json} {key : Key} (holds : reader.Holds json key value) :
    value ∈ json.children := by
  cases holds with
  | obj there => exact List.mem_map_of_mem there
  | arr there => exact (List.of_mem_zip there).2

theorem Keyed.mem_iff {json value : Json} {key : Key} {keyed : List (Key × Json)}
    (shown : reader.Keyed json keyed) : (key, value) ∈ keyed ↔ reader.Holds json key value := by
  constructor
  · intro there
    cases shown with
    | obj entries =>
      obtain ⟨member, among, known, rfl⟩ := forall₂_left_of_mem entries there
      exact .obj among known
    | arr => exact .arr there
  · intro holds
    cases shown with
    | obj entries =>
      cases holds with
      | obj among known =>
        obtain ⟨⟨other, _⟩, there, named, rfl⟩ := forall₂_right_of_mem entries among
        obtain rfl := Option.some.inj (named.symm.trans known)
        exact there
    | arr =>
      cases holds with
      | arr there => exact there

def putAll (reader : RecordReader Key Draft) (draft : Draft) (keyed : List (Key × Json)) :
    Read Draft :=
  keyed.foldlM (fun draft slot => reader.put draft slot.1 slot.2) draft

theorem readMembers_ok_iff (closed : reader.closed.isSome = true) {members : Members}
    {draft next : Draft} : reader.readMembers draft members = .ok next ↔
      ∃ keyed, reader.Keyed (.obj members) keyed ∧ reader.putAll draft keyed = .ok next := by
  induction members generalizing draft with
  | nil =>
    constructor
    · rintro ⟨⟩
      exact ⟨[], .obj .nil, rfl⟩
    · rintro ⟨_, ⟨⟨⟩⟩, ⟨⟩⟩
      rfl
  | cons member rest ih =>
    obtain ⟨name, value⟩ := member
    obtain ⟨spellings, only⟩ := Option.isSome_iff_exists.mp closed
    rw [readMembers, only]
    constructor
    · intro accepted
      cases known : reader.keyOf? name with
      | none => simp [known] at accepted
      | some key =>
        simp only [known] at accepted
        obtain ⟨mid, put, accepted⟩ := bind_ok_iff.mp accepted
        obtain ⟨keyed, ⟨entries⟩, others⟩ := ih.mp accepted
        exact ⟨(key, value) :: keyed, .obj (.cons ⟨known, rfl⟩ entries),
          bind_ok_iff.mpr ⟨mid, put, others⟩⟩
    · rintro ⟨_, ⟨entries⟩, puts⟩
      obtain ⟨⟨key, _⟩, keyed, ⟨known, rfl⟩, later, rfl⟩ := List.forall₂_cons_left_iff.mp entries
      obtain ⟨mid, put, others⟩ := bind_ok_iff.mp puts
      simp only [known]
      exact bind_ok_iff.mpr ⟨mid, put, ih.mpr ⟨keyed, .obj later, others⟩⟩

theorem readElements_eq {keys : List Key} {items : List Json} {draft : Draft} :
    reader.readElements draft keys items = reader.putAll draft (keys.zip items) := by
  induction items generalizing keys draft with
  | nil => cases keys <;> rfl
  | cons value rest ih =>
    cases keys with
    | nil => rfl
    | cons key keys =>
      rw [readElements, List.zip_cons_cons, putAll, List.foldlM_cons]
      simp only [ih]
      rfl

def Reads (reader : RecordReader Key Draft) (blank : Draft) (json : Json) (draft : Draft) : Prop :=
  ∃ arrangement, reader.read blank json = .ok (draft, arrangement) ∧
    arrangement.checkEnd reader.positions.length = .ok ()

theorem reads_iff_putAll (closed : reader.closed.isSome = true) {blank draft : Draft}
    {json : Json} : reader.Reads blank json draft ↔
      ∃ keyed, reader.Keyed json keyed ∧ reader.putAll blank keyed = .ok draft := by
  constructor
  · rintro ⟨arrangement, accepted, ends⟩
    cases json with
    | obj members =>
      obtain ⟨next, read, ⟨⟩⟩ := bind_ok_iff.mp accepted
      exact (readMembers_ok_iff closed).mp read
    | arr items =>
      obtain ⟨next, read, ⟨⟩⟩ := bind_ok_iff.mp accepted
      rw [readElements_eq] at read
      refine ⟨_, .arr ?_, read⟩
      by_contra long
      rw [Arrangement.checkEnd, if_pos (by omega)] at ends
      cases ends
    | null | bool | num | str => cases accepted
  · rintro ⟨keyed, shown, puts⟩
    cases shown with
    | obj entries =>
      have read := (readMembers_ok_iff closed).mpr ⟨keyed, .obj entries, puts⟩
      exact ⟨.named, bind_ok_iff.mpr ⟨draft, read, rfl⟩, rfl⟩
    | arr short =>
      rw [← readElements_eq] at puts
      refine ⟨.positional _, bind_ok_iff.mpr ⟨draft, puts, rfl⟩, ?_⟩
      exact if_neg (by omega)

/-- A closed reader as a table of slots, each of which is filled once, from what stands under its
key alone. -/
structure Slots (reader : RecordReader Key Draft) where
  closed : reader.closed.isSome = true
  blank : Draft
  Value : Key → Type
  content : (key : Key) → Json → Read (Value key)
  get : Draft → (key : Key) → Option (Value key)
  set : Draft → (key : Key) → Value key → Draft
  put_ok_iff : ∀ {draft key value next}, reader.put draft key value = .ok next ↔
    get draft key = none ∧ ∃ held, content key value = .ok held ∧ next = set draft key held
  get_blank : ∀ key, get blank key = none
  get_set : ∀ draft key held, get (set draft key held) key = some held
  get_set_of_ne : ∀ draft key held other, other ≠ key →
    get (set draft key held) other = get draft other
  ext : ∀ draft next, (∀ key, get draft key = get next key) → draft = next

namespace Slots

variable (slots : reader.Slots) {draft next : Draft} {keyed : List (Key × Json)}

structure Tells (keyed : List (Key × Json)) (draft : Draft) : Prop where
  once : (keyed.map (·.1)).Nodup
  held : ∀ slot ∈ keyed, ∃ held,
    slots.content slot.1 slot.2 = .ok held ∧ slots.get draft slot.1 = some held
  absent : ∀ key, key ∉ keyed.map (·.1) → slots.get draft key = none

theorem putAll_ok_iff : reader.putAll draft keyed = .ok next ↔ (keyed.map (·.1)).Nodup ∧
    (∀ slot ∈ keyed, slots.get draft slot.1 = none ∧ ∃ held,
      slots.content slot.1 slot.2 = .ok held ∧ slots.get next slot.1 = some held) ∧
    ∀ key, key ∉ keyed.map (·.1) → slots.get next key = slots.get draft key := by
  induction keyed generalizing draft with
  | nil =>
    constructor
    · rintro ⟨⟩
      simp
    · rintro ⟨-, -, same⟩
      exact congrArg _ (slots.ext _ _ fun key => (same key List.not_mem_nil).symm)
  | cons slot rest ih =>
    obtain ⟨key, value⟩ := slot
    rw [putAll, List.foldlM_cons, bind_ok_iff]
    rw [List.map_cons, List.nodup_cons, List.forall_mem_cons]
    constructor
    · rintro ⟨_, put, others⟩
      obtain ⟨empty, held, read, rfl⟩ := slots.put_ok_iff.mp put
      obtain ⟨distinct, filled, same⟩ := ih.mp others
      have apart : ∀ slot ∈ rest, slot.1 ≠ key := by
        intro slot member again
        have taken := (filled slot member).1
        rw [again, slots.get_set] at taken
        cases taken
      have once : key ∉ rest.map (·.1) := by
        intro member
        obtain ⟨slot, there, again⟩ := List.mem_map.mp member
        exact apart slot there again
      refine ⟨⟨once, distinct⟩, ⟨⟨empty, held, read, ?_⟩, fun slot member => ?_⟩, ?_⟩
      · rw [same key once, slots.get_set]
      · have known := filled slot member
        rwa [slots.get_set_of_ne _ _ _ _ (apart slot member)] at known
      · intro other unknown
        obtain ⟨ne, later⟩ := List.ne_and_not_mem_of_not_mem_cons unknown
        rw [same other later, slots.get_set_of_ne _ _ _ _ ne]
    · rintro ⟨⟨once, distinct⟩, ⟨⟨empty, held, read, filled⟩, others⟩, same⟩
      refine ⟨slots.set draft key held, slots.put_ok_iff.mpr ⟨empty, held, read, rfl⟩,
        ih.mpr ⟨distinct, fun slot member => ?_, fun other later => ?_⟩⟩
      · have apart : slot.1 ≠ key := by
          rintro again
          exact once (List.mem_map.mpr ⟨slot, member, again⟩)
        rw [slots.get_set_of_ne _ _ _ _ apart]
        exact others slot member
      · by_cases again : other = key
        · rw [again, filled, slots.get_set]
        · rw [slots.get_set_of_ne _ _ _ _ again]
          exact same other (List.not_mem_cons_of_ne_of_not_mem again later)

theorem tells_iff : reader.putAll slots.blank keyed = .ok draft ↔ slots.Tells keyed draft := by
  rw [slots.putAll_ok_iff]
  simp only [slots.get_blank, true_and]
  exact ⟨fun ⟨once, held, absent⟩ => ⟨once, held, absent⟩,
    fun tells => ⟨tells.once, tells.held, tells.absent⟩⟩

theorem reads_iff {json : Json} : reader.Reads slots.blank json draft ↔
    ∃ keyed, reader.Keyed json keyed ∧ slots.Tells keyed draft := by
  rw [reads_iff_putAll slots.closed]
  simp only [slots.tells_iff]

def Alike (key : Key) (a b : Json) : Prop :=
  ∀ held, slots.content key a = .ok held → slots.content key b = .ok held

variable {slots}

theorem Tells.alike {shuffled others : List (Key × Json)} (tells : slots.Tells keyed draft)
    (perm : keyed.Perm shuffled)
    (alike : List.Forall₂ (fun a b => b.1 = a.1 ∧ slots.Alike a.1 a.2 b.2) shuffled others) :
    slots.Tells others draft := by
  have keys : others.map (·.1) = shuffled.map (·.1) :=
    forall₂_map_eq _ _ alike fun _ _ related => related.1
  have names : (keyed.map (·.1)).Perm (others.map (·.1)) := keys ▸ perm.map _
  refine ⟨names.nodup_iff.mp tells.once, ?_, fun key unknown => ?_⟩
  · rintro ⟨key, value⟩ member
    obtain ⟨⟨_, source⟩, among, rfl, same⟩ := forall₂_left_of_mem alike member
    obtain ⟨held, read, filled⟩ := tells.held _ (perm.mem_iff.mpr among)
    exact ⟨held, same held read, filled⟩
  · exact tells.absent key fun known => unknown (names.mem_iff.mp known)

theorem Keyed.alike {members others : Members} {keyed : List (Key × Json)}
    (entries : List.Forall₂ (fun member slot => reader.keyOf? member.1 = some slot.1 ∧
      slot.2 = member.2) members keyed)
    (pairs : List.Forall₂ (fun a b => reader.keyOf? b.1 = reader.keyOf? a.1 ∧
      ∀ key, reader.keyOf? a.1 = some key → slots.Alike key a.2 b.2) members others) :
    ∃ slotted, reader.Keyed (.obj others) slotted ∧
      List.Forall₂ (fun a b => b.1 = a.1 ∧ slots.Alike a.1 a.2 b.2) keyed slotted := by
  induction pairs generalizing keyed with
  | nil =>
    cases entries
    exact ⟨[], .obj .nil, .nil⟩
  | @cons a b members others head tail ih =>
    obtain ⟨⟨key, _⟩, rest, ⟨known, rfl⟩, later, rfl⟩ := List.forall₂_cons_left_iff.mp entries
    obtain ⟨slotted, ⟨shown⟩, alike⟩ := ih later
    exact ⟨(key, b.2) :: slotted, .obj (.cons ⟨head.1.trans known, rfl⟩ shown),
      .cons ⟨rfl, head.2 key known⟩ alike⟩

/-- A record is read the same in any order of its members and under any spelling of their keys. -/
theorem reads_obj_alike {members shuffled others : Members}
    (reads : reader.Reads slots.blank (.obj members) draft) (perm : members.Perm shuffled)
    (pairs : List.Forall₂ (fun a b => reader.keyOf? b.1 = reader.keyOf? a.1 ∧
      ∀ key, reader.keyOf? a.1 = some key → slots.Alike key a.2 b.2) shuffled others) :
    reader.Reads slots.blank (.obj others) draft := by
  obtain ⟨keyed, ⟨entries⟩, tells⟩ := slots.reads_iff.mp reads
  obtain ⟨middle, shown, moved⟩ := List.perm_comp_forall₂ perm.symm entries
  obtain ⟨slotted, named, alike⟩ := Keyed.alike shown pairs
  exact slots.reads_iff.mpr ⟨slotted, named, tells.alike moved.symm alike⟩

theorem zip_alike {keys : List Key} {items others : List Json}
    (pairs : List.Forall₂ (fun slot b => slots.Alike slot.1 slot.2 b) (keys.zip items) others) :
    List.Forall₂ (fun a b => b.1 = a.1 ∧ slots.Alike a.1 a.2 b.2) (keys.zip items)
      (keys.zip others) := by
  induction items generalizing keys others with
  | nil =>
    rw [List.zip_nil_right] at pairs ⊢
    cases pairs
    simp
  | cons value rest ih =>
    cases keys with
    | nil => exact .nil
    | cons key keys =>
      obtain ⟨b, later, head, tail, rfl⟩ := List.forall₂_cons_left_iff.mp pairs
      exact .cons ⟨rfl, head⟩ (ih tail)

theorem reads_arr_alike {items others : List Json}
    (reads : reader.Reads slots.blank (.arr items) draft)
    (pairs : List.Forall₂ (fun slot b => slots.Alike slot.1 slot.2 b)
      (reader.positions.zip items) others) :
    reader.Reads slots.blank (.arr others) draft := by
  obtain ⟨_, ⟨⟩, tells⟩ := slots.reads_iff.mp reads
  rename_i short
  have length := pairs.length_eq
  rw [List.length_zip] at length
  exact slots.reads_iff.mpr ⟨_, .arr (by omega), tells.alike (.refl _) (zip_alike pairs)⟩

theorem keys_distinct {members : Members}
    (reads : reader.Reads slots.blank (.obj members) draft) :
    members.Pairwise fun a b => reader.keyOf? a.1 ≠ reader.keyOf? b.1 := by
  obtain ⟨keyed, ⟨entries⟩, tells⟩ := slots.reads_iff.mp reads
  have names : keyed.map (some ·.1) = members.map (reader.keyOf? ·.1) :=
    forall₂_map_eq _ _ entries fun _ _ related => related.1.symm
  have once := tells.once.map (f := some) fun _ _ => Option.some.inj
  rw [List.map_map] at once
  exact List.pairwise_map.mp (names ▸ once)

theorem content_of_holds {json value : Json} {key : Key}
    (reads : reader.Reads slots.blank json draft) (holds : reader.Holds json key value) :
    ∃ held, slots.content key value = .ok held ∧ slots.get draft key = some held := by
  obtain ⟨keyed, shown, tells⟩ := slots.reads_iff.mp reads
  exact tells.held _ (shown.mem_iff.mpr holds)

theorem holds_of_get {json : Json} (key : Key) {held : slots.Value key}
    (reads : reader.Reads slots.blank json draft) (filled : slots.get draft key = some held) :
    ∃ value, reader.Holds json key value ∧ slots.content key value = .ok held := by
  obtain ⟨keyed, shown, tells⟩ := slots.reads_iff.mp reads
  have known : key ∈ keyed.map (·.1) := by
    by_contra unknown
    cases filled.symm.trans (tells.absent key unknown)
  obtain ⟨⟨_, value⟩, there, rfl⟩ := List.mem_map.mp known
  obtain ⟨other, read, same⟩ := tells.held _ there
  obtain rfl := Option.some.inj (same.symm.trans filled)
  exact ⟨value, shown.mem_iff.mp there, read⟩

end Slots

end RecordReader

end Colloquy
