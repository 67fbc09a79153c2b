import Colloquy.Proofs.Flowchart.Rearranged

/-!
Flowcharts as documents: what their order means, and what may not be written twice.
-/

namespace Colloquy

/-- Somewhere in the document a key is there twice. -/
inductive Repeats : DocumentPart → Json → Prop
  | key {part : DocumentPart} {members : Members} {a b : String × Json}
      (twice : [a, b].Sublist members) (same : part.SameKey a.1 b.1) : Repeats part (.obj members)
  | member {part : DocumentPart} {members : Members} {member : String × Json}
      (there : member ∈ members) (inner : Repeats (part.inside member.1) member.2) :
      Repeats part (.obj members)
  | place {part : DocumentPart} {items : List Json} {slot : DocumentPart × Json}
      (there : slot ∈ part.places.zip items) (inner : Repeats slot.1 slot.2) :
      Repeats part (.arr items)

def DocumentPart.Readable (part : DocumentPart) (json : Json) : Prop :=
  json = .null ∨ ∃ value, part.read json = .ok value

namespace DocumentPart.Readable

variable {json : Json}

theorem of_optional {α : Type} {read : Json → Read α} {held : Option α}
    (accepted : Read.optional read json = .ok held) :
    json = .null ∨ ∃ value, read json = .ok value :=
  (Read.optional_ok_iff.mp accepted).imp And.left fun ⟨_, value, read, _⟩ => ⟨value, read⟩

theorem nodeKey {key : NodeKey} {held : NodeDraft.Held key}
    (accepted : NodeDraft.slots.content key json = .ok held) : (ofNodeKey key).Readable json := by
  cases key with
  | text | temperature | iterator | collection | loopStart => exact .inr ⟨json, rfl⟩
  | connections => exact .inr ⟨held, accepted⟩
  | schema | kind => exact of_optional accepted

theorem schemaKey {key : SchemaDocument.Key} {held : SchemaDocument.Held key}
    (accepted : SchemaDocument.slots.content key json = .ok held) :
    (ofSchemaKey key).Readable json := by
  cases key with
  | name => exact .inr ⟨json, rfl⟩
  | fields => exact .inr ⟨held, accepted⟩

theorem fieldKey {key : FieldKey} {held : FieldDocument.Held key}
    (accepted : FieldDocument.slots.content key json = .ok held) :
    (ofFieldKey key).Readable json := by
  cases key with
  | type | description | required | name => exact .inr ⟨json, rfl⟩
  | items | fields => exact of_optional accepted

end DocumentPart.Readable

section

variable {Key Draft : Type} {reader : RecordReader Key Draft} {slots : reader.Slots}
  {ofKey : Key → DocumentPart} {draft : Draft}
  (readable : ∀ {key : Key} {json : Json} {held : slots.Value key},
    slots.content key json = .ok held → (ofKey key).Readable json)
include readable

theorem RecordReader.Slots.readable_of_mem {members : Members} {member : String × Json}
    (reads : reader.Reads slots.blank (.obj members) draft) (there : member ∈ members) :
    ((reader.keyOf? member.1).elim .other ofKey).Readable member.2 := by
  cases known : reader.keyOf? member.1 with
  | none => exact .inr ⟨member.2, rfl⟩
  | some key =>
    obtain ⟨held, content, -⟩ := slots.content_of_holds reads (.obj there known)
    exact readable content

theorem RecordReader.Slots.readable_of_place {items : List Json} {slot : DocumentPart × Json}
    (reads : reader.Reads slots.blank (.arr items) draft)
    (there : slot ∈ (reader.positions.map ofKey).zip items) : slot.1.Readable slot.2 := by
  rw [List.zip_map_left] at there
  obtain ⟨⟨key, json⟩, place, rfl⟩ := List.mem_map.mp there
  obtain ⟨held, content, -⟩ := slots.content_of_holds reads (.arr place)
  exact readable content

end

namespace DocumentPart

theorem reads_of_schema {json : Json} {value : Schema} (accepted : schema.read json = .ok value) :
    ∃ draft, SchemaDocument.reader.Reads SchemaDocument.slots.blank json draft := by
  obtain ⟨document, read, -⟩ := Schema.read_ok_iff.mp accepted
  obtain ⟨draft, reads, -⟩ := SchemaDocument.read_ok_iff.mp read
  exact ⟨draft, reads⟩

theorem reads_of_field {json : Json} {value : FieldDocument}
    (accepted : field.read json = .ok value) :
    ∃ draft, FieldDocument.reader.Reads FieldDocument.slots.blank json draft := by
  obtain ⟨draft, word, reads, -⟩ := FieldDocument.read_ok_iff.mp accepted
  exact ⟨draft, reads⟩

theorem keys_of_read {part : DocumentPart} {members : Members} {value : part.Value}
    (accepted : part.read (.obj members) = .ok value) :
    members.Pairwise fun a b => ¬ part.SameKey a.1 b.1 := by
  have ofMap {α : Type} {read : Json → Read α} {map : OrderedMap α}
      (accepted : Read.orderedMap read (.obj members) = .ok map) :
      members.Pairwise fun a b => a.1 ≠ b.1 := by
    obtain ⟨_, ⟨⟩, distinct, -⟩ := Read.orderedMap_ok_iff.mp accepted
    exact List.pairwise_map.mp distinct
  cases part with
  | nodes | connections => exact ofMap accepted
  | fields => exact ofMap ((FieldDocument.readMap_eq _).symm.trans accepted)
  | node =>
    have distinct := RecordReader.Slots.keys_distinct (NodeDraft.read_ok_iff.mp accepted)
    refine distinct.imp ?_
    rintro a b apart ⟨key, first, second⟩
    exact apart (first.trans second.symm)
  | schema =>
    obtain ⟨draft, reads⟩ := reads_of_schema accepted
    exact (RecordReader.Slots.keys_distinct reads).imp fun apart same => apart (congrArg _ same)
  | field =>
    obtain ⟨draft, reads⟩ := reads_of_field accepted
    exact (RecordReader.Slots.keys_distinct reads).imp fun apart same => apart (congrArg _ same)
  | kind | other => exact List.pairwise_of_forall fun _ _ => not_false

theorem inside_of_read {part : DocumentPart} {members : Members} {value : part.Value}
    (accepted : part.read (.obj members) = .ok value) {member : String × Json}
    (there : member ∈ members) : (part.inside member.1).Readable member.2 := by
  have ofMap {α : Type} {read : Json → Read α} {map : OrderedMap α}
      (accepted : Read.orderedMap read (.obj members) = .ok map) :
      ∃ held, read member.2 = .ok held := by
    obtain ⟨_, ⟨⟩, -, rows⟩ := Read.orderedMap_ok_iff.mp accepted
    obtain ⟨entry, -, -, held⟩ := forall₂_right_of_mem rows there
    exact ⟨_, held⟩
  cases part with
  | nodes => exact .inr (ofMap accepted)
  | fields => exact .inr (ofMap ((FieldDocument.readMap_eq _).symm.trans accepted))
  | node =>
    exact RecordReader.Slots.readable_of_mem Readable.nodeKey (NodeDraft.read_ok_iff.mp accepted)
      there
  | schema =>
    obtain ⟨draft, reads⟩ := reads_of_schema accepted
    exact RecordReader.Slots.readable_of_mem Readable.schemaKey reads there
  | field =>
    obtain ⟨draft, reads⟩ := reads_of_field accepted
    exact RecordReader.Slots.readable_of_mem Readable.fieldKey reads there
  | connections | kind | other => exact .inr ⟨member.2, rfl⟩

theorem place_of_read {part : DocumentPart} {items : List Json} {value : part.Value}
    (accepted : part.read (.arr items) = .ok value) {slot : DocumentPart × Json}
    (there : slot ∈ part.places.zip items) : slot.1.Readable slot.2 := by
  cases part with
  | nodes | connections | fields | kind | other => cases there
  | node =>
    exact RecordReader.Slots.readable_of_place Readable.nodeKey (NodeDraft.read_ok_iff.mp accepted)
      there
  | schema =>
    obtain ⟨draft, reads⟩ := reads_of_schema accepted
    exact RecordReader.Slots.readable_of_place Readable.schemaKey reads there
  | field =>
    obtain ⟨draft, reads⟩ := reads_of_field accepted
    exact RecordReader.Slots.readable_of_place Readable.fieldKey reads there

end DocumentPart

theorem Repeats.not_readable {part : DocumentPart} {json : Json} (repeats : Repeats part json) :
    ¬ part.Readable json := by
  induction repeats with
  | key twice same =>
    rintro (⟨⟨⟩⟩ | ⟨value, accepted⟩)
    have apart := (DocumentPart.keys_of_read accepted).sublist twice
    exact List.rel_of_pairwise_cons apart List.mem_cons_self same
  | member there _ ih =>
    rintro (⟨⟨⟩⟩ | ⟨value, accepted⟩)
    exact ih (DocumentPart.inside_of_read accepted there)
  | place there _ ih =>
    rintro (⟨⟨⟩⟩ | ⟨value, accepted⟩)
    exact ih (DocumentPart.place_of_read accepted there)

/-- The spec has the id of the member, and its connections and the fields of its schema stand in the
order of the document. -/
structure NodeSpec.Follows (member : String × Json) (spec : NodeSpec) : Prop where
  id : spec.id = member.1
  connections :
    NodeDraft.reader.Holds member.2 .connections
      (.obj (spec.connections.map fun entry => (entry.1, .str entry.2))) ∨
    spec.connections = [] ∧ ∀ value, ¬ NodeDraft.reader.Holds member.2 .connections value
  schema : ∀ schema, spec.schema = some schema →
    ∃ value, NodeDraft.reader.Holds member.2 .schema value ∧ schema.Follows value
  schemaless : spec.schema = none →
    ∀ value, NodeDraft.reader.Holds member.2 .schema value → value = .null

theorem NodeDraft.follows {id : NodeId} {json : Json} {draft : NodeDraft}
    (accepted : read json = .ok draft) : NodeSpec.Follows (id, json) (draft.toSpec id) := by
  have reads := read_ok_iff.mp accepted
  refine ⟨rfl, ?_, ?_, ?_⟩
  · cases filled : draft.connections with
    | none =>
      refine .inr ⟨by simp [toSpec, filled, OrderedMap.empty], fun value holds => ?_⟩
      obtain ⟨held, -, there⟩ := slots.content_of_holds reads holds
      cases filled.symm.trans there
    | some map =>
      obtain ⟨value, holds, content⟩ := slots.holds_of_get .connections reads filled
      obtain ⟨members, rfl, -, rows⟩ := Read.orderedMap_ok_iff.mp content
      simp only [toSpec, filled, Option.getD_some]
      exact .inl (Read.members_of_texts rows ▸ holds)
  · intro schema present
    obtain ⟨value, holds, content⟩ :=
      slots.holds_of_get .schema reads (Option.join_eq_some_iff.mp present)
    exact ⟨value, holds, Schema.follows_of_read (Read.eq_of_optional content)⟩
  · intro absent value holds
    obtain ⟨held, content, filled⟩ := slots.content_of_holds reads holds
    obtain ⟨null, -⟩ | ⟨-, schema, -, rfl⟩ := Read.optional_ok_iff.mp content
    · exact null
    · cases (congrArg Option.join filled).symm.trans absent

namespace NodeSpec

theorem readAll_ok_iff {document : Json} {specs : List NodeSpec} :
    readAll document = .ok specs ↔ ∃ nodes, DocumentPart.nodes.read document = .ok nodes ∧
      specs = nodes.entries.map fun entry => entry.2.toSpec entry.1 := by
  rw [readAll, bind_ok_iff]
  exact exists_congr fun nodes => and_congr_right fun _ => by simp [pure, Except.pure, eq_comm]

theorem follows_of_readAll {document : Json} {specs : List NodeSpec}
    (accepted : readAll document = .ok specs) :
    ∃ members, document = .obj members ∧ List.Forall₂ Follows members specs := by
  obtain ⟨nodes, read, rfl⟩ := readAll_ok_iff.mp accepted
  obtain ⟨members, rfl, -, rows⟩ := Read.orderedMap_ok_iff.mp read
  refine ⟨members, rfl, List.forall₂_map_right_iff.mpr (rows.imp ?_)⟩
  rintro ⟨id, json⟩ ⟨_, draft⟩ ⟨rfl, held⟩
  exact NodeDraft.follows held

theorem parseAll_ok_iff {text : String} {specs : List NodeSpec} : parseAll text = .ok specs ↔
    ∃ document, Json.parse? text = some document ∧ readAll document = .ok specs := by
  rw [parseAll]
  cases Json.parse? text with
  | none => simp
  | some document => cases read : readAll document <;> simp [Except.mapError, read]

theorem readAll_rearranged {document other : Json} {specs : List NodeSpec}
    (rearranged : Rearranged .nodes document other) (accepted : readAll document = .ok specs) :
    readAll other = .ok specs := by
  obtain ⟨nodes, read, told⟩ := readAll_ok_iff.mp accepted
  exact readAll_ok_iff.mpr ⟨nodes, rearranged.agree.read nodes read, told⟩

/-- An accepted document has one spec for each of its members, in its order, with connections and
schema fields in its order; the same document with the keys of nodes, schemas and fields rearranged
and spelled in other ways has the same specs; and no document with a key that is there twice is
accepted. -/
theorem parseAll_document :
    (∀ text specs, parseAll text = .ok specs → ∃ members,
      Json.parse? text = some (.obj members) ∧ List.Forall₂ Follows members specs ∧
      ∀ other document, Json.parse? other = some document →
        Rearranged .nodes (.obj members) document → parseAll other = .ok specs) ∧
    ∀ text document, Json.parse? text = some document → Repeats .nodes document →
      ∃ problem, parseAll text = .error (.malformedDocument problem) := by
  constructor
  · intro text specs accepted
    obtain ⟨document, parsed, read⟩ := parseAll_ok_iff.mp accepted
    obtain ⟨members, rfl, follow⟩ := follows_of_readAll read
    refine ⟨members, parsed, follow, fun other document written rearranged => ?_⟩
    exact parseAll_ok_iff.mpr ⟨document, written, readAll_rearranged rearranged read⟩
  · intro text document parsed repeats
    simp only [parseAll, parsed]
    cases accepted : readAll document with
    | error problem => exact ⟨problem, rfl⟩
    | ok specs =>
      obtain ⟨nodes, read, -⟩ := readAll_ok_iff.mp accepted
      exact absurd (.inr ⟨nodes, read⟩) repeats.not_readable

def planPairs : List ((String × Json) × (String × Json)) :=
  let connections := .obj [("Each", .str "Day"), ("Done", .str "End")]
  let fields := .obj [("hours", .obj [("type", .str "integer")])]
  [(("text", .str "Plan."), ("promptTemplate", .str "Plan.")),
    (("connections", connections), ("connections", connections)),
    (("schema", .obj [("name", .str "Plan"), ("fields", fields)]),
      ("schema", .obj [("fields", fields), ("name", .str "Plan")])),
    (("kind", .str "loop_start"), ("type", .str "loopStart")),
    (("iterator", .str "day"), ("iteratorName", .str "day")),
    (("collection", .str "days"), ("collectionFieldName", .str "days")),
    (("loop_start", .str "Plan"), ("loopStart", .str "Plan"))]

def turnPairs : List ((String × Json) × (String × Json)) :=
  let connections := .obj [("HasMore", .str "Plan"), ("Complete", .str "End")]
  [(("text", .str ""), ("promptTemplate", .str "")),
    (("kind", .str "loop_continue"), ("type", .str "loopContinue")),
    (("connections", connections), ("connections", connections))]

def plan : Json :=
  .obj [("Plan", .obj (planPairs.map (·.1))), ("Turn", .obj (turnPairs.map (·.1)))]

def respelled : Json :=
  .obj [("Plan", .obj (planPairs.reverse.map (·.2))), ("Turn", .obj (turnPairs.reverse.map (·.2)))]

theorem node_respelled {pairs : List ((String × Json) × (String × Json))}
    (keys : ∀ pair ∈ pairs, DocumentPart.node.SameKey pair.1.1 pair.2.1)
    (values : ∀ pair ∈ pairs, Rearranged (DocumentPart.node.inside pair.1.1) pair.1.2 pair.2.2) :
    Rearranged .node (.obj (pairs.map (·.1))) (.obj (pairs.reverse.map (·.2))) :=
  .obj ((List.reverse_perm pairs).symm.map _) nofun
    (fun pair member => keys pair (List.mem_reverse.mp member))
    (fun pair member => values pair (List.mem_reverse.mp member))

theorem plan_respelled : Rearranged .nodes plan respelled := by
  have schema : ∀ a b : String × Json, Rearranged .schema (.obj [a, b]) (.obj [b, a]) :=
    fun a b => @Rearranged.obj .schema [a, b] [(b, b), (a, a)] (.swap b a []) nofun
      (by simp [DocumentPart.SameKey]) (by simpa using ⟨.same _ _, .same _ _⟩)
  have loopStart : Rearranged .kind (.str "loop_start") (.str "loopStart") :=
    @Rearranged.kind .loopStart _ _ (.word (by decide)) (.word (by decide))
  have loopContinue : Rearranged .kind (.str "loop_continue") (.str "loopContinue") :=
    @Rearranged.kind .loopContinue _ _ (.word (by decide)) (.word (by decide))
  have start :
      Rearranged .node (.obj (planPairs.map (·.1))) (.obj (planPairs.reverse.map (·.2))) := by
    apply node_respelled
    · simp only [planPairs, List.forall_mem_cons]
      exact ⟨⟨.text, rfl, rfl⟩, ⟨.connections, rfl, rfl⟩, ⟨.schema, rfl, rfl⟩, ⟨.kind, rfl, rfl⟩,
        ⟨.iterator, rfl, rfl⟩, ⟨.collection, rfl, rfl⟩, ⟨.loopStart, rfl, rfl⟩, nofun⟩
    · simp only [planPairs, List.forall_mem_cons]
      exact ⟨.same _ _, .same _ _, schema _ _, loopStart, .same _ _, .same _ _, .same _ _, nofun⟩
  have turn :
      Rearranged .node (.obj (turnPairs.map (·.1))) (.obj (turnPairs.reverse.map (·.2))) := by
    apply node_respelled
    · simp only [turnPairs, List.forall_mem_cons]
      exact ⟨⟨.text, rfl, rfl⟩, ⟨.kind, rfl, rfl⟩, ⟨.connections, rfl, rfl⟩, nofun⟩
    · simp only [turnPairs, List.forall_mem_cons]
      exact ⟨.same _ _, loopContinue, .same _ _, nofun⟩
  exact @Rearranged.obj .nodes _ [(("Plan", _), ("Plan", _)), (("Turn", _), ("Turn", _))] (.refl _)
    (fun _ => rfl) (List.forall_mem_cons.mpr ⟨rfl, List.forall_mem_singleton.mpr rfl⟩)
    (List.forall_mem_cons.mpr ⟨start, List.forall_mem_singleton.mpr turn⟩)

def planSpec : NodeSpec where
  id := "Plan"
  text := "Plan."
  connections := [("Each", "Day"), ("Done", "End")]
  schema := some ⟨"Plan", [⟨"hours", .integer, none, true⟩]⟩
  kind := some .loopStart
  iterator := some "day"
  collection := some "days"
  loopStart := some "Plan"

def turnSpec : NodeSpec where
  id := "Turn"
  text := ""
  connections := [("HasMore", "Plan"), ("Complete", "End")]
  kind := some .loopContinue

def planText : String :=
  "\x7b\"Plan\": \x7b\"text\": \"Plan.\", " ++
  "\"connections\": \x7b\"Each\": \"Day\", \"Done\": \"End\"\x7d, " ++
  "\"schema\": \x7b\"name\": \"Plan\", " ++
  "\"fields\": \x7b\"hours\": \x7b\"type\": \"integer\"\x7d\x7d\x7d, " ++
  "\"kind\": \"loop_start\", \"iterator\": \"day\", \"collection\": \"days\", " ++
  "\"loop_start\": \"Plan\"\x7d, " ++
  "\"Turn\": \x7b\"text\": \"\", \"kind\": \"loop_continue\", " ++
  "\"connections\": \x7b\"HasMore\": \"Plan\", \"Complete\": \"End\"\x7d\x7d\x7d"

def respelledText : String :=
  "\x7b\"Plan\": \x7b\"loopStart\": \"Plan\", \"collectionFieldName\": \"days\", " ++
  "\"iteratorName\": \"day\", \"type\": \"loopStart\", " ++
  "\"schema\": \x7b\"fields\": \x7b\"hours\": \x7b\"type\": \"integer\"\x7d\x7d, " ++
  "\"name\": \"Plan\"\x7d, " ++
  "\"connections\": \x7b\"Each\": \"Day\", \"Done\": \"End\"\x7d, " ++
  "\"promptTemplate\": \"Plan.\"\x7d, " ++
  "\"Turn\": \x7b\"connections\": \x7b\"HasMore\": \"Plan\", \"Complete\": \"End\"\x7d, " ++
  "\"type\": \"loopContinue\", \"promptTemplate\": \"\"\x7d\x7d"

def repeatedText : String :=
  "\x7b\"Plan\": \x7b\"text\": \"Plan.\", \"promptTemplate\": \"Plan.\"\x7d\x7d"

-- A document is read character by character.
set_option maxRecDepth 2048 in
theorem parseAll_plan :
    parseAll planText = .ok [planSpec, turnSpec] ∧
    parseAll respelledText = .ok [planSpec, turnSpec] ∧
    ∃ problem, parseAll repeatedText = .error (.malformedDocument problem) := by
  have parsed : Json.parse? planText = some plan ∧ Json.parse? respelledText = some respelled ∧
      Json.parse? repeatedText = some (.obj [("Plan", .obj [("text", .str "Plan."),
        ("promptTemplate", .str "Plan.")])]) := by
    simp only [plan, respelled, planPairs, turnPairs, List.reverse_cons, List.reverse_nil,
      List.nil_append, List.cons_append, List.map_cons, List.map_nil, Json.parse?, Form.parse?,
      Json.tokens]
    unfold planText respelledText repeatedText
    repeat rw [String.toList_append]
    repeat rw [String.toList_ofList]
    refine ⟨?_, ?_, ?_⟩ <;> cbv
  obtain ⟨written, again, twice⟩ := parsed
  have accepted : parseAll planText = .ok [planSpec, turnSpec] := by
    rw [parseAll, written]
    rfl
  obtain ⟨members, known, -, same⟩ := parseAll_document.1 _ _ accepted
  cases written.symm.trans known
  refine ⟨accepted, same _ _ again plan_respelled, ?_⟩
  exact parseAll_document.2 _ _ twice
    (.member List.mem_cons_self (.key (.refl _) ⟨.text, rfl, rfl⟩))

end NodeSpec

end Colloquy
