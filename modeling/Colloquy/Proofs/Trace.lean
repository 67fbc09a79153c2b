import Colloquy.Proofs.Json.Presented
import Colloquy.Trace

/-!
What is written of a trace is read back as that trace, however the members are presented.
-/

namespace Colloquy

section

variable {lay : Json → Json} {written : Written} {field : String} {α : Type} {read : Json → Read α}
  {x : α}

theorem Written.required_of {json : Json} (held : written.get? field = some (lay json))
    (reads : read (lay json) = .ok x) : written.required field read = .ok x := by
  rw [required, held]
  exact reads

theorem Written.withDefault_of {default : α} {json : Option Json}
    (held : written.get? field = json.map lay) (absent : json = none → x = default)
    (reads : ∀ value, json = some value → read (lay value) = .ok x) :
    written.withDefault field default read = .ok x := by
  rw [withDefault, held]
  cases json with
  | none => rw [absent rfl]; rfl
  | some value => exact reads value rfl

theorem Written.nullable_text (presents : Presents lay) {text : Option String}
    (held : written.get? field = some (lay (.ofText? text))) :
    written.nullable field Read.text = .ok text := by
  rw [nullable, held]
  exact presents.optional_text text

end

namespace TraceEntry

def Kept (entry : TraceEntry) : Prop :=
  ∀ value, entry.extracted = some value → value.Canonical ∧ value ≠ .null

def slots (entry : TraceEntry) : List (String × Option Json) :=
  [("step", some (.ofNat entry.step)), ("node_id", some (.str entry.node)),
   ("kind", some (.str entry.kind)), ("prompt", entry.prompt.map .str),
   ("framed_prompt", entry.framedPrompt.map .str),
   ("options", if entry.options.isEmpty then none else some (.ofTexts entry.options)),
   ("reasoning", entry.reasoning.map .str), ("decision", entry.decision.map .str),
   ("decision_fallback", some (.bool entry.decisionFallback)),
   ("next_node", some (.ofText? entry.nextNode)), ("extracted", entry.extracted)]

theorem textMember_eq (key : String) (text : Option String) :
    textMember key text = ((text.map Json.str).map (key, ·)).toList := by
  cases text <;> rfl

theorem members_eq (entry : TraceEntry) : entry.members = Members.ofSlots entry.slots := by
  simp only [members, textMember_eq, slots, Members.ofSlots_cons]
  cases entry.options <;> cases entry.extracted <;> simp [Members.ofSlots]

variable {lay : Json → Json} (presents : Presents lay)
include presents

theorem withDefault_text {written : Written} {field : String} {text : Option String}
    (held : written.get? field = (text.map Json.str).map lay) :
    written.withDefault field none (Read.optional Read.text) = .ok text := by
  apply Written.withDefault_of held
  · simp
  · rintro value written
    obtain ⟨text, rfl, rfl⟩ := Option.map_eq_some_iff.mp written
    exact presents.optional_text (some text)

theorem read_of_kept (entry : TraceEntry) (kept : entry.Kept) :
    read (lay entry.toJson) = .ok entry := by
  obtain ⟨written, record, -, held⟩ :=
    presents.record fields "a trace entry" entry.slots rfl (by decide)
  simp only [slots, List.forall_mem_cons, Option.map_some] at held
  obtain ⟨step, node, kind, prompt, framed, options, reasoning, decision, fallback, next, extracted,
    -⟩ := held
  have optionsRead : written.withDefault "options" [] (Read.list Read.text "a sequence") =
      .ok entry.options := by
    apply Written.withDefault_of options
    · split <;> simp_all
    · rintro value given
      split at given
      · cases given
      · cases given
        exact presents.list fun text _ => presents.text text
  have fallbackRead : written.withDefault "decision_fallback" false Read.flag =
      .ok entry.decisionFallback := by
    rw [Written.withDefault, fallback, presents.bool]
    rfl
  have extractedRead : written.withDefault "extracted" none (Read.optional Read.freeForm) =
      .ok entry.extracted := by
    apply Written.withDefault_of extracted
    · exact id
    · intro value given
      obtain ⟨canonical, real⟩ := kept value given
      rw [presents.canonical value canonical, given]
      cases value with
      | null => exact absurd rfl real
      | _ => simp [Read.optional, Read.freeForm, Json.canonical_eq_of_canonical canonical]
  rw [read, toJson, members_eq]
  refine bind_ok_iff.mpr ⟨written, record, ?_⟩
  simp only [Written.required_of step (presents.natural _),
    Written.required_of node (presents.text _), Written.required_of kind (presents.text _),
    withDefault_text presents prompt, withDefault_text presents framed, optionsRead,
    withDefault_text presents reasoning, withDefault_text presents decision, fallbackRead,
    Written.nullable_text presents next, extractedRead]
  rfl

end TraceEntry

theorem Trace.read_of_kept {lay : Json → Json} (presents : Presents lay) {trace : Trace}
    (kept : ∀ entry ∈ trace, entry.Kept) : Trace.read (lay trace.toJson) = .ok trace :=
  presents.list fun entry member => entry.read_of_kept presents (kept entry member)

end Colloquy
