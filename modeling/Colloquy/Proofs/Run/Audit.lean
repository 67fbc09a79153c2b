import Colloquy.Proofs.Run.Bound
import Colloquy.Proofs.Run.Events
import Colloquy.Proofs.Run.Id
import Colloquy.Proofs.Time.Instant
import Colloquy.Proofs.Trace

/-!
What is written of a run's record and of events is read back as it was.
-/

namespace Colloquy

section

variable {lay : Json → Json} (presents : Presents lay)
include presents

theorem RunStatus.read_toJson (status : RunStatus) : read (lay status.toJson) = .ok status := by
  cases status with
  | completed =>
    obtain ⟨others, tagged, perm⟩ :=
      presents.tagged "status" "a run status" "completed" [] (by simp)
    obtain ⟨written, record, -, -⟩ := Presents.record_of_perm [] "a completion" (by simp) perm
    rw [read, toJson]
    refine bind_ok_iff.mpr ⟨_, tagged, ?_⟩
    exact bind_ok_iff.mpr ⟨written, record, rfl⟩
  | failed error =>
    obtain ⟨others, tagged, perm⟩ := presents.tagged "status" "a run status" "failed"
      [("error", .str error)] (by simp)
    obtain ⟨written, record, -, held⟩ :=
      Presents.record_of_perm ["error"] "a failure" (by simp) perm
    rw [read, toJson]
    refine bind_ok_iff.mpr ⟨_, tagged, ?_⟩
    refine bind_ok_iff.mpr ⟨written, record, ?_⟩
    have errors := held "error" List.mem_cons_self
    refine bind_ok_iff.mpr ⟨_, Written.required_of errors (presents.text error), rfl⟩

theorem RunRecord.denoted_of {α : Type} {parse? : String → Option α} {text : String} {value : α}
    (parsed : parse? text = some value) : denoted parse? (lay (.str text)) = .ok value := by
  refine bind_ok_iff.mpr ⟨text, presents.text text, ?_⟩
  simp only [parsed]
  rfl

structure RunRecord.Kept (record : RunRecord) : Prop where
  runId : record.runId.Proper
  startedAt : record.startedAt.Proper
  finishedAt : record.finishedAt.Proper
  traversal : ∀ entry ∈ record.traversal, entry.Kept

theorem RunRecord.read_of_kept {record : RunRecord} (kept : record.Kept) :
    read (lay record.toJson) = .ok record := by
  obtain ⟨written, recorded, -, held⟩ := presents.record fields "a run record"
    [("run_id", some (.str record.runId.text)),
      ("started_at", some (.str record.startedAt.zuluText)),
      ("finished_at", some (.str record.finishedAt.zuluText)), ("input", some (.str record.input)),
      ("status", some record.status.toJson), ("traversal", some record.traversal.toJson)]
    rfl (by decide)
  simp only [List.forall_mem_cons, Option.map_some] at held
  obtain ⟨runId, startedAt, finishedAt, input, status, traversal, -⟩ := held
  rw [read, toJson]
  refine bind_ok_iff.mpr ⟨written, recorded, ?_⟩
  simp only [
    Written.required_of runId (denoted_of presents (RunId.parse?_text kept.runId)),
    Written.required_of startedAt (denoted_of presents (Instant.parse?_zuluText kept.startedAt)),
    Written.required_of finishedAt (denoted_of presents (Instant.parse?_zuluText kept.finishedAt)),
    Written.required_of input (presents.text _),
    Written.required_of status (record.status.read_toJson presents),
    Written.required_of traversal (Trace.read_of_kept presents kept.traversal)]
  rfl

theorem NodeEvent.read_toJson (event : NodeEvent) : read (lay event.toJson) = .ok event := by
  obtain ⟨written, recorded, -, held⟩ := presents.record fields "a node event"
    [("node_id", some (.ofText? event.node)),
      ("step", some (event.step.elim .null .ofNat)),
      ("scope", some (.str event.scope)), ("message", some (.str event.message))] rfl (by decide)
  simp only [List.forall_mem_cons, Option.map_some] at held
  obtain ⟨node, step, scope, message, -⟩ := held
  have stepRead : written.nullable "step" (Read.natural "a count") = .ok event.step := by
    rw [Written.nullable, step]
    cases event.step with
    | none =>
      rw [Option.elim_none, presents.null]
      rfl
    | some n =>
      have read : Read.natural "a count" (lay (.ofNat n)) = .ok n := presents.natural n
      simp only [Option.elim_some, Json.ofNat, presents.num] at read ⊢
      exact congrArg (some <$> ·) read
  have laid : event.toJson = .obj [("node_id", .ofText? event.node),
      ("step", event.step.elim .null .ofNat), ("scope", .str event.scope),
      ("message", .str event.message)] := by
    rw [toJson]
    cases event.step <;> rfl
  rw [read, laid]
  refine bind_ok_iff.mpr ⟨written, recorded, ?_⟩
  simp only [Written.nullable_text presents node, stepRead,
    Written.required_of scope (presents.text _), Written.required_of message (presents.text _)]
  rfl

theorem Diagnostic.read_toJson (event : Diagnostic) : read (lay event.toJson) = .ok event := by
  obtain ⟨written, recorded, -, held⟩ := presents.record fields "a diagnostic"
    [("scope", some (.str event.scope)), ("message", some (.str event.message))] rfl (by decide)
  simp only [List.forall_mem_cons, Option.map_some] at held
  obtain ⟨scope, message, -⟩ := held
  rw [read, toJson]
  refine bind_ok_iff.mpr ⟨written, recorded, ?_⟩
  simp only [Written.required_of scope (presents.text _),
    Written.required_of message (presents.text _)]
  rfl

def Event.Kept (event : Event) : Prop := ∀ record, event = .audit record → record.Kept

theorem Event.read_of_kept {event : Event} (kept : event.Kept) :
    read (lay event.toJson) = .ok event := by
  cases event with
  | node event =>
    rw [toJson, presents.single, read, event.read_toJson presents]
    rfl
  | diagnostic event =>
    rw [toJson, presents.single, read, event.read_toJson presents]
    rfl
  | audit record =>
    rw [toJson, presents.single, read, RunRecord.read_of_kept presents (kept record rfl)]
    rfl

end

/-! ### What a run records -/

def Client.Canonical (client : Client) : Prop :=
  ∀ earlier request value, (client earlier request).content = .ok (.structured value) →
    value.Canonical

structure RunStamp.Proper (stamp : RunStamp) : Prop where
  runId : stamp.runId.Proper
  startedAt : stamp.startedAt.Proper
  finishedAt : stamp.finishedAt.Proper

section

variable {engine : Engine} {client : Client}

theorem TraceEntry.Kept.of_validate {entry : TraceEntry} {schema : Schema} {json : Json}
    {value : StructuredValue} (canonical : json.Canonical)
    (conforms : schema.validate json = .ok value) (told : entry.extracted = some value.toJson) :
    entry.Kept := by
  intro held same
  obtain rfl := Option.some.inj (told.symm.trans same)
  exact ⟨(Schema.validate_ok conforms).2 ▸ canonical, nofun⟩

theorem Settles.kept (canonical : client.Canonical) {earlier : List Request} {step : Nat}
    {node : Node} {state : RunState} {visited : Visited}
    (settles : Settles engine client earlier step node state visited) : visited.entry.Kept := by
  cases settles with
  | passed passes => cases passes <;> nofun
  | asked _ _ answers heeds =>
    have content := Answer.within_ok answers
    cases heeds with
    | decided | replied => nofun
    | extracted _ _ _ conforms => exact .of_validate (canonical _ _ _ content) conforms rfl
    | concluded _ _ _ conforms => exact .of_validate (canonical _ _ _ content) conforms rfl

theorem Engine.traversal_kept {specs : List NodeSpec}
    (compiled : Flowchart.compile specs = .ok engine.flowchart) (canonical : client.Canonical)
    (stamp : RunStamp) (input : String) :
    ∀ entry ∈ (engine.run client stamp input).record.traversal, entry.Kept := by
  have valid := compile_valid compiled
  obtain ⟨ending, final, course, -, -⟩ := Engine.run_course valid client stamp input
  rw [engine.run_trace]
  refine List.forall_mem_map.mpr fun stride taken => ?_
  obtain ⟨-, _, _, settles⟩ := course.settles_of_mem valid taken
  exact settles.kept canonical

theorem Engine.events_kept {specs : List NodeSpec}
    (compiled : Flowchart.compile specs = .ok engine.flowchart) (canonical : client.Canonical)
    {stamp : RunStamp} (proper : stamp.Proper) (input : String) :
    ∀ event ∈ (engine.run client stamp input).events, event.Kept := by
  rintro event emitted record rfl
  obtain ⟨notices, -, all⟩ := Engine.run_emits (compile_valid compiled) client stamp input
  rw [all] at emitted
  obtain rfl : record = (engine.run client stamp input).record := by
    simpa [TraceEntry.events] using emitted
  exact ⟨proper.runId, proper.startedAt, proper.finishedAt,
    Engine.traversal_kept compiled canonical stamp input⟩

end

/-- The value is read back from what is written of it, in the order of writing and in that of the
keys. -/
def Survives {α : Type} (read : Json → Read α) (json : Json) (value : α) : Prop :=
  read json = .ok value ∧ read json.canonical = .ok value

theorem survives_of_presented {α : Type} {read : Json → Read α} {json : Json} {value : α}
    (presented : ∀ lay, Presents lay → read (lay json) = .ok value) : Survives read json value :=
  ⟨presented id presents_id, presented Json.canonical presents_canonical⟩

/-- Entries write what there is and leave out what there is not; traces, records and events are read
back as they were; and so is all that a run records. -/
theorem audit_trail_survives :
    (∀ entry : TraceEntry, ∀ slot ∈ entry.slots, entry.members.get? slot.1 = slot.2) ∧
    (∀ trace : Trace, (∀ entry ∈ trace, entry.Kept) → Survives Trace.read trace.toJson trace) ∧
    (∀ record : RunRecord, record.Kept → Survives RunRecord.read record.toJson record) ∧
    (∀ event : Event, event.Kept → Survives Event.read event.toJson event) ∧
    ∀ (engine : Engine) (specs : List NodeSpec) (client : Client) (stamp : RunStamp)
      (input : String), Flowchart.compile specs = .ok engine.flowchart → client.Canonical →
        (∀ entry ∈ (engine.run client stamp input).record.traversal, entry.Kept) ∧
        (stamp.Proper → ∀ event ∈ (engine.run client stamp input).events, event.Kept) := by
  refine ⟨?_, ?_, ?_, ?_, ?_⟩
  · intro entry slot member
    rw [TraceEntry.members_eq]
    exact Members.get?_ofSlots (by decide : TraceEntry.fields.Nodup) member
  · intro trace kept
    exact survives_of_presented fun lay presents => Trace.read_of_kept presents kept
  · intro record kept
    exact survives_of_presented fun lay presents => RunRecord.read_of_kept presents kept
  · intro event kept
    exact survives_of_presented fun lay presents => Event.read_of_kept presents kept
  · intro engine specs client stamp input compiled canonical
    exact ⟨Engine.traversal_kept compiled canonical stamp input,
      fun proper => Engine.events_kept compiled canonical proper input⟩

theorem RollCall.stamp_proper : stamp.Proper where
  runId := ⟨List.replicate 32 '0', rfl, List.forall_mem_replicate.mpr (.inr (by decide)), rfl⟩
  startedAt := ⟨by decide, by decide, by decide⟩
  finishedAt := ⟨by decide, by decide, by decide⟩

theorem Interview.client_canonical : client.Canonical := by
  intro earlier request value answered
  unfold client at answered
  split at answered
  · cases answered
  · split at answered
    · cases answered
      simp [Json.Canonical, Json.CanonicalMembers, Json.CanonicalItems, Members.Increasing]
    · cases answered
      simp [Json.Canonical, Json.CanonicalMembers, Members.Increasing]
  · cases answered

theorem interview_survives :
    Flowchart.compile interview = .ok Interview.engine.flowchart ∧ Interview.client.Canonical ∧
    RollCall.stamp.Proper ∧
    ∃ transcript, transcript = Interview.engine.run Interview.client RollCall.stamp "Hi" ∧
      transcript.record.traversal.length = 10 ∧
      Survives Trace.read transcript.record.traversal.toJson transcript.record.traversal ∧
      ∀ event ∈ transcript.events, Survives Event.read event.toJson event := by
  obtain ⟨-, traces, -, events, runs⟩ := audit_trail_survives
  obtain ⟨traced, emitted⟩ := runs Interview.engine interview Interview.client RollCall.stamp "Hi"
    Interview.compiles Interview.client_canonical
  refine ⟨Interview.compiles, Interview.client_canonical, RollCall.stamp_proper, _, rfl, rfl,
    traces _ traced, fun event member => ?_⟩
  exact events event (emitted RollCall.stamp_proper event member)

end Colloquy
