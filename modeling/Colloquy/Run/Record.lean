import Colloquy.Run.Id
import Colloquy.Time.Instant
import Colloquy.Trace

/-!
The record of a run, kept whether it completed or failed.
-/

namespace Colloquy

inductive RunStatus where
  | completed
  | failed (error : String)
  deriving DecidableEq, Repr

namespace RunStatus

def toJson : RunStatus → Json
  | completed => .obj [("status", .str "completed")]
  | failed error => .obj [("status", .str "failed"), ("error", .str error)]

def read (json : Json) : Read RunStatus := do
  let (word, content) ← Read.tagged "status" "a run status" json
  match word with
  | "completed" =>
    let _ ← Read.record [] "a completion" content
    return completed
  | "failed" =>
    let written ← Read.record ["error"] "a failure" content
    return failed (← written.required "error" Read.text)
  | other => throw (.unknownVariant other ["completed", "failed"])

end RunStatus

structure RunRecord where
  runId : RunId
  startedAt : Instant
  finishedAt : Instant
  input : String
  status : RunStatus
  traversal : Trace

namespace RunRecord

def isCompleted (record : RunRecord) : Bool :=
  match record.status with
  | .completed => true
  | .failed _ => false

def summary (record : RunRecord) : String :=
  let run := record.runId.text
  let visits := record.traversal.length
  match record.status with
  | .completed => s!"run {run} completed after {visits} visits"
  | .failed error => s!"run {run} failed after {visits} visits: {error}"

def toJson (record : RunRecord) : Json :=
  .obj [("run_id", .str record.runId.text), ("started_at", .str record.startedAt.zuluText),
    ("finished_at", .str record.finishedAt.zuluText), ("input", .str record.input),
    ("status", record.status.toJson), ("traversal", record.traversal.toJson)]

def denoted {α : Type} (parse? : String → Option α) (json : Json) : Read α := do
  let text ← Read.text json
  match parse? text with
  | some value => return value
  | none => throw (.invalidText text)

def fields : List String :=
  ["run_id", "started_at", "finished_at", "input", "status", "traversal"]

def interest : Interest :=
  .record (fields.map fun field => (field, if field = "traversal" then Trace.interest else .whole))

def read (json : Json) : Read RunRecord := do
  let written ← Read.record fields "a run record" json
  return {
    runId := ← written.required "run_id" (denoted RunId.parse?)
    startedAt := ← written.required "started_at" (denoted Instant.parse?)
    finishedAt := ← written.required "finished_at" (denoted Instant.parse?)
    input := ← written.required "input" Read.text
    status := ← written.required "status" RunStatus.read
    traversal := ← written.required "traversal" Trace.read }

end RunRecord

end Colloquy
