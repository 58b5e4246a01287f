import Rankuno.Python.Text
import Rankuno.Python.Values

/-!
# The record of a background job

`JobRecord` in `core/state_store.py`, with the keyword arguments its store
passes to `_transition`. The request and the telemetry are opaque to the store
and stand here as the text they are saved as.
-/

namespace Rankuno

/-- Lifecycle of a background job. `partialResult` is the source's `PARTIAL`. -/
inductive JobStatus where
  | queued
  | running
  | succeeded
  | partialResult
  | failed
  deriving DecidableEq

namespace JobStatus

/-- `TERMINAL_STATUSES`. -/
def IsTerminal : JobStatus → Prop
  | queued | running => False
  | succeeded | partialResult | failed => True

instance : DecidablePred IsTerminal := fun s => by
  cases s <;> unfold IsTerminal <;> infer_instance

end JobStatus

/-- Where an imported job came from. -/
structure JobProvenance where
  sourceInstanceId : String
  sourceJobId : String
  bundleSha256 : String
  deriving DecidableEq

structure JobRecord where
  id : String
  toolName : String
  label : String
  orgId : String
  facetId : String
  request : String
  status : JobStatus
  createdAt : Timestamp
  updatedAt : Timestamp
  startedAt : Option Timestamp := none
  finishedAt : Option Timestamp := none
  error : Option String := none
  hasResult : Bool := false
  hasCheckpoint : Bool := false
  telemetry : String := ""
  provenance : Option JobProvenance := none
  passwordHash : Option String := none
  deriving DecidableEq

namespace JobRecord

/-- The field constraints the model checks when it is built. -/
structure Valid (r : JobRecord) : Prop where
  id : r.id ≠ ""
  tool_name : r.toolName ≠ ""
  org_id : r.orgId ≠ "" ∧ r.orgId.toList.all Python.Text.isSlugChar
  facet_id : r.facetId ≠ ""

theorem valid_iff (r : JobRecord) : r.Valid ↔ r.id ≠ "" ∧ r.toolName ≠ "" ∧
    (r.orgId ≠ "" ∧ r.orgId.toList.all Python.Text.isSlugChar) ∧ r.facetId ≠ "" :=
  ⟨fun h => ⟨h.id, h.tool_name, h.org_id, h.facet_id⟩, fun ⟨i, t, o, f⟩ => ⟨i, t, o, f⟩⟩

instance : DecidablePred Valid := fun r => decidable_of_iff' _ r.valid_iff

end JobRecord

/-- What the store changes of a record, by the method that changes it. -/
inductive RecordChange where
  | markRunning (startedAt : Timestamp)
  | updateTelemetry (telemetry : String)
  | markFailed (error : String) (finishedAt : Timestamp)
  | finish (isPartial : Bool) (error : Option String) (finishedAt : Timestamp)
  | checkpoint
  deriving DecidableEq

namespace RecordChange

/-- The record `_transition` writes back. -/
def apply (change : RecordChange) (now : Timestamp) (r : JobRecord) : JobRecord :=
  match change with
  | .markRunning startedAt =>
    { r with status := .running, startedAt := some startedAt, updatedAt := now }
  | .updateTelemetry telemetry => { r with telemetry := telemetry, updatedAt := now }
  | .markFailed error finishedAt =>
    { r with
      status := .failed
      error := some (orDefault error "unknown error")
      finishedAt := some finishedAt
      updatedAt := now }
  | .finish isPartial error finishedAt =>
    { r with
      status := if isPartial then .partialResult else .succeeded
      hasResult := true
      finishedAt := some finishedAt
      error := error
      updatedAt := now }
  | .checkpoint => { r with hasCheckpoint := true, updatedAt := now }

/-- The status a change assigns, if it assigns one. -/
def writes : RecordChange → Option JobStatus
  | .markRunning _ => some .running
  | .updateTelemetry _ => none
  | .markFailed _ _ => some .failed
  | .finish isPartial _ _ => some (if isPartial then .partialResult else .succeeded)
  | .checkpoint => none

@[simp] theorem apply_id (change : RecordChange) (now : Timestamp) (r : JobRecord) :
    (change.apply now r).id = r.id := by
  cases change <;> rfl

theorem apply_valid (change : RecordChange) (now : Timestamp) (r : JobRecord) :
    (change.apply now r).Valid ↔ r.Valid := by
  rw [JobRecord.valid_iff, JobRecord.valid_iff]
  cases change <;> rfl

theorem apply_status (change : RecordChange) (now : Timestamp) (r : JobRecord) :
    (change.apply now r).status = change.writes.getD r.status := by
  cases change <;> rfl

theorem apply_hasResult {change : RecordChange} {now : Timestamp} {r : JobRecord}
    (h : (change.apply now r).hasResult = true) :
    r.hasResult = true ∨ ∃ isPartial error finishedAt,
      change = .finish isPartial error finishedAt := by
  cases change with
  | finish isPartial error finishedAt => exact .inr ⟨isPartial, error, finishedAt, rfl⟩
  | _ => exact .inl h

theorem apply_hasCheckpoint {change : RecordChange} {now : Timestamp} {r : JobRecord}
    (h : (change.apply now r).hasCheckpoint = true) :
    r.hasCheckpoint = true ∨ change = .checkpoint := by
  cases change with
  | checkpoint => exact .inr rfl
  | _ => exact .inl h

end RecordChange

/-- What `create` is given, with the id it draws and its reading of the clock. -/
structure NewJob where
  id : String
  toolName : String
  label : String
  orgId : Option String
  facetId : String
  request : String
  passwordHash : Option String
  moment : Timestamp
  deriving DecidableEq

/-- The record `create` writes: queued, with nothing to show yet. -/
def NewJob.record (job : NewJob) : JobRecord where
  id := job.id
  toolName := job.toolName
  label := job.label
  orgId := orDefault (job.orgId.getD "") "default"
  facetId := job.facetId
  request := job.request
  status := .queued
  createdAt := job.moment
  updatedAt := job.moment
  passwordHash := job.passwordHash

/-- What `import_terminal` is given, with the id it draws and its reading of
the clock. -/
structure ImportedJob where
  id : String
  orgId : String
  toolName : String
  facetId : String
  label : String
  request : String
  status : JobStatus
  startedAt : Timestamp
  finishedAt : Timestamp
  error : Option String
  telemetry : String
  homepageHtml : Option String
  provenance : JobProvenance
  moment : Timestamp
  deriving DecidableEq

/-- The record `import_terminal` writes. -/
def ImportedJob.record (job : ImportedJob) : JobRecord where
  id := job.id
  toolName := job.toolName
  label := job.label
  orgId := job.orgId
  facetId := job.facetId
  request := job.request
  status := job.status
  createdAt := job.moment
  updatedAt := job.moment
  startedAt := some job.startedAt
  finishedAt := some job.finishedAt
  error := job.error
  hasResult := true
  telemetry := job.telemetry
  provenance := some job.provenance

end Rankuno
