import Rankuno.JobStore.Lifecycle

/-!
# The methods of a job store, one call at a time

`JobStore` in `core/state_store.py`: the calls a caller makes and what they
answer, and `DiskJobStore`'s side of them, where nothing comes between the
sections of one method. What a store draws during a call, the id of a new job
and its readings of the clock, is handed in.
-/

namespace Rankuno

/-- What one call draws: an id, and the clock's readings in their order. -/
structure Draw where
  id : String
  clock : Nat → Timestamp

/-- The order of a new job, under the id and the time that were drawn. -/
def NewJob.drawn (job : NewJob) (draw : Draw) : NewJob :=
  { job with id := draw.id, moment := draw.clock 0 }

def ImportedJob.drawn (job : ImportedJob) (draw : Draw) : ImportedJob :=
  { job with id := draw.id, moment := draw.clock 0 }

/-- The field constraints the model of an imported job checks when it is built. -/
structure ImportedJob.Valid (job : ImportedJob) : Prop where
  org_id : job.orgId ≠ "" ∧ job.orgId.toList.all Python.Text.isSlugChar
  tool_name : job.toolName ≠ ""
  facet_id : job.facetId ≠ ""
  label : job.label.length ≤ 200
  error : ∀ error ∈ job.error, error.length ≤ 2000

theorem ImportedJob.Valid.record {job : ImportedJob} (h : job.Valid) (draw : Draw)
    (drawn : draw.id ≠ "") : (job.drawn draw).record.Valid :=
  ⟨drawn, h.tool_name, h.org_id, h.facet_id⟩

structure ImportOutcome where
  record : JobRecord
  duplicate : Bool
  deriving DecidableEq

/-- A source that was imported before is answered with its record, when the
contents are the same. -/
def ImportOutcome.ofExisting (existing : JobRecord) (source : JobProvenance) :
    Except JobStoreError ImportOutcome :=
  if existing.provenance.any fun found => found.bundleSha256 = source.bundleSha256 then
    .ok ⟨existing, true⟩
  else .error (.importConflict existing.id)

/-- A call of a store. What the store draws itself is not part of it: the id and
the moment of a new or imported job are replaced. -/
inductive JobCall where
  | create (job : NewJob)
  | get (jobId : String)
  | listJobs
  | markRunning (jobId : String)
  | updateTelemetry (jobId telemetry : String)
  | markFailed (jobId error : String)
  | finish (jobId result : String) (isPartial : Bool) (error : Option String)
  | readResult (jobId : String)
  | writeCheckpoint (jobId payload : String)
  | readCheckpoint (jobId : String)
  | importTerminal (job : ImportedJob) (valid : job.Valid) (resultJson : String)
  | recoverOrphans
  | delete (jobId : String)

inductive JobAnswer where
  | record (r : JobRecord)
  | records (rs : List JobRecord)
  | payload (body : String)
  | checkpoint (body : Option String)
  | outcome (outcome : ImportOutcome)
  | ids (ids : List String)
  | done
  deriving DecidableEq

namespace JobDisk

variable (d : JobDisk)

/-- `create`. The record is validated before it is written. -/
def create (job : NewJob) : Except JobStoreError JobRecord × JobDisk :=
  if job.record.Valid then (.ok job.record, d.writeRecord job.record)
  else (.error .invalidRecord, d)

/-- `get`. -/
def get (jobId : String) : Except JobStoreError JobRecord :=
  match d.record jobId with
  | some r => .ok r
  | none => .error (.jobNotFound jobId)

/-- `finish`. -/
def finish (jobId result : String) (isPartial : Bool) (error : Option String)
    (finishedAt now : Timestamp) : Except JobStoreError JobRecord × JobDisk :=
  match d.record jobId with
  | none => (.error (.jobNotFound jobId), d)
  | some _ =>
    (d.writeSidecar .result jobId result).transition jobId
      (.finish isPartial error finishedAt) now

/-- `read_result`. -/
def readResult (jobId : String) : Except JobStoreError String :=
  match d.record jobId, d.sidecar .result jobId with
  | none, _ => .error (.jobNotFound jobId)
  | some _, none => .error (.noResult jobId)
  | some _, some file => .ok file.body

/-- `write_checkpoint`. -/
def writeCheckpoint (jobId payload : String) (now : Timestamp) :
    Except JobStoreError JobRecord × JobDisk :=
  match d.record jobId with
  | none => (.error (.jobNotFound jobId), d)
  | some _ => (d.writeSidecar .checkpoint jobId payload).transition jobId .checkpoint now

/-- `read_checkpoint`. -/
def readCheckpoint (jobId : String) : Option String :=
  (d.sidecar .checkpoint jobId).map SidecarFile.body

/-- `import_terminal`. -/
def importTerminal (job : ImportedJob) (resultJson : String) :
    Except JobStoreError ImportOutcome × JobDisk :=
  match d.findImport job.orgId job.provenance with
  | some existing => (ImportOutcome.ofExisting existing job.provenance, d)
  | none =>
    if job.record.Valid then
      let stored := d.writeSidecar .result job.id resultJson
      let stored := match job.homepageHtml with
        | some html => stored.writeSidecar .homepage job.id html
        | none => stored
      (.ok ⟨job.record, false⟩, stored.writeRecord job.record)
    else (.error .invalidRecord, d)

/-- The loop of `recover_orphans` over the unfinished records of its listing. -/
def failOrphans (clock : Nat → Timestamp) :
    JobDisk → List JobRecord → Except JobStoreError (List String) × JobDisk
  | d, [] => (.ok [], d)
  | d, r :: rest =>
    match d.transition r.id (.markFailed (interruptedError r) (clock 0)) (clock 1) with
    | (.error e, d) => (.error e, d)
    | (.ok _, d) =>
      let (answer, d) := failOrphans (fun i => clock (i + 2)) d rest
      (answer.map (r.id :: ·), d)

/-- `recover_orphans`. -/
def recoverOrphans (clock : Nat → Timestamp) : Except JobStoreError (List String) × JobDisk :=
  failOrphans clock d (d.listJobs.filter fun r => ¬r.status.IsTerminal)

/-- `delete`. -/
def delete (jobId : String) : Except JobStoreError Unit × JobDisk :=
  match d.record jobId with
  | none => (.error (.jobNotFound jobId), d)
  | some _ =>
    (.ok (), StoreCall.sidecarKinds.foldl (fun d kind => d.unlinkSidecar kind jobId)
      (d.unlinkRecord jobId))

variable {d} in
theorem create_raises {job : NewJob} : (∃ e, (d.create job).1 = .error e) ↔ ¬job.record.Valid := by
  unfold create
  split <;> simp [*]

/-- What a call answers, and the directory it leaves. -/
def call (draw : Draw) : JobCall → Except JobStoreError JobAnswer × JobDisk
  | .create job => (d.create (job.drawn draw)).map (Except.map .record) id
  | .get jobId => ((d.get jobId).map .record, d)
  | .listJobs => (.ok (.records d.listJobs), d)
  | .markRunning jobId =>
    (d.transition jobId (.markRunning (draw.clock 0)) (draw.clock 1)).map (Except.map .record) id
  | .updateTelemetry jobId telemetry =>
    (d.transition jobId (.updateTelemetry telemetry) (draw.clock 0)).map (Except.map .record) id
  | .markFailed jobId error =>
    (d.transition jobId (.markFailed error (draw.clock 0)) (draw.clock 1)).map
      (Except.map .record) id
  | .finish jobId result isPartial error =>
    (d.finish jobId result isPartial error (draw.clock 0) (draw.clock 1)).map
      (Except.map .record) id
  | .readResult jobId => ((d.readResult jobId).map .payload, d)
  | .writeCheckpoint jobId payload =>
    (d.writeCheckpoint jobId payload (draw.clock 0)).map (Except.map fun _ => .done) id
  | .readCheckpoint jobId => (.ok (.checkpoint (d.readCheckpoint jobId)), d)
  | .importTerminal job _ resultJson =>
    (d.importTerminal (job.drawn draw) resultJson).map (Except.map .outcome) id
  | .recoverOrphans => (d.recoverOrphans draw.clock).map (Except.map .ids) id
  | .delete jobId => (d.delete jobId).map (Except.map fun _ => .done) id

end JobDisk

end Rankuno
