import Rankuno.Foundation.LockedSections
import Rankuno.Foundation.Table
import Rankuno.JobStore.Record

/-!
# The files of the disk job store

`DiskJobStore` in `core/state_store.py` keeps one record file a job and, beside
it, a file for each blob the job has. Writing, replacing and unlinking one file
is one atomic step. A store method is a list of sections under the store's
lock, written here as the file operations the method performs, in their order.
-/

namespace Rankuno

/-- The files a job may have beside its record. -/
inductive SidecarKind where
  | result
  | checkpoint
  | homepage
  | reconciliation
  | performance
  | gscQueries
  | deleteLockout
  deriving DecidableEq

structure SidecarFile where
  kind : SidecarKind
  jobId : String
  body : String
  deriving DecidableEq

def SidecarFile.path (f : SidecarFile) : SidecarKind × String := (f.kind, f.jobId)

/-- The directory: the readable records, and the other files. -/
structure JobDisk where
  records : Table String JobRecord.id
  sidecars : Table (SidecarKind × String) SidecarFile.path
  deriving DecidableEq

namespace JobDisk

def empty : JobDisk := ⟨.empty, .empty⟩

def record (d : JobDisk) (id : String) : Option JobRecord := d.records.find? id

def sidecar (d : JobDisk) (kind : SidecarKind) (id : String) : Option SidecarFile :=
  d.sidecars.find? (kind, id)

def writeRecord (d : JobDisk) (r : JobRecord) : JobDisk := { d with records := d.records.put r }

def unlinkRecord (d : JobDisk) (id : String) : JobDisk :=
  { d with records := d.records.delete fun r => r.id = id }

def writeSidecar (d : JobDisk) (kind : SidecarKind) (id body : String) : JobDisk :=
  { d with sidecars := d.sidecars.put ⟨kind, id, body⟩ }

/-- `unlink(missing_ok=True)`. -/
def unlinkSidecar (d : JobDisk) (kind : SidecarKind) (id : String) : JobDisk :=
  { d with sidecars := d.sidecars.delete fun f => f.kind = kind ∧ f.jobId = id }

section Lookups

variable (d : JobDisk) (r : JobRecord) (kind k : SidecarKind) (id i body : String)

theorem writeRecord_record : (d.writeRecord r).record i = if r.id = i then some r else d.record i :=
  Table.find?_put

@[simp] theorem writeRecord_sidecar : (d.writeRecord r).sidecar k i = d.sidecar k i := rfl

theorem unlinkRecord_record :
    (d.unlinkRecord id).record i = if id = i then none else d.record i := by
  show (d.records.delete _).find? i = _
  rw [Table.find?_delete]
  cases h : d.record i with
  | none =>
    rw [record] at h
    rw [h]
    simp
  | some r =>
    rw [record] at h
    rw [h]
    obtain ⟨-, rfl⟩ := Table.find?_eq_some.mp h
    by_cases same : id = r.id
    · simp [Option.filter_some, same]
    · simp [Option.filter_some, same, Ne.symm same]

@[simp] theorem unlinkRecord_sidecar : (d.unlinkRecord id).sidecar k i = d.sidecar k i := rfl

@[simp] theorem writeSidecar_record : (d.writeSidecar kind id body).record i = d.record i := rfl

theorem writeSidecar_sidecar : (d.writeSidecar kind id body).sidecar k i =
    if kind = k ∧ id = i then some ⟨kind, id, body⟩ else d.sidecar k i := by
  show (d.sidecars.put _).find? (k, i) = _
  rw [Table.find?_put]
  simp only [SidecarFile.path, Prod.mk.injEq]
  rfl

@[simp] theorem unlinkSidecar_record : (d.unlinkSidecar kind id).record i = d.record i := rfl

theorem unlinkSidecar_sidecar : (d.unlinkSidecar kind id).sidecar k i =
    if kind = k ∧ id = i then none else d.sidecar k i := by
  show (d.sidecars.delete _).find? (k, i) = _
  rw [Table.find?_delete]
  cases h : d.sidecar k i with
  | none =>
    rw [sidecar] at h
    rw [h]
    simp
  | some f =>
    rw [sidecar] at h
    rw [h]
    obtain ⟨-, hpath⟩ := Table.find?_eq_some.mp h
    obtain ⟨rfl, rfl⟩ := Prod.mk.inj hpath
    by_cases same : kind = f.kind ∧ id = f.jobId
    · simp [Option.filter_some, same]
    · have other : ¬(f.kind = kind ∧ f.jobId = id) :=
        fun h => same ⟨h.1.symm, h.2.symm⟩
      simp [Option.filter_some, same, other]

end Lookups

/-- `_find_import`: the org's earlier import of the same source job. -/
def findImport (d : JobDisk) (orgId : String) (source : JobProvenance) : Option JobRecord :=
  d.records.rows.find? fun r =>
    decide (r.orgId = orgId) && r.provenance.any fun found =>
      decide (found.sourceInstanceId = source.sourceInstanceId ∧
        found.sourceJobId = source.sourceJobId)

end JobDisk

/-- The directory, every id a record was ever written for, and every id whose
record was unlinked. The last two are there to state what holds; `uuid4` never
draws an id twice, so a new record's id is none of the used ones. -/
structure JobFiles where
  disk : JobDisk
  used : List String
  deleted : List String
  deriving DecidableEq

/-- One file operation of a store method, or one check between two of them. -/
inductive FileOp where
  /-- `_read`: raises when there is no record. -/
  | readRecord (id : String)
  /-- `_write` of the record read last, changed. -/
  | writeChanged (change : RecordChange) (now : Timestamp)
  /-- `_write` of a record under a newly drawn id. -/
  | writeNew (r : JobRecord)
  | writeSidecar (kind : SidecarKind) (id body : String)
  /-- `_find_import`: an earlier import ends the method here, with the earlier
  record or an `ImportConflictError`. -/
  | requireNoImport (orgId : String) (source : JobProvenance)
  /-- `record_path.exists()`: raises when there is no record. -/
  | requireRecord (id : String)
  | unlinkRecord (id : String)
  | unlinkSidecar (kind : SidecarKind) (id : String)
  deriving DecidableEq

namespace FileOp

/-- Carry out one operation. The variable is the record that was read last. -/
def exec (op : FileOp) (s : JobFiles) (held : Option JobRecord) :
    Option (JobFiles × Option JobRecord) :=
  match op with
  | .readRecord id => (s.disk.record id).map fun r => (s, some r)
  | .writeChanged change now =>
    held.map fun r => ({ s with disk := s.disk.writeRecord (change.apply now r) }, held)
  | .writeNew r =>
    if r.id ∈ s.used then none
    else some ({ s with disk := s.disk.writeRecord r, used := r.id :: s.used }, held)
  | .writeSidecar kind id body =>
    some ({ s with disk := s.disk.writeSidecar kind id body }, held)
  | .requireNoImport orgId source =>
    if (s.disk.findImport orgId source).isSome then none else some (s, held)
  | .requireRecord id => if (s.disk.record id).isSome then some (s, held) else none
  | .unlinkRecord id =>
    if (s.disk.record id).isSome then
      some ({ s with disk := s.disk.unlinkRecord id, deleted := id :: s.deleted }, held)
    else none
  | .unlinkSidecar kind id => some ({ s with disk := s.disk.unlinkSidecar kind id }, held)

end FileOp

/-- A call of a store method. A body is the text the method saves. -/
inductive StoreCall where
  | create (job : NewJob)
  | markRunning (jobId : String) (startedAt now : Timestamp)
  | updateTelemetry (jobId telemetry : String) (now : Timestamp)
  | markFailed (jobId error : String) (finishedAt now : Timestamp)
  | finish (jobId body : String) (isPartial : Bool) (error : Option String)
      (finishedAt now : Timestamp)
  | writeCheckpoint (jobId body : String) (now : Timestamp)
  | importTerminal (job : ImportedJob) (resultJson : String)
  | delete (jobId : String)
  deriving DecidableEq

namespace StoreCall

/-- The section of `_transition`. -/
def transitionSection (jobId : String) (change : RecordChange) (now : Timestamp) : List FileOp :=
  [.readRecord jobId, .writeChanged change now]

/-- The files `delete` unlinks after the record. -/
def sidecarKinds : List SidecarKind :=
  [.result, .checkpoint, .homepage, .reconciliation, .performance, .gscQueries, .deleteLockout]

/-- The locked sections of each method. -/
def sections : StoreCall → List (List FileOp)
  | .create job => [[.writeNew job.record]]
  | .markRunning jobId startedAt now => [transitionSection jobId (.markRunning startedAt) now]
  | .updateTelemetry jobId telemetry now =>
    [transitionSection jobId (.updateTelemetry telemetry) now]
  | .markFailed jobId error finishedAt now =>
    [transitionSection jobId (.markFailed error finishedAt) now]
  | .finish jobId body isPartial error finishedAt now =>
    [[.readRecord jobId, .writeSidecar .result jobId body],
      transitionSection jobId (.finish isPartial error finishedAt) now]
  | .writeCheckpoint jobId body now =>
    [[.readRecord jobId, .writeSidecar .checkpoint jobId body],
      transitionSection jobId .checkpoint now]
  | .importTerminal job resultJson =>
    [.requireNoImport job.orgId job.provenance :: .writeSidecar .result job.id resultJson ::
      (job.homepageHtml.toList.map fun html => .writeSidecar .homepage job.id html) ++
        [.writeNew job.record]]
  | .delete jobId =>
    [.requireRecord jobId :: .unlinkRecord jobId ::
      sidecarKinds.map fun kind => .unlinkSidecar kind jobId]

end StoreCall

/-- The store's methods, as programs over its files. -/
def diskJobStore : LockedProgram JobFiles (Option JobRecord) FileOp StoreCall where
  exec := FileOp.exec
  vars := none
  sections := StoreCall.sections

end Rankuno
