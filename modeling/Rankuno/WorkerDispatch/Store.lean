import Rankuno.Foundation.Table
import Rankuno.WorkerDispatch.Schemas

/-!
# The dispatch store's transactions

Each method of `PostgresWorkerDispatchStore` is one database transaction, so
here one function from the two tables to the tables after it. The `WHERE`
clauses and assignments are those of the SQL. A clock reading, a fresh id and
the rows another transaction has locked are arguments.
-/

namespace Rankuno

/-- Why a store method raises: the id names no row, or the database refused. -/
inductive DispatchStoreError where
  | workerJobNotFound (jobId : String)
  | dispatchStoreUnavailable
  deriving DecidableEq

structure DispatchStore where
  previews : Table String DispatchPreview.token
  jobs : Table String WorkerJob.id
  deriving DecidableEq

/-- What `confirm_dispatch` is called with. -/
structure ConfirmArgs where
  token : String
  orgId : String
  workerId : String
  seedUrl : String
  templateName : Option String
  correlationId : String
  urlListSha256 : Option String
  deriving DecidableEq

namespace DispatchStore

def empty : DispatchStore := ⟨.empty, .empty⟩

/-- The first of the rows with the least `created_at`. -/
def oldest : List WorkerJob → Option WorkerJob
  | [] => none
  | j :: js =>
    match oldest js with
    | none => some j
    | some k => if k.createdAt < j.createdAt then some k else some j

/-- `mint_dispatch_preview`. A token already in use violates the primary key. -/
def mintDispatchPreview (s : DispatchStore) (row : DispatchPreview) :
    Except DispatchStoreError DispatchPreview × DispatchStore :=
  match s.previews.insert? { row with consumedAt := none } with
  | none => (.error .dispatchStoreUnavailable, s)
  | some previews => (.ok { row with consumedAt := none }, { s with previews := previews })

/-- The `WHERE` clause that consumes a preview. -/
def Consumes (args : ConfirmArgs) (now : Timestamp) (row : DispatchPreview) : Prop :=
  row.token = args.token ∧ row.orgId = args.orgId ∧ row.workerId = args.workerId ∧
    row.seedUrl = args.seedUrl ∧ row.templateName = args.templateName ∧
    row.urlListSha256 = args.urlListSha256 ∧ row.correlationId = args.correlationId ∧
    row.consumedAt = none ∧ now < row.expiresAt

instance (args : ConfirmArgs) (now : Timestamp) : DecidablePred (Consumes args now) := by
  intro row
  unfold Consumes
  infer_instance

/-- The row `confirm_dispatch` inserts. -/
def queuedJob (args : ConfirmArgs) (urlListUrlCount : Option Nat) (jobId : String)
    (now : Timestamp) : WorkerJob where
  id := jobId
  orgId := args.orgId
  workerId := args.workerId
  kind := .screamingFrogCrawl
  envelope :=
    { jobId := jobId
      seedUrl := args.seedUrl
      templateName := args.templateName
      correlationId := args.correlationId
      urlListSha256 := args.urlListSha256 }
  status := .queued
  createdAt := now
  updatedAt := now
  urlListUrlCount := urlListUrlCount

def consumed (now : Timestamp) (row : DispatchPreview) : DispatchPreview :=
  { row with consumedAt := some now }

theorem consumed_token (now : Timestamp) (row : DispatchPreview) :
    (consumed now row).token = row.token := rfl

/-- Consume the preview, which no clause of the condition lets happen twice. -/
def consume (previews : Table String DispatchPreview.token) (args : ConfirmArgs)
    (now : Timestamp) : Table String DispatchPreview.token :=
  previews.update (fun row => Consumes args now row) (consumed now) (consumed_token now)

/-- `confirm_dispatch`: consume the preview and queue the job, or do neither. -/
def confirmDispatch (s : DispatchStore) (args : ConfirmArgs) (urlListUrlCount : Option Nat)
    (jobId : String) (now : Timestamp) :
    Except DispatchStoreError (Option WorkerJob) × DispatchStore :=
  if s.previews.rows.any fun row => Consumes args now row then
    match s.jobs.insert? (queuedJob args urlListUrlCount jobId now) with
    | none => (.error .dispatchStoreUnavailable, s)
    | some jobs =>
      (.ok (some (queuedJob args urlListUrlCount jobId now)), ⟨consume s.previews args now, jobs⟩)
  else (.ok none, s)

/-- The row `claim_next_job` selects: the oldest queued one pinned to the
worker, past those another transaction has locked. -/
def nextJob (s : DispatchStore) (workerId orgId : String) (locked : List String) :
    Option WorkerJob :=
  oldest (s.jobs.rows.filter fun j =>
    j.workerId = workerId ∧ j.orgId = orgId ∧ j.status = .queued ∧ j.id ∉ locked)

def claimed (now : Timestamp) (j : WorkerJob) : WorkerJob :=
  { j with status := .dispatched, dispatchedAt := some now, updatedAt := now }

theorem claimed_id (now : Timestamp) (j : WorkerJob) : (claimed now j).id = j.id := rfl

/-- `claim_next_job`. -/
def claimNextJob (s : DispatchStore) (workerId orgId : String) (locked : List String)
    (now : Timestamp) : Option WorkerJob × DispatchStore :=
  match s.nextJob workerId orgId locked with
  | none => (none, s)
  | some job =>
    (some (claimed now job),
      { s with jobs := s.jobs.update (fun j => j.id = job.id) (claimed now) (claimed_id now) })

/-- `get_job`. -/
def getJob (s : DispatchStore) (jobId : String) : Except DispatchStoreError WorkerJob :=
  match s.jobs.find? jobId with
  | none => .error (.workerJobNotFound jobId)
  | some job => .ok job

/-- The rows `expire_stale_dispatched` sweeps. -/
def IsStale (orgId : String) (cutoff : Timestamp) (j : WorkerJob) : Prop :=
  j.orgId = orgId ∧ j.status = .dispatched ∧ ∃ t ∈ j.dispatchedAt, t < cutoff

instance (orgId : String) (cutoff : Timestamp) : DecidablePred (IsStale orgId cutoff) := by
  intro j
  unfold IsStale
  infer_instance

/-- What the sweep tells the operator. `olderThan` is in microseconds. -/
def staleError (olderThan : Int) : String :=
  "the worker stopped reporting after claiming this job; no result arrived within " ++
    toString (olderThan / 1000000) ++
    "s. Start the worker daemon and launch the crawl again."

def expired (olderThan : Int) (now : Timestamp) (j : WorkerJob) : WorkerJob :=
  { j with
    status := .failed
    error := some (staleError olderThan)
    updatedAt := now
    finishedAt := some now }

theorem expired_id (olderThan : Int) (now : Timestamp) (j : WorkerJob) :
    (expired olderThan now j).id = j.id := rfl

/-- `expire_stale_dispatched`, with the number of rows swept. The clock is read
once for the cutoff and once for the assigned times. -/
def expireStaleDispatched (s : DispatchStore) (orgId : String) (olderThan : Int)
    (checkedAt now : Timestamp) : Nat × DispatchStore :=
  let cutoff := checkedAt - olderThan
  (s.jobs.rows.countP fun j => IsStale orgId cutoff j,
    { s with
      jobs := s.jobs.update (fun j => IsStale orgId cutoff j) (expired olderThan now)
        (expired_id olderThan now) })

/-- The assignments of `_transition`. An extra column that is not passed keeps
its value. -/
def transitioned (status : WorkerJobStatus) (bundleSizeBytes : Option Nat)
    (error : Option String) (now : Timestamp) (j : WorkerJob) : WorkerJob :=
  { j with
    status := status
    updatedAt := now
    finishedAt := some now
    bundleSizeBytes := bundleSizeBytes <|> j.bundleSizeBytes
    error := error <|> j.error }

theorem transitioned_id (status : WorkerJobStatus) (bundleSizeBytes : Option Nat)
    (error : Option String) (now : Timestamp) (j : WorkerJob) :
    (transitioned status bundleSizeBytes error now j).id = j.id := rfl

/-- `_transition`: an `UPDATE` whose only condition is the id. -/
def transition (s : DispatchStore) (jobId : String) (status : WorkerJobStatus)
    (bundleSizeBytes : Option Nat) (error : Option String) (now : Timestamp) :
    Except DispatchStoreError WorkerJob × DispatchStore :=
  match s.jobs.find? jobId with
  | none => (.error (.workerJobNotFound jobId), s)
  | some job =>
    (.ok (transitioned status bundleSizeBytes error now job),
      { s with
        jobs := s.jobs.update (fun j => j.id = jobId)
          (transitioned status bundleSizeBytes error now)
          (transitioned_id status bundleSizeBytes error now) })

/-- `mark_uploaded`. -/
def markUploaded (s : DispatchStore) (jobId : String) (bundleSizeBytes : Nat)
    (isPartial : Bool) (reason : Option String) (now : Timestamp) :
    Except DispatchStoreError WorkerJob × DispatchStore :=
  s.transition jobId (if isPartial then .partialBundle else .succeeded) (some bundleSizeBytes)
    reason now

/-- `mark_failed`. -/
def markFailed (s : DispatchStore) (jobId error : String) (now : Timestamp) :
    Except DispatchStoreError WorkerJob × DispatchStore :=
  s.transition jobId .failed none (some error) now

/-- The columns a progress report overwrites. -/
def progressed (pagesCrawled : Option Nat) (progressPct : Option Rat)
    (phase : Option WorkerJobPhase) (now : Timestamp) (j : WorkerJob) : WorkerJob :=
  { j with
    pagesCrawled := pagesCrawled
    progressPct := progressPct
    currentPhase := phase
    updatedAt := now }

theorem progressed_id (pagesCrawled : Option Nat) (progressPct : Option Rat)
    (phase : Option WorkerJobPhase) (now : Timestamp) (j : WorkerJob) :
    (progressed pagesCrawled progressPct phase now j).id = j.id := rfl

/-- `update_job_progress`, which assigns no status. -/
def updateJobProgress (s : DispatchStore) (jobId : String) (pagesCrawled : Option Nat)
    (progressPct : Option Rat) (phase : Option WorkerJobPhase) (now : Timestamp) :
    Except DispatchStoreError WorkerJob × DispatchStore :=
  match s.jobs.find? jobId with
  | none => (.error (.workerJobNotFound jobId), s)
  | some job =>
    (.ok (progressed pagesCrawled progressPct phase now job),
      { s with
        jobs := s.jobs.update (fun j => j.id = jobId)
          (progressed pagesCrawled progressPct phase now)
          (progressed_id pagesCrawled progressPct phase now) })

/-- `find_active_job`: the oldest job that blocks this worker, if any. -/
def findActiveJob (s : DispatchStore) (workerId orgId : String) : Option WorkerJob :=
  oldest (s.jobs.rows.filter fun j =>
    j.workerId = workerId ∧ j.orgId = orgId ∧ j.status.IsActive)

end DispatchStore

end Rankuno
