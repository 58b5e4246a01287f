import Rankuno.Foundation.Machine
import Rankuno.WorkerDispatch.Store

/-!
# The routes over the dispatch store

A route runs several transactions, and any number of calls are in flight on any
number of replicas. A confirming call first finds no active job and later
consumes its token; a worker's report first reads the job it owns and later
updates it. Between the two parts any other step may come, so the state keeps
the calls in flight beside the store, and a call that is lost is never finished.
A retried message is one more call.
-/

namespace Rankuno

/-- `SPINE_FILENAME`. -/
def spineFilename : String := "internal_all.csv"

def emptyBundleError : String :=
  "The crawl produced no export files. Screaming Frog writes its exports only " ++
    "when a crawl finishes, so a run that was stopped, killed, or crashed before " ++
    "the end leaves an empty output folder. Nothing was recovered from this run — " ++
    "start the crawl again."

def missingSpineReason : String :=
  "The crawl uploaded its export files but not " ++ spineFilename ++
    ", the page list every report is built from. The files are kept and can be " ++
    "downloaded, but no report can be produced from them — run the crawl again."

/-- What a worker reports about a job it owns. An upload is told apart by what
the validated bundle holds. -/
inductive WorkerReport where
  | emptyUpload
  | upload (bundleSizeBytes : Nat) (spinePresent : Bool)
  | failure (error : String)
  | progress (pagesCrawled : Option Nat) (progressPct : Option Rat)
      (phase : Option WorkerJobPhase)
  deriving DecidableEq

namespace WorkerReport

/-- The store call the route ends in: `upload_bundle`, `report_failure` or
`report_progress`. -/
def apply (report : WorkerReport) (s : DispatchStore) (jobId : String) (now : Timestamp) :
    Except DispatchStoreError WorkerJob × DispatchStore :=
  match report with
  | .emptyUpload => s.markFailed jobId emptyBundleError now
  | .upload bundleSizeBytes spinePresent =>
    s.markUploaded jobId bundleSizeBytes (!spinePresent)
      (if spinePresent then none else some missingSpineReason) now
  | .failure error => s.markFailed jobId error now
  | .progress pagesCrawled progressPct phase =>
    s.updateJobProgress jobId pagesCrawled progressPct phase now

/-- The status the report assigns, if it assigns one. -/
def writes : WorkerReport → Option WorkerJobStatus
  | .emptyUpload => some .failed
  | .upload _ spinePresent => some (if spinePresent then .succeeded else .partialBundle)
  | .failure _ => some .failed
  | .progress _ _ _ => none

theorem isTerminal_of_writes {report : WorkerReport} {status : WorkerJobStatus}
    (h : report.writes = some status) : status.IsTerminal := by
  cases report with
  | emptyUpload =>
    cases h
    trivial
  | upload size spinePresent =>
    cases h
    cases spinePresent <;> trivial
  | failure error =>
    cases h
    trivial
  | progress pages pct phase => cases h

end WorkerReport

/-- The store, the confirming calls that found no active job, and the reports
whose job was read and found to be the reporting worker's own. -/
structure DispatchState where
  store : DispatchStore
  confirms : List ConfirmArgs
  reports : List (String × WorkerReport)
  deriving DecidableEq

/-- One transaction of a route, or of the sweep. Calls in flight are named by
their place in the list. -/
inductive DispatchEvent where
  | preview (row : DispatchPreview)
  | beginConfirm (args : ConfirmArgs)
  | finishConfirm (call : Nat) (urlListUrlCount : Option Nat) (jobId : String)
      (now : Timestamp)
  | claim (workerId orgId : String) (locked : List String) (now : Timestamp)
  | expire (orgId : String) (olderThan : Int) (checkedAt now : Timestamp)
  | beginReport (workerId orgId jobId : String) (report : WorkerReport)
  | finishReport (call : Nat) (now : Timestamp)
  deriving DecidableEq

namespace DispatchState

def empty : DispatchState := ⟨.empty, [], []⟩

/-- `owned_job`: the job exists and is this worker's. -/
def OwnedJob (s : DispatchState) (workerId orgId jobId : String) : Prop :=
  ∃ job ∈ s.store.jobs.find? jobId, job.orgId = orgId ∧ job.workerId = workerId

instance (s : DispatchState) (workerId orgId jobId : String) :
    Decidable (s.OwnedJob workerId orgId jobId) := by
  unfold OwnedJob
  infer_instance

def machine : Machine DispatchState DispatchEvent where
  step s
    | .preview row => some { s with store := (s.store.mintDispatchPreview row).2 }
    | .beginConfirm args =>
      if s.store.findActiveJob args.workerId args.orgId = none then
        some { s with confirms := s.confirms ++ [args] }
      else none
    | .finishConfirm call urlListUrlCount jobId now =>
      s.confirms[call]?.map fun args =>
        { s with
          store := (s.store.confirmDispatch args urlListUrlCount jobId now).2
          confirms := s.confirms.eraseIdx call }
    | .claim workerId orgId locked now =>
      some { s with store := (s.store.claimNextJob workerId orgId locked now).2 }
    | .expire orgId olderThan checkedAt now =>
      some { s with store := (s.store.expireStaleDispatched orgId olderThan checkedAt now).2 }
    | .beginReport workerId orgId jobId report =>
      if s.OwnedJob workerId orgId jobId then
        some { s with reports := s.reports ++ [(jobId, report)] }
      else none
    | .finishReport call now =>
      s.reports[call]?.map fun (jobId, report) =>
        { s with
          store := (report.apply s.store jobId now).2
          reports := s.reports.eraseIdx call }

def job (s : DispatchState) (id : String) : Option WorkerJob := s.store.jobs.find? id

end DispatchState

end Rankuno
