import Mathlib.Data.Rat.Init
import Rankuno.Python.Values

/-!
# Worker dispatch records

The records of `core/worker_dispatch_schemas.py`: a job pinned to the one
worker that may run it, and the preview token an operator confirms to queue it.
-/

namespace Rankuno

/-- The closed set of job kinds a worker daemon runs. -/
inductive WorkerJobKind where
  | screamingFrogCrawl
  deriving DecidableEq

inductive WorkerJobPhase where
  | crawling
  | exporting
  deriving DecidableEq

/-- Lifecycle of one dispatch job. `partialBundle` is the source's `PARTIAL`. -/
inductive WorkerJobStatus where
  | queued
  | dispatched
  | succeeded
  | partialBundle
  | failed
  deriving DecidableEq

namespace WorkerJobStatus

/-- The job is over. -/
def IsTerminal : WorkerJobStatus → Prop
  | queued | dispatched => False
  | succeeded | partialBundle | failed => True

/-- The job blocks its worker from being given another. -/
def IsActive : WorkerJobStatus → Prop
  | queued | dispatched => True
  | succeeded | partialBundle | failed => False

instance : DecidablePred IsTerminal := fun s => by
  cases s <;> unfold IsTerminal <;> infer_instance

instance : DecidablePred IsActive := fun s => by
  cases s <;> unfold IsActive <;> infer_instance

end WorkerJobStatus

/-- The minimal payload a worker needs to run one job. -/
structure WorkerJobEnvelope where
  jobId : String
  seedUrl : String
  templateName : Option String
  correlationId : String
  urlListSha256 : Option String
  deriving DecidableEq

/-- One row of `worker_jobs`. -/
structure WorkerJob where
  id : String
  orgId : String
  workerId : String
  kind : WorkerJobKind
  envelope : WorkerJobEnvelope
  status : WorkerJobStatus
  createdAt : Timestamp
  updatedAt : Timestamp
  dispatchedAt : Option Timestamp := none
  finishedAt : Option Timestamp := none
  error : Option String := none
  bundleSizeBytes : Option Nat := none
  pagesCrawled : Option Nat := none
  progressPct : Option Rat := none
  currentPhase : Option WorkerJobPhase := none
  urlListUrlCount : Option Nat := none
  deriving DecidableEq

/-- One row of `worker_dispatch_previews`: a minted token and what it approves. -/
structure DispatchPreview where
  token : String
  orgId : String
  workerId : String
  seedUrl : String
  templateName : Option String
  correlationId : String
  expiresAt : Timestamp
  urlListSha256 : Option String
  consumedAt : Option Timestamp := none
  deriving DecidableEq

end Rankuno
