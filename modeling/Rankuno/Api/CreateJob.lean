import Rankuno.JobStore.Lifecycle

/-!
# Creating a job under an idempotency key

`create_job` in `api/server.py`. A call looks its key up, may wait while the
deletion password is hashed, and then starts the crawl and records the key.
While it waits any other call may run, so the state keeps the calls that wait.
What the rest of the server decides for a call, such as the free slots or the
reading of a URL, is part of the event. The registry lives as long as the
process, which is what a run here is.
-/

namespace Rankuno

/-- What `create_job` reads of an `OrgConfig`. -/
structure OrgConfig where
  isActive : Bool
  llmCreditLimitUsd : Rat
  deriving DecidableEq

/-- What `create_job` reads of its payload. `dump` is the payload as the store
keeps it, without the password. -/
structure CrawlPayload where
  baseUrl : String
  gscAccount : Option String
  ga4PropertyId : Option String
  deletionPassword : Option String
  dump : String
  deriving DecidableEq

structure CreateJobRequest where
  orgId : String
  facetId : String
  idempotencyKey : Option String
  payload : CrawlPayload
  deriving DecidableEq

/-- `if idempotency_key`: an empty header is no key. -/
def CreateJobRequest.key? (request : CreateJobRequest) : Option String :=
  request.idempotencyKey.filter (· ≠ "")

structure JobAccepted where
  id : String
  status : JobStatus
  label : String
  deriving DecidableEq

/-- What a call finds before it looks at its key: whether the operator's bucket
has a token, and the organization's settings. -/
structure FrontDoor where
  tokenLeft : Bool
  orgConfig : Option OrgConfig
  deriving DecidableEq

/-- The refusals of `create_job` before the key is looked at. -/
def FrontDoor.refusal (front : FrontDoor) (orgId : String) : Option HTTPException :=
  if ¬front.tokenLeft then
    some { status := 429, detail := "too many requests from this session; please slow down" }
  else
    match front.orgConfig with
    | none => some { status := 404, detail := "organization '" ++ orgId ++ "' not found" }
    | some config =>
      if ¬config.isActive then
        some { status := 403, detail := "organization '" ++ orgId ++ "' is inactive" }
      else if config.llmCreditLimitUsd ≤ 0 then
        some { status := 402, detail := "organization '" ++ orgId ++ "' has no budget" }
      else none

/-- What `validate_org_access` answers. -/
inductive FacetAccess where
  | allowed
  | unknownFacet (message : String)
  | denied
  deriving DecidableEq

/-- What `_start` finds when a call reaches it. `ga4Property` is `none` on a
server without a GA4 store, `freeSlot` what `try_reserve` answers, and a store
that is `storable` draws `newId` and the moment for the record. -/
structure StartDesk where
  facetAccess : FacetAccess
  unsafeUrl : Option String
  gscAccountNames : List String
  ga4Property : Option (Option String)
  freeSlot : Bool
  maxConcurrent : Nat
  storable : Bool
  newId : String
  moment : Timestamp
  deriving DecidableEq

/-- The refusals of `_start`, in its order. -/
def StartDesk.refusal (desk : StartDesk) (request : CreateJobRequest) : Option HTTPException :=
  match desk.facetAccess with
  | .unknownFacet message => some { status := 400, detail := message }
  | .denied =>
    some {
      status := 403
      detail := "organization '" ++ orDefault request.orgId "default" ++
        "' does not have access to facet '" ++ request.facetId ++ "'" }
  | .allowed =>
    match desk.unsafeUrl with
    | some message => some { status := 400, detail := message }
    | none =>
      if request.payload.gscAccount.any (· ∉ desk.gscAccountNames) then
        some {
          status := 400
          detail := "unknown GSC account '" ++ request.payload.gscAccount.getD "" ++ "'" }
      else if request.payload.ga4PropertyId.isSome ∧ desk.ga4Property = none then
        some { status := 400, detail := "GA4 is not configured on this server" }
      else if request.payload.ga4PropertyId.isSome ∧
          desk.ga4Property ≠ some request.payload.ga4PropertyId then
        some {
          status := 400
          detail := "the requested GA4 property is not mapped for this organisation" }
      else if ¬desk.freeSlot then
        some {
          status := 429
          detail := "facet '" ++ request.facetId ++ "' is at capacity (" ++
            toString desk.maxConcurrent ++ " concurrent); please retry in a moment" }
      else if ¬desk.storable then some { status := 500, detail := "Internal Server Error" }
      else none

/-- The record `_start` stores. -/
def StartDesk.newJob (desk : StartDesk) (request : CreateJobRequest)
    (passwordHash : Option String) : NewJob where
  id := desk.newId
  toolName := "seo.page_classifier"
  label := request.payload.baseUrl
  orgId := some request.orgId
  facetId := request.facetId
  request := request.payload.dump
  passwordHash := passwordHash
  moment := desk.moment

/-- One entry of `_idempotency_registry`. -/
structure IdempotencyEntry where
  orgId : String
  key : String
  jobId : String
  deriving DecidableEq

def IdempotencyEntry.pair (e : IdempotencyEntry) : String × String := (e.orgId, e.key)

/-- The records, the registry, and the calls that wait for their hash. The
entries ever `made` and the ids ever `used` are there to state what holds. -/
structure JobIntake where
  disk : JobDisk
  registry : Table (String × String) IdempotencyEntry.pair
  hashing : List CreateJobRequest
  made : List IdempotencyEntry
  used : List String
  deriving DecidableEq

namespace JobIntake

/-- A server that starts on the jobs it finds. -/
def start (disk : JobDisk) : JobIntake := ⟨disk, .empty, [], [], disk.records.rows.map JobRecord.id⟩

def record (s : JobIntake) (id : String) : Option JobRecord := s.disk.record id

/-- `_check_idempotency_key`: an entry whose job is gone is dropped. -/
def checkIdempotencyKey (s : JobIntake) (orgId key : String) : Option JobRecord × JobIntake :=
  match s.registry.find? (orgId, key) with
  | none => (none, s)
  | some entry =>
    match s.record entry.jobId with
    | some r => (some r, s)
    | none => (none, { s with registry := s.registry.delete fun e => e.pair = (orgId, key) })

/-- `_store_idempotency_key`. -/
def storeIdempotencyKey (s : JobIntake) (orgId key jobId : String) : JobIntake :=
  { s with
    registry := s.registry.put ⟨orgId, key, jobId⟩
    made := ⟨orgId, key, jobId⟩ :: s.made }

/-- `_start`. -/
def startJob (s : JobIntake) (request : CreateJobRequest) (passwordHash : Option String)
    (desk : StartDesk) : Except HTTPException JobAccepted × JobIntake :=
  match desk.refusal request with
  | some refused => (.error refused, s)
  | none =>
    let r := (desk.newJob request passwordHash).record
    (.ok ⟨r.id, r.status, r.label⟩, { s with disk := s.disk.writeRecord r, used := r.id :: s.used })

/-- `create_job` from the hash on. -/
def finishCreate (s : JobIntake) (request : CreateJobRequest) (passwordHash : Option String)
    (desk : StartDesk) : Except HTTPException JobAccepted × JobIntake :=
  match s.startJob request passwordHash desk, request.key? with
  | (.ok accepted, t), some key => (.ok accepted, t.storeIdempotencyKey request.orgId key accepted.id)
  | answer, _ => answer

/-- The job a request's key stands for, if it has a key. -/
def existingJob (s : JobIntake) (request : CreateJobRequest) : Option JobRecord × JobIntake :=
  match request.key? with
  | some key => s.checkIdempotencyKey request.orgId key
  | none => (none, s)

/-- `create_job` past its first refusals: it answers with the job its key
stands for, waits for a hash, or goes on to the end. -/
def lookUpAndCreate (s : JobIntake) (request : CreateJobRequest) (desk : StartDesk) :
    Option (Except HTTPException JobAccepted) × JobIntake :=
  match s.existingJob request with
  | (some r, t) => (some (.ok ⟨r.id, r.status, r.label⟩), t)
  | (none, t) =>
    if request.payload.deletionPassword.isSome then
      (none, { t with hashing := t.hashing ++ [request] })
    else
      let answer := t.finishCreate request none desk
      (some answer.1, answer.2)

/-- `create_job` until it answers or waits. -/
def createJob (s : JobIntake) (request : CreateJobRequest) (front : FrontDoor)
    (desk : StartDesk) : Option (Except HTTPException JobAccepted) × JobIntake :=
  match front.refusal request.orgId with
  | some refused => (some (.error refused), s)
  | none => s.lookUpAndCreate request desk

end JobIntake

inductive IntakeEvent where
  | createJob (request : CreateJobRequest) (front : FrontDoor) (desk : StartDesk)
  | hashed (call : Nat) (passwordHash : String) (desk : StartDesk)
  | transition (jobId : String) (change : RecordChange) (now : Timestamp)
  | writeNew (r : JobRecord)
  | delete (jobId : String)
  deriving DecidableEq

namespace JobIntake

/-- Every interleaving of the calls at their one await, with the crawls that
move the records, the other routes that write new ones, and the deletions.
`uuid4` never draws an id twice. -/
def machine : Machine JobIntake IntakeEvent where
  step s
    | .createJob request front desk =>
      if desk.newId ∈ s.used then none else some (s.createJob request front desk).2
    | .hashed call passwordHash desk =>
      if desk.newId ∈ s.used then none
      else
        s.hashing[call]?.map fun request =>
          ({ s with hashing := s.hashing.eraseIdx call }.finishCreate request
            (some passwordHash) desk).2
    | .transition jobId change now =>
      some { s with disk := (s.disk.transition jobId change now).2 }
    | .writeNew r =>
      if r.id ∈ s.used then none
      else some { s with disk := s.disk.writeRecord r, used := r.id :: s.used }
    | .delete jobId => some { s with disk := s.disk.unlinkRecord jobId }

end JobIntake

end Rankuno
