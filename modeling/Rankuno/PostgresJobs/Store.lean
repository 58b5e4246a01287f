import Rankuno.PostgresJobs.Database
import Rankuno.Resilience.CircuitBreaker

/-!
# The Postgres job store

`PostgresJobStore` of `core/postgres_store.py`. Each method asks the circuit
breaker first, runs one transaction, and turns to the disk store while the
circuit is open; an import and a deletion refuse instead. What a call meets on
its way, the fault its transaction ends in and every reading of a clock, is
handed in.
-/

universe u

namespace Rankuno

/-- How a transaction meets the database. The driver raises in the last two:
nothing is committed, or everything is and the answer is lost. -/
inductive DatabaseFault where
  | none
  | aborted
  | unacknowledged
  deriving DecidableEq

/-- What one call meets: its fault, what the two stores draw, and the times the
breaker reads when it is asked, told of a failure and asked again. -/
structure CallConditions (τ : Type u) where
  fault : DatabaseFault := .none
  draw : Draw
  fallbackDraw : Draw
  checkedAt : τ
  failedAt : τ
  recheckedAt : τ

structure PostgresJobStore (τ : Type u) where
  circuitBreaker : CircuitBreaker τ
  fallbackStore : JobDisk

/-- What a method returns or raises, and what it leaves. -/
structure Reply (τ : Type u) (β : Type) where
  answer : Except JobStoreError β
  store : PostgresJobStore τ
  database : JobDatabase

def Reply.map {τ : Type u} {β γ : Type} (f : β → γ) (reply : Reply τ β) : Reply τ γ :=
  { reply with answer := reply.answer.map f }

/-- `_row_to_job_record`, which validates the row again. -/
def rowToJobRecord (row : JobRecord) : Except JobStoreError JobRecord :=
  if row.Valid then .ok row else .error .invalidRecord

theorem rowToJobRecord_raises {row : JobRecord} :
    (∃ e, rowToJobRecord row = .error e) ↔ ¬row.Valid := by
  unfold rowToJobRecord
  split <;> simp [*]

/-- The row of a job that is looked up by id. -/
def foundRow (jobId : String) : Option JobRecord → Except JobStoreError JobRecord
  | none => .error (.jobNotFound jobId)
  | some row => rowToJobRecord row

/-- A statement that fails raises what the driver does. -/
def executed {α : Type} : Except DatabaseError α → Except JobStoreError α :=
  Except.mapError .database

theorem executed_eq_ok {α : Type} {x : Except DatabaseError α} {a : α} :
    executed x = .ok a ↔ x = .ok a := by
  cases x <;> simp [executed, Except.mapError]

namespace JobDatabase

variable (db : JobDatabase)

/-- The charge `create` makes, in cents. -/
def estimatedCost : Int := 50

/-- The transaction of `create`. -/
def createJob (job : NewJob) : Except JobStoreError (Unit × JobDatabase) :=
  match db.creditLimit job.record.orgId with
  | none => .error (.noBudget job.record.orgId)
  | some limit =>
    if limit ≤ 0 then .error (.noBudget job.record.orgId)
    else do
      let created ← executed (db.insertJob job.record)
      let charged ← executed (created.insertCharge ⟨job.record.orgId, job.id, estimatedCost⟩)
      .ok ((), charged)

/-- `SELECT ... ORDER BY created_at DESC`. -/
def selectJobs : List JobRecord :=
  db.jobs.rows.insertionSort fun r q => q.createdAt ≤ r.createdAt

/-- The transaction of `_transition`, with the row it returns. -/
def transition (jobId : String) (change : RecordChange) (now : Timestamp) :
    Option JobRecord × JobDatabase :=
  let updated := db.updateJobs (fun r => r.id = jobId) (fun _ => change) now
  (updated.job jobId, updated)

/-- The transaction of `finish`. -/
def finish (jobId result : String) (isPartial : Bool) (error : Option String)
    (now : Timestamp) : Except JobStoreError (Option JobRecord × JobDatabase) :=
  match db.job jobId with
  | none => .error (.jobNotFound jobId)
  | some _ => do
      let stored ← executed
        (db.upsertPayload jobId (fun p => { p with result := some result }) fun _ => rfl)
      .ok (stored.transition jobId (.finish isPartial error now) now)

/-- The query of `read_result`: the id and the result of a job. -/
def selectResult (jobId : String) : Option (String × Option String) :=
  (db.job jobId).map fun r => (r.id, (db.payload jobId).bind JobPayload.result)

/-- The transaction of `write_checkpoint`. -/
def writeCheckpoint (jobId payload : String) (now : Timestamp) :
    Except JobStoreError (Unit × JobDatabase) :=
  match db.job jobId with
  | none => .error (.jobNotFound jobId)
  | some _ => do
      let stored ← executed
        (db.upsertPayload jobId (fun p => { p with checkpoint := some payload }) fun _ => rfl)
      .ok ((), (stored.transition jobId .checkpoint now).2)

/-- The statement of `recover_orphans`, with the ids it returns. -/
def recoverOrphans (now : Timestamp) : List String × JobDatabase :=
  ((db.jobs.rows.filter fun r => r.status ∈ [.queued, .running]).map JobRecord.id,
    db.updateJobs (fun r => r.status ∈ [.queued, .running])
      (fun r => .markFailed (interruptedError r) now) now)

/-- The query of `_import_once`. -/
def findImport (orgId : String) (source : JobProvenance) : Option JobRecord :=
  db.jobs.rows.find? fun r =>
    decide (r.importSource = some (orgId, source.sourceInstanceId, source.sourceJobId))

/-- The insertions of `_import_once`, with the row they return. -/
def insertImport (job : ImportedJob) (resultJson : String) :
    Except DatabaseError (JobRecord × JobDatabase) := do
  let inserted ← db.insertJob job.record
  let stored ← inserted.upsertPayload job.id
    (fun p => { p with result := some resultJson, homepageHtml := job.homepageHtml }) fun _ => rfl
  .ok (job.record, stored)

/-- The transaction of `_import_once`. -/
def importOnce (job : ImportedJob) (resultJson : String) :
    Except JobStoreError (ImportOutcome × JobDatabase) :=
  match db.findImport job.orgId job.provenance with
  | some row => do
      let existing ← rowToJobRecord row
      let outcome ← ImportOutcome.ofExisting existing job.provenance
      .ok (outcome, db)
  | none => do
      let (row, imported) ← executed (db.insertImport job resultJson)
      .ok (⟨row, false⟩, imported)

/-- The transaction of `delete`. -/
def delete (jobId : String) : Except JobStoreError (Unit × JobDatabase) :=
  match db.job jobId with
  | none => .error (.jobNotFound jobId)
  | some _ => .ok ((), db.deleteJob jobId)

section Imports

variable {db : JobDatabase} {orgId : String} {source : JobProvenance} {r : JobRecord}

theorem findImport_eq_some : db.findImport orgId source = some r ↔ r ∈ db.jobs.rows ∧
    r.importSource = some (orgId, source.sourceInstanceId, source.sourceJobId) := by
  constructor
  · intro h
    exact ⟨List.mem_of_find?_eq_some h, by simpa using List.find?_some h⟩
  · rintro ⟨there, key⟩
    obtain ⟨q, hq⟩ : ∃ q, db.findImport orgId source = some q :=
      Option.isSome_iff_exists.mp (List.find?_isSome.mpr ⟨r, there, by simpa using key⟩)
    have found : q.importSource = some (orgId, source.sourceInstanceId, source.sourceJobId) := by
      simpa using List.find?_some hq
    have one : q = r := by
      refine db.imports_unique r there q (List.mem_of_find?_eq_some hq) ?_
      simp [JobRecord.sharesImport, key, found]
    rw [hq, one]

theorem findImport_eq_none : db.findImport orgId source = none ↔ ∀ r ∈ db.jobs.rows,
    r.importSource ≠ some (orgId, source.sourceInstanceId, source.sourceJobId) := by
  simp [findImport]

theorem sharesImport_of_findImport_eq_none (h : db.findImport orgId source = none)
    (key : r.importSource = some (orgId, source.sourceInstanceId, source.sourceJobId)) :
    db.jobs.rows.any r.sharesImport = false := by
  rw [List.any_eq_false]
  intro q hq
  simp [JobRecord.sharesImport, key, findImport_eq_none.mp h q hq]

end Imports

end JobDatabase

/-- Run a transaction to its commit, to the error it raises, or into a fault. -/
def DatabaseFault.run {α : Type} (fault : DatabaseFault) (db : JobDatabase)
    (transaction : JobDatabase → Except JobStoreError (α × JobDatabase)) :
    Except JobStoreError α × JobDatabase :=
  match fault, transaction db with
  | .aborted, _ => (.error (.database .operational), db)
  | _, .error e => (.error e, db)
  | .none, .ok (a, committed) => (.ok a, committed)
  | .unacknowledged, .ok (_, committed) => (.error (.database .operational), committed)

namespace DatabaseFault

variable {α : Type} {fault : DatabaseFault} {db committed : JobDatabase} {a : α}
variable {e : JobStoreError} {transaction : JobDatabase → Except JobStoreError (α × JobDatabase)}

theorem run_of_error (h : transaction db = .error e) : (fault.run db transaction).2 = db := by
  cases fault <;> simp [run, h]

theorem run_of_ok (h : transaction db = .ok (a, committed)) (reached : fault ≠ .aborted) :
    fault.run db transaction =
      (if fault = .none then .ok a else .error (.database .operational), committed) := by
  cases fault with
  | aborted => exact absurd rfl reached
  | _ => simp [run, h]

end DatabaseFault

section Breaker

variable {τ : Type u} {α β : Type}

/-- `record_success`, and then what the method makes of the committed answer. -/
def recordThenAnswer (answer : α → Except JobStoreError β) (breaker : CircuitBreaker τ) (a : α) :
    Except JobStoreError β × CircuitBreaker τ :=
  (answer a, breaker.recordSuccess)

/-- The other order: an answer that raises is no success. -/
def answerThenRecord (answer : α → Except JobStoreError β) (breaker : CircuitBreaker τ) (a : α) :
    Except JobStoreError β × CircuitBreaker τ :=
  match answer a with
  | .ok b => (.ok b, breaker.recordSuccess)
  | .error e => (.error e, breaker)

end Breaker

namespace PostgresJobStore

variable {τ : Type u} [Sub τ] [LE τ] [DecidableLE τ] {α β : Type}
variable (s : PostgresJobStore τ) (db : JobDatabase) (io : CallConditions τ)

/-- The breaker keeps the call from the database. -/
def circuitOpen : Bool := (s.circuitBreaker.isOpen io.checkedAt).1

/-- The breaker of a call that goes on to the database. -/
def asked : CircuitBreaker τ := (s.circuitBreaker.isOpen io.checkedAt).2

/-- The breaker is open after a failure of the call. -/
def opensOnFailure : Bool :=
  (((s.asked io).recordFailure io.failedAt).isOpen io.recheckedAt).1

def fallBack (method : JobDisk → Except JobStoreError β × JobDisk) : Reply τ β :=
  ⟨(method s.fallbackStore).1, { s with fallbackStore := (method s.fallbackStore).2 }, db⟩

/-- What most methods do: the disk store answers while the circuit is open, also
when it opens on the error of the call itself. -/
def guarded (transaction : JobDatabase → Except JobStoreError (α × JobDatabase))
    (settle : CircuitBreaker τ → α → Except JobStoreError β × CircuitBreaker τ)
    (fallback : JobDisk → Except JobStoreError β × JobDisk)
    (onError : DatabaseError → Except JobStoreError β) : Reply τ β :=
  if s.circuitOpen io then fallBack { s with circuitBreaker := s.asked io } db fallback
  else
    match io.fault.run db transaction with
    | (.ok a, db) =>
      ⟨(settle (s.asked io) a).1, { s with circuitBreaker := (settle (s.asked io) a).2 }, db⟩
    | (.error (.database e), db) =>
      let breaker := (((s.asked io).recordFailure io.failedAt).isOpen io.recheckedAt).2
      if s.opensOnFailure io then fallBack { s with circuitBreaker := breaker } db fallback
      else ⟨onError e, { s with circuitBreaker := breaker }, db⟩
    | (.error e, db) => ⟨.error e, { s with circuitBreaker := s.asked io }, db⟩

/-- A method that raises the error the database ended its call with. -/
def attempt (transaction : JobDatabase → Except JobStoreError (α × JobDatabase))
    (settle : CircuitBreaker τ → α → Except JobStoreError β × CircuitBreaker τ)
    (fallback : JobDisk → Except JobStoreError β × JobDisk) : Reply τ β :=
  s.guarded db io transaction settle fallback fun e => .error (.database e)

/-- `create`. -/
def create (job : NewJob) : Reply τ JobRecord :=
  s.attempt db io (fun db => db.createJob (job.drawn io.draw))
    (recordThenAnswer fun _ => rowToJobRecord (job.drawn io.draw).record)
    fun d => d.create (job.drawn io.fallbackDraw)

/-- `get`. -/
def get (jobId : String) : Reply τ JobRecord :=
  s.attempt db io (fun db => .ok (db.job jobId, db)) (recordThenAnswer (foundRow jobId))
    fun d => (d.get jobId, d)

/-- `list_jobs`. -/
def listJobs : Reply τ (List JobRecord) :=
  s.attempt db io (fun db => .ok (db.selectJobs, db))
    (recordThenAnswer fun rows => rows.mapM rowToJobRecord) fun d => (.ok d.listJobs, d)

/-- The methods that are one `_transition`. -/
def transition (jobId : String) (change : Draw → RecordChange) (reading : Nat) :
    Reply τ JobRecord :=
  s.attempt db io
    (fun db => .ok (db.transition jobId (change io.draw) (io.draw.clock reading)))
    (answerThenRecord (foundRow jobId))
    fun d => d.transition jobId (change io.fallbackDraw) (io.fallbackDraw.clock reading)

/-- `mark_running`. -/
def markRunning (jobId : String) : Reply τ JobRecord :=
  s.transition db io jobId (fun draw => .markRunning (draw.clock 0)) 1

/-- `update_telemetry`. -/
def updateTelemetry (jobId telemetry : String) : Reply τ JobRecord :=
  s.transition db io jobId (fun _ => .updateTelemetry telemetry) 0

/-- `mark_failed`. -/
def markFailed (jobId error : String) : Reply τ JobRecord :=
  s.transition db io jobId (fun draw => .markFailed error (draw.clock 0)) 1

/-- `finish`. -/
def finish (jobId result : String) (isPartial : Bool) (error : Option String) : Reply τ JobRecord :=
  s.attempt db io (fun db => db.finish jobId result isPartial error (io.draw.clock 0))
    (recordThenAnswer (foundRow jobId))
    fun d => d.finish jobId result isPartial error (io.fallbackDraw.clock 0)
      (io.fallbackDraw.clock 1)

/-- `read_result`. -/
def readResult (jobId : String) : Reply τ String :=
  s.attempt db io (fun db => .ok (db.selectResult jobId, db))
    (recordThenAnswer fun
      | none => .error (.jobNotFound jobId)
      | some (_, none) => .error (.noResult jobId)
      | some (_, some result) => .ok result)
    fun d => (d.readResult jobId, d)

/-- `write_checkpoint`. -/
def writeCheckpoint (jobId payload : String) : Reply τ Unit :=
  s.attempt db io (fun db => db.writeCheckpoint jobId payload (io.draw.clock 0))
    (recordThenAnswer .ok)
    fun d => (d.writeCheckpoint jobId payload (io.fallbackDraw.clock 0)).map
      (Except.map fun _ => ()) id

/-- `read_checkpoint`, which reports an error of the database as no checkpoint. -/
def readCheckpoint (jobId : String) : Reply τ (Option String) :=
  s.guarded db io (fun db => .ok ((db.payload jobId).bind JobPayload.checkpoint, db))
    (recordThenAnswer .ok) (fun d => (.ok (d.readCheckpoint jobId), d)) fun _ => .ok none

/-- `recover_orphans`. -/
def recoverOrphans : Reply τ (List String) :=
  s.attempt db io (fun db => .ok (db.recoverOrphans (io.draw.clock 0))) (recordThenAnswer .ok)
    fun d => d.recoverOrphans io.fallbackDraw.clock

/-- What `import_terminal` makes of an outcome: the row is validated again. -/
def settleImport (breaker : CircuitBreaker τ) (outcome : ImportOutcome) :
    Except JobStoreError ImportOutcome × CircuitBreaker τ :=
  answerThenRecord
    (fun outcome => (rowToJobRecord outcome.record).map fun r => { outcome with record := r })
    breaker outcome

/-- `import_terminal`, with nothing between its two attempts. The second one
stands in a handler, so what it raises is not caught. -/
def importTerminal (job : ImportedJob) (resultJson : String) : Reply τ ImportOutcome :=
  let once := fun (db : JobDatabase) => db.importOnce (job.drawn io.draw) resultJson
  let breaker := s.asked io
  let s' := { s with circuitBreaker := breaker }
  if s.circuitOpen io then ⟨.error .unavailable, s', db⟩
  else
    match io.fault.run db once with
    | (.ok outcome, db) =>
      ⟨(settleImport breaker outcome).1,
        { s with circuitBreaker := (settleImport breaker outcome).2 }, db⟩
    | (.error (.database .uniqueViolation), db) =>
      match io.fault.run db once with
      | (.ok outcome, db) =>
        ⟨(settleImport breaker outcome).1,
          { s with circuitBreaker := (settleImport breaker outcome).2 }, db⟩
      | (.error e, db) => ⟨.error e, s', db⟩
    | (.error (.database .foreignKeyViolation), db) =>
      ⟨.error (.notProvisioned job.orgId), s', db⟩
    | (.error (.database .operational), db) =>
      ⟨.error .unavailable, { s with circuitBreaker := breaker.recordFailure io.failedAt }, db⟩
    | (.error e, db) => ⟨.error e, s', db⟩

/-- `delete`. -/
def delete (jobId : String) : Reply τ Unit :=
  let breaker := s.asked io
  let s' := { s with circuitBreaker := breaker }
  if s.circuitOpen io then ⟨.error .unavailable, s', db⟩
  else
    match io.fault.run db fun db => db.delete jobId with
    | (.ok _, db) => ⟨.ok (), { s with circuitBreaker := breaker.recordSuccess }, db⟩
    | (.error (.database _), db) =>
      ⟨.error .unavailable, { s with circuitBreaker := breaker.recordFailure io.failedAt }, db⟩
    | (.error e, db) => ⟨.error e, s', db⟩

/-- What a call answers, and what it leaves. -/
def call : JobCall → Reply τ JobAnswer
  | .create job => (s.create db io job).map .record
  | .get jobId => (s.get db io jobId).map .record
  | .listJobs => (s.listJobs db io).map .records
  | .markRunning jobId => (s.markRunning db io jobId).map .record
  | .updateTelemetry jobId telemetry => (s.updateTelemetry db io jobId telemetry).map .record
  | .markFailed jobId error => (s.markFailed db io jobId error).map .record
  | .finish jobId result isPartial error =>
    (s.finish db io jobId result isPartial error).map .record
  | .readResult jobId => (s.readResult db io jobId).map .payload
  | .writeCheckpoint jobId payload => (s.writeCheckpoint db io jobId payload).map fun _ => .done
  | .readCheckpoint jobId => (s.readCheckpoint db io jobId).map .checkpoint
  | .importTerminal job _ resultJson => (s.importTerminal db io job resultJson).map .outcome
  | .recoverOrphans => (s.recoverOrphans db io).map .ids
  | .delete jobId => (s.delete db io jobId).map fun _ => .done

section Guarded

variable {s db io} {transaction : JobDatabase → Except JobStoreError (α × JobDatabase)}
variable {settle : CircuitBreaker τ → α → Except JobStoreError β × CircuitBreaker τ}
variable {fallback : JobDisk → Except JobStoreError β × JobDisk}
variable {onError : DatabaseError → Except JobStoreError β}

/-- The call is answered by the disk store. -/
def TurnsToDisk (s : PostgresJobStore τ) (db : JobDatabase) (io : CallConditions τ)
    (transaction : JobDatabase → Except JobStoreError (α × JobDatabase)) : Prop :=
  s.circuitOpen io = true ∨
    s.opensOnFailure io = true ∧ ∃ e, (io.fault.run db transaction).1 = .error (.database e)

theorem guarded_database : (s.guarded db io transaction settle fallback onError).database =
    if s.circuitOpen io then db else (io.fault.run db transaction).2 := by
  unfold guarded
  split
  · rfl
  · split
    · next ran => rw [ran]
    · next ran =>
      rw [ran]
      dsimp only
      split <;> rfl
    · next ran => rw [ran]

theorem guarded_of_turnsToDisk (h : s.TurnsToDisk db io transaction) :
    (s.guarded db io transaction settle fallback onError).answer = (fallback s.fallbackStore).1 ∧
      (s.guarded db io transaction settle fallback onError).store.fallbackStore =
        (fallback s.fallbackStore).2 := by
  unfold guarded
  rcases h with refused | ⟨opens, e, failed⟩
  · rw [if_pos refused]
    exact ⟨rfl, rfl⟩
  · split
    · exact ⟨rfl, rfl⟩
    · split
      · next ran =>
        rw [ran] at failed
        cases failed
      · exact ⟨rfl, rfl⟩
      · next other ran =>
        rw [ran] at failed
        cases failed
        exact absurd rfl (other e)

theorem guarded_fallbackStore_of_not_turnsToDisk (h : ¬s.TurnsToDisk db io transaction) :
    (s.guarded db io transaction settle fallback onError).store.fallbackStore =
      s.fallbackStore := by
  obtain ⟨asked, stays⟩ := not_or.mp h
  unfold guarded
  rw [if_neg asked]
  split
  · rfl
  · next e _ ran =>
    rw [if_neg fun opens => stays ⟨opens, e, by rw [ran]⟩]
  · rfl

theorem guarded_answer_of_not_turnsToDisk {answer : α → Except JobStoreError β}
    (settled : ∀ breaker a, (settle breaker a).1 = answer a)
    (h : ¬s.TurnsToDisk db io transaction) :
    (s.guarded db io transaction settle fallback onError).answer =
      match (io.fault.run db transaction).1 with
      | .ok a => answer a
      | .error (.database e) => onError e
      | .error e => .error e := by
  obtain ⟨asked, stays⟩ := not_or.mp h
  unfold guarded
  rw [if_neg asked]
  split
  · next ran =>
    rw [ran]
    exact settled _ _
  · next e _ ran =>
    rw [if_neg fun opens => stays ⟨opens, e, by rw [ran]⟩, ran]
  · next e _ other ran =>
    rw [ran]
    cases e with
    | database e => exact absurd rfl (other e)
    | _ => rfl

theorem attempt_answer {answer : α → Except JobStoreError β}
    (settled : ∀ breaker a, (settle breaker a).1 = answer a)
    (h : ¬s.TurnsToDisk db io transaction) :
    (s.attempt db io transaction settle fallback).answer =
      (io.fault.run db transaction).1 >>= answer := by
  refine (guarded_answer_of_not_turnsToDisk settled h).trans ?_
  cases (io.fault.run db transaction).1 with
  | ok a => rfl
  | error e => cases e <;> rfl

end Guarded

end PostgresJobStore

end Rankuno
