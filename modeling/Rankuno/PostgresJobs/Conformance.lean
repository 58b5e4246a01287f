import Rankuno.JobStore.Contract
import Rankuno.PostgresJobs.Budget
import Rankuno.PostgresJobs.Evolution

/-!
# One contract, two stores

`PostgresJobStore` does what the contract of a job store says, too, while no
fault occurs and organizations have budget. So a caller cannot tell it from the
disk store by an answer, the order of equally old jobs and of recovered ids
apart. A `create` whose record does not validate is the exception: it raises in
both stores, and leaves a row in the database.
-/

universe u

namespace Rankuno

namespace JobDatabase

variable {db u : JobDatabase}

/-- What the tables tell. -/
def view (db : JobDatabase) : JobView where
  job id := (db.job id).map JobRecord.untimed
  result id := (db.payload id).bind JobPayload.result
  checkpoint id := (db.payload id).bind JobPayload.checkpoint

theorem view_job (db : JobDatabase) (id : String) :
    db.view.job id = (db.job id).map JobRecord.untimed := rfl

theorem view_result (db : JobDatabase) (id : String) :
    db.view.result id = (db.payload id).bind JobPayload.result := rfl

theorem rowToJobRecord_of_valid {row : JobRecord} (valid : row.Valid) :
    rowToJobRecord row = .ok row := if_pos valid

section Views

theorem view_updateJobs {p : JobRecord → Bool} {change : JobRecord → RecordChange}
    {now : Timestamp} {f : String → JobRecord → JobRecord}
    (same : ∀ r, (if p r then (change r).apply now r else r).untimed = f r.id r.untimed) :
    (db.updateJobs p change now).view = db.view.rewrite f := by
  ext1
  · funext id
    show ((db.updateJobs p change now).job id).map JobRecord.untimed =
      ((db.job id).map JobRecord.untimed).map (f id)
    rw [updateJobs_job, Option.map_map, Option.map_map]
    cases found : db.job id with
    | none => rfl
    | some r =>
      obtain ⟨-, rfl⟩ := Table.find?_eq_some.mp found
      exact congrArg some (same r)
  · rfl
  · rfl

theorem view_transition (jobId : String) (change : RecordChange) (now : Timestamp) :
    (db.transition jobId change now).2.view = db.view.change jobId change.untimed := by
  refine view_updateJobs fun r => ?_
  simp only [decide_eq_true_eq]
  rw [apply_ite JobRecord.untimed, RecordChange.apply_untimed]

theorem upsertPayload_of_known {jobId : String} (known : (db.job jobId).isSome)
    (change : JobPayload → JobPayload) (keep : ∀ p, (change p).jobId = p.jobId) :
    ∃ u, db.upsertPayload jobId change keep = .ok u :=
  ⟨_, dif_pos known⟩

variable {change : JobPayload → JobPayload}

theorem view_upsertPayload {jobId : String}
    {keep : ∀ p, (change p).jobId = p.jobId} (h : db.upsertPayload jobId change keep = .ok u) :
    u.view = {
      job := db.view.job
      result := fun id =>
        if jobId = id then (change ((db.payload jobId).getD { jobId })).result
        else db.view.result id
      checkpoint := fun id =>
        if jobId = id then (change ((db.payload jobId).getD { jobId })).checkpoint
        else db.view.checkpoint id } := by
  obtain ⟨-, -, jobs, -, payloads⟩ := upsertPayload_eq_ok h
  have found : ∀ id, u.payload id =
      if jobId = id then some (change ((db.payload jobId).getD { jobId })) else db.payload id := by
    intro id
    show u.jobPayloads.find? id = _
    rw [payloads, Table.find?_put, keep, payload_getD_jobId]
    rfl
  ext1
  · funext id
    show (u.jobs.find? id).map JobRecord.untimed = _
    rw [jobs]
    rfl
  · funext id
    show (u.payload id).bind JobPayload.result = _
    rw [found, apply_ite fun p : Option JobPayload => p.bind JobPayload.result]
    rfl
  · funext id
    show (u.payload id).bind JobPayload.checkpoint = _
    rw [found, apply_ite fun p : Option JobPayload => p.bind JobPayload.checkpoint]
    rfl

theorem payload_getD_result (db : JobDatabase) (jobId : String) :
    ((db.payload jobId).getD { jobId }).result = db.view.result jobId := by
  rw [view_result]
  cases db.payload jobId <;> rfl

theorem payload_getD_checkpoint (db : JobDatabase) (jobId : String) :
    ((db.payload jobId).getD { jobId }).checkpoint = db.view.checkpoint jobId := by
  show _ = (db.payload jobId).bind JobPayload.checkpoint
  cases db.payload jobId <;> rfl

theorem view_upsertPayload_result {jobId body : String}
    {keep : ∀ p, (change p).jobId = p.jobId} (h : db.upsertPayload jobId change keep = .ok u)
    (result : ∀ p, (change p).result = some body)
    (checkpoint : ∀ p, (change p).checkpoint = p.checkpoint) :
    u.view = db.view.saveResult jobId body := by
  rw [view_upsertPayload h]
  ext1
  · rfl
  · simp only [result]
    rfl
  · funext id
    simp only [checkpoint, payload_getD_checkpoint]
    split
    · next same => rw [same]; rfl
    · rfl

theorem view_upsertPayload_checkpoint {jobId body : String}
    {keep : ∀ p, (change p).jobId = p.jobId} (h : db.upsertPayload jobId change keep = .ok u)
    (result : ∀ p, (change p).result = p.result)
    (checkpoint : ∀ p, (change p).checkpoint = some body) :
    u.view = db.view.saveCheckpoint jobId body := by
  rw [view_upsertPayload h]
  ext1
  · rfl
  · funext id
    simp only [result, payload_getD_result]
    split
    · next same => rw [same]; rfl
    · rfl
  · simp only [checkpoint]
    rfl

theorem view_insertJob {r : JobRecord} (h : db.insertJob r = .ok u) :
    u.view = db.view.write r.untimed := by
  obtain ⟨-, -, -, inserted, -, -, payloads⟩ := insertJob_eq_ok h
  ext1
  · funext id
    show (u.jobs.find? id).map JobRecord.untimed = _
    rw [Table.find?_insert? inserted, apply_ite (Option.map JobRecord.untimed)]
    rfl
  · funext id
    show (u.jobPayloads.find? id).bind JobPayload.result = _
    rw [payloads]
    rfl
  · funext id
    show (u.jobPayloads.find? id).bind JobPayload.checkpoint = _
    rw [payloads]
    rfl

theorem view_deleteJob (jobId : String) : (db.deleteJob jobId).view = db.view.remove jobId := by
  have payload : ∀ id, (db.deleteJob jobId).payload id =
      if jobId = id then none else db.payload id := by
    intro id
    show (db.jobPayloads.delete fun p => p.jobId = jobId).find? id = _
    split
    · next same => rw [same]; exact Table.find?_delete_self
    · next other => exact Table.find?_delete_of_ne (Ne.symm other)
  ext1
  · funext id
    rw [view_job, deleteJob_job, apply_ite (Option.map JobRecord.untimed)]
    simp only [eq_comm (a := id)]
    rfl
  · funext id
    rw [view_result, payload, apply_ite fun p : Option JobPayload => p.bind JobPayload.result]
    rfl
  · funext id
    show ((db.deleteJob jobId).payload id).bind JobPayload.checkpoint = _
    rw [payload, apply_ite fun p : Option JobPayload => p.bind JobPayload.checkpoint]
    rfl

end Views

section Imports

variable {job : ImportedJob}

theorem insertImport_of_new (fresh : db.job job.id = none)
    (first : db.findImport job.orgId job.provenance = none)
    (provisioned : (db.orgConfigs.find? job.orgId).isSome) (resultJson : String) :
    ∃ u, db.insertImport job resultJson = .ok (job.record, u) ∧
      (db.jobs.insert? job.record = some u.jobs ∧ u.orgConfigs = db.orgConfigs) ∧
        u.view = (db.view.saveResult job.id resultJson).write job.record.untimed := by
  obtain ⟨inserted, hinserted⟩ := insertJob_of_new (r := job.record) fresh
    (sharesImport_of_findImport_eq_none first rfl) provisioned
  have jobs := (insertJob_eq_ok hinserted).2.2.2.1
  have known : (inserted.job job.id).isSome := Table.isSome_find?_self jobs
  obtain ⟨stored, hstored⟩ := upsertPayload_of_known known
    (fun p => { p with result := some resultJson, homepageHtml := job.homepageHtml }) fun _ => rfl
  refine ⟨stored, ?_, ?_, ?_⟩
  · simp only [insertImport, hinserted]
    show (inserted.upsertPayload job.id _ _ >>= _) = _
    rw [hstored]
    rfl
  · obtain ⟨-, orgs, same, -⟩ := upsertPayload_eq_ok hstored
    rw [orgs, same]
    exact ⟨jobs, (insertJob_eq_ok hinserted).2.2.2.2.1⟩
  · rw [view_upsertPayload_result hstored (fun _ => rfl) fun _ => rfl, view_insertJob hinserted]
    rfl

theorem insertImport_of_existing {r : JobRecord}
    (found : db.findImport job.orgId job.provenance = some r) (resultJson : String) :
    db.insertImport job resultJson = .error .uniqueViolation := by
  obtain ⟨there, key⟩ := findImport_eq_some.mp found
  have taken : ¬db.jobs.rows.any job.record.sharesImport = false := by
    intro unique
    refine List.any_eq_false.mp unique r there ?_
    have same : r.importSource = job.record.importSource := key
    rw [JobRecord.sharesImport, same]
    simp [JobRecord.importSource, ImportedJob.record]
  have refused : db.insertJob job.record = .error .uniqueViolation := by
    unfold insertJob
    split
    · rfl
    · rw [dif_neg taken]
  simp only [insertImport, refused]
  rfl

theorem insertImport_of_absent (fresh : db.job job.id = none)
    (first : db.findImport job.orgId job.provenance = none)
    (absent : db.orgConfigs.find? job.orgId = none) (resultJson : String) :
    db.insertImport job resultJson = .error .foreignKeyViolation := by
  have refused : db.insertJob job.record = .error .foreignKeyViolation := by
    unfold insertJob
    split
    · next taken =>
      rw [Table.insert?_eq_none] at taken
      change (db.job job.id).isSome at taken
      rw [fresh] at taken
      cases taken
    · rw [dif_pos (sharesImport_of_findImport_eq_none first rfl)]
      refine dif_neg ?_
      show ¬(db.orgConfigs.find? job.orgId).isSome
      simp [absent]
  simp only [insertImport, refused]
  rfl

end Imports

end JobDatabase

section Settling

variable {τ : Type u} {α β : Type}

theorem recordSuccess_closed {breaker : CircuitBreaker τ} (closed : breaker.state = .closed) :
    breaker.recordSuccess.state = .closed := by
  simp only [CircuitBreaker.recordSuccess, closed]

theorem answerThenRecord_closed {answer : α → Except JobStoreError β}
    {breaker : CircuitBreaker τ} (closed : breaker.state = .closed) (a : α) :
    (answerThenRecord answer breaker a).2.state = .closed := by
  unfold answerThenRecord
  split
  · exact recordSuccess_closed closed
  · exact closed

theorem answerThenRecord_answer (answer : α → Except JobStoreError β)
    (breaker : CircuitBreaker τ) (a : α) : (answerThenRecord answer breaker a).1 = answer a := by
  unfold answerThenRecord
  split
  · next b returned => exact returned.symm
  · next e raised => exact raised.symm

end Settling

namespace PostgresJobStore

variable {τ : Type u} [Sub τ] [LE τ] [DecidableLE τ] {α β γ : Type}
variable {s : PostgresJobStore τ} {db u : JobDatabase} {io : CallConditions τ}

/-- The circuit is closed, and no fault meets the call. -/
def Calm (s : PostgresJobStore τ) (io : CallConditions τ) : Prop :=
  s.circuitBreaker.state = .closed ∧ io.fault = .none

/-- A call does what the contract says, and leaves the circuit closed. -/
structure Answers (untimed : α → γ) (reply : Reply τ α)
    (contract : Except JobStoreError γ × JobView) : Prop where
  conforms : Conforms untimed reply.answer reply.database.view contract
  closed : reply.store.circuitBreaker.state = .closed

section Calm

variable {transaction : JobDatabase → Except JobStoreError (α × JobDatabase)}
variable {settle : CircuitBreaker τ → α → Except JobStoreError β × CircuitBreaker τ}
variable {fallback : JobDisk → Except JobStoreError β × JobDisk}
variable {onError : DatabaseError → Except JobStoreError β}

theorem Calm.isOpen (calm : s.Calm io) (now : τ) :
    s.circuitBreaker.isOpen now = (false, s.circuitBreaker) := by
  simp only [CircuitBreaker.isOpen, calm.1]

theorem Calm.circuitOpen (calm : s.Calm io) : s.circuitOpen io = false :=
  congrArg Prod.fst (calm.isOpen io.checkedAt)

theorem Calm.asked (calm : s.Calm io) : s.asked io = s.circuitBreaker :=
  congrArg Prod.snd (calm.isOpen io.checkedAt)

theorem guarded_of_ok (calm : s.Calm io) {a : α} (ran : transaction db = .ok (a, u)) :
    s.guarded db io transaction settle fallback onError = ⟨(settle s.circuitBreaker a).1,
        { s with circuitBreaker := (settle s.circuitBreaker a).2 }, u⟩ := by
  unfold guarded
  rw [calm.circuitOpen, calm.asked, calm.2]
  simp only [DatabaseFault.run, ran]
  rfl

theorem guarded_of_error (calm : s.Calm io) {e : JobStoreError}
    (ran : transaction db = .error e) (other : ∀ error, e ≠ .database error) :
    s.guarded db io transaction settle fallback onError = ⟨.error e, s, db⟩ := by
  unfold guarded
  rw [calm.circuitOpen, calm.asked, calm.2]
  cases e with
  | database error => exact absurd rfl (other error)
  | _ =>
    simp only [DatabaseFault.run, ran]
    rfl

theorem answers_of_ok (calm : s.Calm io) {a : α} {answer : α → Except JobStoreError β}
    {untimed : β → γ} {contract : Except JobStoreError γ × JobView}
    (ran : transaction db = .ok (a, u)) (answered : (answer a).map untimed = contract.1)
    (view : u.view = contract.2) :
    Answers untimed
      (s.guarded db io transaction (recordThenAnswer answer) fallback onError) contract := by
  rw [guarded_of_ok calm ran]
  exact ⟨⟨answered, view⟩, recordSuccess_closed calm.1⟩

theorem answers_of_error (calm : s.Calm io) {e : JobStoreError} {untimed : β → γ}
    (ran : transaction db = .error e) (other : ∀ error, e ≠ .database error) :
    Answers untimed (s.guarded db io transaction settle fallback onError) (.error e, db.view) := by
  rw [guarded_of_error calm ran other]
  exact ⟨⟨rfl, rfl⟩, calm.1⟩

end Calm

section Methods

theorem foundRow_conforms (valid : db.view.Valid) (jobId : String) :
    (foundRow jobId (db.job jobId)).map JobRecord.untimed = db.view.get jobId := by
  rw [JobView.get, JobDatabase.view_job]
  cases found : db.job jobId with
  | none => rfl
  | some r =>
    have checked : r.Valid :=
      r.untimed_valid.mp (valid jobId r.untimed (by rw [JobDatabase.view_job, found]; rfl))
    rw [foundRow, JobDatabase.rowToJobRecord_of_valid checked]
    rfl

theorem create_answers (calm : s.Calm io) {job : NewJob} {limit : Int}
    (hlimit : db.creditLimit job.record.orgId = some limit) (positive : 0 < limit)
    (fresh : db.job io.draw.id = none) (valid : (job.drawn io.draw).record.Valid) :
    Answers JobRecord.untimed (s.create db io job) (.ok (job.drawn io.draw).record.untimed,
        db.view.write (job.drawn io.draw).record.untimed) := by
  obtain ⟨u, ran⟩ : ∃ u, db.createJob (job.drawn io.draw) = .ok ((), u) :=
    JobDatabase.createJob_of_limit hlimit positive fresh
  have charged := (JobDatabase.createJob_eq_ok ran).2
  refine answers_of_ok calm ran ?_ ?_
  · rw [JobDatabase.rowToJobRecord_of_valid valid]
    rfl
  · ext1
    · funext id
      show (u.jobs.find? id).map JobRecord.untimed = _
      rw [Table.find?_insert? charged.jobs, apply_ite (Option.map JobRecord.untimed)]
      rfl
    · funext id
      show (u.jobPayloads.find? id).bind JobPayload.result = _
      rw [charged.jobPayloads]
      rfl
    · funext id
      show (u.jobPayloads.find? id).bind JobPayload.checkpoint = _
      rw [charged.jobPayloads]
      rfl

theorem get_answers (calm : s.Calm io) (valid : db.view.Valid) (jobId : String) :
    Answers JobRecord.untimed (s.get db io jobId) (db.view.get jobId, db.view) :=
  answers_of_ok calm rfl (foundRow_conforms valid jobId) rfl

theorem transition_answers (calm : s.Calm io) (valid : db.view.Valid) (jobId : String)
    (change : Draw → RecordChange) (reading : Nat) :
    Answers JobRecord.untimed (s.transition db io jobId change reading)
      (db.view.transition jobId (change io.draw).untimed) := by
  have view := db.view_transition jobId (change io.draw) (io.draw.clock reading)
  have checked : (db.transition jobId (change io.draw) (io.draw.clock reading)).2.view.Valid := by
    rw [view]
    exact valid.change jobId _
  have answer := foundRow_conforms checked jobId
  show Answers _ (s.attempt db io _ _ _) _
  rw [attempt, guarded_of_ok calm rfl]
  refine ⟨⟨?_, view⟩, answerThenRecord_closed calm.1 _⟩
  rw [answerThenRecord_answer, JobView.transition, ← view]
  exact answer

theorem finish_answers (calm : s.Calm io) (valid : db.view.Valid) (jobId result : String)
    (isPartial : Bool) (error : Option String) :
    Answers JobRecord.untimed (s.finish db io jobId result isPartial error)
      (db.view.finish jobId result isPartial error) := by
  unfold JobView.finish
  rw [JobDatabase.view_job]
  cases found : db.job jobId with
  | none =>
    refine answers_of_error calm ?_ (by simp)
    simp only [JobDatabase.finish, found]
  | some r =>
    have known : (db.job jobId).isSome := by
      rw [found]
      rfl
    obtain ⟨stored, hstored⟩ := JobDatabase.upsertPayload_of_known known
      (fun p => { p with result := some result }) fun _ => rfl
    have saved : stored.view = db.view.saveResult jobId result :=
      JobDatabase.view_upsertPayload_result hstored (fun _ => rfl) fun _ => rfl
    have moved := stored.view_transition jobId (.finish isPartial error (io.draw.clock 0))
      (io.draw.clock 0)
    have checked : (stored.transition jobId (.finish isPartial error (io.draw.clock 0))
        (io.draw.clock 0)).2.view.Valid := by
      rw [moved, saved]
      exact JobView.Valid.change (v := db.view.saveResult jobId result) valid jobId _
    have answer := foundRow_conforms checked jobId
    have ran : db.finish jobId result isPartial error (io.draw.clock 0) =
        .ok (stored.transition jobId (.finish isPartial error (io.draw.clock 0))
          (io.draw.clock 0)) := by
      simp only [JobDatabase.finish, found, hstored]
      rfl
    show Answers _ _ ((db.view.saveResult jobId result).transition jobId _)
    rw [← saved]
    refine answers_of_ok calm ran ?_ moved
    rw [JobView.transition]
    exact answer.trans (congrArg (fun v : JobView => v.get jobId) moved)

theorem readResult_answers (calm : s.Calm io) (jobId : String) :
    Answers id (s.readResult db io jobId) (db.view.readResult jobId, db.view) := by
  refine answers_of_ok calm rfl ?_ rfl
  unfold JobDatabase.selectResult JobView.readResult
  rw [JobDatabase.view_job, JobDatabase.view_result]
  cases db.job jobId with
  | none => rfl
  | some r => cases (db.payload jobId).bind JobPayload.result <;> rfl

theorem writeCheckpoint_answers (calm : s.Calm io) (jobId payload : String) :
    Answers id (s.writeCheckpoint db io jobId payload) (db.view.writeCheckpoint jobId payload) := by
  unfold JobView.writeCheckpoint
  rw [JobDatabase.view_job]
  cases found : db.job jobId with
  | none =>
    refine answers_of_error calm ?_ (by simp)
    simp only [JobDatabase.writeCheckpoint, found]
  | some r =>
    have known : (db.job jobId).isSome := by
      rw [found]
      rfl
    obtain ⟨stored, hstored⟩ := JobDatabase.upsertPayload_of_known known
      (fun p => { p with checkpoint := some payload }) fun _ => rfl
    have saved : stored.view = db.view.saveCheckpoint jobId payload :=
      JobDatabase.view_upsertPayload_checkpoint hstored (fun _ => rfl) fun _ => rfl
    refine answers_of_ok calm (a := ())
      (u := (stored.transition jobId .checkpoint (io.draw.clock 0)).2) ?_ rfl ?_
    · simp only [JobDatabase.writeCheckpoint, found, hstored]
      rfl
    · rw [JobDatabase.view_transition, saved]
      rfl

theorem readCheckpoint_answers (calm : s.Calm io) (jobId : String) :
    Answers id (s.readCheckpoint db io jobId) (.ok (db.view.checkpoint jobId), db.view) :=
  answers_of_ok calm rfl rfl rfl

theorem delete_answers (calm : s.Calm io) (jobId : String) :
    Answers id (s.delete db io jobId) (db.view.delete jobId) := by
  unfold delete JobView.delete
  rw [calm.circuitOpen, calm.asked, calm.2, JobDatabase.view_job]
  cases found : db.job jobId with
  | none =>
    simp only [DatabaseFault.run, JobDatabase.delete, found]
    exact ⟨⟨rfl, rfl⟩, calm.1⟩
  | some r =>
    simp only [DatabaseFault.run, JobDatabase.delete, found]
    exact ⟨⟨rfl, JobDatabase.view_deleteJob jobId⟩, recordSuccess_closed calm.1⟩

theorem mapM_rowToJobRecord {rows : List JobRecord} (valid : ∀ row ∈ rows, row.Valid) :
    rows.mapM rowToJobRecord = .ok rows := by
  induction rows with
  | nil => rfl
  | cons row rows ih =>
    rw [List.mapM_cons, JobDatabase.rowToJobRecord_of_valid (valid row List.mem_cons_self),
      ih fun r hr => valid r (List.mem_cons_of_mem _ hr)]
    rfl

theorem valid_of_mem (valid : db.view.Valid) {r : JobRecord} (there : r ∈ db.jobs.rows) :
    r.Valid := by
  refine r.untimed_valid.mp (valid r.id r.untimed ?_)
  rw [JobDatabase.view_job, JobDatabase.job, Table.find?_key there]
  rfl

theorem listJobs_answers (calm : s.Calm io) (valid : db.view.Valid) :
    (∃ rs, (s.listJobs db io).answer = .ok rs ∧ db.view.Lists rs ∧ NewestFirst rs) ∧
      (s.listJobs db io).database.view = db.view ∧
      (s.listJobs db io).store.circuitBreaker.state = .closed := by
  unfold listJobs attempt
  rw [guarded_of_ok calm rfl]
  have perm : db.selectJobs.Perm db.jobs.rows := List.perm_insertionSort _ _
  refine ⟨⟨db.selectJobs, ?_, ?_, newestFirst_insertionSort _⟩, rfl, recordSuccess_closed calm.1⟩
  · exact mapM_rowToJobRecord fun r hr => valid_of_mem valid (perm.mem_iff.mp hr)
  · exact JobView.lists_of_perm (t := db.jobs) (fun _ => rfl) perm

theorem recoverOrphans_answers (db : JobDatabase) (calm : s.Calm io) :
    (∃ ids, (s.recoverOrphans db io).answer = .ok ids ∧ db.view.ListsUnfinished ids) ∧
      (s.recoverOrphans db io).database.view = db.view.failUnfinished ∧
      (s.recoverOrphans db io).store.circuitBreaker.state = .closed := by
  unfold recoverOrphans attempt
  rw [guarded_of_ok calm rfl]
  have unfinished : ∀ status : JobStatus,
      decide (status ∈ [JobStatus.queued, JobStatus.running]) = decide ¬status.IsTerminal := by
    intro status
    cases status <;> rfl
  refine ⟨⟨_, rfl, ?_⟩, ?_, recordSuccess_closed calm.1⟩
  · refine JobView.listsUnfinished_of_perm (t := db.jobs) (fun _ => rfl) ?_
    simp only [unfinished]
    exact .refl _
  · refine JobDatabase.view_updateJobs fun r => ?_
    simp only [unfinished]
    by_cases terminal : r.status.IsTerminal
    · simp [terminal]
    · simp [terminal, RecordChange.apply_untimed, RecordChange.untimed]

section Imports

variable {d : JobDisk} {orgId : String} {source : JobProvenance}

variable {r : JobRecord}

theorem findImport_disk_eq_some (h : d.findImport orgId source = some r) :
    r ∈ d.records.rows ∧
      r.importSource = some (orgId, source.sourceInstanceId, source.sourceJobId) := by
  refine ⟨List.mem_of_find?_eq_some h, ?_⟩
  have found := List.find?_some h
  simp only [Bool.and_eq_true, decide_eq_true_eq, Option.any_eq_true] at found
  obtain ⟨rfl, origin, horigin, instanceId, jobId⟩ := found
  simp [JobRecord.importSource, horigin, instanceId, jobId]

theorem findImport_disk_eq_none (h : d.findImport orgId source = none)
    (there : r ∈ d.records.rows) :
    r.importSource ≠ some (orgId, source.sourceInstanceId, source.sourceJobId) := by
  intro key
  obtain ⟨origin, horigin, same⟩ := Option.map_eq_some_iff.mp key
  obtain ⟨org, instanceId, jobId⟩ : r.orgId = orgId ∧
      origin.sourceInstanceId = source.sourceInstanceId ∧
        origin.sourceJobId = source.sourceJobId := by simpa using same
  have other := List.find?_eq_none.mp h r there
  simp [org, horigin, instanceId, jobId] at other

theorem exists_untimed_of_view {t v : Table String JobRecord.id}
    (same : ∀ id, (t.find? id).map JobRecord.untimed = (v.find? id).map JobRecord.untimed)
    (there : r ∈ t.rows) : ∃ q ∈ v.rows, q.untimed = r.untimed := by
  have found := same r.id
  rw [Table.find?_key there] at found
  obtain ⟨q, hq, untimed⟩ := Option.map_eq_some_iff.mp found.symm
  exact ⟨q, (Table.find?_eq_some.mp hq).1, untimed⟩

theorem importSource_of_untimed {r q : JobRecord} (same : q.untimed = r.untimed) :
    q.importSource = r.importSource := by
  show q.untimed.importSource = r.untimed.importSource
  rw [same]

theorem findImport_untimed (same : d.view = db.view) (orgId : String) (source : JobProvenance) :
    (d.findImport orgId source).map JobRecord.untimed =
      (db.findImport orgId source).map JobRecord.untimed := by
  have jobs : ∀ id, (d.record id).map JobRecord.untimed = (db.job id).map JobRecord.untimed :=
    fun id => congrFun (congrArg JobView.job same) id
  cases found : d.findImport orgId source with
  | none =>
    cases other : db.findImport orgId source with
    | none => rfl
    | some q =>
      obtain ⟨there, key⟩ := JobDatabase.findImport_eq_some.mp other
      obtain ⟨r, hr, untimed⟩ := exists_untimed_of_view (fun id => (jobs id).symm) there
      refine absurd ?_ (findImport_disk_eq_none found hr)
      rw [importSource_of_untimed untimed, key]
  | some r =>
    obtain ⟨there, key⟩ := findImport_disk_eq_some found
    obtain ⟨q, hq, untimed⟩ := exists_untimed_of_view jobs there
    have other : db.findImport orgId source = some q :=
      JobDatabase.findImport_eq_some.mpr ⟨hq, by rw [importSource_of_untimed untimed, key]⟩
    rw [other, Option.map_some, Option.map_some, untimed]

theorem importTerminal_of_ok (calm : s.Calm io) {job : ImportedJob} {resultJson : String}
    {outcome : ImportOutcome} {contract : Except JobStoreError ImportOutcome × JobView}
    (ran : db.importOnce (job.drawn io.draw) resultJson = .ok (outcome, u))
    (answered : ((rowToJobRecord outcome.record).map fun r =>
      { outcome with record := r }).map ImportOutcome.untimed = contract.1)
    (view : u.view = contract.2) :
    Answers ImportOutcome.untimed (s.importTerminal db io job resultJson) contract := by
  unfold importTerminal
  rw [calm.circuitOpen, calm.asked, calm.2]
  simp only [DatabaseFault.run, ran]
  refine ⟨⟨?_, view⟩, answerThenRecord_closed calm.1 _⟩
  show (settleImport s.circuitBreaker outcome).1.map _ = _
  rw [settleImport, answerThenRecord_answer]
  exact answered

theorem importTerminal_of_error (calm : s.Calm io) {job : ImportedJob} {resultJson : String}
    {e : JobStoreError} (ran : db.importOnce (job.drawn io.draw) resultJson = .error e)
    (other : ∀ error, e ≠ .database error) :
    Answers ImportOutcome.untimed (s.importTerminal db io job resultJson) (.error e, db.view) := by
  unfold importTerminal
  rw [calm.circuitOpen, calm.asked, calm.2]
  cases e with
  | database error => exact absurd rfl (other error)
  | _ =>
    simp only [DatabaseFault.run, ran]
    exact ⟨⟨rfl, rfl⟩, calm.1⟩

theorem importTerminal_answers (calm : s.Calm io) (valid : db.view.Valid) {job : ImportedJob}
    {limit : Int} (hlimit : db.creditLimit job.orgId = some limit)
    (fresh : db.job io.draw.id = none) (proper : (job.drawn io.draw).record.Valid)
    (resultJson : String) :
    Answers ImportOutcome.untimed (s.importTerminal db io job resultJson)
      (db.view.importTerminal ((db.findImport job.orgId job.provenance).map JobRecord.untimed)
        (job.drawn io.draw) resultJson) := by
  cases found : db.findImport job.orgId job.provenance with
  | some existing =>
    have there := (JobDatabase.findImport_eq_some.mp found).1
    have checked := JobDatabase.rowToJobRecord_of_valid (valid_of_mem valid there)
    have ran : db.importOnce (job.drawn io.draw) resultJson =
        (ImportOutcome.ofExisting existing job.provenance).map fun outcome => (outcome, db) := by
      have again : db.findImport (job.drawn io.draw).orgId (job.drawn io.draw).provenance =
          some existing := found
      simp only [JobDatabase.importOnce, again, checked]
      rfl
    show Answers _ _ (ImportOutcome.ofExisting existing.untimed job.provenance, db.view)
    rw [ImportOutcome.ofExisting_untimed]
    rcases ImportOutcome.ofExisting_cases existing job.provenance with same | other
    · rw [same] at ran ⊢
      exact importTerminal_of_ok calm ran (by rw [checked]; rfl) rfl
    · rw [other] at ran ⊢
      exact importTerminal_of_error calm ran (by simp)
  | none =>
    have provisioned : (db.orgConfigs.find? job.orgId).isSome := by
      cases h : db.orgConfigs.find? job.orgId with
      | none => simp [JobDatabase.creditLimit, h] at hlimit
      | some org => rfl
    have first : db.findImport (job.drawn io.draw).orgId (job.drawn io.draw).provenance =
        none := found
    obtain ⟨stored, ran, -, view⟩ :=
      JobDatabase.insertImport_of_new fresh first provisioned resultJson
    have once : db.importOnce (job.drawn io.draw) resultJson =
        .ok (⟨(job.drawn io.draw).record, false⟩, stored) := by
      simp only [JobDatabase.importOnce, first, ran]
      rfl
    refine importTerminal_of_ok calm once ?_ view
    rw [JobDatabase.rowToJobRecord_of_valid proper]
    rfl

end Imports

end Methods

end PostgresJobStore

end Rankuno
