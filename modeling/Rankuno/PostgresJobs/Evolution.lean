import Rankuno.PostgresJobs.Store

/-!
# What a call leaves of the jobs there are

No method but `delete` takes a job away, and none adds one under an id it did
not draw. Each store keeps what a record was created with; only the lifecycle
fields of a record change.
-/

universe u

namespace Rankuno

namespace JobRecord

/-- A record as it was when its job was created. -/
def asCreated (r : JobRecord) : JobRecord :=
  { r with
    status := .queued
    updatedAt := r.createdAt
    startedAt := none
    finishedAt := none
    error := none
    hasResult := false
    hasCheckpoint := false
    telemetry := "" }

theorem id_of_asCreated {r q : JobRecord} (h : r.asCreated = q.asCreated) : r.id = q.id := by
  show r.asCreated.id = q.asCreated.id
  rw [h]

theorem valid_of_asCreated {r q : JobRecord} (h : r.asCreated = q.asCreated) (valid : q.Valid) :
    r.Valid := by
  have same : r.asCreated.Valid ↔ q.asCreated.Valid := by rw [h]
  rw [valid_iff] at valid ⊢
  rw [valid_iff, valid_iff] at same
  exact same.mpr valid

end JobRecord

@[simp] theorem RecordChange.apply_asCreated (change : RecordChange) (now : Timestamp)
    (r : JobRecord) : (change.apply now r).asCreated = r.asCreated := by
  cases change <;> rfl

/-- The jobs of a store stay as they were created, and only `new` may join them. -/
structure Evolves {σ : Type u} (row : σ → String → Option JobRecord) (new : String)
    (s t : σ) : Prop where
  keeps : ∀ id r, row s id = some r → ∃ r', row t id = some r' ∧ r'.asCreated = r.asCreated
  adds : ∀ id, row s id = none → id ≠ new → row t id = none

namespace Evolves

variable {σ : Type u} {row : σ → String → Option JobRecord} {new : String} {s t u : σ}

theorem refl (new : String) (s : σ) : Evolves row new s s :=
  ⟨fun _ r hr => ⟨r, hr, rfl⟩, fun _ hid _ => hid⟩

theorem trans (h : Evolves row new s t) (k : Evolves row new t u) : Evolves row new s u := by
  constructor
  · intro id r hr
    obtain ⟨r', hr', same⟩ := h.keeps id r hr
    obtain ⟨r'', hr'', same'⟩ := k.keeps id r' hr'
    exact ⟨r'', hr'', same'.trans same⟩
  · intro id hid other
    exact k.adds id (h.adds id hid other) other

theorem of_map {f : String → JobRecord → JobRecord} (rows : ∀ id, row t id = (row s id).map (f id))
    (same : ∀ id r, (f id r).asCreated = r.asCreated) : Evolves row new s t := by
  constructor
  · intro id r hr
    exact ⟨f id r, by rw [rows, hr]; rfl, same id r⟩
  · intro id hid _
    rw [rows, hid]
    rfl

theorem of_new {r : JobRecord} (fresh : row s r.id = none)
    (rows : ∀ id, row t id = if r.id = id then some r else row s id) :
    Evolves row r.id s t := by
  constructor
  · intro id q hq
    have other : r.id ≠ id := by
      rintro rfl
      rw [fresh] at hq
      cases hq
    exact ⟨q, by rw [rows, if_neg other, hq], rfl⟩
  · intro id hid other
    rw [rows, if_neg (Ne.symm other), hid]

end Evolves

namespace JobDatabase

variable {db u v : JobDatabase} {new : String}

/-- A transaction that keeps the jobs, wherever it commits. -/
def Keeps {α : Type} (new : String)
    (transaction : JobDatabase → Except JobStoreError (α × JobDatabase))
    (db : JobDatabase) : Prop :=
  ∀ a u, transaction db = .ok (a, u) → Evolves job new db u

theorem updateJobs_job (p : JobRecord → Bool) (change : JobRecord → RecordChange)
    (now : Timestamp) (id : String) : (db.updateJobs p change now).job id =
      (db.job id).map fun r => if p r then (change r).apply now r else r := by
  show (db.jobs.update p (fun r => (change r).apply now r) fun _ =>
    RecordChange.apply_id _ _ _).find? id = _
  exact Table.find?_update

theorem updateJobs_evolves (new : String) (p : JobRecord → Bool)
    (change : JobRecord → RecordChange) (now : Timestamp) :
    Evolves job new db (db.updateJobs p change now) := by
  refine .of_map (updateJobs_job p change now) fun id r => ?_
  split
  · exact RecordChange.apply_asCreated _ _ _
  · rfl

theorem upsertPayload_eq_ok {jobId : String} {change : JobPayload → JobPayload}
    {keep : ∀ p, (change p).jobId = p.jobId} (h : db.upsertPayload jobId change keep = .ok u) :
    (db.job jobId).isSome ∧ u.orgConfigs = db.orgConfigs ∧ u.jobs = db.jobs ∧
      u.costLedger = db.costLedger ∧
      u.jobPayloads = db.jobPayloads.put (change ((db.payload jobId).getD { jobId })) := by
  unfold upsertPayload at h
  split at h
  · next known =>
    cases h
    exact ⟨known, rfl, rfl, rfl, rfl⟩
  · cases h

theorem evolves_of_jobs (h : u.jobs = db.jobs) : Evolves job new db u := by
  have same : u.job = db.job := by
    funext id
    rw [job, job, h]
  refine .of_map (f := fun _ r => r) (fun id => ?_) fun _ _ => rfl
  rw [same, Option.map_id']

theorem insertJob_evolves {r : JobRecord} (h : db.insertJob r = .ok u) : Evolves job r.id db u := by
  obtain ⟨fresh, -, -, inserted, -⟩ := insertJob_eq_ok h
  exact .of_new fresh fun id => Table.find?_insert? inserted

theorem createJob_keeps (job : NewJob) : Keeps job.id (fun db => db.createJob job) db := by
  intro a u h
  simp only [createJob] at h
  split at h
  · cases h
  · split at h
    · cases h
    · obtain ⟨created, hcreated, h⟩ := bind_eq_ok.mp h
      obtain ⟨charged, hcharged, h⟩ := bind_eq_ok.mp h
      cases h
      refine (insertJob_evolves (executed_eq_ok.mp hcreated)).trans ?_
      exact evolves_of_jobs (insertCharge_eq_ok (executed_eq_ok.mp hcharged)).2.2.1

theorem finish_keeps (jobId result : String) (isPartial : Bool) (error : Option String)
    (now : Timestamp) : Keeps new (fun db => db.finish jobId result isPartial error now) db := by
  intro a u h
  simp only [finish] at h
  split at h
  · cases h
  · obtain ⟨stored, hstored, h⟩ := bind_eq_ok.mp h
    obtain ⟨-, -, jobs, -⟩ := upsertPayload_eq_ok (executed_eq_ok.mp hstored)
    cases h
    exact (evolves_of_jobs jobs).trans (updateJobs_evolves _ _ _ _)

theorem writeCheckpoint_keeps (jobId payload : String) (now : Timestamp) :
    Keeps new (fun db => db.writeCheckpoint jobId payload now) db := by
  intro a u h
  simp only [writeCheckpoint] at h
  split at h
  · cases h
  · obtain ⟨stored, hstored, h⟩ := bind_eq_ok.mp h
    obtain ⟨-, -, jobs, -⟩ := upsertPayload_eq_ok (executed_eq_ok.mp hstored)
    cases h
    exact (evolves_of_jobs jobs).trans (updateJobs_evolves _ _ _ _)

theorem importOnce_keeps (job : ImportedJob) (resultJson : String) :
    Keeps job.id (fun db => db.importOnce job resultJson) db := by
  intro a u h
  simp only [importOnce] at h
  split at h
  · obtain ⟨existing, -, h⟩ := bind_eq_ok.mp h
    obtain ⟨outcome, -, h⟩ := bind_eq_ok.mp h
    cases h
    exact .refl _ _
  · obtain ⟨⟨row, imported⟩, himported, h⟩ := bind_eq_ok.mp h
    obtain ⟨inserted, hinserted, himported⟩ := bind_eq_ok.mp (executed_eq_ok.mp himported)
    obtain ⟨stored, hstored, himported⟩ := bind_eq_ok.mp himported
    cases himported
    cases h
    exact (insertJob_evolves hinserted).trans (evolves_of_jobs (upsertPayload_eq_ok hstored).2.2.1)

theorem deleteJob_job {jobId id : String} :
    (db.deleteJob jobId).job id = if id = jobId then none else db.job id := by
  show (db.jobs.delete fun r => r.id = jobId).find? id = _
  split
  · next same =>
    subst same
    exact Table.find?_delete_self
  · next other => exact Table.find?_delete_of_ne other

theorem Keeps.run {α : Type} {fault : DatabaseFault}
    {transaction : JobDatabase → Except JobStoreError (α × JobDatabase)}
    (h : Keeps new transaction db) : Evolves job new db (fault.run db transaction).2 := by
  cases ran : transaction db with
  | error e =>
    rw [DatabaseFault.run_of_error ran]
    exact .refl _ _
  | ok committed =>
    obtain ⟨a, u⟩ := committed
    by_cases reached : fault = .aborted
    · subst reached
      exact .refl _ _
    · rw [DatabaseFault.run_of_ok ran reached]
      exact h a u ran

end JobDatabase

namespace JobDisk

variable {d e : JobDisk} {new : String}

theorem evolves_of_records (h : e.records = d.records) : Evolves record new d e := by
  have same : e.record = d.record := by
    funext id
    rw [record, record, h]
  refine .of_map (f := fun _ r => r) (fun id => ?_) fun _ _ => rfl
  rw [same, Option.map_id']

theorem writeRecord_evolves {r : JobRecord} (fresh : d.record r.id = none) :
    Evolves record r.id d (d.writeRecord r) :=
  .of_new fresh fun id => writeRecord_record d r id

theorem create_evolves (job : NewJob) (fresh : d.record job.id = none) :
    Evolves record job.id d (d.create job).2 := by
  unfold create
  split
  · exact writeRecord_evolves (r := job.record) fresh
  · exact .refl _ _

theorem transition_evolves (jobId : String) (change : RecordChange) (now : Timestamp) :
    Evolves record new d (d.transition jobId change now).2 := by
  refine .of_map (transition_record d jobId change now) fun id r => ?_
  split
  · exact RecordChange.apply_asCreated _ _ _
  · rfl

theorem finish_evolves (jobId result : String) (isPartial : Bool) (error : Option String)
    (finishedAt now : Timestamp) :
    Evolves record new d (d.finish jobId result isPartial error finishedAt now).2 := by
  unfold finish
  split
  · exact .refl _ _
  · refine Evolves.trans (t := d.writeSidecar .result jobId result) (evolves_of_records rfl) ?_
    exact transition_evolves _ _ _

theorem writeCheckpoint_evolves (jobId payload : String) (now : Timestamp) :
    Evolves record new d (d.writeCheckpoint jobId payload now).2 := by
  unfold writeCheckpoint
  split
  · exact .refl _ _
  · refine Evolves.trans (t := d.writeSidecar .checkpoint jobId payload)
      (evolves_of_records rfl) ?_
    exact transition_evolves _ _ _

theorem failOrphans_evolves (clock : Nat → Timestamp) (d : JobDisk) (rs : List JobRecord) :
    Evolves record new d (failOrphans clock d rs).2 := by
  induction rs generalizing clock d with
  | nil => exact .refl _ _
  | cons r rest ih =>
    have moved : Evolves record new d (d.transition r.id
        (.markFailed (interruptedError r) (clock 0)) (clock 1)).2 :=
      transition_evolves _ _ _
    unfold failOrphans
    split
    · next answered =>
      rw [answered] at moved
      exact moved
    · next answered =>
      rw [answered] at moved
      exact moved.trans (ih _ _)

theorem importTerminal_evolves {job : ImportedJob} (fresh : d.record job.id = none)
    (resultJson : String) : Evolves record job.id d (d.importTerminal job resultJson).2 := by
  unfold importTerminal
  split
  · exact .refl _ _
  · split
    · have stored : ∀ e : JobDisk, e.records = d.records →
          Evolves record job.id d (e.writeRecord job.record) := fun e same =>
        (evolves_of_records same).trans
          (writeRecord_evolves (r := job.record) (by rw [record, same]; exact fresh))
      cases job.homepageHtml with
      | none => exact stored _ rfl
      | some html => exact stored _ rfl
    · exact .refl _ _

end JobDisk

namespace PostgresJobStore

variable {τ : Type u} [Sub τ] [LE τ] [DecidableLE τ] {α β : Type}
variable {s : PostgresJobStore τ} {db : JobDatabase} {io : CallConditions τ} {new : String}

section Guarded

variable {transaction : JobDatabase → Except JobStoreError (α × JobDatabase)}
variable {settle : CircuitBreaker τ → α → Except JobStoreError β × CircuitBreaker τ}
variable {fallback : JobDisk → Except JobStoreError β × JobDisk}
variable {onError : DatabaseError → Except JobStoreError β}

theorem guarded_database_evolves (s : PostgresJobStore τ) (io : CallConditions τ)
    (keeps : JobDatabase.Keeps new transaction db) :
    Evolves JobDatabase.job new db
      (s.guarded db io transaction settle fallback onError).database := by
  rw [guarded_database]
  split
  · exact .refl _ _
  · exact keeps.run

theorem guarded_fallbackStore_evolves (s : PostgresJobStore τ) (db : JobDatabase)
    (io : CallConditions τ)
    (keeps : Evolves JobDisk.record new s.fallbackStore (fallback s.fallbackStore).2) :
    Evolves JobDisk.record new s.fallbackStore
      (s.guarded db io transaction settle fallback onError).store.fallbackStore := by
  by_cases turned : s.TurnsToDisk db io transaction
  · rw [(guarded_of_turnsToDisk turned).2]
    exact keeps
  · rw [guarded_fallbackStore_of_not_turnsToDisk turned]
    exact .refl _ _

end Guarded

theorem keeps_of_read (read : JobDatabase → α) :
    JobDatabase.Keeps new (fun db => .ok (read db, db)) db := by
  rintro a u ⟨⟩
  exact .refl _ _

theorem keeps_of_update (run : JobDatabase → α × JobDatabase)
    (evolves : Evolves JobDatabase.job new db (run db).2) :
    JobDatabase.Keeps new (fun db => .ok (run db)) db := by
  intro a u h
  rw [show u = (run db).2 from (congrArg Prod.snd (Except.ok.inj h)).symm]
  exact evolves

theorem importTerminal_database_evolves (job : ImportedJob) (resultJson : String) :
    Evolves JobDatabase.job io.draw.id db (s.importTerminal db io job resultJson).database := by
  have once : ∀ db, Evolves JobDatabase.job io.draw.id db
      (io.fault.run db fun db => db.importOnce (job.drawn io.draw) resultJson).2 :=
    fun db => (JobDatabase.importOnce_keeps (job.drawn io.draw) resultJson).run
  have first := once db
  unfold importTerminal
  split
  · exact .refl _ _
  · dsimp only
    split
    · next ran =>
      rw [ran] at first
      exact first
    · next db' ran =>
      rw [ran] at first
      have second := once db'
      split
      · next again =>
        rw [again] at second
        exact first.trans second
      · next again =>
        rw [again] at second
        exact first.trans second
    · next ran =>
      rw [ran] at first
      exact first
    · next ran =>
      rw [ran] at first
      exact first
    · next ran =>
      rw [ran] at first
      exact first

theorem importTerminal_fallbackStore (job : ImportedJob) (resultJson : String) :
    (s.importTerminal db io job resultJson).store.fallbackStore = s.fallbackStore := by
  unfold importTerminal
  split
  · rfl
  · dsimp only
    split
    · rfl
    · split <;> rfl
    · rfl
    · rfl
    · rfl

theorem delete_cases (s : PostgresJobStore τ) (db : JobDatabase) (io : CallConditions τ)
    (jobId : String) :
    (s.delete db io jobId).database = db ∨ (s.delete db io jobId).database = db.deleteJob jobId ∧
        ((s.delete db io jobId).answer = .ok () ∨
          s.circuitOpen io = false ∧ io.fault = .unacknowledged) := by
  unfold delete
  split
  · exact .inl rfl
  · next asked =>
    dsimp only
    cases found : db.job jobId with
    | none =>
      have missing : db.delete jobId = .error (.jobNotFound jobId) := by
        simp only [JobDatabase.delete, found]
      cases fault : io.fault <;> simp [DatabaseFault.run, missing]
    | some r =>
      have deleted : db.delete jobId = .ok ((), db.deleteJob jobId) := by
        simp only [JobDatabase.delete, found]
      cases fault : io.fault with
      | aborted => exact .inl rfl
      | unacknowledged =>
        simp only [DatabaseFault.run, deleted]
        exact .inr ⟨trivial, .inr ⟨Bool.eq_false_of_not_eq_true asked, trivial⟩⟩
      | none =>
        simp only [DatabaseFault.run, deleted]
        exact .inr ⟨trivial, .inl trivial⟩

theorem delete_fallbackStore (jobId : String) :
    (s.delete db io jobId).store.fallbackStore = s.fallbackStore := by
  unfold delete
  split
  · rfl
  · dsimp only
    split <;> rfl

theorem transition_database_evolves (jobId : String) (change : Draw → RecordChange)
    (reading : Nat) :
    Evolves JobDatabase.job new db (s.transition db io jobId change reading).database :=
  guarded_database_evolves s io (keeps_of_update
    (fun db => db.transition jobId (change io.draw) (io.draw.clock reading))
    (JobDatabase.updateJobs_evolves _ _ _ _))

theorem transition_fallbackStore_evolves (jobId : String) (change : Draw → RecordChange)
    (reading : Nat) : Evolves JobDisk.record new s.fallbackStore
      (s.transition db io jobId change reading).store.fallbackStore :=
  guarded_fallbackStore_evolves s db io (JobDisk.transition_evolves _ _ _)

theorem call_database_evolves {call : JobCall} (other : ∀ jobId, call ≠ .delete jobId) :
    Evolves JobDatabase.job io.draw.id db (s.call db io call).database := by
  cases call with
  | create job =>
    show Evolves _ _ db (s.create db io job).database
    exact guarded_database_evolves s io (JobDatabase.createJob_keeps (job.drawn io.draw))
  | get jobId =>
    show Evolves _ _ db (s.get db io jobId).database
    exact guarded_database_evolves s io (keeps_of_read fun db => db.job jobId)
  | listJobs =>
    show Evolves _ _ db (s.listJobs db io).database
    exact guarded_database_evolves s io (keeps_of_read fun db => db.selectJobs)
  | markRunning jobId => exact transition_database_evolves jobId _ 1
  | updateTelemetry jobId telemetry => exact transition_database_evolves jobId _ 0
  | markFailed jobId error => exact transition_database_evolves jobId _ 1
  | finish jobId result isPartial error =>
    show Evolves _ _ db (s.finish db io jobId result isPartial error).database
    exact guarded_database_evolves s io (JobDatabase.finish_keeps _ _ _ _ _)
  | readResult jobId =>
    show Evolves _ _ db (s.readResult db io jobId).database
    exact guarded_database_evolves s io (keeps_of_read fun db => db.selectResult jobId)
  | writeCheckpoint jobId payload =>
    show Evolves _ _ db (s.writeCheckpoint db io jobId payload).database
    exact guarded_database_evolves s io (JobDatabase.writeCheckpoint_keeps _ _ _)
  | readCheckpoint jobId =>
    show Evolves _ _ db (s.readCheckpoint db io jobId).database
    exact guarded_database_evolves s io
      (keeps_of_read fun db => (db.payload jobId).bind JobPayload.checkpoint)
  | importTerminal job valid resultJson => exact importTerminal_database_evolves job resultJson
  | recoverOrphans =>
    show Evolves _ _ db (s.recoverOrphans db io).database
    exact guarded_database_evolves s io (keeps_of_update
      (fun db => db.recoverOrphans (io.draw.clock 0)) (JobDatabase.updateJobs_evolves _ _ _ _))
  | delete jobId => exact absurd rfl (other jobId)

theorem call_fallbackStore_evolves (call : JobCall)
    (fresh : s.fallbackStore.record io.fallbackDraw.id = none) :
    Evolves JobDisk.record io.fallbackDraw.id s.fallbackStore
      (s.call db io call).store.fallbackStore := by
  cases call with
  | create job =>
    show Evolves _ _ _ (s.create db io job).store.fallbackStore
    refine guarded_fallbackStore_evolves s db io ?_
    exact JobDisk.create_evolves (job.drawn io.fallbackDraw) fresh
  | get jobId =>
    show Evolves _ _ _ (s.get db io jobId).store.fallbackStore
    exact guarded_fallbackStore_evolves s db io (.refl _ _)
  | listJobs =>
    show Evolves _ _ _ (s.listJobs db io).store.fallbackStore
    exact guarded_fallbackStore_evolves s db io (.refl _ _)
  | markRunning jobId => exact transition_fallbackStore_evolves jobId _ 1
  | updateTelemetry jobId telemetry => exact transition_fallbackStore_evolves jobId _ 0
  | markFailed jobId error => exact transition_fallbackStore_evolves jobId _ 1
  | finish jobId result isPartial error =>
    show Evolves _ _ _ (s.finish db io jobId result isPartial error).store.fallbackStore
    exact guarded_fallbackStore_evolves s db io (JobDisk.finish_evolves _ _ _ _ _ _)
  | readResult jobId =>
    show Evolves _ _ _ (s.readResult db io jobId).store.fallbackStore
    exact guarded_fallbackStore_evolves s db io (.refl _ _)
  | writeCheckpoint jobId payload =>
    show Evolves _ _ _ (s.writeCheckpoint db io jobId payload).store.fallbackStore
    exact guarded_fallbackStore_evolves s db io (JobDisk.writeCheckpoint_evolves _ _ _)
  | readCheckpoint jobId =>
    show Evolves _ _ _ (s.readCheckpoint db io jobId).store.fallbackStore
    exact guarded_fallbackStore_evolves s db io (.refl _ _)
  | importTerminal job valid resultJson =>
    show Evolves _ _ _ (s.importTerminal db io job resultJson).store.fallbackStore
    rw [importTerminal_fallbackStore]
    exact .refl _ _
  | recoverOrphans =>
    show Evolves _ _ _ (s.recoverOrphans db io).store.fallbackStore
    exact guarded_fallbackStore_evolves s db io (JobDisk.failOrphans_evolves _ _ _)
  | delete jobId =>
    show Evolves _ _ _ (s.delete db io jobId).store.fallbackStore
    rw [delete_fallbackStore]
    exact .refl _ _

end PostgresJobStore

end Rankuno
