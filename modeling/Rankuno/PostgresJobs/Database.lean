import Rankuno.JobStore.Methods

/-!
# The tables behind the Postgres job store

The four tables of `alembic/versions` that `PostgresJobStore` writes. A
`JobDatabase` carries its unique indexes and foreign keys, so a statement that
would break one of them has no database to leave and fails instead. Amounts of
money are in cents, JSON columns hold the text that was written.
-/

namespace Rankuno

/-- A row of `org_configs`. -/
structure OrgConfigRow where
  orgId : String
  llmCreditLimitUsd : Int
  deriving DecidableEq

/-- A row of `cost_ledger`. -/
structure CostCharge where
  orgId : String
  jobId : String
  amountUsd : Int
  deriving DecidableEq

/-- A row of `job_payloads`. -/
structure JobPayload where
  jobId : String
  result : Option String := none
  checkpoint : Option String := none
  homepageHtml : Option String := none
  deriving DecidableEq

/-- What `uq_jobs_import_source` indexes of a row, when it does. -/
def JobRecord.importSource (r : JobRecord) : Option (String × String × String) :=
  r.provenance.map fun source => (r.orgId, source.sourceInstanceId, source.sourceJobId)

@[simp] theorem RecordChange.apply_orgId (change : RecordChange) (now : Timestamp)
    (r : JobRecord) : (change.apply now r).orgId = r.orgId := by
  cases change <;> rfl

@[simp] theorem RecordChange.apply_importSource (change : RecordChange) (now : Timestamp)
    (r : JobRecord) : (change.apply now r).importSource = r.importSource := by
  cases change <;> rfl

/-- Whether two rows are imports of one source, which the index refuses. -/
def JobRecord.sharesImport (r q : JobRecord) : Bool :=
  r.importSource.isSome && decide (q.importSource = r.importSource)

structure JobDatabase where
  orgConfigs : Table String OrgConfigRow.orgId
  jobs : Table String JobRecord.id
  costLedger : Table String CostCharge.jobId
  jobPayloads : Table String JobPayload.jobId
  imports_unique : ∀ r ∈ jobs.rows, ∀ q ∈ jobs.rows, r.sharesImport q = true → q = r
  jobs_org : ∀ r ∈ jobs.rows, (orgConfigs.find? r.orgId).isSome
  charges_job : ∀ c ∈ costLedger.rows, (jobs.find? c.jobId).isSome
  payloads_job : ∀ p ∈ jobPayloads.rows, (jobs.find? p.jobId).isSome

namespace JobDatabase

/-- Organizations without any jobs yet. -/
def start (orgConfigs : Table String OrgConfigRow.orgId) : JobDatabase where
  orgConfigs := orgConfigs
  jobs := .empty
  costLedger := .empty
  jobPayloads := .empty
  imports_unique := List.forall_mem_nil _
  jobs_org := List.forall_mem_nil _
  charges_job := List.forall_mem_nil _
  payloads_job := List.forall_mem_nil _

variable (db : JobDatabase)

def job (id : String) : Option JobRecord := db.jobs.find? id

def payload (id : String) : Option JobPayload := db.jobPayloads.find? id

/-- `llm_credit_limit_usd` of an organization. -/
def creditLimit (orgId : String) : Option Int :=
  (db.orgConfigs.find? orgId).map OrgConfigRow.llmCreditLimitUsd

/-- What has been charged to an organization. -/
def spent (orgId : String) : Int :=
  db.costLedger.rows.foldl
    (fun total c => if c.orgId = orgId then total + c.amountUsd else total) 0

section Constraints

variable {db} {jobs : Table String JobRecord.id} {r : JobRecord}

theorem imports_unique_append (inserted : db.jobs.insert? r = some jobs)
    (unique : db.jobs.rows.any r.sharesImport = false) :
    ∀ r ∈ jobs.rows, ∀ q ∈ jobs.rows, r.sharesImport q = true → q = r := by
  rw [List.any_eq_false] at unique
  rw [(Table.insert?_eq_some.mp inserted).2]
  intro r' hr q hq shares
  rw [List.mem_append, List.mem_singleton] at hr hq
  obtain ⟨some, same⟩ := Bool.and_eq_true_iff.mp shares
  rw [decide_eq_true_eq] at same
  rcases hr with hr | rfl
  · rcases hq with hq | rfl
    · exact db.imports_unique r' hr q hq shares
    · refine absurd ?_ (unique r' hr)
      simp [JobRecord.sharesImport, same, some]
  · rcases hq with hq | rfl
    · exact absurd shares (unique q hq)
    · rfl

theorem imports_unique_update {p : JobRecord → Bool} {f : JobRecord → JobRecord}
    {keep : ∀ r, (f r).id = r.id} (same : ∀ r, (f r).importSource = r.importSource) :
    ∀ r ∈ (db.jobs.update p f keep).rows, ∀ q ∈ (db.jobs.update p f keep).rows,
      r.sharesImport q = true → q = r := by
  have source : ∀ r, (if p r then f r else r).importSource = r.importSource := by
    intro r
    split
    · exact same r
    · rfl
  intro r' hr' q' hq' shares
  obtain ⟨r, hr, rfl⟩ := Table.mem_update.mp hr'
  obtain ⟨q, hq, rfl⟩ := Table.mem_update.mp hq'
  simp only [JobRecord.sharesImport, source] at shares
  rw [db.imports_unique r hr q hq shares]

theorem payload_getD_jobId (db : JobDatabase) (jobId : String) :
    ((db.payload jobId).getD { jobId }).jobId = jobId := by
  cases h : db.payload jobId with
  | none => rfl
  | some p => exact (Table.find?_eq_some.mp h).2

end Constraints

section Statements

/-- `INSERT INTO jobs`. -/
def insertJob (r : JobRecord) : Except DatabaseError JobDatabase :=
  match inserted : db.jobs.insert? r with
  | none => .error .uniqueViolation
  | some jobs =>
    if unique : db.jobs.rows.any r.sharesImport = false then
      if provisioned : (db.orgConfigs.find? r.orgId).isSome then
        .ok { db with
          jobs := jobs
          imports_unique := imports_unique_append inserted unique
          jobs_org := by
            rw [(Table.insert?_eq_some.mp inserted).2]
            intro q hq
            rcases List.mem_append.mp hq with hq | hq
            · exact db.jobs_org q hq
            · rw [List.mem_singleton.mp hq]
              exact provisioned
          charges_job := fun c hc => Table.isSome_find?_insert? inserted (db.charges_job c hc)
          payloads_job := fun p hp => Table.isSome_find?_insert? inserted (db.payloads_job p hp) }
      else .error .foreignKeyViolation
    else .error .uniqueViolation

/-- `INSERT INTO cost_ledger`. -/
def insertCharge (c : CostCharge) : Except DatabaseError JobDatabase :=
  match inserted : db.costLedger.insert? c with
  | none => .error .uniqueViolation
  | some costLedger =>
    if known : (db.jobs.find? c.jobId).isSome ∧ (db.orgConfigs.find? c.orgId).isSome then
      .ok { db with
        costLedger := costLedger
        charges_job := by
          rw [(Table.insert?_eq_some.mp inserted).2]
          intro q hq
          rcases List.mem_append.mp hq with hq | hq
          · exact db.charges_job q hq
          · rw [List.mem_singleton.mp hq]
            exact known.1 }
    else .error .foreignKeyViolation

/-- `INSERT INTO job_payloads ... ON CONFLICT (job_id) DO UPDATE`. -/
def upsertPayload (jobId : String) (change : JobPayload → JobPayload)
    (keep : ∀ p, (change p).jobId = p.jobId) : Except DatabaseError JobDatabase :=
  if known : (db.jobs.find? jobId).isSome then
    .ok { db with
      jobPayloads := db.jobPayloads.put (change ((db.payload jobId).getD { jobId }))
      payloads_job := by
        intro p hp
        rcases Table.mem_put.mp hp with ⟨hp, -⟩ | rfl
        · exact db.payloads_job p hp
        · rw [keep, payload_getD_jobId]
          exact known }
  else .error .foreignKeyViolation

/-- `UPDATE jobs`: change the rows the condition selects. -/
def updateJobs (p : JobRecord → Bool) (change : JobRecord → RecordChange) (now : Timestamp) :
    JobDatabase :=
  { db with
    jobs := db.jobs.update p (fun r => (change r).apply now r) fun r => by simp
    imports_unique := imports_unique_update fun r => by simp
    jobs_org := by
      intro q hq
      obtain ⟨r, hr, rfl⟩ := Table.mem_update.mp hq
      have org := db.jobs_org r hr
      split
      · rwa [RecordChange.apply_orgId]
      · exact org
    charges_job := fun c hc => by simpa using db.charges_job c hc
    payloads_job := fun c hc => by simpa using db.payloads_job c hc }

/-- `DELETE FROM jobs` of one row, which takes the rows that refer to it along. -/
def deleteJob (jobId : String) : JobDatabase :=
  { db with
    jobs := db.jobs.delete fun r => r.id = jobId
    costLedger := db.costLedger.delete fun c => c.jobId = jobId
    jobPayloads := db.jobPayloads.delete fun p => p.jobId = jobId
    imports_unique := fun r hr q hq =>
      db.imports_unique r (Table.mem_delete.mp hr).1 q (Table.mem_delete.mp hq).1
    jobs_org := fun r hr => db.jobs_org r (Table.mem_delete.mp hr).1
    charges_job := by
      intro c hc
      obtain ⟨hc, other⟩ := Table.mem_delete.mp hc
      rw [Table.find?_delete_of_ne (of_decide_eq_false other)]
      exact db.charges_job c hc
    payloads_job := by
      intro p hp
      obtain ⟨hp, other⟩ := Table.mem_delete.mp hp
      rw [Table.find?_delete_of_ne (of_decide_eq_false other)]
      exact db.payloads_job p hp }

end Statements

section Specifications

variable {db} {u : JobDatabase} {r : JobRecord} {c : CostCharge} {jobId id : String}
variable {change : JobPayload → JobPayload} {keep : ∀ p, (change p).jobId = p.jobId}

theorem insertJob_eq_ok : db.insertJob r = .ok u →
    db.job r.id = none ∧ db.jobs.rows.any r.sharesImport = false ∧
      (db.orgConfigs.find? r.orgId).isSome ∧ db.jobs.insert? r = some u.jobs ∧
      u.orgConfigs = db.orgConfigs ∧ u.costLedger = db.costLedger ∧
      u.jobPayloads = db.jobPayloads := by
  intro h
  unfold insertJob at h
  split at h
  · cases h
  · next jobs inserted =>
    split at h
    · next unique =>
      split at h
      · next provisioned =>
        cases h
        exact ⟨(Table.insert?_eq_some.mp inserted).1, unique, provisioned, inserted, rfl, rfl, rfl⟩
      · cases h
    · cases h

theorem insertJob_of_new (fresh : db.job r.id = none)
    (unique : db.jobs.rows.any r.sharesImport = false)
    (provisioned : (db.orgConfigs.find? r.orgId).isSome) : ∃ u, db.insertJob r = .ok u := by
  unfold insertJob
  split
  · next refused =>
    rw [Table.insert?_eq_none] at refused
    rw [job] at fresh
    rw [fresh] at refused
    cases refused
  · rw [dif_pos unique, dif_pos provisioned]
    exact ⟨_, rfl⟩

theorem insertCharge_eq_ok : db.insertCharge c = .ok u →
    db.costLedger.insert? c = some u.costLedger ∧ u.orgConfigs = db.orgConfigs ∧
      u.jobs = db.jobs ∧ u.jobPayloads = db.jobPayloads := by
  intro h
  unfold insertCharge at h
  split at h
  · cases h
  · next costLedger inserted =>
    split at h
    · cases h
      exact ⟨inserted, rfl, rfl, rfl⟩
    · cases h

theorem insertCharge_of_new (fresh : db.costLedger.find? c.jobId = none)
    (known : (db.jobs.find? c.jobId).isSome ∧ (db.orgConfigs.find? c.orgId).isSome) :
    ∃ u, db.insertCharge c = .ok u := by
  unfold insertCharge
  split
  · next refused =>
    rw [Table.insert?_eq_none, fresh] at refused
    cases refused
  · rw [dif_pos known]
    exact ⟨_, rfl⟩

theorem charge_of_job_eq_none (h : db.job jobId = none) : db.costLedger.find? jobId = none := by
  rw [Table.find?_eq_none]
  rintro c hc rfl
  have known := db.charges_job c hc
  rw [job] at h
  rw [h] at known
  cases known

end Specifications

end JobDatabase

end Rankuno
