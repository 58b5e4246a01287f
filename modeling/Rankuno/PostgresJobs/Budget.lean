import Rankuno.PostgresJobs.Store

/-!
# What an organization is charged

Any number of replicas create jobs in one database. A `create` compares the
limit of the organization with zero, not with what is left of it, and builds the
record it returns after the commit. So the charges stay within the limits, and a
`create` that raises leaves nothing behind, exactly in the runs whose committing
creates find the charge affordable and return. Nothing is assumed of the breakers
and disks the replicas start with, so creates of one replica that overlap count
as creates of several.
-/

universe u

namespace Rankuno

namespace JobDatabase

variable {db u : JobDatabase} {job : NewJob} {orgId : String}

/-- The job is in the database, with its charge. -/
structure Charged (db : JobDatabase) (job : NewJob) (u : JobDatabase) : Prop where
  orgConfigs : u.orgConfigs = db.orgConfigs
  jobs : db.jobs.insert? job.record = some u.jobs
  costLedger : db.costLedger.insert? ⟨job.record.orgId, job.id, estimatedCost⟩ = some u.costLedger
  jobPayloads : u.jobPayloads = db.jobPayloads

theorem createJob_eq_ok (h : db.createJob job = .ok ((), u)) :
    (∃ limit, db.creditLimit job.record.orgId = some limit ∧ 0 < limit) ∧ Charged db job u := by
  unfold createJob at h
  split at h
  · cases h
  · next limit hlimit =>
    split at h
    · cases h
    · next positive =>
      obtain ⟨created, hcreated, h⟩ := bind_eq_ok.mp h
      obtain ⟨charged, hcharged, h⟩ := bind_eq_ok.mp h
      obtain ⟨-, -, -, jobs, orgs, ledger, payloads⟩ :=
        insertJob_eq_ok (executed_eq_ok.mp hcreated)
      obtain ⟨inserted, orgs', jobs', payloads'⟩ := insertCharge_eq_ok (executed_eq_ok.mp hcharged)
      cases h
      refine ⟨⟨limit, hlimit, Int.not_le.mp positive⟩, orgs'.trans orgs, ?_, ?_,
        payloads'.trans payloads⟩
      · rw [jobs, jobs']
      · rw [← ledger]
        exact inserted

theorem createJob_of_limit {limit : Int} (hlimit : db.creditLimit job.record.orgId = some limit)
    (positive : 0 < limit) (fresh : db.job job.id = none) :
    ∃ u, db.createJob job = .ok ((), u) := by
  have provisioned : (db.orgConfigs.find? job.record.orgId).isSome := by
    cases h : db.orgConfigs.find? job.record.orgId with
    | none => simp [creditLimit, h] at hlimit
    | some org => rfl
  have unique : db.jobs.rows.any job.record.sharesImport = false := by
    simp [JobRecord.sharesImport, JobRecord.importSource, NewJob.record]
  obtain ⟨created, hcreated⟩ := insertJob_of_new (r := job.record) fresh unique provisioned
  obtain ⟨-, -, -, jobs, orgs, ledger, -⟩ := insertJob_eq_ok hcreated
  obtain ⟨charged, hcharged⟩ : ∃ charged,
      created.insertCharge ⟨job.record.orgId, job.id, estimatedCost⟩ = .ok charged := by
    refine insertCharge_of_new ?_ ⟨Table.isSome_find?_self jobs, ?_⟩
    · rw [ledger]
      exact charge_of_job_eq_none fresh
    · rwa [orgs]
  refine ⟨charged, ?_⟩
  simp only [createJob, hlimit, Int.not_le.mpr positive, if_false, hcreated]
  show executed (created.insertCharge _) >>= _ = _
  rw [hcharged]
  rfl

theorem Charged.spent (h : Charged db job u) (orgId : String) :
    u.spent orgId = db.spent orgId + if job.record.orgId = orgId then estimatedCost else 0 := by
  rw [JobDatabase.spent, (Table.insert?_eq_some.mp h.costLedger).2, List.foldl_append]
  show (if job.record.orgId = orgId then db.spent orgId + estimatedCost else db.spent orgId) = _
  split
  · rfl
  · rw [Int.add_zero]

/-- No organization is charged past its limit. -/
def WithinLimits (db : JobDatabase) : Prop :=
  ∀ orgId limit, db.creditLimit orgId = some limit → db.spent orgId ≤ limit

/-- Every job is charged for once. -/
def ChargedOnce (db : JobDatabase) : Prop :=
  ∀ r ∈ db.jobs.rows, ∃! c, c ∈ db.costLedger.rows ∧ c.jobId = r.id

theorem chargedOnce_iff : db.ChargedOnce ↔
    ∀ r ∈ db.jobs.rows, (db.costLedger.find? r.id).isSome := by
  refine forall₂_congr fun r hr => ?_
  rw [Option.isSome_iff_exists]
  constructor
  · rintro ⟨c, hc, -⟩
    exact ⟨c, Table.find?_eq_some.mpr hc⟩
  · rintro ⟨c, hc⟩
    refine ⟨c, Table.find?_eq_some.mp hc, fun c' hc' => ?_⟩
    rw [Table.find?_eq_some.mpr hc'] at hc
    exact Option.some.inj hc

theorem Charged.ne (h : Charged db job u) : u ≠ db := by
  rintro rfl
  have fresh := (Table.insert?_eq_some.mp h.jobs).1
  rw [Table.find?_insert? h.jobs, if_pos rfl] at fresh
  cases fresh

theorem Charged.chargedOnce (h : Charged db job u) (once : db.ChargedOnce) : u.ChargedOnce := by
  rw [chargedOnce_iff] at once ⊢
  rw [(Table.insert?_eq_some.mp h.jobs).2]
  intro r hr
  rcases List.mem_append.mp hr with hr | hr
  · exact Table.isSome_find?_insert? h.costLedger (once r hr)
  · rw [List.mem_singleton.mp hr]
    exact Table.isSome_find?_self h.costLedger

end JobDatabase

namespace PostgresJobStore

variable {τ : Type u} [Sub τ] [LE τ] [DecidableLE τ]
variable (s : PostgresJobStore τ) (db : JobDatabase) (io : CallConditions τ) (job : NewJob)

/-- The transaction of a create reaches its commit. -/
def Commits : Prop :=
  s.circuitOpen io = false ∧ io.fault ≠ .aborted ∧
    (∃ limit, db.creditLimit (job.drawn io.draw).record.orgId = some limit ∧ 0 < limit) ∧
    db.job io.draw.id = none

/-- A create that commits returns: the record it builds is valid, and where the
answer of the commit is lost, the circuit opens and the disk store takes over. -/
def Returns : Prop :=
  if io.fault = .unacknowledged then
    s.opensOnFailure io = true ∧ (job.drawn io.fallbackDraw).record.Valid
  else (job.drawn io.draw).record.Valid

variable {s db io job}

theorem Commits.run (h : s.Commits db io job) : ∃ u, db.Charged (job.drawn io.draw) u ∧
      (io.fault.run db fun db => db.createJob (job.drawn io.draw)) =
        (if io.fault = .none then .ok () else .error (.database .operational), u) := by
  obtain ⟨-, reached, ⟨limit, hlimit, positive⟩, fresh⟩ := h
  obtain ⟨u, hu⟩ := JobDatabase.createJob_of_limit hlimit positive fresh
  exact ⟨u, (JobDatabase.createJob_eq_ok hu).2, DatabaseFault.run_of_ok hu reached⟩

theorem create_database (asked : s.circuitOpen io = false) : (s.create db io job).database =
    (io.fault.run db fun db => db.createJob (job.drawn io.draw)).2 := by
  refine guarded_database.trans ?_
  rw [asked]
  rfl

theorem Commits.charged (h : s.Commits db io job) :
    db.Charged (job.drawn io.draw) (s.create db io job).database := by
  obtain ⟨u, charged, ran⟩ := h.run
  rw [create_database h.1, ran]
  exact charged

theorem create_database_of_not_commits (h : ¬s.Commits db io job) :
    (s.create db io job).database = db := by
  cases asked : s.circuitOpen io with
  | true =>
    refine guarded_database.trans ?_
    rw [asked]
    rfl
  | false =>
    rw [create_database asked]
    cases fault : io.fault with
    | aborted => rfl
    | _ =>
      cases ran : db.createJob (job.drawn io.draw) with
      | error e => exact DatabaseFault.run_of_error ran
      | ok created =>
        obtain ⟨budget, charged⟩ := JobDatabase.createJob_eq_ok ran
        refine absurd ⟨asked, by simp [fault], budget, ?_⟩ h
        exact (Table.insert?_eq_some.mp charged.jobs).1

theorem create_answer (h : ¬s.TurnsToDisk db io fun db => db.createJob (job.drawn io.draw)) :
    (s.create db io job).answer =
      (io.fault.run db fun db => db.createJob (job.drawn io.draw)).1 >>= fun _ =>
        rowToJobRecord (job.drawn io.draw).record :=
  attempt_answer (fun _ _ => rfl) h

theorem Commits.raises_iff (h : s.Commits db io job) :
    (∃ e, (s.create db io job).answer = .error e) ↔ ¬s.Returns io job := by
  obtain ⟨u, -, ran⟩ := h.run
  have asked : ¬s.circuitOpen io = true := by simp [h.1]
  rw [Returns]
  cases fault : io.fault with
  | aborted => exact absurd fault h.2.1
  | none =>
    rw [fault, if_pos rfl] at ran
    rw [if_neg (by simp)]
    rw [create_answer, fault, ran]
    · exact rowToJobRecord_raises
    · rintro (refused | ⟨-, e, failed⟩)
      · exact asked refused
      · rw [fault, ran] at failed
        cases failed
  | unacknowledged =>
    rw [fault, if_neg (by simp)] at ran
    rw [if_pos rfl]
    by_cases opens : s.opensOnFailure io = true
    · have turned : s.TurnsToDisk db io fun db => db.createJob (job.drawn io.draw) :=
        .inr ⟨opens, .operational, by rw [fault, ran]⟩
      rw [show (s.create db io job).answer = _ from (guarded_of_turnsToDisk turned).1]
      rw [JobDisk.create_raises]
      simp [opens]
    · rw [create_answer, fault, ran]
      · exact ⟨fun _ returns => opens returns.1, fun _ => ⟨_, rfl⟩⟩
      · rintro (refused | ⟨opened, -⟩)
        · exact asked refused
        · exact opens opened

end PostgresJobStore

/-- The replicas of the API, each with a breaker and a disk of its own, and the
database they share. -/
structure JobFleet (τ : Type u) where
  replicas : List (PostgresJobStore τ)
  database : JobDatabase

/-- A create of one replica, and what it meets. -/
structure CreateCall (τ : Type u) where
  replica : Nat
  job : NewJob
  io : CallConditions τ

namespace JobFleet

variable {τ : Type u}

/-- Every organization is charged within its limit, every job once. -/
def Accounted (s : JobFleet τ) : Prop := s.database.WithinLimits ∧ s.database.ChargedOnce

/-- A fleet over a new database. -/
def start (replicas : List (PostgresJobStore τ)) (orgConfigs : Table String OrgConfigRow.orgId) :
    JobFleet τ :=
  ⟨replicas, .start orgConfigs⟩

theorem accounted_start_iff (replicas : List (PostgresJobStore τ))
    (orgConfigs : Table String OrgConfigRow.orgId) :
    (start replicas orgConfigs).Accounted ↔ ∀ org ∈ orgConfigs.rows, 0 ≤ org.llmCreditLimitUsd := by
  constructor
  · rintro ⟨within, -⟩ org horg
    refine within org.orgId org.llmCreditLimitUsd ?_
    exact congrArg (Option.map _) (Table.find?_key horg)
  · intro h
    refine ⟨fun orgId limit hlimit => ?_, List.forall_mem_nil _⟩
    obtain ⟨org, horg, rfl⟩ := Option.map_eq_some_iff.mp hlimit
    exact h org (Table.find?_eq_some.mp horg).1

variable [Sub τ] [LE τ] [DecidableLE τ]

def reply (s : JobFleet τ) (call : CreateCall τ) : Option (Reply τ JobRecord) :=
  s.replicas[call.replica]?.map fun store => store.create s.database call.io call.job

def machine : Machine (JobFleet τ) (CreateCall τ) where
  step s call := (s.reply call).map fun reply =>
    ⟨s.replicas.set call.replica reply.store, reply.database⟩

/-- A create that raises leaves the database as it was. -/
def RaisesClean (s : JobFleet τ) (call : CreateCall τ) : Prop :=
  ∀ reply ∈ s.reply call, ∀ e, reply.answer = .error e → reply.database = s.database

/-- A create that commits finds room for its charge below the limit, and returns. -/
def Affordable (s : JobFleet τ) (call : CreateCall τ) : Prop :=
  ∀ store ∈ s.replicas[call.replica]?, store.Commits s.database call.io call.job →
    (∀ limit ∈ s.database.creditLimit (call.job.drawn call.io.draw).record.orgId,
      s.database.spent (call.job.drawn call.io.draw).record.orgId + JobDatabase.estimatedCost ≤
        limit) ∧
      store.Returns call.io call.job

variable {s t : JobFleet τ} {call : CreateCall τ}

theorem step_eq_some (hstep : machine.step s call = some t) :
    ∃ store, s.replicas[call.replica]? = some store ∧
      s.reply call = some (store.create s.database call.io call.job) ∧
      t.database = (store.create s.database call.io call.job).database := by
  obtain ⟨reply, hreply, rfl⟩ := Option.map_eq_some_iff.mp hstep
  obtain ⟨store, hstore, rfl⟩ := Option.map_eq_some_iff.mp hreply
  exact ⟨store, hstore, hreply, rfl⟩

theorem withinLimits_charged_iff {db u : JobDatabase} {job : NewJob}
    (charged : db.Charged job u) (within : db.WithinLimits) : u.WithinLimits ↔
      ∀ limit ∈ db.creditLimit job.record.orgId,
        db.spent job.record.orgId + JobDatabase.estimatedCost ≤ limit := by
  have limits : ∀ orgId, u.creditLimit orgId = db.creditLimit orgId := by
    intro orgId
    rw [JobDatabase.creditLimit, charged.orgConfigs]
    rfl
  constructor
  · intro h limit hlimit
    have bound := h job.record.orgId limit (by rw [limits]; exact hlimit)
    rwa [charged.spent, if_pos rfl] at bound
  · intro h orgId limit hlimit
    rw [limits] at hlimit
    rw [charged.spent]
    split
    · next same =>
      subst same
      exact h limit hlimit
    · rw [Int.add_zero]
      exact within orgId limit hlimit

theorem step_iff (accounted : s.Accounted) (hstep : machine.step s call = some t) :
    t.Accounted ∧ s.RaisesClean call ↔ s.Affordable call := by
  obtain ⟨store, hstore, hreply, after⟩ := step_eq_some hstep
  simp only [RaisesClean, Affordable, hreply, hstore, Option.mem_some_iff, forall_eq',
    Accounted, after]
  by_cases commits : store.Commits s.database call.io call.job
  · have charged := commits.charged
    have clean : (∀ e, (store.create s.database call.io call.job).answer = .error e →
        (store.create s.database call.io call.job).database = s.database) ↔
          store.Returns call.io call.job := by
      rw [← not_iff_not, ← commits.raises_iff]
      simp [charged.ne]
    rw [withinLimits_charged_iff charged accounted.1, clean]
    simp [charged.chargedOnce accounted.2, commits]
  · have same := PostgresJobStore.create_database_of_not_commits commits
    rw [same]
    exact ⟨fun _ h => absurd h commits, fun _ => ⟨accounted, fun _ _ => rfl⟩⟩

/-- In every interleaving of creates, the charges stay within the limits, one for
each job, and no create that raises leaves anything behind, exactly when no
limit is negative and every create that commits is affordable and returns. -/
theorem accounted_iff_affordable (replicas : List (PostgresJobStore τ))
    (orgConfigs : Table String OrgConfigRow.orgId) (calls : List (CreateCall τ)) :
    machine.Always Accounted (start replicas orgConfigs) calls ∧
        machine.Meets RaisesClean (start replicas orgConfigs) calls ↔
      (∀ org ∈ orgConfigs.rows, 0 ≤ org.llmCreditLimitUsd) ∧
        machine.Meets Affordable (start replicas orgConfigs) calls := by
  have skip : ∀ (s : JobFleet τ) call, machine.step s call = none →
      s.RaisesClean call ∧ s.Affordable call := by
    intro s call hstep
    have none : s.reply call = none := Option.map_eq_none_iff.mp hstep
    refine ⟨fun reply hreply => ?_, fun store hstore => ?_⟩
    · rw [none] at hreply
      cases hreply
    · rw [Option.map_eq_none_iff.mp none] at hstore
      cases hstore
  rw [← accounted_start_iff replicas orgConfigs]
  constructor
  · rintro ⟨always, clean⟩
    refine ⟨always.first, ?_⟩
    exact (Machine.always_and_meets_iff (fun _ _ _ => step_iff) skip always.first).mp
      ⟨always, clean⟩
  · rintro ⟨init, affordable⟩
    exact (Machine.always_and_meets_iff (fun _ _ _ => step_iff) skip init).mpr affordable

section Sample

def sampleJob (toolName : String) : NewJob :=
  ⟨"", toolName, "", none, "seo.page_classifier", "{}", none, 0⟩

/-- A create of the one replica that meets no fault. -/
def sampleCreate (id toolName : String) : CreateCall Int :=
  ⟨0, sampleJob toolName, ⟨.none, ⟨id, fun _ => 0⟩, ⟨id, fun _ => 0⟩, 0, 0, 0⟩⟩

/-- One replica, and an organization with 0.75 dollars. -/
def sampleStart : JobFleet Int :=
  start [⟨.new 5 30, .empty⟩] ⟨[⟨"default", 75⟩], by simp⟩

/-- The second of two jobs is charged past what is left of the limit, and a job
without a tool is charged for although its create raises. -/
theorem charges_past_limit_and_raises_charged :
    ¬machine.Always Accounted sampleStart [sampleCreate "a" "t", sampleCreate "b" "t"] ∧
      ¬machine.Meets RaisesClean sampleStart [sampleCreate "a" ""] := by
  constructor
  · intro h
    have exceeded : (machine.run sampleStart [sampleCreate "a" "t", sampleCreate "b" "t"]).any
        fun t => t.database.creditLimit "default" = some 75 ∧
          t.database.spent "default" = 100 := by decide
    obtain ⟨t, ht, exceeded⟩ := (Option.any_eq_true _ _).mp exceeded
    obtain ⟨limit, spent⟩ := of_decide_eq_true exceeded
    have within := (h.last ht).1 "default" 75 limit
    rw [spent] at within
    cases within
  · intro h
    have charged : (sampleStart.reply (sampleCreate "a" "")).any
        fun reply => reply.answer.toBool = false ∧ reply.database.spent "default" = 50 := by decide
    obtain ⟨reply, hreply, charged⟩ := (Option.any_eq_true _ _).mp charged
    obtain ⟨raises, spent⟩ := of_decide_eq_true charged
    cases hanswer : reply.answer with
    | ok r =>
      rw [hanswer] at raises
      cases raises
    | error e =>
      rw [h.head reply hreply e hanswer] at spent
      cases spent

end Sample

end JobFleet

end Rankuno
