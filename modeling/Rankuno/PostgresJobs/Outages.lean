import Rankuno.PostgresJobs.Budget
import Rankuno.PostgresJobs.Evolution

/-!
# Created jobs across database outages

One API process calls a `PostgresJobStore` while the database fails and comes
back, and is restarted, each time with a new breaker and with a run of
`recover_orphaned_jobs`. Two stores back one id space, and the breaker decides
which of them a call asks. A job stays in the store that `create` put it in, so
it is found by every call that asks this store; the other store never learns of
it.
-/

universe u

namespace Rankuno

/-- The files that a run of `recover_orphaned_jobs` over the store's own directory
leaves: those the system raised for, and those after a crash. -/
structure FilesLeft where
  records : List String
  sidecars : List (SidecarKind × String)
  deriving DecidableEq

/-- `recover_orphaned_jobs` over the store's own directory, where every JSON file
holds an object. -/
def JobDisk.recoverOrphanedJobs (d : JobDisk) (left : FilesLeft) : JobDisk where
  records := d.records.delete fun r => !left.records.contains r.id
  sidecars := d.sidecars.delete fun f =>
    f.kind ≠ .homepage && !left.sidecars.contains (f.kind, f.jobId)

/-- A record that `create` returned, and the store that has it. -/
structure PlacedJob where
  record : JobRecord
  onDisk : Bool
  deriving DecidableEq

/-- The API process with its stores. `placed` and `deleted` are what `create` and
`delete` have answered, `drawn` the ids that `uuid4` has drawn. -/
structure JobService (τ : Type u) where
  store : PostgresJobStore τ
  database : JobDatabase
  placed : List PlacedJob
  deleted : List String
  drawn : List String

/-- A call and what it meets, or a restart. Its recovery runs over a directory of
its own, or over that of the disk store. -/
inductive ServiceEvent (τ : Type u) where
  | call (call : JobCall) (io : CallConditions τ)
  | restart (left : Option FilesLeft)

namespace JobService

variable {τ : Type u}

/-- A process over any stores, before its first call. -/
def start (store : PostgresJobStore τ) (database : JobDatabase) : JobService τ where
  store := store
  database := database
  placed := []
  deleted := []
  drawn := store.fallbackStore.records.rows.map JobRecord.id ++ database.jobs.rows.map JobRecord.id

variable (s : JobService τ)

def live : List PlacedJob := s.placed.filter fun p => !s.deleted.contains p.record.id

def held (p : PlacedJob) : Option JobRecord :=
  if p.onDisk then s.store.fallbackStore.record p.record.id else s.database.job p.record.id

/-- What a call places. A record under the id the disk store drew is on disk. -/
def placedBy (io : CallConditions τ) : JobCall → Except JobStoreError JobAnswer → List PlacedJob
  | .create _, .ok (.record r) => [⟨r, decide (r.id = io.fallbackDraw.id)⟩]
  | _, _ => []

def deletedBy : JobCall → Except JobStoreError JobAnswer → List String
  | .delete jobId, .ok _ => [jobId]
  | _, _ => []

/-- What each step keeps: what is stored was drawn, and each created job is a
valid record where it was put. -/
structure Kept (s : JobService τ) : Prop where
  database_drawn : ∀ id ∉ s.drawn, s.database.job id = none
  disk_drawn : ∀ id ∉ s.drawn, s.store.fallbackStore.record id = none
  live_valid : ∀ p ∈ s.live, p.record.Valid
  live_held : ∀ p ∈ s.live, ∃ r, s.held p = some r ∧ r.asCreated = p.record.asCreated

theorem start_kept (store : PostgresJobStore τ) (database : JobDatabase) :
    (start store database).Kept where
  database_drawn := by
    intro id fresh
    refine Table.find?_eq_none.mpr fun r hr same => fresh ?_
    exact List.mem_append_right _ (List.mem_map.mpr ⟨r, hr, same⟩)
  disk_drawn := by
    intro id fresh
    refine Table.find?_eq_none.mpr fun r hr same => fresh ?_
    exact List.mem_append_left _ (List.mem_map.mpr ⟨r, hr, same⟩)
  live_valid := List.forall_mem_nil _
  live_held := List.forall_mem_nil _

theorem mem_placedBy {p : PlacedJob} {call : JobCall} {io : CallConditions τ}
    {answer : Except JobStoreError JobAnswer} (h : p ∈ placedBy io call answer) :
    ∃ job, call = .create job ∧
      answer = .ok (.record p.record) ∧ p.onDisk = decide (p.record.id = io.fallbackDraw.id) := by
  unfold placedBy at h
  split at h
  · next job r =>
    rw [List.mem_singleton.mp h]
    exact ⟨job, rfl, rfl, rfl⟩
  · cases h

variable [Sub τ] [LE τ] [DecidableLE τ]

/-- `uuid4` draws no id twice. -/
def Fresh (io : CallConditions τ) : Prop :=
  io.draw.id ∉ s.drawn ∧ io.fallbackDraw.id ∉ s.drawn ∧ io.draw.id ≠ io.fallbackDraw.id

instance (io : CallConditions τ) : Decidable (s.Fresh io) :=
  inferInstanceAs (Decidable (_ ∧ _ ∧ _))

/-- The process after a call. -/
def called (call : JobCall) (io : CallConditions τ) : JobService τ :=
  let reply := s.store.call s.database io call
  { store := reply.store
    database := reply.database
    placed := s.placed ++ placedBy io call reply.answer
    deleted := s.deleted ++ deletedBy call reply.answer
    drawn := io.draw.id :: io.fallbackDraw.id :: s.drawn }

/-- The process after a restart. -/
def restarted (left : Option FilesLeft) : JobService τ :=
  let breaker := s.store.circuitBreaker
  let disk := s.store.fallbackStore
  { s with
    store := {
      circuitBreaker := .new breaker.failureThreshold breaker.recoveryTimeoutS
      fallbackStore := match left with
        | some left => disk.recoverOrphanedJobs left
        | none => disk } }

def machine : Machine (JobService τ) (ServiceEvent τ) where
  step s
    | .call call io => if s.Fresh io then some (s.called call io) else none
    | .restart left => some (s.restarted left)

/-- Which store answers a call that only reads, where one does: whether it is the
disk store. -/
def reads (s : PostgresJobStore τ) (io : CallConditions τ) : Option Bool :=
  if s.circuitOpen io then some true
  else if io.fault = .none then some false
  else if s.opensOnFailure io then some true
  else none

/-- No created job is lost: a `get` of it answers with its record or another error
than `JobNotFoundError`, and a listing that is answered has it. -/
def Found (s : JobService τ) : ServiceEvent τ → Prop
  | .call (.get jobId) io =>
    ∀ p ∈ s.live, p.record.id = jobId →
      (s.store.get s.database io jobId).answer ≠ .error (.jobNotFound jobId) ∧
        ∀ r, (s.store.get s.database io jobId).answer = .ok r → r.asCreated = p.record.asCreated
  | .call .listJobs io =>
    ∀ rs, (s.store.listJobs s.database io).answer = .ok rs →
      ∀ p ∈ s.live, ∃ r ∈ rs, r.asCreated = p.record.asCreated
  | _ => True

/-- A read is answered by the store that has the job, or all jobs; the caller of a
deletion that is committed learns of it; and a recovery leaves the files of jobs. -/
def Homed (s : JobService τ) : ServiceEvent τ → Prop
  | .call (.get jobId) io =>
    ∀ p ∈ s.live, p.record.id = jobId → ∀ onDisk ∈ reads s.store io, p.onDisk = onDisk
  | .call .listJobs io =>
    ∀ p ∈ s.live, ∀ onDisk ∈ reads s.store io, p.onDisk = onDisk
  | .call (.delete jobId) io =>
    ∀ p ∈ s.live, p.record.id = jobId → p.onDisk = false →
      s.store.circuitOpen io = true ∨ io.fault ≠ .unacknowledged
  | .restart (some left) => ∀ p ∈ s.live, p.onDisk = true → p.record.id ∈ left.records
  | _ => True

instance (s : JobService τ) : DecidablePred (Homed s)
  | .call (.get _) _ => inferInstanceAs (Decidable (∀ p ∈ s.live, _ → ∀ onDisk ∈ _, _))
  | .call .listJobs _ => inferInstanceAs (Decidable (∀ p ∈ s.live, ∀ onDisk ∈ _, _))
  | .call (.delete _) _ => inferInstanceAs (Decidable (∀ p ∈ s.live, _ → _ → _ ∨ _))
  | .restart (some _) => inferInstanceAs (Decidable (∀ p ∈ s.live, _ → _))
  | .restart none => isTrue trivial
  | .call (.create _) _ => isTrue trivial
  | .call (.markRunning _) _ => isTrue trivial
  | .call (.updateTelemetry _ _) _ => isTrue trivial
  | .call (.markFailed _ _) _ => isTrue trivial
  | .call (.finish _ _ _ _) _ => isTrue trivial
  | .call (.readResult _) _ => isTrue trivial
  | .call (.writeCheckpoint _ _) _ => isTrue trivial
  | .call (.readCheckpoint _) _ => isTrue trivial
  | .call (.importTerminal _ _ _) _ => isTrue trivial
  | .call .recoverOrphans _ => isTrue trivial

section Reads

variable {α β : Type}

theorem attempt_read (s : PostgresJobStore τ) (db : JobDatabase) (io : CallConditions τ)
    (read : JobDatabase → α) (answer : α → Except JobStoreError β)
    (fallback : JobDisk → Except JobStoreError β) :
    (s.attempt db io (fun db => .ok (read db, db)) (recordThenAnswer answer)
      fun d => (fallback d, d)).answer =
      match reads s io with
      | some true => fallback s.fallbackStore
      | some false => answer (read db)
      | none => .error (.database .operational) := by
  have settled : ∀ (breaker : CircuitBreaker τ) a,
      (recordThenAnswer answer breaker a).1 = answer a := fun _ _ => rfl
  by_cases refused : s.circuitOpen io = true
  · rw [show reads s io = some true from if_pos refused]
    exact (PostgresJobStore.guarded_of_turnsToDisk (.inl refused)).1
  by_cases none : io.fault = .none
  · rw [show reads s io = some false by rw [reads, if_neg refused, if_pos none]]
    have stays : ¬s.TurnsToDisk db io fun db => .ok (read db, db) := by
      rintro (open' | ⟨-, e, failed⟩)
      · exact refused open'
      · rw [none] at failed
        cases failed
    rw [PostgresJobStore.attempt_answer settled stays, none]
    rfl
  have failed : (io.fault.run db fun db => .ok (read db, db)).1 =
      .error (.database .operational) := by
    cases h : io.fault with
    | none => exact absurd h none
    | aborted => rfl
    | unacknowledged => rfl
  by_cases opens : s.opensOnFailure io = true
  · rw [show reads s io = some true by rw [reads, if_neg refused, if_neg none, if_pos opens]]
    exact (PostgresJobStore.guarded_of_turnsToDisk (.inr ⟨opens, _, failed⟩)).1
  · rw [show reads s io = Option.none by
      rw [reads, if_neg refused, if_neg none, if_neg opens]]
    have stays : ¬s.TurnsToDisk db io fun db => .ok (read db, db) := by
      rintro (open' | ⟨opens', -⟩)
      · exact refused open'
      · exact opens opens'
    rw [PostgresJobStore.attempt_answer settled stays, failed]
    rfl

end Reads

section Runs

variable {s t : JobService τ} {call : JobCall} {io : CallConditions τ}

theorem create_places {store : PostgresJobStore τ} {db : JobDatabase} {job : NewJob}
    {r : JobRecord} (h : (store.create db io job).answer = .ok r) :
    r.Valid ∧ (r.id = io.fallbackDraw.id ∧
          (store.create db io job).store.fallbackStore.record r.id = some r ∨
        r.id = io.draw.id ∧ (store.create db io job).database.job r.id = some r) := by
  by_cases turned : store.TurnsToDisk db io fun db => db.createJob (job.drawn io.draw)
  · have answer : (store.create db io job).answer =
        (store.fallbackStore.create (job.drawn io.fallbackDraw)).1 :=
      (PostgresJobStore.guarded_of_turnsToDisk turned).1
    have disk : (store.create db io job).store.fallbackStore =
        (store.fallbackStore.create (job.drawn io.fallbackDraw)).2 :=
      (PostgresJobStore.guarded_of_turnsToDisk turned).2
    have created := answer.symm.trans h
    rw [disk]
    unfold JobDisk.create at created ⊢
    split at created
    · next valid =>
      cases created
      rw [if_pos valid]
      refine ⟨valid, .inl ⟨rfl, ?_⟩⟩
      rw [JobDisk.writeRecord_record, if_pos rfl]
    · cases created
  · have answer : (store.create db io job).answer =
        (io.fault.run db fun db => db.createJob (job.drawn io.draw)).1 >>= fun _ =>
          rowToJobRecord (job.drawn io.draw).record :=
      PostgresJobStore.attempt_answer (fun _ _ => rfl) turned
    obtain ⟨a, ran, returned⟩ := bind_eq_ok.mp (answer.symm.trans h)
    have asked : store.circuitOpen io = false :=
      Bool.eq_false_of_not_eq_true fun refused => turned (.inl refused)
    rw [PostgresJobStore.create_database asked]
    change rowToJobRecord (job.drawn io.draw).record = .ok r at returned
    unfold rowToJobRecord at returned
    split at returned
    · next valid =>
      cases returned
      refine ⟨valid, .inr ⟨rfl, ?_⟩⟩
      cases committed : db.createJob (job.drawn io.draw) with
      | error e =>
        cases fault : io.fault <;> simp [DatabaseFault.run, fault, committed] at ran
      | ok created =>
        obtain ⟨⟨⟩, u⟩ := created
        have reached : io.fault ≠ .aborted := by
          intro fault
          rw [fault] at ran
          cases ran
        rw [DatabaseFault.run_of_ok committed reached]
        have charged := (JobDatabase.createJob_eq_ok committed).2
        exact (Table.find?_insert? charged.jobs).trans (if_pos rfl)
    · cases returned

theorem mem_live_called {p : PlacedJob} (h : p ∈ (s.called call io).live) :
    p ∈ s.live ∧ p.record.id ∉ deletedBy call (s.store.call s.database io call).answer ∨
      p ∈ placedBy io call (s.store.call s.database io call).answer := by
  obtain ⟨placed, stays⟩ := List.mem_filter.mp h
  replace stays : p.record.id ∉
      s.deleted ++ deletedBy call (s.store.call s.database io call).answer := by
    simpa [called] using stays
  rw [List.mem_append, not_or] at stays
  rcases List.mem_append.mp placed with old | new
  · refine .inl ⟨List.mem_filter.mpr ⟨old, ?_⟩, stays.2⟩
    simpa using stays.1
  · exact .inr new

theorem Kept.held_called (h : s.Kept) (fresh : s.Fresh io) (homed : s.Homed (.call call io))
    {p : PlacedJob} (live : p ∈ s.live)
    (stays : p.record.id ∉ deletedBy call (s.store.call s.database io call).answer) :
    ∃ r, (s.called call io).held p = some r ∧ r.asCreated = p.record.asCreated := by
  obtain ⟨r, held, same⟩ := h.live_held p live
  have keeps : ∃ r', (s.called call io).held p = some r' ∧ r'.asCreated = r.asCreated := by
    unfold JobService.held at held ⊢
    split
    · next onDisk =>
      rw [if_pos onDisk] at held
      exact (PostgresJobStore.call_fallbackStore_evolves call
        (h.disk_drawn _ fresh.2.1)).keeps _ r held
    · next inDatabase =>
      rw [if_neg inDatabase] at held
      by_cases other : ∀ jobId, call ≠ .delete jobId
      · exact (PostgresJobStore.call_database_evolves other).keeps _ r held
      · obtain ⟨jobId, rfl⟩ := not_forall_not.mp other
        rcases PostgresJobStore.delete_cases s.store s.database io jobId with
          kept | ⟨taken, heard⟩
        · exact ⟨r, (congrArg (fun db => db.job p.record.id) kept).trans held, rfl⟩
        · have apart : p.record.id ≠ jobId := by
            rintro rfl
            rcases heard with answered | ⟨asked, lost⟩
            · refine stays ?_
              simp [PostgresJobStore.call, Reply.map, answered, Except.map, deletedBy]
            · rcases homed p live rfl (Bool.eq_false_of_not_eq_true inDatabase) with
                refused | acknowledged
              · rw [refused] at asked
                cases asked
              · exact acknowledged lost
          refine ⟨r, ?_, rfl⟩
          refine (congrArg (fun db => db.job p.record.id) taken).trans ?_
          rw [JobDatabase.deleteJob_job, if_neg apart, held]
  obtain ⟨r', held', same'⟩ := keeps
  exact ⟨r', held', same'.trans same⟩

theorem Kept.called (h : s.Kept) (fresh : s.Fresh io) (homed : s.Homed (.call call io)) :
    (s.called call io).Kept := by
  have drawn : ∀ id ∉ (s.called call io).drawn,
      id ≠ io.draw.id ∧ id ≠ io.fallbackDraw.id ∧ id ∉ s.drawn := by
    intro id unseen
    simpa [JobService.called] using unseen
  have placed : ∀ p ∈ placedBy io call (s.store.call s.database io call).answer,
      p.record.Valid ∧ (s.called call io).held p = some p.record := by
    intro p hp
    obtain ⟨job, rfl, answer, onDisk⟩ := mem_placedBy hp
    have returned : (s.store.create s.database io job).answer = .ok p.record := by
      cases h : (s.store.create s.database io job).answer with
      | error e =>
        simp [PostgresJobStore.call, Reply.map, h, Except.map] at answer
      | ok r =>
        simp [PostgresJobStore.call, Reply.map, h, Except.map] at answer
        rw [answer]
    obtain ⟨valid, ⟨id, disk⟩ | ⟨id, row⟩⟩ := create_places returned
    · refine ⟨valid, ?_⟩
      rw [JobService.held, onDisk, if_pos (decide_eq_true id)]
      exact disk
    · refine ⟨valid, ?_⟩
      have inDatabase : ¬p.record.id = io.fallbackDraw.id := by
        rw [id]
        exact fresh.2.2
      rw [JobService.held, onDisk, if_neg (by simpa using inDatabase)]
      exact row
  constructor
  · intro id unseen
    obtain ⟨new, -, old⟩ := drawn id unseen
    have missing := h.database_drawn id old
    by_cases other : ∀ jobId, call ≠ .delete jobId
    · exact (PostgresJobStore.call_database_evolves other).adds id missing new
    · obtain ⟨jobId, rfl⟩ := not_forall_not.mp other
      show (s.store.delete s.database io jobId).database.job id = none
      rcases PostgresJobStore.delete_cases s.store s.database io jobId with
        kept | ⟨taken, -⟩
      · rw [kept, missing]
      · rw [taken, JobDatabase.deleteJob_job, missing]
        exact ite_self _
  · intro id unseen
    obtain ⟨-, new, old⟩ := drawn id unseen
    exact (PostgresJobStore.call_fallbackStore_evolves call
      (h.disk_drawn _ fresh.2.1)).adds id (h.disk_drawn id old) new
  · intro p live
    rcases mem_live_called live with ⟨old, -⟩ | new
    · exact h.live_valid p old
    · exact (placed p new).1
  · intro p live
    rcases mem_live_called live with ⟨old, stays⟩ | new
    · exact h.held_called fresh homed old stays
    · exact ⟨p.record, (placed p new).2, rfl⟩

theorem Kept.restarted {left : Option FilesLeft} (h : s.Kept) (homed : s.Homed (.restart left)) :
    (s.restarted left).Kept := by
  cases left with
  | none => exact ⟨h.database_drawn, h.disk_drawn, h.live_valid, h.live_held⟩
  | some left =>
    have remains : ∀ id, (s.restarted (some left)).store.fallbackStore.record id =
        (s.store.fallbackStore.record id).filter fun r => !!left.records.contains r.id :=
      fun id => Table.find?_delete
    refine ⟨h.database_drawn, ?_, h.live_valid, ?_⟩
    · intro id unseen
      rw [remains, h.disk_drawn id unseen, Option.filter_none]
    · intro p live
      obtain ⟨r, held, same⟩ := h.live_held p live
      refine ⟨r, ?_, same⟩
      unfold JobService.held at held ⊢
      split
      · next onDisk =>
        rw [if_pos onDisk] at held
        have kept : r.id ∈ left.records := by
          rw [JobRecord.id_of_asCreated same]
          exact homed p live onDisk
        rw [remains, held, Option.filter_some]
        simp [kept]
      · next inDatabase => rwa [if_neg inDatabase] at held

theorem kept_step {event : ServiceEvent τ} (h : s.Kept) (homed : s.Homed event)
    (hstep : machine.step s event = some t) : t.Kept := by
  cases event with
  | call call io =>
    simp only [machine] at hstep
    split at hstep
    · next fresh =>
      cases hstep
      exact h.called fresh homed
    · cases hstep
  | restart left =>
    cases hstep
    exact h.restarted homed

theorem eq_of_mapM_rowToJobRecord {rows rs : List JobRecord}
    (h : rows.mapM rowToJobRecord = .ok rs) : rs = rows := by
  induction rows generalizing rs with
  | nil =>
    cases h
    rfl
  | cons row rows ih =>
    rw [List.mapM_cons] at h
    obtain ⟨r, hr, h⟩ := bind_eq_ok.mp h
    obtain ⟨rest, hrest, h⟩ := bind_eq_ok.mp h
    cases h
    unfold rowToJobRecord at hr
    split at hr
    · cases hr
      rw [ih hrest]
    · cases hr

theorem found_of_homed {event : ServiceEvent τ} (h : s.Kept) (homed : s.Homed event) :
    s.Found event := by
  unfold Found
  split
  · next jobId io =>
    rintro p live rfl
    obtain ⟨r, held, same⟩ := h.live_held p live
    have answer := attempt_read s.store s.database io
      (fun db => db.job p.record.id) (foundRow p.record.id) fun d => d.get p.record.id
    change (s.store.get s.database io p.record.id).answer = _ at answer
    rw [answer]
    have asked := homed p live rfl
    cases hreads : reads s.store io with
    | none => simp
    | some onDisk =>
      rw [JobService.held, asked onDisk hreads] at held
      cases onDisk with
      | true =>
        change s.store.fallbackStore.record p.record.id = some r at held
        simp [JobDisk.get, held, same]
      | false =>
        change s.database.job p.record.id = some r at held
        have valid : r.Valid := JobRecord.valid_of_asCreated same (h.live_valid p live)
        simp [held, foundRow, rowToJobRecord, valid, same]
  · next io =>
    intro rs listed p live
    obtain ⟨r, held, same⟩ := h.live_held p live
    have answer := attempt_read s.store s.database io
      (fun db => db.selectJobs) (fun rows => rows.mapM rowToJobRecord) fun d => .ok d.listJobs
    change (s.store.listJobs s.database io).answer = _ at answer
    rw [listed] at answer
    have asked := homed p live
    refine ⟨r, ?_, same⟩
    cases hreads : reads s.store io with
    | none =>
      rw [hreads] at answer
      cases answer
    | some onDisk =>
      rw [hreads] at answer
      rw [JobService.held, asked onDisk hreads] at held
      cases onDisk with
      | true =>
        cases answer
        exact (List.mem_insertionSort _).mpr (Table.find?_eq_some.mp held).1
      | false =>
        rw [eq_of_mapM_rowToJobRecord answer.symm]
        exact (List.mem_insertionSort _).mpr (Table.find?_eq_some.mp held).1
  · trivial

/-- Created jobs are not lost in a run whose every read asks the store that has
them, whose committed deletions are all answered, and whose recoveries leave the
files of created jobs. -/
theorem found_of_reads_homed (store : PostgresJobStore τ) (database : JobDatabase)
    (events : List (ServiceEvent τ)) (homed : machine.Meets Homed (start store database) events) :
    machine.Meets Found (start store database) events :=
  homed.of_invariant (fun _ _ _ kept homed hstep => kept_step kept homed hstep)
    (fun _ _ kept homed => found_of_homed kept homed) (start_kept store database)

end Runs

section Sample

/-- A process over a database with one organization, and an empty disk store. -/
def sampleStart (failureThreshold : Int) : JobService Int :=
  start ⟨.new failureThreshold 30, .empty⟩ (.start ⟨[⟨"default", 1000⟩], List.nodup_singleton _⟩)

/-- A call in which the stores draw these ids. -/
def sampleCall (fault : DatabaseFault) (id fallbackId : String) (call : JobCall) :
    ServiceEvent Int :=
  .call call ⟨fault, ⟨id, fun _ => 0⟩, ⟨fallbackId, fun _ => 0⟩, 0, 0, 0⟩

def sampleCreate (fault : DatabaseFault) : ServiceEvent Int :=
  sampleCall fault "a" "b" (.create (JobFleet.sampleJob "seo_page_classifier"))

/-- A job of the database is found by a `get` and a listing behind the closed
circuit, and one that an outage put on disk while the circuit is open. -/
theorem found_where_it_was_put : machine.Meets Found (sampleStart 1)
      [sampleCreate .none, sampleCall .none "c" "d" (.get "a"),
        sampleCall .none "e" "f" .listJobs] ∧
      machine.Meets Found (sampleStart 1)
        [sampleCreate .aborted, sampleCall .none "c" "d" (.get "b"), .restart none] :=
  ⟨found_of_reads_homed _ _ _ (by decide), found_of_reads_homed _ _ _ (by decide)⟩

theorem not_found_of_run {s : JobService Int} {before : List (ServiceEvent Int)} {jobId : String}
    {io : CallConditions Int}
    (missing : (machine.run s before).any (fun t =>
      t.live.any (fun p => p.record.id = jobId) ∧
        (t.store.get t.database io jobId).answer = .error (.jobNotFound jobId))) :
    ¬machine.Meets Found s (before ++ [.call (.get jobId) io]) := by
  intro found
  obtain ⟨t, ht, missing⟩ := (Option.any_eq_true _ _).mp missing
  obtain ⟨live, answer⟩ := of_decide_eq_true missing
  obtain ⟨p, hp, id⟩ := List.any_eq_true.mp live
  exact ((Machine.meets_append.mp found).2 t ht).head p hp (of_decide_eq_true id) |>.1 answer

/-- A job of the database is not on the disk that answers for it when the circuit
opens, and one that an outage put on disk is not in the database after a restart. -/
theorem get_denies_created_job : ¬machine.Meets Found (sampleStart 2)
        ([sampleCreate .none, sampleCall .aborted "c" "d" .listJobs] ++
          [sampleCall .aborted "e" "f" (.get "a")]) ∧
      ¬machine.Meets Found (sampleStart 1)
        ([sampleCreate .aborted, .restart none] ++ [sampleCall .none "c" "d" (.get "b")]) :=
  ⟨not_found_of_run (by decide), not_found_of_run (by decide)⟩

end Sample

end JobService

end Rankuno
