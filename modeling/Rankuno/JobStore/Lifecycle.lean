import Mathlib.Data.List.Sort
import Rankuno.Foundation.Finality
import Rankuno.JobStore.Disk

/-!
# The lifecycle of a crawl job

Three parties write a job's status: the crawl thread, a cancelling request and
the recovery a server starts with. Each goes through the store's one unguarded
transition, so a terminal status stays exactly when each of them finds the job
unfinished, or in the status it writes.
-/

namespace Rankuno

/-- What the database driver raises. -/
inductive DatabaseError where
  | operational
  | uniqueViolation
  | foreignKeyViolation
  deriving DecidableEq

/-- Why a store method raises. The first two are the source's `JobNotFoundError`
with its two messages, the last one is a record that does not validate. -/
inductive JobStoreError where
  | jobNotFound (jobId : String)
  | noResult (jobId : String)
  | importConflict (existingId : String)
  | unavailable
  | noBudget (orgId : String)
  | notProvisioned (orgId : String)
  | database (error : DatabaseError)
  | invalidRecord
  deriving DecidableEq

namespace JobDisk

/-- `_transition`, which holds the lock from its read to its write. -/
def transition (d : JobDisk) (jobId : String) (change : RecordChange) (now : Timestamp) :
    Except JobStoreError JobRecord × JobDisk :=
  match d.record jobId with
  | none => (.error (.jobNotFound jobId), d)
  | some r => (.ok (change.apply now r), d.writeRecord (change.apply now r))

theorem transition_record (d : JobDisk) (jobId : String) (change : RecordChange)
    (now : Timestamp) (id : String) :
    (d.transition jobId change now).2.record id =
      (d.record id).map fun r => if id = jobId then change.apply now r else r := by
  unfold transition
  cases hjob : d.record jobId with
  | none =>
    by_cases same : id = jobId
    · rw [same, hjob]
      rfl
    · simp [same]
  | some r =>
    have hr : r.id = jobId := (Table.find?_eq_some.mp hjob).2
    show (d.writeRecord (change.apply now r)).record id = _
    rw [writeRecord_record, RecordChange.apply_id, hr]
    by_cases same : jobId = id
    · subst same
      simp [hjob]
    · simp [same, Ne.symm same]

/-- `list_jobs`: every record, newest first. -/
def listJobs (d : JobDisk) : List JobRecord :=
  d.records.rows.insertionSort fun r q => q.createdAt ≤ r.createdAt

end JobDisk

theorem transitionSection_run {s : JobFiles} {held : Option JobRecord} {jobId : String}
    {change : RecordChange} {now : Timestamp} {r : JobRecord}
    (hr : s.disk.record jobId = some r) :
    diskJobStore.runSection (StoreCall.transitionSection jobId change now) s held =
      some ({ s with disk := (s.disk.transition jobId change now).2 }, some r) := by
  have written : (s.disk.transition jobId change now).2 =
      s.disk.writeRecord (change.apply now r) := by
    simp only [JobDisk.transition, hr]
  rw [written]
  show ((s.disk.record jobId).map _).bind _ = _
  rw [hr]
  rfl

/-- A crawl thread, by how far it is in `_run_job`. `storing` holds what
`finish` was called with, once its result is written; `crashed` is the handler
that a raising store method leads to. -/
inductive CrawlPhase where
  | starting
  | working
  | storing (isPartial : Bool) (error : Option String)
  | crashed
  | done
  deriving DecidableEq

/-- Where a thread is after a store method answered. -/
def CrawlPhase.after (next : CrawlPhase) : Except JobStoreError JobRecord → CrawlPhase
  | .ok _ => next
  | .error _ => .crashed

structure CrawlThread where
  jobId : String
  phase : CrawlPhase
  deriving DecidableEq

/-- `recover_orphans`: not begun since the server started, with the records of
its listing still to fail, or over. -/
inductive OrphanRecovery where
  | pending
  | failing (records : List JobRecord)
  | over
  deriving DecidableEq

/-- The store's directory, and every party at work on it. `checkpoints` are the
checkpoints that are written and not announced yet, `cancels` the cancelling
requests that found their job queued or running. -/
structure CrawlServer where
  disk : JobDisk
  crawls : List CrawlThread
  checkpoints : List String
  cancels : List String
  recovery : OrphanRecovery
  deriving DecidableEq

/-- One locked section of a store method, with the party that runs it. -/
inductive CrawlEvent where
  | create (job : NewJob)
  | markRunning (crawl : Nat) (startedAt now : Timestamp)
  | updateTelemetry (crawl : Nat) (telemetry : String) (now : Timestamp)
  | writeCheckpoint (crawl : Nat) (body : String)
  | flagCheckpoint (checkpoint : Nat) (now : Timestamp)
  | writeResult (crawl : Nat) (body : String) (isPartial : Bool) (error : Option String)
  | finish (crawl : Nat) (finishedAt now : Timestamp)
  | markFailed (crawl : Nat) (error : String) (finishedAt now : Timestamp)
  | beginCancel (jobId : String)
  | finishCancel (call : Nat) (finishedAt now : Timestamp)
  | beginRecovery
  | recoverNext (finishedAt now : Timestamp)
  | importTerminal (job : ImportedJob) (resultJson : String)
  | restart
  deriving DecidableEq

/-- The error of a cancelled job. -/
def cancelledByOperator : String :=
  "cancelled by operator — the crawl thread may still be running until it " ++
    "finishes or the server restarts"

/-- The error of an orphaned job. -/
def interruptedError (r : JobRecord) : String :=
  if r.hasCheckpoint then
    "interrupted by a server restart — partial results were saved and can be viewed"
  else "interrupted by a server restart"

namespace CrawlServer

def start (disk : JobDisk) : CrawlServer := ⟨disk, [], [], [], .pending⟩

def record (s : CrawlServer) (id : String) : Option JobRecord := s.disk.record id

/-- The transition an event makes, if it makes one: its job, what it changes,
and its reading of the clock. -/
def change? (s : CrawlServer) : CrawlEvent → Option (String × RecordChange × Timestamp)
  | .markRunning crawl startedAt now =>
    s.crawls[crawl]?.bind fun t =>
      if t.phase = .starting then some (t.jobId, .markRunning startedAt, now) else none
  | .updateTelemetry crawl telemetry now =>
    s.crawls[crawl]?.bind fun t =>
      if t.phase = .starting then none else some (t.jobId, .updateTelemetry telemetry, now)
  | .flagCheckpoint checkpoint now =>
    s.checkpoints[checkpoint]?.map fun jobId => (jobId, .checkpoint, now)
  | .finish crawl finishedAt now =>
    s.crawls[crawl]?.bind fun t =>
      match t.phase with
      | .storing isPartial error => some (t.jobId, .finish isPartial error finishedAt, now)
      | _ => none
  | .markFailed crawl error finishedAt now =>
    s.crawls[crawl]?.bind fun t =>
      if t.phase = .done then none else some (t.jobId, .markFailed error finishedAt, now)
  | .finishCancel call finishedAt now =>
    s.cancels[call]?.map fun jobId => (jobId, .markFailed cancelledByOperator finishedAt, now)
  | .recoverNext finishedAt now =>
    match s.recovery with
    | .failing (r :: _) => some (r.id, .markFailed (interruptedError r) finishedAt, now)
    | _ => none
  | _ => none

def setPhase (s : CrawlServer) (crawl : Nat) (phase : CrawlPhase) : CrawlServer :=
  { s with crawls := s.crawls.modify crawl fun t => { t with phase := phase } }

/-- The party that made a transition goes on, by what the store answered. -/
def proceed (s : CrawlServer) (answer : Except JobStoreError JobRecord) : CrawlEvent → CrawlServer
  | .markRunning crawl _ _ => s.setPhase crawl (CrawlPhase.working.after answer)
  | .finish crawl _ _ => s.setPhase crawl (CrawlPhase.done.after answer)
  | .markFailed crawl _ _ _ => s.setPhase crawl .done
  | .flagCheckpoint checkpoint _ => { s with checkpoints := s.checkpoints.eraseIdx checkpoint }
  | .finishCancel call _ _ => { s with cancels := s.cancels.eraseIdx call }
  | .recoverNext _ _ =>
    match answer, s.recovery with
    | .ok _, .failing (_ :: rest) => { s with recovery := .failing rest }
    | _, _ => { s with recovery := .over }
  | _ => s

/-- What an event that makes no transition does. -/
def stepQuietly (s : CrawlServer) : CrawlEvent → Option CrawlServer
  | .create job =>
    if (s.record job.id).isSome then none
    else some { s with
      disk := s.disk.writeRecord job.record
      crawls := s.crawls ++ [⟨job.id, .starting⟩] }
  | .writeCheckpoint crawl body =>
    s.crawls[crawl]?.bind fun t =>
      if t.phase ≠ .starting ∧ (s.record t.jobId).isSome then
        some { s with
          disk := s.disk.writeSidecar .checkpoint t.jobId body
          checkpoints := s.checkpoints ++ [t.jobId] }
      else none
  | .writeResult crawl body isPartial error =>
    s.crawls[crawl]?.bind fun t =>
      if t.phase = .starting ∨ t.phase = .working then
        if (s.record t.jobId).isSome then
          some { s.setPhase crawl (.storing isPartial error) with
            disk := s.disk.writeSidecar .result t.jobId body }
        else some (s.setPhase crawl .crashed)
      else none
  | .beginCancel jobId =>
    (s.record jobId).bind fun r =>
      if r.status ∈ [.queued, .running] then some { s with cancels := s.cancels ++ [jobId] }
      else none
  | .beginRecovery =>
    if s.recovery = .pending then
      some { s with
        recovery := .failing (s.disk.listJobs.filter fun r => ¬r.status.IsTerminal) }
    else none
  | .importTerminal job resultJson =>
    if (s.record job.id).isSome ∨ (s.disk.findImport job.orgId job.provenance).isSome then none
    else
      let disk := s.disk.writeSidecar .result job.id resultJson
      some { s with
        disk := (match job.homepageHtml with
          | some html => disk.writeSidecar .homepage job.id html
          | none => disk).writeRecord job.record }
  | .restart => some (.start s.disk)
  | _ => none

/-- Every interleaving of the crawl threads, the requests and the recovery. A
request that finishes a job it created itself is a crawl thread that stores its
result before it starts. -/
def machine : Machine CrawlServer CrawlEvent where
  step s event :=
    match s.change? event with
    | some (jobId, change, now) =>
      let (answer, disk) := s.disk.transition jobId change now
      some ({ s with disk := disk }.proceed answer event)
    | none => s.stepQuietly event

variable {s t : CrawlServer} {event : CrawlEvent}

@[simp] theorem proceed_disk (s : CrawlServer) (answer : Except JobStoreError JobRecord)
    (event : CrawlEvent) : (s.proceed answer event).disk = s.disk := by
  cases event with
  | recoverNext finishedAt now =>
    simp only [proceed]
    split <;> rfl
  | _ => rfl

theorem step_of_change {jobId : String} {change : RecordChange} {now : Timestamp}
    (h : s.change? event = some (jobId, change, now)) :
    machine.step s event = some (({ s with disk := (s.disk.transition jobId change now).2 } :
      CrawlServer).proceed (s.disk.transition jobId change now).1 event) := by
  simp only [machine, h]

theorem step_of_no_change (h : s.change? event = none) :
    machine.step s event = s.stepQuietly event := by
  simp only [machine, h]

theorem writeRecord_keeps {d : JobDisk} {new r : JobRecord} {id : String}
    (fresh : d.record new.id = none) (hr : d.record id = some r) :
    (d.writeRecord new).record id = some r := by
  have other : new.id ≠ id := by
    rintro rfl
    rw [fresh] at hr
    cases hr
  rw [JobDisk.writeRecord_record, if_neg other, hr]

theorem stepQuietly_record (hstep : s.stepQuietly event = some t) {id : String} {r : JobRecord}
    (hr : s.record id = some r) : t.record id = some r := by
  cases event with
  | create job =>
    obtain ⟨fresh, hstep⟩ := Option.ite_none_left_eq_some.mp hstep
    cases hstep
    exact writeRecord_keeps (Option.not_isSome_iff_eq_none.mp fresh) hr
  | writeCheckpoint crawl body =>
    obtain ⟨thread, -, hstep⟩ := Option.bind_eq_some_iff.mp hstep
    obtain ⟨-, hstep⟩ := Option.ite_none_right_eq_some.mp hstep
    cases hstep
    exact hr
  | writeResult crawl body isPartial error =>
    obtain ⟨thread, -, hstep⟩ := Option.bind_eq_some_iff.mp hstep
    obtain ⟨-, hstep⟩ := Option.ite_none_right_eq_some.mp hstep
    split at hstep
    all_goals
      cases hstep
      exact hr
  | beginCancel jobId =>
    obtain ⟨q, -, hstep⟩ := Option.bind_eq_some_iff.mp hstep
    obtain ⟨-, hstep⟩ := Option.ite_none_right_eq_some.mp hstep
    cases hstep
    exact hr
  | beginRecovery =>
    obtain ⟨-, hstep⟩ := Option.ite_none_right_eq_some.mp hstep
    cases hstep
    exact hr
  | importTerminal job resultJson =>
    obtain ⟨new, hstep⟩ := Option.ite_none_left_eq_some.mp hstep
    obtain ⟨fresh, -⟩ := not_or.mp new
    cases hstep
    have absent : s.disk.record job.id = none := Option.not_isSome_iff_eq_none.mp fresh
    cases job.homepageHtml with
    | none => exact writeRecord_keeps absent hr
    | some html => exact writeRecord_keeps absent hr
  | restart =>
    cases hstep
    exact hr
  | _ => cases hstep

/-- The record a step leaves where it found `r`. -/
def rewritten (s : CrawlServer) (event : CrawlEvent) (id : String) (r : JobRecord) : JobRecord :=
  match s.change? event with
  | some (jobId, change, now) => if id = jobId then change.apply now r else r
  | none => r

theorem step_record (hstep : machine.step s event = some t) {id : String} {r : JobRecord}
    (hr : s.record id = some r) : t.record id = some (s.rewritten event id r) := by
  rw [rewritten]
  cases hchange : s.change? event with
  | none =>
    rw [step_of_no_change hchange] at hstep
    exact stepQuietly_record hstep hr
  | some written =>
    obtain ⟨jobId, change, now⟩ := written
    rw [step_of_change hchange] at hstep
    cases hstep
    rw [record, proceed_disk]
    show (s.disk.transition jobId change now).2.record id = _
    rw [JobDisk.transition_record]
    rw [record] at hr
    rw [hr]
    rfl

/-- A transition that writes a status finds its job unfinished, or in that
status. -/
def FindsJobUnfinished (s : CrawlServer) (event : CrawlEvent) : Prop :=
  ∀ jobId change now status r, s.change? event = some (jobId, change, now) →
    change.writes = some status → s.record jobId = some r → r.status.IsTerminal →
    r.status = status

theorem finalStays_step (hstep : machine.step s event = some t) :
    FinalStays record JobRecord.status JobStatus.IsTerminal s t ↔ s.FindsJobUnfinished event := by
  rw [FinalStays.iff_of_rows fun _ _ hr => step_record hstep hr]
  constructor
  · intro h jobId change now status r hchange writes hr terminal
    have kept := h jobId r hr terminal
    rw [rewritten, hchange] at kept
    simp only [if_true, RecordChange.apply_status, writes, Option.getD_some] at kept
    exact kept.symm
  · intro h id r hr terminal
    rw [rewritten]
    split
    · next jobId change now hchange =>
      split
      · next same =>
        subst same
        rw [RecordChange.apply_status]
        cases writes : change.writes with
        | none => rfl
        | some status => exact (h id change now status r hchange writes hr terminal).symm
      · rfl
    · rfl

/-- From any directory, terminal statuses stay for good exactly when each
transition that writes a status finds its job unfinished, or in that status. -/
theorem terminal_stays_iff_transitions_find_unfinished (disk : JobDisk) (events : List CrawlEvent) :
    machine.Relates (FinalStays record JobRecord.status JobStatus.IsTerminal) (start disk) events ↔
      machine.Meets FindsJobUnfinished (start disk) events := by
  refine Machine.relates_iff_meets (I := fun _ => True) FinalStays.refl
    (fun {_ _ _} => FinalStays.trans) (fun _ _ _ _ _ => trivial)
    (fun _ _ _ _ hstep => finalStays_step hstep) ?_ trivial
  intro s event stuck jobId change now status r hchange
  rw [step_of_change hchange] at stuck
  cases stuck

/-- A job cancelled before its crawl thread started. -/
def cancelledBeforeStart : List CrawlEvent :=
  [.create ⟨"j", "page_classification", "", none, "seo", "", none, 1⟩, .beginCancel "j",
    .finishCancel 0 2 2]

/-- The crawl thread then marks the failed job running. -/
theorem cancelled_job_runs_again :
    ¬∀ events, machine.Relates (FinalStays record JobRecord.status JobStatus.IsTerminal)
      (start .empty) events := by
  intro h
  have stays := h (cancelledBeforeStart ++ [.markRunning 0 3 3])
  obtain ⟨u, hu, hfailed⟩ := Option.map_eq_some_iff.mp
    (show (machine.run (start .empty) cancelledBeforeStart).map
      (fun u => (u.record "j").map JobRecord.status) = some (some .failed) by decide)
  obtain ⟨v, hv, hrunning⟩ := Option.map_eq_some_iff.mp
    (show (machine.run (start .empty) (cancelledBeforeStart ++ [.markRunning 0 3 3])).map
      (fun v => (v.record "j").map JobRecord.status) = some (some .running) by decide)
  obtain ⟨r, hr, failed⟩ := Option.map_eq_some_iff.mp hfailed
  obtain ⟨r', hr', same⟩ := stays.endpoints hu hv "j" r hr (failed ▸ trivial)
  rw [hr', Option.map_some, same, failed] at hrunning
  cases hrunning

end CrawlServer

end Rankuno
