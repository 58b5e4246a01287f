import Rankuno.Worker.BundleUpload
import Rankuno.Worker.DualGateSafety
import Rankuno.Worker.Identities

/-!
# The loop of the worker daemon

`run_worker_daemon`, one iteration after the other. An iteration's input is how each of
its calls to the cloud is answered, and what the worker itself looks up. A failed
heartbeat or poll is waited out, a failed list download is reported, and a failed
progress report is passed over. The last call of a job's path, `report_failure` or
`upload_bundle`, stands in no handler: the loop goes on exactly if that call is answered.
-/

namespace Rankuno

open Python Python.Text

/-- What a call of the cloud client raises: an `IntegrationError`, or a
`WorkerCredentialRejectedError`. -/
inductive CloudError where
  | integration (error : Text)
  | credentialRejected (error : Text)
  deriving DecidableEq

/-- What ends the loop before its last iteration: an error of the cloud, or another
exception that nothing handles. -/
inductive DaemonFault where
  | cloud (error : CloudError)
  | escaped
  deriving DecidableEq

structure TemplateScan where
  templates : List WorkerTemplate
  unrecognised : List Text

/-- The folder of a crawl's exports and the page count of its log. -/
structure ScreamingFrogJobOutput where
  bundleDir : BundleDir
  pagesCrawled : Option Nat

/-- How a launch ends: before the process starts, in an error, or with an output. -/
inductive CrawlOutcome where
  | notStarted
  | failed
  | finished (output : ScreamingFrogJobOutput)

/-- The configuration of a daemon. -/
structure WorkerDaemon where
  wire : DispatchWire
  unicode : UnicodeData
  zipfile : Zipfile
  settings : WorkerSettings
  pollInterval : Int
  pollMaxBackoff : Int
  uploadMaxBytes : Nat

/-- The input of one iteration. -/
structure DaemonCycle where
  scan : TemplateScan
  heartbeat : Except CloudError Unit
  poll : Except CloudError (Option Text)
  admittedAt : Timestamp
  resolve : Resolver
  templates : String → TemplateFile
  fetchUrlList : Except CloudError Bytes
  writeError : Option Text
  context : String
  approvedAt : Timestamp
  consumedAt : String
  launchResolve : Resolver
  launchTemplates : String → TemplateFile
  crawl : CrawlOutcome
  /-- The error of a tool result that is not ok. -/
  toolError : Text
  reportProgress : Except CloudError Unit
  reportFailure : Except CloudError Unit
  uploadBundle : Except CloudError Unit

/-- The last thing a job's path does. -/
inductive LastCall where
  | nothing
  | reportFailure (jobId : String) (error : Text)
  | uploadBundle (jobId : String) (archive : List UInt8)
  | raises (fault : DaemonFault)

/-- A job's path up to its last call: the record it leaves, and the crawl it started. -/
structure JobRun where
  ledger : LedgerFile
  started : Option Launch
  last : LastCall

/-- The state of the loop. The iterations, waits and starts are only added to. -/
structure DaemonLoop where
  ledger : LedgerFile
  reported : Option WorkerTemplateReport
  backoff : Int
  iterations : Nat
  slept : List Int
  started : List Launch
  raised : Option DaemonFault

/-- `_report_templates`. -/
def reportTemplates (scan : TemplateScan) (heartbeat : Except CloudError Unit)
    (reported : Option WorkerTemplateReport) :
    Except CloudError (Option WorkerTemplateReport) :=
  let current : WorkerTemplateReport :=
    ⟨scan.templates.take maxReportedTemplates, min scan.unrecognised.length maxReportedTemplates⟩
  if some current = reported then .ok reported else heartbeat.map fun _ => some current

/-- `_report_final_page_count`. Only a rejected credential gets through. -/
def reportFinalPageCount (output : ScreamingFrogJobOutput)
    (reportProgress : Except CloudError Unit) : Except CloudError Unit :=
  match output.pagesCrawled, reportProgress with
  | some _, .error (.credentialRejected e) => .error (.credentialRejected e)
  | _, _ => .ok ()

namespace WorkerDaemon

variable (daemon : WorkerDaemon)

/-- What the list download raises past the handlers of `_run_screaming_frog_job`. -/
def downloadRejected (claims : DispatchAssignmentClaims) (cycle : DaemonCycle) :
    Option CloudError :=
  match claims.urlListSha256, validateSeed daemon.unicode daemonUrlPolicy cycle.resolve
      claims.seedUrl.toList, checkTemplate cycle.templates claims.templateName,
      cycle.fetchUrlList with
  | some _, .ok _, .ok _, .error (.credentialRejected e) => some (.credentialRejected e)
  | _, _, _, _ => none

/-- What a job's preparation looks up. The text of an error is the one that is
reported. -/
def prepareInputs (cycle : DaemonCycle) : PrepareInputs where
  resolve := cycle.resolve
  templates := cycle.templates
  download :=
    match cycle.fetchUrlList with
    | .ok body => .ok body
    | .error (.integration e) => .error e
    | .error (.credentialRejected e) => .error e
  writeError := cycle.writeError

/-- `tool.run`: the result, the record of consumed jobs, and the crawl it started. -/
def runTool (ledger : LedgerFile) (token : Text) (claims : DispatchAssignmentClaims)
    (payload : ScreamingFrogJobInput) (cycle : DaemonCycle) :
    Option ScreamingFrogJobOutput × LedgerFile × Option Launch :=
  match approveJob daemon.wire daemon.settings ledger token claims cycle.context cycle.approvedAt
      cycle.consumedAt with
  | (false, ledger) => (none, ledger, none)
  | (true, ledger) =>
    match launchJob daemon.unicode daemonUrlPolicy claims.jobId payload cycle.launchResolve
        cycle.launchTemplates, cycle.crawl with
    | .ok launch, .failed => (none, ledger, some launch)
    | .ok launch, .finished output => (some output, ledger, some launch)
    | _, _ => (none, ledger, none)

/-- What `_run_screaming_frog_job` does with the tool's result. -/
def finishJob (jobId : String) (result : Option ScreamingFrogJobOutput) (cycle : DaemonCycle) :
    LastCall :=
  match result with
  | none => .reportFailure jobId cycle.toolError
  | some output =>
    match reportFinalPageCount output cycle.reportProgress with
    | .error e => .raises (.cloud e)
    | .ok _ =>
      match Rankuno.uploadBundle daemon.zipfile output.bundleDir daemon.uploadMaxBytes with
      | .failed error => .reportFailure jobId error.toList
      | .uploaded archive => .uploadBundle jobId archive

/-- `_run_screaming_frog_job`. -/
def runScreamingFrogJob (ledger : LedgerFile) (token : Text) (claims : DispatchAssignmentClaims)
    (cycle : DaemonCycle) : JobRun :=
  match daemon.downloadRejected claims cycle with
  | some e => ⟨ledger, none, .raises (.cloud e)⟩
  | none =>
    match prepareJob daemon.wire daemon.unicode daemonUrlPolicy claims (prepareInputs cycle) with
    | .error .escaped => ⟨ledger, none, .raises .escaped⟩
    | .error (.reportAndConsume error) =>
      ⟨(consumeJob ledger claims.jobId cycle.consumedAt).2, none, .reportFailure claims.jobId error⟩
    | .ok payload =>
      let (result, ledger, started) := daemon.runTool ledger token claims payload cycle
      ⟨ledger, started, daemon.finishJob claims.jobId result cycle⟩

/-- `_handle_assignment`. -/
def runAssignment (ledger : LedgerFile) (token : Text) (cycle : DaemonCycle) : JobRun :=
  match handleAssignment daemon.wire daemon.settings ledger token cycle.admittedAt with
  | .admitted token claims => daemon.runScreamingFrogJob ledger token claims cycle
  | .stopped => ⟨ledger, none, .raises .escaped⟩
  | _ => ⟨ledger, none, .nothing⟩

/-- The last call of a path is made, and what it raises ends the loop. -/
def fault (cycle : DaemonCycle) : LastCall → Option DaemonFault
  | .nothing => none
  | .reportFailure _ _ =>
    match cycle.reportFailure with
    | .ok _ => none
    | .error e => some (.cloud e)
  | .uploadBundle _ _ =>
    match cycle.uploadBundle with
    | .ok _ => none
    | .error e => some (.cloud e)
  | .raises fault => some fault

/-- The handlers around the heartbeat and the poll. -/
def pollFailed (s : DaemonLoop) (error : CloudError) : DaemonLoop :=
  match error with
  | .credentialRejected e => { s with raised := some (.cloud (.credentialRejected e)) }
  | .integration _ =>
    { s with
      slept := s.slept ++ [s.backoff]
      backoff := min (s.backoff * 2) daemon.pollMaxBackoff }

/-- The end of an iteration whose poll is answered. -/
def polled (s : DaemonLoop) (cycle : DaemonCycle) (assignment : Option Text) : DaemonLoop :=
  match assignment with
  | none =>
    { s with backoff := daemon.pollInterval, slept := s.slept ++ [daemon.pollInterval] }
  | some token =>
    let job := daemon.runAssignment s.ledger token cycle
    { s with
      backoff := daemon.pollInterval
      ledger := job.ledger
      started := s.started ++ job.started.toList
      raised := fault cycle job.last }

/-- One iteration. -/
def iterate (s : DaemonLoop) (cycle : DaemonCycle) : DaemonLoop :=
  let s := { s with iterations := s.iterations + 1 }
  match reportTemplates cycle.scan cycle.heartbeat s.reported with
  | .error e => daemon.pollFailed s e
  | .ok reported =>
    let s := { s with reported := reported }
    match cycle.poll with
    | .error e => daemon.pollFailed s e
    | .ok assignment => daemon.polled s cycle assignment

/-- `run_worker_daemon`: nothing follows an iteration that raises. -/
def machine : Machine DaemonLoop DaemonCycle where
  step s cycle := some (if s.raised = none then daemon.iterate s cycle else s)

/-- Before the first iteration. -/
def start (ledger : LedgerFile) : DaemonLoop :=
  ⟨ledger, none, daemon.pollInterval, 0, [], [], none⟩

/-- The call is answered. -/
def Answered (cycle : DaemonCycle) : LastCall → Prop
  | .nothing => True
  | .reportFailure _ _ => cycle.reportFailure = .ok ()
  | .uploadBundle _ _ => cycle.uploadBundle = .ok ()
  | .raises _ => False

/-- The assignment an iteration gets, if its heartbeat and its poll are answered. -/
def assignment (s : DaemonLoop) (cycle : DaemonCycle) : Option Text :=
  match reportTemplates cycle.scan cycle.heartbeat s.reported, cycle.poll with
  | .ok _, .ok (some token) => some token
  | _, _ => none

/-- The call a job ends with is answered, and no job is started again where no
guardrails ask the record of consumed jobs. -/
def Spared (s : DaemonLoop) (cycle : DaemonCycle) : Prop :=
  ∀ token, assignment s cycle = some token →
    Answered cycle (daemon.runAssignment s.ledger token cycle).last ∧
      (daemon.settings.guardrailsEnabled = true ∨
        ∀ launch, (daemon.runAssignment s.ledger token cycle).started = some launch →
          launch.jobId ∉ s.started.map Launch.jobId)

end WorkerDaemon

/-- No call reports a rejected credential. -/
structure DaemonCycle.Unrejected (cycle : DaemonCycle) : Prop where
  heartbeat : ∀ e, cycle.heartbeat ≠ .error (.credentialRejected e)
  poll : ∀ e, cycle.poll ≠ .error (.credentialRejected e)
  fetchUrlList : ∀ e, cycle.fetchUrlList ≠ .error (.credentialRejected e)
  reportProgress : ∀ e, cycle.reportProgress ≠ .error (.credentialRejected e)
  reportFailure : ∀ e, cycle.reportFailure ≠ .error (.credentialRejected e)
  uploadBundle : ∀ e, cycle.uploadBundle ≠ .error (.credentialRejected e)

/-- The loop has made all its iterations, and no job was started twice. -/
structure DaemonLoop.Completes (iterations : Nat) (s : DaemonLoop) : Prop where
  made : s.iterations = iterations
  raised : s.raised = none
  once : (s.started.map Launch.jobId).Nodup

namespace WorkerDaemon

open ConsumedJobLedger

section Job

variable {daemon : WorkerDaemon} {ledger : LedgerFile} {token : Text}
variable {claims : DispatchAssignmentClaims} {payload : ScreamingFrogJobInput}
variable {cycle : DaemonCycle} {launch : Launch}

theorem fault_eq_none {last : LastCall} : fault cycle last = none ↔ Answered cycle last := by
  cases last with
  | nothing => exact iff_of_true rfl trivial
  | reportFailure jobId error =>
    rw [fault, Answered]
    split
    · next answered => simp [answered]
    · next failed => simp [failed]
  | uploadBundle jobId archive =>
    rw [fault, Answered]
    split
    · next answered => simp [answered]
    · next failed => simp [failed]
  | raises fault => exact iff_of_false (Option.some_ne_none fault) id

variable (daemon ledger token claims payload cycle) in
theorem runTool_cases : (daemon.runTool ledger token claims payload cycle).2.1 =
        (approveJob daemon.wire daemon.settings ledger token claims cycle.context cycle.approvedAt
          cycle.consumedAt).2 ∧
      ∀ launch, (daemon.runTool ledger token claims payload cycle).2.2 = some launch →
        launch.jobId = claims.jobId ∧
          (approveJob daemon.wire daemon.settings ledger token claims cycle.context
            cycle.approvedAt cycle.consumedAt).1 = true := by
  unfold runTool
  split
  · next denied =>
    refine ⟨by rw [denied], fun launch started => ?_⟩
    cases started
  · next approved =>
    rw [approved]
    split
    · next launched failed =>
      refine ⟨rfl, fun launch started => ⟨?_, rfl⟩⟩
      cases started
      exact (launchJob_eq_ok launched).2.1
    · next launched finished =>
      refine ⟨rfl, fun launch started => ⟨?_, rfl⟩⟩
      cases started
      exact (launchJob_eq_ok launched).2.1
    · refine ⟨rfl, fun launch started => ?_⟩
      cases started

variable (daemon ledger token cycle) in
theorem runAssignment_cases : ((daemon.runAssignment ledger token cycle).started = none ∧
        ((daemon.runAssignment ledger token cycle).ledger = ledger ∨
          ∃ jobId, (daemon.runAssignment ledger token cycle).ledger =
            (consumeJob ledger jobId cycle.consumedAt).2)) ∨
      ∃ token' claims payload, (daemon.runAssignment ledger token cycle).ledger =
          (daemon.runTool ledger token' claims payload cycle).2.1 ∧
        (daemon.runAssignment ledger token cycle).started =
          (daemon.runTool ledger token' claims payload cycle).2.2 := by
  unfold runAssignment
  split
  · next token' claims _ =>
    unfold runScreamingFrogJob
    split
    · exact .inl ⟨rfl, .inl rfl⟩
    · split
      · exact .inl ⟨rfl, .inl rfl⟩
      · exact .inl ⟨rfl, .inr ⟨_, rfl⟩⟩
      · next payload _ => exact .inr ⟨token', claims, payload, rfl, rfl⟩
  · exact .inl ⟨rfl, .inl rfl⟩
  · exact .inl ⟨rfl, .inl rfl⟩

theorem keys_runAssignment {id : String} (listed : id ∈ keys (recorded ledger)) :
    id ∈ keys (recorded (daemon.runAssignment ledger token cycle).ledger) := by
  rcases runAssignment_cases daemon ledger token cycle with
    ⟨-, same | ⟨jobId, consumed⟩⟩ | ⟨token', claims, payload, ledgers, -⟩
  · rw [same]
    exact listed
  · rw [consumed]
    exact keys_consumeJob jobId _ listed
  · rw [ledgers, (runTool_cases daemon ledger token' claims payload cycle).1]
    exact keys_approveJob token' _ _ _ listed

theorem started_runAssignment (enabled : daemon.settings.guardrailsEnabled = true)
    (started : (daemon.runAssignment ledger token cycle).started = some launch) :
    launch.jobId ∉ keys (recorded ledger) ∧
      launch.jobId ∈ keys (recorded (daemon.runAssignment ledger token cycle).ledger) := by
  rcases runAssignment_cases daemon ledger token cycle with
    ⟨none, -⟩ | ⟨token', claims, payload, ledgers, starts⟩
  · rw [none] at started
    cases started
  · obtain ⟨left, approved⟩ := runTool_cases daemon ledger token' claims payload cycle
    obtain ⟨own, granted⟩ := approved launch (starts ▸ started)
    rw [ledgers, left, own]
    exact approveJob_granted enabled granted

end Job

section Loop

variable {daemon : WorkerDaemon} {s t : DaemonLoop} {cycle : DaemonCycle} {token : Text}

variable (daemon) in
theorem iterate_of_idle (unrejected : cycle.Unrejected) (idle : assignment s cycle = none) :
    (daemon.iterate s cycle).ledger = s.ledger ∧ (daemon.iterate s cycle).started = s.started ∧
      (daemon.iterate s cycle).raised = s.raised := by
  unfold iterate
  dsimp only
  cases reports : reportTemplates cycle.scan cycle.heartbeat s.reported with
  | error e =>
    cases e with
    | integration e => exact ⟨rfl, rfl, rfl⟩
    | credentialRejected e =>
      unfold reportTemplates at reports
      dsimp only at reports
      split at reports
      · cases reports
      · cases beat : cycle.heartbeat with
        | ok => rw [beat] at reports; cases reports
        | error e =>
          rw [beat] at reports
          cases reports
          exact absurd beat (unrejected.heartbeat _)
  | ok reported =>
    cases polls : cycle.poll with
    | error e =>
      cases e with
      | integration e => exact ⟨rfl, rfl, rfl⟩
      | credentialRejected e => exact absurd polls (unrejected.poll e)
    | ok assigned =>
      cases assigned with
      | none => exact ⟨rfl, rfl, rfl⟩
      | some token =>
        simp only [assignment, reports, polls] at idle
        cases idle

variable (daemon) in
theorem iterate_of_assigned (assigned : assignment s cycle = some token) :
    (daemon.iterate s cycle).ledger = (daemon.runAssignment s.ledger token cycle).ledger ∧
      (daemon.iterate s cycle).started =
        s.started ++ (daemon.runAssignment s.ledger token cycle).started.toList ∧
      (daemon.iterate s cycle).raised =
        fault cycle (daemon.runAssignment s.ledger token cycle).last := by
  unfold assignment at assigned
  split at assigned
  · next reported _ reports polls =>
    cases assigned
    unfold iterate
    dsimp only
    rw [reports, polls]
    exact ⟨rfl, rfl, rfl⟩
  · cases assigned

theorem step_eq_some : daemon.machine.step s cycle = some t ↔
    t = if s.raised = none then daemon.iterate s cycle else s := by
  exact ⟨fun step => (Option.some.inj step).symm, fun same => same ▸ rfl⟩

/-- With guardrails, every job that was started is on record. -/
def Recorded (daemon : WorkerDaemon) (s : DaemonLoop) : Prop :=
  daemon.settings.guardrailsEnabled = true →
    ∀ launch ∈ s.started, launch.jobId ∈ keys (recorded s.ledger)

theorem Recorded.step (h : daemon.Recorded s) (unrejected : cycle.Unrejected)
    (step : daemon.machine.step s cycle = some t) : daemon.Recorded t := by
  rw [step_eq_some] at step
  subst step
  split
  · cases assigned : assignment s cycle with
    | none =>
      obtain ⟨ledger, started, -⟩ := iterate_of_idle daemon unrejected assigned
      rw [Recorded, ledger, started]
      exact h
    | some token =>
      obtain ⟨ledger, started, -⟩ := iterate_of_assigned daemon assigned
      intro enabled launch listed
      rw [ledger]
      rw [started, List.mem_append, Option.mem_toList] at listed
      rcases listed with old | new
      · exact keys_runAssignment (h enabled launch old)
      · exact (started_runAssignment enabled new).2
  · exact h

/-- The loop goes on and no job has been started twice. -/
def Alive (s : DaemonLoop) : Prop := s.raised = none ∧ (s.started.map Launch.jobId).Nodup

theorem nodup_started {launches : List Launch} {started : Option Launch} :
    ((launches ++ started.toList).map Launch.jobId).Nodup ↔ (launches.map Launch.jobId).Nodup ∧
        ∀ launch, started = some launch → launch.jobId ∉ launches.map Launch.jobId := by
  cases started with
  | none => simp
  | some launch =>
    rw [Option.toList_some, List.map_append, List.map_singleton, List.nodup_append]
    simp

/-- **One iteration.** The loop lives through it exactly if the last call of its job is
answered and its job, without guardrails, is a new one. -/
theorem alive_step (h : daemon.Recorded s) (unrejected : cycle.Unrejected)
    (step : daemon.machine.step s cycle = some t) :
    Alive t ↔ Alive s ∧ daemon.Spared s cycle := by
  rw [step_eq_some] at step
  subst step
  split
  · next going =>
    cases assigned : assignment s cycle with
    | none =>
      obtain ⟨-, started, raised⟩ := iterate_of_idle daemon unrejected assigned
      rw [Alive, started, raised, ← Alive]
      refine (and_iff_left fun token got => ?_).symm
      rw [assigned] at got
      cases got
    | some token =>
      obtain ⟨-, started, raised⟩ := iterate_of_assigned daemon assigned
      have spared : daemon.Spared s cycle ↔
          Answered cycle (daemon.runAssignment s.ledger token cycle).last ∧
            ∀ launch, (daemon.runAssignment s.ledger token cycle).started = some launch →
              launch.jobId ∉ s.started.map Launch.jobId := by
        constructor
        · intro spared
          obtain ⟨answered, enabled | fresh⟩ := spared token assigned
          · refine ⟨answered, fun launch new mem => ?_⟩
            obtain ⟨old, listed, same⟩ := List.mem_map.mp mem
            exact (started_runAssignment enabled new).1 (same ▸ h enabled old listed)
          · exact ⟨answered, fresh⟩
        · rintro ⟨answered, fresh⟩ token' got
          cases assigned.symm.trans got
          exact ⟨answered, .inr fresh⟩
      rw [Alive, started, raised, fault_eq_none, nodup_started, spared, Alive]
      constructor
      · rintro ⟨answered, once, fresh⟩
        exact ⟨⟨going, once⟩, answered, fresh⟩
      · rintro ⟨⟨-, once⟩, answered, fresh⟩
        exact ⟨answered, once, fresh⟩
  · next ended =>
    exact iff_of_false (fun alive => ended alive.1) fun alive => ended alive.1.1

variable (daemon) in
theorem exists_run (s : DaemonLoop) (cycles : List DaemonCycle) :
    ∃ t, daemon.machine.run s cycles = some t := by
  induction cycles generalizing s with
  | nil => exact ⟨s, rfl⟩
  | cons cycle cycles ih =>
    obtain ⟨t, run⟩ := ih (if s.raised = none then daemon.iterate s cycle else s)
    exact ⟨t, Machine.run_cons_eq_some.mpr ⟨_, rfl, run⟩⟩

theorem iterations_pollFailed (error : CloudError) :
    (daemon.pollFailed s error).iterations = s.iterations := by
  cases error with
  | integration e => rfl
  | credentialRejected e => rfl

theorem iterations_iterate : (daemon.iterate s cycle).iterations = s.iterations + 1 := by
  unfold iterate
  dsimp only
  split
  · exact iterations_pollFailed _
  · split
    · exact iterations_pollFailed _
    · next assignment _ =>
      cases assignment with
      | none => rfl
      | some token => rfl

theorem iterations_run {ledger : LedgerFile} {cycles : List DaemonCycle}
    (run : daemon.machine.run (daemon.start ledger) cycles = some t) (going : t.raised = none) :
    t.iterations = cycles.length := by
  refine Machine.trace_invariant (M := daemon.machine)
    (J := fun cycles s => s.raised = none → s.iterations = cycles.length) ?_ (fun _ => rfl) run
    going
  intro cycles s cycle t ih step going
  rw [step_eq_some] at step
  subst step
  split at going
  · next before =>
    rw [if_pos before, iterations_iterate, ih before, List.length_append, List.length_singleton]
  · next ended => exact absurd going ended

/-- **The daemon outlives the outages that spare its last calls, and only those.** Over
every run in which no call reports a rejected credential, whatever else the calls raise,
all iterations are made and no job is started twice if and only if in each iteration
with an assignment the call its path ends with is answered, and without guardrails no
job comes back that was started before. -/
theorem completes_iff_last_calls_answered (ledger : LedgerFile) (cycles : List DaemonCycle)
    (unrejected : ∀ cycle ∈ cycles, cycle.Unrejected) :
    (∃ t, daemon.machine.run (daemon.start ledger) cycles = some t ∧ t.Completes cycles.length) ↔
      daemon.machine.Meets daemon.Spared (daemon.start ledger) cycles := by
  obtain ⟨t, run⟩ := exists_run daemon (daemon.start ledger) cycles
  have lawful : daemon.machine.Meets (fun _ cycle => cycle.Unrejected) (daemon.start ledger)
      cycles := Machine.meets_iff.mpr fun pre cycle post _ split _ =>
    unrejected cycle (by simp [split])
  have first : daemon.Recorded (daemon.start ledger) := fun _ launch listed => by cases listed
  have last : Alive t ↔ Alive (daemon.start ledger) ∧
      daemon.machine.Meets daemon.Spared (daemon.start ledger) cycles :=
    Machine.last_iff_meets (fun s cycle t h unrejected step => h.step unrejected step)
      (fun s cycle t h unrejected step => alive_step h unrejected step) first lawful run
  have completes : (∃ t, daemon.machine.run (daemon.start ledger) cycles = some t ∧
      t.Completes cycles.length) ↔ Alive t := by
    constructor
    · rintro ⟨u, same, completes⟩
      cases run.symm.trans same
      exact ⟨completes.raised, completes.once⟩
    · intro alive
      exact ⟨t, run, iterations_run run alive.1, alive.1, alive.2⟩
  rw [completes, last]
  exact and_iff_right ⟨rfl, List.nodup_nil⟩

end Loop

section Sample

open DualGate

theorem last_of_refused {daemon : WorkerDaemon} {ledger : LedgerFile} {token error : Text}
    {claims : DispatchAssignmentClaims} {cycle : DaemonCycle}
    (verified : verifyAssignment daemon.wire daemon.settings token cycle.admittedAt = .ok claims)
    (fresh : claims.jobId ∉ keys (recorded ledger))
    (fetched : daemon.downloadRejected claims cycle = none)
    (refused : prepareJob daemon.wire daemon.unicode daemonUrlPolicy claims (prepareInputs cycle) =
      .error (.reportAndConsume error)) :
    (daemon.runAssignment ledger token cycle).last = .reportFailure claims.jobId error := by
  rw [runAssignment, handleAssignment_of_verified verified fresh]
  dsimp only
  rw [runScreamingFrogJob, fetched]
  dsimp only
  rw [refused]

def sampleDaemon : WorkerDaemon where
  wire := sampleWire
  unicode := asciiUnicode
  zipfile := sampleZipfile
  settings := ⟨"w", "org", none, "k".toList, .development, true⟩
  pollInterval := 15000000
  pollMaxBackoff := 300000000
  uploadMaxBytes := 1000000

/-- The assignment's host has a private address by now, and the cloud is unreachable for
everything but the heartbeat and the poll. -/
def outageCycle : DaemonCycle where
  scan := ⟨[], []⟩
  heartbeat := .ok ()
  poll := .ok (some sampleToken)
  admittedAt := 1767225600000000
  resolve := fun _ => .ok ["10.0.0.1".toList]
  templates := fun _ => .absent
  fetchUrlList := .error (.integration [])
  writeError := none
  context := ""
  approvedAt := 1767225600000000
  consumedAt := "2026-01-01T00:00:01Z"
  launchResolve := fun _ => .ok ["10.0.0.1".toList]
  launchTemplates := fun _ => .absent
  crawl := .notStarted
  toolError := []
  reportProgress := .error (.integration [])
  reportFailure := .error (.integration [])
  uploadBundle := .error (.integration [])

def darkCycle : DaemonCycle :=
  { outageCycle with heartbeat := .error (.integration []), poll := .error (.integration []) }

theorem unrejected_outageCycle : outageCycle.Unrejected := by
  constructor <;> intro e same <;> cases same

theorem unrejected_darkCycle : darkCycle.Unrejected := by
  constructor <;> intro e same <;> cases same

theorem completes_when_dark :
    ∃ t, sampleDaemon.machine.run (sampleDaemon.start .absent) [darkCycle, darkCycle] = some t ∧
      t.Completes 2 := by
  have unrejected : ∀ cycle ∈ [darkCycle, darkCycle], cycle.Unrejected := by
    intro cycle listed
    rw [List.mem_cons, List.mem_singleton, or_self] at listed
    exact listed ▸ unrejected_darkCycle
  refine (completes_iff_last_calls_answered .absent [darkCycle, darkCycle] unrejected).mpr ?_
  refine ⟨fun token got => ?_, fun s _ => ⟨fun token got => ?_, fun _ _ => trivial⟩⟩
  · cases got
  · unfold assignment at got
    split at got
    · next polls =>
      cases polls
    · cases got

/-- The refused job's failure is not taken, and the loop ends in the error. -/
theorem unreported_failure_stops_loop : outageCycle.Unrejected ∧
    ¬∃ t, sampleDaemon.machine.run (sampleDaemon.start .absent) [outageCycle] = some t ∧
      t.Completes 1 := by
  refine ⟨unrejected_outageCycle, ?_⟩
  rintro ⟨t, run, completes⟩
  rw [Machine.run_singleton, step_eq_some] at run
  obtain ⟨a, issued⟩ := sampleWire.issueDispatchAssignment_of_valid "k".toList none
    (show sampleClaims.Valid by decide)
  have token : a.token = sampleToken := by rw [sampleToken, issued]
  have verified : verifyAssignment sampleDaemon.wire sampleDaemon.settings sampleToken
      outageCycle.admittedAt = .ok sampleClaims :=
    token ▸ sampleWire.verifyDispatchAssignment_of_issued issued sample_json (by decide)
  obtain ⟨error, refused⟩ : ∃ error,
      prepareJob sampleDaemon.wire sampleDaemon.unicode daemonUrlPolicy sampleClaims
        (prepareInputs outageCycle) = .error (.reportAndConsume error) := ⟨_, rfl⟩
  have last : (sampleDaemon.runAssignment (sampleDaemon.start .absent).ledger sampleToken
      outageCycle).last = .reportFailure sampleClaims.jobId error :=
    last_of_refused verified List.not_mem_nil rfl refused
  have assigned : assignment (sampleDaemon.start .absent) outageCycle = some sampleToken := rfl
  have raised := (iterate_of_assigned sampleDaemon assigned).2.2
  have begun : (sampleDaemon.start .absent).raised = none := rfl
  have going := completes.raised
  rw [run, if_pos begun, raised, fault_eq_none, last] at going
  cases going

end Sample

end WorkerDaemon

end Rankuno
