import Rankuno.Foundation.Effects
import Rankuno.JobStore.Methods

/-!
# Work that nobody waits for

Workbook builds, masterfiles and crawls run on worker threads that nothing joins. Each
moves its record to running, works, and leaves the record in a terminal status; what
it raises on the way is caught and recorded. Which call raises, and what, is a
parameter, and so is what happens between two sections of the store's methods: a
delete may land, and others may write.

The handler that records a failure calls the store too. So a run is contained exactly
where the record outlives the write that settles it, and the store takes that write.
-/

namespace Rankuno.Detached

/-! ## Exceptions and the store -/

inductive RaisedKind where
  /-- `WorkbookPageLimitExceededError`, which is a `ValueError` as well. -/
  | pageLimit
  | value
  | other
  deriving DecidableEq

/-- An `Exception`: what can catch it, the name of its type, and its text. -/
structure Raised where
  kind : RaisedKind
  typeName : String
  text : String
  deriving DecidableEq

def Raised.jobNotFound (jobId : String) : Raised :=
  ⟨.other, "JobNotFoundError", "\"no job with id '" ++ jobId ++ "'\""⟩

/-- A value in the result of a run. -/
inductive ResultField where
  | text (value : String)
  | count (value : Nat)
  | texts (values : List String)
  deriving DecidableEq

/-- What others write between two sections. They may do anything but delete the
record or make one. -/
structure Touch (jobId : String) where
  apply : JobDisk → JobDisk
  keeps : ∀ d, ((apply d).record jobId).isSome = (d.record jobId).isSome

/-- All that a run does not decide, by the number of the section it comes before. -/
structure World (jobId : String) where
  meanwhile : Nat → Touch jobId
  /-- A delete of the record lands. -/
  deletes : Nat → Bool
  /-- The section raises once it found the record. -/
  fault : Nat → Option Raised
  /-- The stamp of a transition, and the time of its write. -/
  clock : Nat → Timestamp × Timestamp
  /-- `json.dumps` -/
  dumps : List (String × ResultField) → String

structure RunState where
  disk : JobDisk
  /-- The number of the next section. -/
  turn : Nat := 0
  /-- The local `source` was assigned. -/
  opened : Bool := false
  /-- The last section wrote what it was to write. -/
  wrote : Bool := false

abbrev Run := Effect RunState Raised

/-- The locked sections of the methods a run calls. -/
inductive Section where
  | markRunning
  /-- The first of `finish`: the result is written. -/
  | result (body : String)
  /-- The second. -/
  | finish (isPartial : Bool) (error : Option String)
  | markFailed (error : String)
  deriving DecidableEq

section Source

variable {jobId : String}

/-- What a section writes. -/
def Section.write (jobId : String) (now : Timestamp × Timestamp) (d : JobDisk) : Section → JobDisk
  | .markRunning => (d.transition jobId (.markRunning now.1) now.2).2
  | .result body => d.writeSidecar .result jobId body
  | .finish isPartial error => (d.transition jobId (.finish isPartial error now.1) now.2).2
  | .markFailed error => (d.transition jobId (.markFailed error now.1) now.2).2

/-- The directory a section finds. -/
def World.found (w : World jobId) (n : Nat) (d : JobDisk) : JobDisk :=
  let touched := (w.meanwhile n).apply d
  if w.deletes n then (touched.delete jobId).2 else touched

variable (w : World jobId)

/-- One section: it reads the record, and writes. -/
def act (x : Section) : Run Unit := fun s =>
  let disk := w.found s.turn s.disk
  let next := { s with disk, turn := s.turn + 1, wrote := false }
  match disk.record jobId with
  | none => (.error (.jobNotFound jobId), next)
  | some _ =>
    match w.fault s.turn with
    | some e => (.error e, next)
    | none => (.ok (), { next with disk := x.write jobId (w.clock s.turn) disk, wrote := true })

def markFailed (error : String) : Run Unit := act w (.markFailed error)

/-- `finish`. -/
def finish (result : List (String × ResultField)) (isPartial : Bool) (error : Option String) :
    Run Unit := do
  act w (.result (w.dumps result))
  act w (.finish isPartial error)

/-! ## `build_runner.py` -/

structure AuditDataset where
  site : String
  pages : Nat
  /-- `produced_at.isoformat()` -/
  producedAt : String

/-- The arguments of `run_build`, and what its calls answer. -/
structure Build where
  datasetLoader : Except Raised AuditDataset
  /-- `run_deliverable_pipeline`, which answers with the name of the workbook. -/
  pipeline : AuditDataset → Except Raised String
  source : String

/-- The reason the handlers of `run_build` record. -/
def buildReason (e : Raised) : String :=
  match e.kind with
  | .pageLimit => "too many pages for a workbook: " ++ e.text
  | .value => e.text
  | .other => e.typeName ++ ": " ++ e.text

/-- `run_build`. -/
def runBuild (b : Build) : Run Unit :=
  Effect.rescue (do
    act w .markRunning
    let dataset ← Effect.lift b.datasetLoader
    let filename ← Effect.lift (b.pipeline dataset)
    finish w [("filename", .text filename), ("site", .text dataset.site),
      ("pages", .count dataset.pages), ("source", .text b.source),
      ("produced_at", .text dataset.producedAt)] false none)
  fun e => markFailed w (buildReason e)

/-- The arguments of `run_masterfile` and `run_masterfile_batch` alike, and what the calls
of both answer. -/
structure MasterfileCalls where
  sourceJobId : String
  /-- The import of `get_masterfile_service`. -/
  registry : Except Raised Unit
  sourceFactory : Except Raised Unit
  /-- The directory is made and the file is written. -/
  output : Except Raised Unit
  closeSource : Except Raised Unit

/-- The reason the handlers of the masterfile runs record. -/
def masterfileReason (e : Raised) : String :=
  match e.kind with
  | .pageLimit => e.text
  | .value => e.text
  | .other => e.typeName ++ ": " ++ e.text

/-- `source = source_factory()`. -/
def openSource (m : MasterfileCalls) : Run Unit := do
  Effect.lift m.sourceFactory
  Effect.update fun s => { s with opened := true }

/-- `if source is not None: source.close()`. -/
def closeSource (m : MasterfileCalls) : Run Unit := do
  let opened ← Effect.read RunState.opened
  if opened then Effect.lift m.closeSource else pure ()

structure Masterfile extends MasterfileCalls where
  serviceSlug : String
  /-- `get_masterfile_service(…).generate()`. -/
  generate : Except Raised Unit

/-- `run_masterfile`. -/
def runMasterfile (m : Masterfile) : Run Unit := do
  Effect.lift m.registry
  Effect.finallyDo
    (Effect.rescue (do
      act w .markRunning
      openSource m.toMasterfileCalls
      Effect.lift m.generate
      Effect.lift m.output
      finish w [("filename", .text (m.serviceSlug ++ ".xlsx")),
        ("service_slug", .text m.serviceSlug), ("source", .text "masterfile"),
        ("source_job_id", .text m.sourceJobId)] false none)
    fun e => markFailed w (masterfileReason e))
    (closeSource m.toMasterfileCalls)

structure MasterfileBatch extends MasterfileCalls where
  /-- Each slug, and what building its file and adding it to the archive answers. -/
  slugs : List (String × Except Raised Unit)
  /-- The archive is opened and closed. -/
  archive : Except Raised Unit

namespace MasterfileBatch

def built (m : MasterfileBatch) : Nat := m.slugs.countP fun slug => slug.2.isOk

def skipped (m : MasterfileBatch) : List String :=
  (m.slugs.filter fun slug => !slug.2.isOk).map Prod.fst

end MasterfileBatch

/-- `run_masterfile_batch`. -/
def runMasterfileBatch (m : MasterfileBatch) : Run Unit := do
  Effect.lift m.registry
  Effect.finallyDo
    (Effect.rescue (do
      act w .markRunning
      openSource m.toMasterfileCalls
      Effect.lift m.archive
      if m.built = 0 then markFailed w "every service failed to build"
      else
        Effect.lift m.output
        finish w [("filename", .text "masterfiles.zip"), ("source", .text "masterfile_batch"),
          ("source_job_id", .text m.sourceJobId), ("built", .count m.built),
          ("skipped", .texts m.skipped)] false none)
    fun e => markFailed w (masterfileReason e))
    (closeSource m.toMasterfileCalls)

/-! ## `server.py` -/

/-- What the handlers of the server record. -/
def crashReason (e : Raised) : String := e.typeName ++ ": " ++ e.text

/-- The data of a tool's result. -/
inductive ToolData (Output : Type) where
  | output (output : Output)
  /-- Of another type. -/
  | unexpected (typeName : String)

structure ToolResult (Output : Type) where
  ok : Bool
  error : Option String := none
  data : Option (ToolData Output) := none

/-- What the server does with a tool's result. -/
def settle {Output : Type} (result : ToolResult Output) (finished : Output → Run Unit) : Run Unit :=
  if !result.ok then markFailed w (orDefault (result.error.getD "") "the tool returned no data")
  else
    match result.data with
    | none => markFailed w (orDefault (result.error.getD "") "the tool returned no data")
    | some (.unexpected typeName) => markFailed w ("unexpected output type " ++ typeName)
    | some (.output output) => finished output

structure CrawlOutput where
  /-- `model_dump`. -/
  dumped : Except Raised (List (String × ResultField))
  truncated : Bool
  stoppedReason : Option String

/-- The calls of `_run_job`. -/
structure CrawlJob where
  openAccount : Except Raised Unit
  /-- The tool is made and run. -/
  tool : Except Raised (ToolResult CrawlOutput)
  closeAccount : Except Raised Unit

/-- `_run_job`. -/
def runJob (j : CrawlJob) : Run Unit := do
  Effect.lift j.openAccount
  Effect.finallyDo
    (Effect.rescue (do
      act w .markRunning
      let result ← Effect.lift j.tool
      settle w result fun output => do
        let dumped ← Effect.lift output.dumped
        finish w dumped (output.truncated || output.stoppedReason.isSome) output.stoppedReason)
    fun e => markFailed w (crashReason e))
    (Effect.lift j.closeAccount)

/-- The calls of `_run_sf_job`. An output is what `model_dump` answers. -/
structure ScreamingFrogJob where
  settings : Except Raised Unit
  tool : Except Raised (ToolResult (Except Raised (List (String × ResultField))))

/-- `_run_sf_job`. -/
def runSfJob (j : ScreamingFrogJob) : Run Unit := do
  Effect.lift j.settings
  Effect.rescue (do
      act w .markRunning
      let result ← Effect.lift j.tool
      settle w result fun output => do
        let dumped ← Effect.lift output
        finish w dumped false none)
    fun e => markFailed w (crashReason e)

end Source

/-! ## What is promised of them -/

/-- One of the five. -/
inductive DetachedRun where
  | build (b : Build)
  | masterfile (m : Masterfile)
  | masterfileBatch (m : MasterfileBatch)
  | crawl (j : CrawlJob)
  | screamingFrog (j : ScreamingFrogJob)

/-- A record that is there is in a terminal status. -/
def RunState.Terminal (jobId : String) (s : RunState) : Prop :=
  ∀ r, s.disk.record jobId = some r → r.status.IsTerminal

/-- What the calls of a run come to: how often it calls the store's sections after
`mark_running`, and whether it raises then. -/
structure Placement where
  opens : Bool
  sections : Nat
  raises : Bool
  deriving DecidableEq

namespace Placement

/-- It raises before its first call of the store after `mark_running`. -/
def failing (opens : Bool) : Placement := ⟨opens, 0, true⟩

/-- It ends in a call of `mark_failed` of its own. -/
def refusing (opens : Bool) : Placement := ⟨opens, 1, false⟩

/-- It ends in `finish`. -/
def finishing (opens : Bool) : Placement := ⟨opens, 2, false⟩

end Placement

def Build.placement (b : Build) : Placement :=
  match b.datasetLoader with
  | .error _ => .failing false
  | .ok dataset => if (b.pipeline dataset).isOk then .finishing false else .failing false

def Masterfile.placement (m : Masterfile) : Placement :=
  if !m.sourceFactory.isOk then .failing false
  else if m.generate.isOk && m.output.isOk then .finishing true
  else .failing true

def MasterfileBatch.placement (m : MasterfileBatch) : Placement :=
  if !m.sourceFactory.isOk then .failing false
  else if !m.archive.isOk then .failing true
  else if m.built = 0 then .refusing true
  else if m.output.isOk then .finishing true
  else .failing true

/-- What is to be done with a tool's result, by whether an output can be dumped. -/
def ToolResult.placement {Output : Type} (dumps : Output → Bool) (result : ToolResult Output) :
    Placement :=
  match result.ok, result.data with
  | true, some (.output output) => if dumps output then .finishing false else .failing false
  | _, _ => .refusing false

def CrawlJob.placement (j : CrawlJob) : Placement :=
  match j.tool with
  | .error _ => .failing false
  | .ok result => result.placement fun output => output.dumped.isOk

def ScreamingFrogJob.placement (j : ScreamingFrogJob) : Placement :=
  match j.tool with
  | .error _ => .failing false
  | .ok result => result.placement Except.isOk

/-- What a run calls when its guarded part is over. -/
inductive Closing where
  | nothing
  | ifOpened (answer : Except Raised Unit)
  | always (answer : Except Raised Unit)

/-- It does not raise. -/
def Closing.Quiet (opened : Bool) : Closing → Prop
  | .nothing => True
  | .ifOpened answer => opened = true → answer = .ok ()
  | .always answer => answer = .ok ()

namespace DetachedRun

def run {jobId : String} (w : World jobId) : DetachedRun → Run Unit
  | .build b => runBuild w b
  | .masterfile m => runMasterfile w m
  | .masterfileBatch m => runMasterfileBatch w m
  | .crawl j => runJob w j
  | .screamingFrog j => runSfJob w j

def placement : DetachedRun → Placement
  | .build b => b.placement
  | .masterfile m => m.placement
  | .masterfileBatch m => m.placement
  | .crawl j => j.placement
  | .screamingFrog j => j.placement

/-- What it calls before its guarded part. -/
def before : DetachedRun → Except Raised Unit
  | .build _ => .ok ()
  | .masterfile m => m.registry
  | .masterfileBatch m => m.registry
  | .crawl j => j.openAccount
  | .screamingFrog j => j.settings

def closing : DetachedRun → Closing
  | .build _ => .nothing
  | .masterfile m => .ifOpened m.closeSource
  | .masterfileBatch m => .ifOpened m.closeSource
  | .crawl j => .always j.closeAccount
  | .screamingFrog _ => .nothing

end DetachedRun

section Promise

variable {jobId : String} (w : World jobId)

/-- The run returns, and a record that is there is settled if the last write worked. -/
structure Settles (disk : JobDisk) (r : DetachedRun) : Prop where
  returns : (r.run w { disk }).1 = .ok ()
  settled : (r.run w { disk }).2.wrote = true → (r.run w { disk }).2.Terminal jobId

/-- The record is there before section `n`, and its write works. -/
def World.Takes (n : Nat) : Prop := w.deletes n = false ∧ w.fault n = none

/-- With some sections to come, the next of them the `n`-th: the record is there for each,
and where one raises, or the run after them, the next section takes the report. -/
def World.Recorded (w : World jobId) (raises : Bool) : Nat → Nat → Prop
  | 0, n => raises = true → w.Takes n
  | left + 1, n => w.deletes n = false ∧
      if w.fault n = none then w.Recorded raises left (n + 1) else w.Takes (n + 1)

/-- Nothing goes wrong outside the guard: the record outlives the write that settles it,
that write works if it is a report, and no call before or after the guarded part raises. -/
structure Contained (disk : JobDisk) (r : DetachedRun) : Prop where
  before : r.before = .ok ()
  present : (disk.record jobId).isSome = true
  recorded : w.Recorded r.placement.raises (r.placement.sections + 1) 0
  closing : r.closing.Quiet (r.placement.opens && (w.fault 0).isNone)

end Promise

/-! ## Sections -/

/-- The record is there. -/
def RunState.Present (jobId : String) (s : RunState) : Prop :=
  (s.disk.record jobId).isSome = true

/-- The record is there for as many sections as are left, and the next one takes the report
of one that raises. -/
def RunState.Recorded {jobId : String} (w : World jobId) (raises : Bool) (left : Nat)
    (s : RunState) : Prop :=
  s.Present jobId ∧ w.Recorded raises left s.turn

/-- It writes a terminal status. -/
def Section.settles : Section → Bool
  | .markRunning | .result _ => false
  | .finish _ _ | .markFailed _ => true

section Sections

open Effect

variable {jobId : String} {w : World jobId} {s : RunState} {x : Section} {d : JobDisk} {n : Nat}
  {now : Timestamp × Timestamp} {raised : Option Raised} {reason : Raised → String}

theorem record_delete : (d.delete jobId).2.record jobId = none := by
  rw [JobDisk.delete]
  split
  · next absent => exact absent
  · show (d.unlinkRecord jobId).record jobId = none
    rw [JobDisk.unlinkRecord_record, if_pos rfl]

theorem isSome_found :
    ((w.found n d).record jobId).isSome = ((d.record jobId).isSome && !w.deletes n) := by
  rw [World.found]
  cases w.deletes n with
  | true => simp [record_delete]
  | false => simp [(w.meanwhile n).keeps]

theorem isSome_write : ((x.write jobId now d).record jobId).isSome = (d.record jobId).isSome := by
  cases x with
  | result => rfl
  | markRunning => rw [Section.write, JobDisk.transition_record, Option.isSome_map]
  | finish => rw [Section.write, JobDisk.transition_record, Option.isSome_map]
  | markFailed => rw [Section.write, JobDisk.transition_record, Option.isSome_map]

theorem isTerminal_write (settles : x.settles = true) {r : JobRecord}
    (found : (x.write jobId now d).record jobId = some r) : r.status.IsTerminal := by
  cases x with
  | markRunning => cases settles
  | result => cases settles
  | finish isPartial error =>
    rw [Section.write, JobDisk.transition_record, Option.map_eq_some_iff] at found
    obtain ⟨before, -, rfl⟩ := found
    rw [if_pos rfl, RecordChange.apply_status]
    cases isPartial
    · trivial
    · trivial
  | markFailed error =>
    rw [Section.write, JobDisk.transition_record, Option.map_eq_some_iff] at found
    obtain ⟨before, -, rfl⟩ := found
    rw [if_pos rfl, RecordChange.apply_status]
    trivial

theorem ensures_act : (act w x).Ensures s (outcome
    (fun _ t => (s.Present jobId ∧ w.Takes s.turn) ∧ t.Present jobId ∧ t.turn = s.turn + 1 ∧
      t.opened = s.opened ∧ (x.settles = true → t.Terminal jobId))
    fun _ t => ¬(s.Present jobId ∧ w.Takes s.turn) ∧ t.turn = s.turn + 1 ∧
      t.opened = s.opened ∧ (t.Present jobId ↔ s.Present jobId ∧ w.deletes s.turn = false)) := by
  have there : ((w.found s.turn s.disk).record jobId).isSome = true ↔
      s.Present jobId ∧ w.deletes s.turn = false := by
    rw [isSome_found, Bool.and_eq_true, Bool.not_eq_true']
    rfl
  rw [Ensures, act]
  dsimp only
  cases found : (w.found s.turn s.disk).record jobId with
  | none =>
    rw [found] at there
    refine ⟨fun takes => ?_, rfl, rfl, ?_⟩
    · exact absurd (there.mpr ⟨takes.1, takes.2.1⟩) Bool.false_ne_true
    · rw [← there, RunState.Present, found]
  | some r =>
    rw [found] at there
    obtain ⟨present, kept⟩ := there.mp rfl
    cases failed : w.fault s.turn with
    | none =>
      refine ⟨⟨present, kept, failed⟩, ?_, rfl, rfl, fun settles r found => ?_⟩
      · show (Option.isSome _) = true
        rw [isSome_write, found]
        rfl
      · exact isTerminal_write settles found
    | some e =>
      refine ⟨fun takes => ?_, rfl, rfl, ?_⟩
      · exact Option.some_ne_none _ (failed.symm.trans takes.2.2)
      · rw [← there, RunState.Present, found]

/-- The sections a run calls after `mark_running`, and what it raises then. -/
def performAll (w : World jobId) (raised : Option Raised) : List Section → Run Unit
  | [] => match raised with
    | none => pure ()
    | some e => raise e
  | x :: xs => act w x >>= fun _ => performAll w raised xs

/-- The last of the sections settles, unless something is raised. -/
def SettlesLast (raised : Option Raised) (xs : List Section) : Prop :=
  raised = none → ∀ x, xs.getLast? = some x → x.settles = true

theorem SettlesLast.tail {xs : List Section} (last : SettlesLast raised (x :: xs)) :
    SettlesLast raised xs := by
  intro quiet y found
  cases xs with
  | nil => cases found
  | cons z xs => exact last quiet y (by rwa [List.getLast?_cons_cons])

theorem ensures_markFailed (error : String) : (markFailed w error).Ensures s (outcome
    (fun _ t => (s.Present jobId ∧ w.Takes s.turn) ∧ t.Terminal jobId ∧ t.opened = s.opened)
    fun _ _ => ¬(s.Present jobId ∧ w.Takes s.turn)) := by
  refine ensures_act.mono fun r t reached => ?_
  cases r with
  | ok _ =>
    obtain ⟨takes, -, -, opened, terminal⟩ := reached
    exact ⟨takes, terminal rfl, opened⟩
  | error _ => exact reached.1

variable {raises : Bool}

theorem recorded_of_takes {t : RunState} {left : Nat} (there : s.Present jobId)
    (takes : w.Takes s.turn) (present : t.Present jobId) (turn : t.turn = s.turn + 1) :
    s.Recorded w raises (left + 1) ↔ t.Recorded w raises left := by
  rw [RunState.Recorded, RunState.Recorded, World.Recorded, if_pos takes.2, turn]
  constructor
  · rintro ⟨-, -, next⟩
    exact ⟨present, next⟩
  · rintro ⟨-, next⟩
    exact ⟨there, takes.1, next⟩

theorem recorded_of_fails {t : RunState} {left : Nat}
    (fails : ¬(s.Present jobId ∧ w.Takes s.turn)) (turn : t.turn = s.turn + 1)
    (present : t.Present jobId ↔ s.Present jobId ∧ w.deletes s.turn = false) :
    s.Recorded w raises (left + 1) ↔ t.Present jobId ∧ w.Takes t.turn := by
  rw [RunState.Recorded, World.Recorded, present, turn]
  constructor
  · rintro ⟨there, kept, takes⟩
    rw [if_neg fun works => fails ⟨there, kept, works⟩] at takes
    exact ⟨⟨there, kept⟩, takes⟩
  · rintro ⟨⟨there, kept⟩, takes⟩
    rw [if_neg fun works => fails ⟨there, kept, works⟩]
    exact ⟨there, kept, takes⟩

theorem ensures_act_rescue {f : Unit → Run Unit} {handler : Raised → Run Unit}
    {left : Nat} {post : RunState → Prop}
    (rest : ∀ t, w.fault s.turn = none → t.Present jobId → t.opened = s.opened →
      (x.settles = true → t.Terminal jobId) → ((f ()).rescue handler).Ensures t (outcome
        (fun _ u => t.Recorded w raises left ∧ post u) fun _ _ => ¬t.Recorded w raises left))
    (handled : ∀ e t, (t.Present jobId → w.fault s.turn ≠ none) → t.opened = s.opened →
      (handler e).Ensures t (outcome (fun _ u => (t.Present jobId ∧ w.Takes t.turn) ∧ post u)
        fun _ _ => ¬(t.Present jobId ∧ w.Takes t.turn))) :
    ((act w x >>= f).rescue handler).Ensures s (outcome
      (fun _ u => s.Recorded w raises (left + 1) ∧ post u)
      fun _ _ => ¬s.Recorded w raises (left + 1)) := by
  refine ensures_rescue_bind ensures_act ?_ ?_
  · rintro _ t ⟨⟨there, takes⟩, present, turn, opened, terminal⟩
    rw [recorded_of_takes there takes present turn]
    exact rest t takes.2 present opened terminal
  · rintro e t ⟨fails, turn, opened, present⟩
    rw [recorded_of_fails fails turn present]
    refine handled e t (fun found works => ?_) opened
    obtain ⟨there, kept⟩ := present.mp found
    exact fails ⟨there, kept, works⟩

theorem ensures_performAll {xs : List Section} (there : s.Present jobId)
    (settled : xs = [] → raised = none → s.Terminal jobId) (last : SettlesLast raised xs) :
    ((performAll w raised xs).rescue fun e => markFailed w (reason e)).Ensures s (outcome
      (fun _ t => s.Recorded w raised.isSome xs.length ∧ t.Terminal jobId ∧ t.opened = s.opened)
      fun _ _ => ¬s.Recorded w raised.isSome xs.length) := by
  induction xs generalizing s with
  | nil =>
    cases raised with
    | none =>
      refine ⟨⟨there, fun raises => ?_⟩, settled rfl rfl, rfl⟩
      cases raises
    | some e =>
      refine (ensures_markFailed (reason e)).mono fun r t reached => ?_
      cases r with
      | ok _ => exact ⟨⟨there, fun _ => reached.1.2⟩, reached.2⟩
      | error _ => exact fun recorded => reached ⟨there, recorded.2 rfl⟩
  | cons x xs ih =>
    refine ensures_act_rescue (fun t _ present opened terminal => ?_) fun e t _ opened => ?_
    · rw [← opened]
      refine ih present (fun empty quiet => ?_) last.tail
      rw [empty] at last
      exact terminal (last quiet x rfl)
    · rw [← opened]
      exact ensures_markFailed _

end Sections

/-! ## The shape of the runs -/

/-- The guarded part of a run: whether it assigns `source`, which sections it calls after
`mark_running`, and what it raises then. -/
structure Script where
  opens : Bool
  rest : List Section
  raised : Option Raised
  settles : raised = none → ∃ x, rest.getLast? = some x ∧ x.settles = true

namespace Script

def failing (opens : Bool) (e : Raised) : Script := ⟨opens, [], some e, by intro h; cases h⟩

def refusing (opens : Bool) (error : String) : Script :=
  ⟨opens, [.markFailed error], none, fun _ => ⟨_, rfl, rfl⟩⟩

def finishing (opens : Bool) (body : String) (isPartial : Bool) (error : Option String) : Script :=
  ⟨opens, [.result body, .finish isPartial error], none, fun _ => ⟨_, rfl, rfl⟩⟩

def placement (x : Script) : Placement := ⟨x.opens, x.rest.length, x.raised.isSome⟩

variable {jobId : String} (w : World jobId) (x : Script)

def opening : Run Unit :=
  if x.opens then Effect.update fun s => { s with opened := true } else pure ()

/-- What follows `mark_running`. -/
def perform : Run Unit := x.opening >>= fun _ => performAll w x.raised x.rest

end Script

/-- `mark_running` and what follows it, in the guard. -/
def guarded {jobId : String} (w : World jobId) (m : Run Unit) (reason : Raised → String) :
    Run Unit :=
  Effect.rescue (act w .markRunning >>= fun _ => m) fun e => markFailed w (reason e)

/-- The closing of a run. -/
def Closing.run : Closing → Run Unit
  | .nothing => pure ()
  | .ifOpened answer => Effect.read RunState.opened >>= fun opened =>
    if opened then Effect.lift answer else pure ()
  | .always answer => Effect.lift answer

section Shape

open Effect

variable {jobId : String} {w : World jobId} {s : RunState} {x : Script}
  {reason : Raised → String} {closing : Closing}

theorem SettlesLast.of_script : SettlesLast x.raised x.rest := by
  intro quiet y found
  obtain ⟨z, last, settles⟩ := x.settles quiet
  rw [last, Option.some_inj] at found
  rw [← found]
  exact settles

theorem ensures_closing : closing.run.Ensures s (outcome
    (fun _ t => closing.Quiet s.opened ∧ t = s) fun _ t => ¬closing.Quiet s.opened ∧ t = s) := by
  cases closing with
  | nothing => exact ⟨trivial, rfl⟩
  | always answer =>
    cases answer with
    | ok _ => exact ⟨rfl, rfl⟩
    | error e =>
      refine ⟨fun quiet => ?_, rfl⟩
      cases quiet
  | ifOpened answer =>
    rw [Closing.run]
    have first : (read RunState.opened).Ensures s fun (r : Except Raised Bool) t =>
        r = .ok s.opened ∧ t = s := ⟨rfl, rfl⟩
    refine ensures_bind first ?_ ?_
    · rintro _ t ⟨⟨⟩, rfl⟩
      cases opened : t.opened with
      | false =>
        refine ⟨fun assigned => ?_, rfl⟩
        cases assigned
      | true =>
        cases answer with
        | ok _ => exact ⟨fun _ => rfl, rfl⟩
        | error e =>
          refine ⟨fun quiet => ?_, rfl⟩
          cases quiet rfl
    · rintro e t ⟨raised, -⟩
      cases raised

theorem ensures_guarded (unopened : s.opened = false) :
    (guarded w (x.perform w) reason).Ensures s (outcome
      (fun _ t => s.Recorded w x.raised.isSome (x.rest.length + 1) ∧ t.Terminal jobId ∧
        t.opened = (x.opens && (w.fault s.turn).isNone))
      fun _ _ => ¬s.Recorded w x.raised.isSome (x.rest.length + 1)) := by
  refine ensures_act_rescue (fun t works present opened _ => ?_) fun e t failed opened => ?_
  · have settled : x.rest = [] → x.raised = none → ∀ u : RunState, u.Terminal jobId := by
      intro empty quiet
      obtain ⟨y, last, -⟩ := x.settles quiet
      rw [empty] at last
      cases last
    rw [works, Option.isNone_none, Bool.and_true]
    cases opens : x.opens with
    | true =>
      rw [Script.perform, Script.opening, opens]
      exact ensures_performAll (s := { t with opened := true }) present
        (fun empty quiet => settled empty quiet _) SettlesLast.of_script
    | false =>
      rw [Script.perform, Script.opening, opens]
      have performed : ((performAll w x.raised x.rest).rescue fun e =>
          markFailed w (reason e)).Ensures t _ :=
        ensures_performAll present (fun empty quiet => settled empty quiet t)
          SettlesLast.of_script
      rw [opened, unopened] at performed
      exact performed
  · refine (ensures_markFailed (reason e)).mono fun r u reached => ?_
    cases r with
    | ok _ =>
      obtain ⟨⟨there, takes⟩, terminal, same⟩ := reached
      rw [Option.isNone_eq_false_iff.mpr (Option.isSome_iff_ne_none.mpr (failed there)),
        Bool.and_false, ← unopened, ← opened]
      exact ⟨⟨there, takes⟩, terminal, same⟩
    | error _ => exact reached

/-! ### Each run is a script between its calls -/

theorem finish_eq {result : List (String × ResultField)} {isPartial : Bool}
    {error : Option String} :
    finish w result isPartial error =
      performAll w none [.result (w.dumps result), .finish isPartial error] := by
  have last : performAll w none [.finish isPartial error] = act w (.finish isPartial error) :=
    bind_pure _
  rw [finish, performAll, last]

theorem markFailed_eq {error : String} :
    markFailed w error = performAll w none [.markFailed error] := (bind_pure _).symm

theorem finallyDo_pure {m : Run Unit} : m.finallyDo (pure ()) = m := by
  funext s
  rw [finallyDo]
  rcases m s with ⟨result, t⟩
  rfl

/-- A program with the placement of a script that does the same. -/
def Scripted (w : World jobId) (p : Placement) (m : Run Unit) : Prop :=
  ∃ x : Script, x.placement = p ∧ x.perform w = m

theorem scripted_raise {e : Raised} : Scripted w (.failing false) (raise e) :=
  ⟨.failing false e, rfl, rfl⟩

theorem scripted_markFailed {error : String} : Scripted w (.refusing false) (markFailed w error) :=
  ⟨.refusing false error, rfl, markFailed_eq.symm⟩

theorem scripted_finish {result : List (String × ResultField)} {isPartial : Bool}
    {error : Option String} : Scripted w (.finishing false) (finish w result isPartial error) :=
  ⟨.finishing false (w.dumps result) isPartial error, rfl, finish_eq.symm⟩

theorem Scripted.opened {p : Placement} {m : Run Unit} (scripted : Scripted w p m)
    (unopened : p.opens = false) :
    Scripted w { p with opens := true }
      (update (fun s : RunState => { s with opened := true }) >>= fun _ => m) := by
  obtain ⟨x, rfl, rfl⟩ := scripted
  refine ⟨{ x with opens := true }, rfl, ?_⟩
  change x.opens = false at unopened
  rw [Script.perform, Script.perform, Script.opening, Script.opening, unopened]
  rfl

theorem scripted_build (b : Build) : ∃ m, Scripted w b.placement m ∧
    runBuild w b = guarded w m buildReason := by
  refine ⟨_, ?_, rfl⟩
  rw [Build.placement]
  cases b.datasetLoader with
  | error e => exact scripted_raise
  | ok dataset =>
    change Scripted w (if (b.pipeline dataset).isOk then _ else _)
      (lift (b.pipeline dataset) >>= _)
    cases b.pipeline dataset with
    | error e => exact scripted_raise
    | ok filename => exact scripted_finish

theorem scripted_masterfile (m : Masterfile) : ∃ body, Scripted w m.placement body ∧
    runMasterfile w m = lift m.registry >>= fun _ =>
      (guarded w body masterfileReason).finallyDo (closeSource m.toMasterfileCalls) := by
  refine ⟨_, ?_, rfl⟩
  rw [Masterfile.placement, openSource]
  cases m.sourceFactory with
  | error e => exact scripted_raise
  | ok _ =>
    cases m.generate with
    | error e => exact scripted_raise.opened rfl
    | ok _ =>
      cases m.output with
      | error e => exact scripted_raise.opened rfl
      | ok _ => exact scripted_finish.opened rfl

theorem scripted_masterfileBatch (m : MasterfileBatch) : ∃ body, Scripted w m.placement body ∧
    runMasterfileBatch w m = lift m.registry >>= fun _ =>
      (guarded w body masterfileReason).finallyDo (closeSource m.toMasterfileCalls) := by
  refine ⟨_, ?_, rfl⟩
  rw [MasterfileBatch.placement, openSource]
  cases m.sourceFactory with
  | error e => exact scripted_raise
  | ok _ =>
    cases m.archive with
    | error e => exact scripted_raise.opened rfl
    | ok _ =>
      by_cases nothing : m.built = 0
      · rw [if_pos nothing, if_pos nothing]
        exact scripted_markFailed.opened rfl
      · rw [if_neg nothing, if_neg nothing]
        cases m.output with
        | error e => exact scripted_raise.opened rfl
        | ok _ => exact scripted_finish.opened rfl

theorem scripted_settle {Output : Type} {result : ToolResult Output} {dumps : Output → Bool}
    {finished : Output → Run Unit}
    (dumped : ∀ output, Scripted w
      (if dumps output then .finishing false else .failing false) (finished output)) :
    Scripted w (result.placement dumps) (settle w result finished) := by
  obtain ⟨ok, error, data⟩ := result
  cases ok with
  | false => exact scripted_markFailed
  | true =>
    cases data with
    | none => exact scripted_markFailed
    | some data =>
      cases data with
      | unexpected typeName => exact scripted_markFailed
      | output output => exact dumped output

theorem scripted_runJob (j : CrawlJob) : ∃ body, Scripted w j.placement body ∧
    runJob w j = lift j.openAccount >>= fun _ =>
      (guarded w body crashReason).finallyDo (lift j.closeAccount) := by
  refine ⟨_, ?_, rfl⟩
  rw [CrawlJob.placement]
  cases j.tool with
  | error e => exact scripted_raise
  | ok result =>
    refine scripted_settle fun output => ?_
    cases output.dumped with
    | error e => exact scripted_raise
    | ok dumped => exact scripted_finish

theorem scripted_runSfJob (j : ScreamingFrogJob) : ∃ body, Scripted w j.placement body ∧
    runSfJob w j = lift j.settings >>= fun _ => guarded w body crashReason := by
  refine ⟨_, ?_, rfl⟩
  rw [ScreamingFrogJob.placement]
  cases j.tool with
  | error e => exact scripted_raise
  | ok result =>
    refine scripted_settle fun output => ?_
    cases output with
    | error e => exact scripted_raise
    | ok dumped => exact scripted_finish

theorem exists_script (r : DetachedRun) : ∃ x : Script, ∃ reason, x.placement = r.placement ∧
    r.run w = lift r.before >>= fun _ =>
      (guarded w (x.perform w) reason).finallyDo r.closing.run := by
  cases r with
  | build b =>
    obtain ⟨_, ⟨x, placed, rfl⟩, run⟩ := scripted_build (w := w) b
    exact ⟨x, buildReason, placed, run.trans finallyDo_pure.symm⟩
  | masterfile m =>
    obtain ⟨_, ⟨x, placed, rfl⟩, run⟩ := scripted_masterfile (w := w) m
    exact ⟨x, masterfileReason, placed, run⟩
  | masterfileBatch m =>
    obtain ⟨_, ⟨x, placed, rfl⟩, run⟩ := scripted_masterfileBatch (w := w) m
    exact ⟨x, masterfileReason, placed, run⟩
  | crawl j =>
    obtain ⟨_, ⟨x, placed, rfl⟩, run⟩ := scripted_runJob (w := w) j
    exact ⟨x, crashReason, placed, run⟩
  | screamingFrog j =>
    obtain ⟨_, ⟨x, placed, rfl⟩, run⟩ := scripted_runSfJob (w := w) j
    refine ⟨x, crashReason, placed, ?_⟩
    change runSfJob w j = lift j.settings >>= fun _ => finallyDo _ (pure ())
    rw [finallyDo_pure]
    exact run

theorem ensures_run (disk : JobDisk) (r : DetachedRun) : (r.run w).Ensures { disk } (outcome
    (fun _ t => Contained w disk r ∧ t.Terminal jobId) fun _ _ => ¬Contained w disk r) := by
  obtain ⟨x, reason, placed, run⟩ := exists_script (w := w) r
  rw [run]
  have first : (lift r.before).Ensures { disk } fun result (t : RunState) =>
      result = r.before ∧ t = { disk } := ⟨rfl, rfl⟩
  refine ensures_bind first ?_ ?_
  · rintro _ _ ⟨before, rfl⟩
    refine ensures_finallyDo (ensures_guarded (x := x) rfl) fun result t reached => ?_
    refine ensures_closing.mono fun answer u closed => ?_
    have opens : x.opens = r.placement.opens := congrArg Placement.opens placed
    have recorded : RunState.Recorded w x.raised.isSome (x.rest.length + 1) { disk } ↔
        (disk.record jobId).isSome = true ∧
          w.Recorded r.placement.raises (r.placement.sections + 1) 0 := by
      rw [← placed]
      exact Iff.rfl
    cases result with
    | error e =>
      have uncontained : ¬Contained w disk r := fun contained =>
        reached (recorded.mpr ⟨contained.present, contained.recorded⟩)
      cases answer with
      | ok _ => exact uncontained
      | error e => exact uncontained
    | ok _ =>
      obtain ⟨taken, terminal, opened⟩ := reached
      rw [opened, opens] at closed
      cases answer with
      | ok _ =>
        obtain ⟨quiet, rfl⟩ := closed
        obtain ⟨present, taken⟩ := recorded.mp taken
        exact ⟨⟨before.symm, present, taken, quiet⟩, terminal⟩
      | error e => exact fun contained => closed.1 contained.closing
  · rintro e t ⟨raised, -⟩ contained
    rw [contained.before] at raised
    cases raised

end Shape

/-! ## The runs -/

/-- Detached work returns and leaves its record settled exactly where nothing goes wrong
outside its guard. -/
theorem settles_iff_contained {jobId : String} (w : World jobId) (disk : JobDisk)
    (r : DetachedRun) : Settles w disk r ↔ Contained w disk r := by
  have ensured := ensures_run (w := w) disk r
  rw [Effect.Ensures] at ensured
  constructor
  · rintro ⟨returns, -⟩
    rw [returns] at ensured
    exact ensured.1
  · intro contained
    cases result : ((r.run w) { disk }).1 with
    | ok _ =>
      rw [result] at ensured
      exact ⟨result, fun _ => ensured.2⟩
    | error e =>
      rw [result] at ensured
      exact absurd contained ensured

/-! The record is deleted while the dataset of its build is loaded. -/

def deletedMeanwhile : World "d1" where
  meanwhile _ := ⟨fun d => d, fun _ => rfl⟩
  deletes n := n == 1
  fault _ := none
  clock n := (n, n)
  dumps _ := "\x7b\x7d"

def loadedBuild : Build where
  datasetLoader := .ok ⟨"https://example.com", 3, "2025-01-01T00:00:00+00:00"⟩
  pipeline _ := .ok "workbook.xlsx"
  source := "engine"

def queuedBuild : JobDisk := JobDisk.empty.writeRecord
  { id := "d1", toolName := "seo.deliverables.workbook", label := "example.com", orgId := "acme",
    facetId := "seo.deliverables", request := "\x7b\x7d", status := .queued, createdAt := 0,
    updatedAt := 0 }

theorem not_settles_deletedMeanwhile :
    ¬Settles deletedMeanwhile queuedBuild (.build loadedBuild) := by
  intro settles
  have raises : (((DetachedRun.build loadedBuild).run deletedMeanwhile) { disk := queuedBuild }).1 =
      .error (.jobNotFound "d1") := rfl
  have returns := raises.symm.trans settles.returns
  cases returns

end Rankuno.Detached
