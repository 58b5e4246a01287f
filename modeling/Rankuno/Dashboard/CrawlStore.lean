import Rankuno.Foundation.Machine

/-!
# The crawl on screen

The browser keeps one selected job with its result and its cross-check. Selecting
a job clears both and starts its loads; every `await` suspends a call, and what
it waits for may settle in any order, with any answer. A step is the part of a
call up to its next `await`.

What was fetched is kept with the job it was asked for, and whether the selected
job's own load failed is remembered. The loads of the cross-check and of the
performance figures look at the selection again before they write, those of the
result and of the checkpoint do not: what is on screen belongs to the selected job
exactly as long as these two settle while their job is selected,
`SettlesSelected`.

The live half of the store (`liveJobs` and its pollers) never writes what is on
screen; a poller is a call of `refreshJobs`.
-/

namespace Rankuno.Dashboard

inductive JobStatus where
  | idle
  | queued
  | running
  | succeeded
  | failed
  | partialResult
  deriving DecidableEq

inductive Grouping where
  | navigation
  | path
  deriving DecidableEq

/-- Search Console figures of a page. A position that is text is none. -/
structure GscFigures where
  clicks : Int
  impressions : Int
  ctr : Rat
  position : Option Rat
  deriving DecidableEq

structure ResultPage where
  url : String
  gsc : Option GscFigures := none
  deriving DecidableEq

structure MatchedRow where
  url : String
  figures : GscFigures

/-- `matchedRows` is absent in a record saved before it was kept. -/
structure SavedPerformance where
  matchedRows : Option (List MatchedRow)

structure SavedReconciliation where
  missedPages : List String
  orphans : List String

structure PageClassificationOutput where
  pages : List ResultPage
  /-- `navigation.roots.length`. -/
  navigationRoots : Nat
  /-- `discovery.truncated`. -/
  truncated : Bool

/-- An answer, with the job it was asked for. -/
structure Fetched (β : Type) where
  jobId : String
  value : β

/-- Which of its methods a `CrawlDataAdapter` has. -/
structure Adapter where
  /-- `adapter instanceof HttpAdapter`. -/
  isHttp : Bool
  getReconciliation : Bool
  getPerformance : Bool
  reconcileScreamingFrog : Bool

/-- The calls of `loadReconciliation`. -/
inductive ReconciliationCaller where
  | selectJob
  | reconcileScreamingFrog
  deriving DecidableEq

/-- The calls of `refreshJobs`. -/
inductive RefreshCaller where
  | poller
  | deleteJob (jobId : String)
  | reconcileScreamingFrog (jobId : String)
  deriving DecidableEq

/-- A suspended call, by what it awaits. -/
inductive Awaiting where
  | getResult (jobId : String)
  | getCheckpoint (jobId : String)
  | getReconciliation (jobId : String) (caller : ReconciliationCaller)
  | loadReconciliation (jobId : String) (caller : ReconciliationCaller)
  | getPerformance (jobId : String)
  | deleteJob (jobId : String)
  | reconcileScreamingFrog (jobId : String)
  | listJobs (caller : RefreshCaller)
  | refreshJobs (caller : RefreshCaller)
  deriving DecidableEq

/-- What the operator looks at. -/
structure Screen where
  activeJobId : Option String := none
  status : JobStatus := .idle
  result : Option (Fetched PageClassificationOutput) := none
  reconciliation : Option (Fetched SavedReconciliation) := none
  /-- Of the selected job's loads that have settled, the last one failed. -/
  ownLoadFailed : Bool := false

structure CrawlStore extends Screen where
  adapter : Option Adapter
  jobs : List String := []
  error : Option String := none
  grouping : Grouping := .navigation
  includeDefaulters : Bool := false
  lastPollError : Option String := none
  pending : List Awaiting := []

inductive CrawlEvent where
  | selectJob (jobId : String)
  | loadCheckpoint (jobId : String)
  | deleteJob (jobId : String)
  | reconcileScreamingFrog (jobId : String)
  | refreshJobs
  | setGrouping (grouping : Grouping)
  | toggleIncludeDefaulters
  | gotResult (jobId : String) (answer : Except String PageClassificationOutput)
  | gotCheckpoint (jobId : String) (answer : Except String PageClassificationOutput)
  | gotReconciliation (jobId : String) (caller : ReconciliationCaller)
      (answer : Except String (Option SavedReconciliation))
  | loadedReconciliation (jobId : String) (caller : ReconciliationCaller)
  | gotPerformance (jobId : String) (answer : Except String (Option SavedPerformance))
  | deletedJob (jobId : String) (answer : Except String Unit)
  | reconciledScreamingFrog (jobId : String) (answer : Except String Unit)
  | gotJobs (caller : RefreshCaller) (answer : Except String (List String))
  | refreshedJobs (caller : RefreshCaller)

/-- The pages with the figures of the first row that names them. -/
def enrichPages (rows : List MatchedRow) (pages : List ResultPage) : List ResultPage :=
  pages.map fun page =>
    match rows.find? fun row => row.url = page.url with
    | none => page
    | some row => { page with gsc := some row.figures }

namespace CrawlStore

def await (s : CrawlStore) (call : Awaiting) : CrawlStore :=
  { s with pending := call :: s.pending }

/-- The cleared view under a new label, with its load under way. -/
def select (s : CrawlStore) (jobId : String) : CrawlStore :=
  { s with
    activeJobId := some jobId
    status := .running
    error := none
    result := none
    reconciliation := none
    includeDefaulters := false
    ownLoadFailed := false }

/-- A load of `jobId` has settled. -/
def noteLoad (s : CrawlStore) (jobId : String) (failed : Bool) : CrawlStore :=
  if s.activeJobId = some jobId then { s with ownLoadFailed := failed } else s

def selectJob (s : CrawlStore) (jobId : String) : CrawlStore :=
  match s.adapter with
  | none => s
  | some _ => (s.select jobId).await (.getResult jobId)

def loadCheckpoint (s : CrawlStore) (jobId : String) : CrawlStore :=
  match s.adapter with
  | none => s
  | some adapter =>
    if adapter.isHttp then (s.select jobId).await (.getCheckpoint jobId) else s

def deleteJob (s : CrawlStore) (jobId : String) : CrawlStore :=
  match s.adapter with
  | none => s
  | some adapter => if adapter.isHttp then s.await (.deleteJob jobId) else s

def reconcileScreamingFrog (s : CrawlStore) (jobId : String) : CrawlStore :=
  match s.adapter with
  | some ⟨_, _, _, true⟩ => s.await (.reconcileScreamingFrog jobId)
  | _ => { s with error := some "This data source cannot reconcile against Screaming Frog." }

def refreshJobs (s : CrawlStore) (caller : RefreshCaller) : CrawlStore :=
  match s.adapter with
  | none => s.await (.refreshJobs caller)
  | some _ => s.await (.listJobs caller)

/-- Up to the first `await`. Its callers `await` the call in turn. -/
def loadReconciliation (s : CrawlStore) (jobId : String) (caller : ReconciliationCaller) :
    CrawlStore :=
  match s.adapter with
  | some ⟨_, true, _, _⟩ => s.await (.getReconciliation jobId caller)
  | _ => s.await (.loadReconciliation jobId caller)

def loadPerformance (s : CrawlStore) (jobId : String) : CrawlStore :=
  match s.adapter with
  | some ⟨_, _, true, _⟩ => s.await (.getPerformance jobId)
  | _ => s

/-- `selectJob` after `await adapter.getResult(jobId)`. -/
def gotResult (s : CrawlStore) (jobId : String) :
    Except String PageClassificationOutput → CrawlStore
  | .ok result =>
    ({ s.noteLoad jobId false with
      result := some ⟨jobId, result⟩
      grouping := if 0 < result.navigationRoots then s.grouping else .path
      status := if result.truncated then .partialResult else .succeeded }).loadReconciliation
        jobId .selectJob
  | .error cause => { s.noteLoad jobId true with status := .failed, error := some cause }

/-- `loadCheckpoint` after `await adapter.getCheckpoint(jobId)`. -/
def gotCheckpoint (s : CrawlStore) (jobId : String) :
    Except String PageClassificationOutput → CrawlStore
  | .ok result =>
    { s.noteLoad jobId false with
      result := some ⟨jobId, result⟩
      status := .partialResult
      grouping := .path }
  | .error cause => { s.noteLoad jobId true with status := .failed, error := some cause }

/-- `loadReconciliation` after its `await`, and the return to its caller. -/
def gotReconciliation (s : CrawlStore) (jobId : String) (caller : ReconciliationCaller)
    (answer : Except String (Option SavedReconciliation)) : CrawlStore :=
  let s := if s.activeJobId = some jobId then
      { s with reconciliation := answer.toOption.join.map fun saved => ⟨jobId, saved⟩ }
    else s
  s.await (.loadReconciliation jobId caller)

/-- What a caller does after `await loadReconciliation(get, adapter, jobId)`. -/
def loadedReconciliation (s : CrawlStore) (jobId : String) : ReconciliationCaller → CrawlStore
  | .selectJob => s.loadPerformance jobId
  | .reconcileScreamingFrog => s

/-- `loadPerformance` after its `await`. -/
def gotPerformance (s : CrawlStore) (jobId : String)
    (answer : Except String (Option SavedPerformance)) : CrawlStore :=
  match answer.toOption.join.bind SavedPerformance.matchedRows with
  | none => s
  | some rows =>
    if s.activeJobId = some jobId then
      { s with
        result := s.result.map fun shown =>
          { shown with
            value := { shown.value with pages := enrichPages rows shown.value.pages } } }
    else s

/-- `refreshJobs` after its `await`, and the return to its caller. -/
def gotJobs (s : CrawlStore) (caller : RefreshCaller) : Except String (List String) → CrawlStore
  | .ok jobs =>
    let stale := s.lastPollError.isSome ∧ s.error = s.lastPollError
    ({ s with
      jobs
      error := if stale then none else s.error
      lastPollError := none }).await (.refreshJobs caller)
  | .error cause =>
    ({ s with error := some cause, lastPollError := some cause }).await (.refreshJobs caller)

/-- What a caller does after `await get().refreshJobs()`. -/
def refreshedJobs (s : CrawlStore) : RefreshCaller → CrawlStore
  | .poller => s
  | .deleteJob jobId =>
    if s.activeJobId = some jobId then
      { s with
        activeJobId := none
        status := .idle
        result := none
        reconciliation := none
        ownLoadFailed := false }
    else s
  | .reconcileScreamingFrog jobId =>
    if s.activeJobId = some jobId then s.loadReconciliation jobId .reconcileScreamingFrog else s

/-- A suspended call goes on. -/
def resume (s : CrawlStore) (call : Awaiting) (next : CrawlStore → CrawlStore) :
    Option CrawlStore :=
  if call ∈ s.pending then some (next { s with pending := s.pending.erase call }) else none

def step (s : CrawlStore) : CrawlEvent → Option CrawlStore
  | .selectJob jobId => some (s.selectJob jobId)
  | .loadCheckpoint jobId => some (s.loadCheckpoint jobId)
  | .deleteJob jobId => some (s.deleteJob jobId)
  | .reconcileScreamingFrog jobId => some (s.reconcileScreamingFrog jobId)
  | .refreshJobs => some (s.refreshJobs .poller)
  | .setGrouping grouping => some { s with grouping }
  | .toggleIncludeDefaulters => some { s with includeDefaulters := !s.includeDefaulters }
  | .gotResult jobId answer => s.resume (.getResult jobId) fun s => s.gotResult jobId answer
  | .gotCheckpoint jobId answer =>
    s.resume (.getCheckpoint jobId) fun s => s.gotCheckpoint jobId answer
  | .gotReconciliation jobId caller answer =>
    s.resume (.getReconciliation jobId caller) fun s => s.gotReconciliation jobId caller answer
  | .loadedReconciliation jobId caller =>
    s.resume (.loadReconciliation jobId caller) fun s => s.loadedReconciliation jobId caller
  | .gotPerformance jobId answer =>
    s.resume (.getPerformance jobId) fun s => s.gotPerformance jobId answer
  | .deletedJob jobId answer =>
    s.resume (.deleteJob jobId) fun s =>
      if answer.isOk then s.refreshJobs (.deleteJob jobId) else s
  | .reconciledScreamingFrog jobId answer =>
    s.resume (.reconcileScreamingFrog jobId) fun s =>
      match answer with
      | .ok () => s.refreshJobs (.reconcileScreamingFrog jobId)
      | .error cause => { s with error := some cause }
  | .gotJobs caller answer => s.resume (.listJobs caller) fun s => s.gotJobs caller answer
  | .refreshedJobs caller => s.resume (.refreshJobs caller) fun s => s.refreshedJobs caller

theorem resume_eq_some {s t : CrawlStore} {call : Awaiting} {next : CrawlStore → CrawlStore} :
    s.resume call next = some t ↔
      call ∈ s.pending ∧ next { s with pending := s.pending.erase call } = t := by
  rw [resume]
  split
  · next mem => simp [mem]
  · next absent => simp [absent]

end CrawlStore

/-- What is on screen belongs to the selected job. -/
structure Screen.OfSelected (screen : Screen) : Prop where
  result : ∀ shown, screen.result = some shown → screen.activeJobId = some shown.jobId
  reconciliation : ∀ shown, screen.reconciliation = some shown →
    screen.activeJobId = some shown.jobId
  failed : screen.status = .failed → screen.ownLoadFailed = true

/-- The status also tells when the selected job's own load has failed. -/
structure Screen.InStep (screen : Screen) : Prop extends screen.OfSelected where
  reported : screen.ownLoadFailed = true → screen.status = .failed

namespace Screen

variable {screen : Screen}

theorem inStep_of_cleared (result : screen.result = none)
    (reconciliation : screen.reconciliation = none) (status : screen.status ≠ .failed)
    (ownLoadFailed : screen.ownLoadFailed = false) : screen.InStep where
  result := by
    intro shown h
    rw [result] at h
    cases h
  reconciliation := by
    intro shown h
    rw [reconciliation] at h
    cases h
  failed := fun h => absurd h status
  reported := by
    intro h
    rw [ownLoadFailed] at h
    cases h

theorem InStep.of_load {next : Screen} (h : screen.InStep)
    (active : next.activeJobId = screen.activeJobId)
    (reconciliation : next.reconciliation = screen.reconciliation)
    (result : ∀ shown, next.result = some shown →
      screen.result = some shown ∨ screen.activeJobId = some shown.jobId)
    (status : next.status = .failed ↔ next.ownLoadFailed = true) : next.InStep where
  result := by
    intro shown shows
    rw [active]
    obtain kept | selected := result shown shows
    · exact h.result shown kept
    · exact selected
  reconciliation := by
    intro shown shows
    rw [active]
    exact h.reconciliation shown (reconciliation ▸ shows)
  failed := status.mp
  reported := status.mpr

end Screen

namespace CrawlStore

/-- A load of `jobId` settles while its job is selected, or fails under a
selected job whose own load has failed already. -/
def MaySettle (s : CrawlStore) (jobId : String)
    (answer : Except String PageClassificationOutput) : Prop :=
  s.activeJobId = some jobId ∨ answer.isOk = false ∧ s.status = .failed

/-- The loads that do not look at the selection again settle in time. -/
def SettlesSelected (s : CrawlStore) : CrawlEvent → Prop
  | .gotResult jobId answer => .getResult jobId ∈ s.pending → s.MaySettle jobId answer
  | .gotCheckpoint jobId answer => .getCheckpoint jobId ∈ s.pending → s.MaySettle jobId answer
  | _ => True

section Screens

variable {s : CrawlStore} {jobId : String} {caller : ReconciliationCaller}

@[simp] theorem await_toScreen (call : Awaiting) : (s.await call).toScreen = s.toScreen := rfl

@[simp] theorem refreshJobs_toScreen (caller : RefreshCaller) :
    (s.refreshJobs caller).toScreen = s.toScreen := by
  rw [refreshJobs]
  split
  · rfl
  · rfl

@[simp] theorem deleteJob_toScreen : (s.deleteJob jobId).toScreen = s.toScreen := by
  rw [deleteJob]
  split
  · rfl
  · split
    · rfl
    · rfl

@[simp] theorem reconcileScreamingFrog_toScreen :
    (s.reconcileScreamingFrog jobId).toScreen = s.toScreen := by
  rw [reconcileScreamingFrog]
  split
  · rfl
  · rfl

@[simp] theorem loadReconciliation_toScreen :
    (s.loadReconciliation jobId caller).toScreen = s.toScreen := by
  rw [loadReconciliation]
  split
  · rfl
  · rfl

@[simp] theorem loadPerformance_toScreen : (s.loadPerformance jobId).toScreen = s.toScreen := by
  rw [loadPerformance]
  split
  · rfl
  · rfl

@[simp] theorem loadedReconciliation_toScreen :
    (s.loadedReconciliation jobId caller).toScreen = s.toScreen := by
  cases caller with
  | selectJob => exact loadPerformance_toScreen
  | reconcileScreamingFrog => rfl

@[simp] theorem gotJobs_toScreen (caller : RefreshCaller) (answer : Except String (List String)) :
    (s.gotJobs caller answer).toScreen = s.toScreen := by
  cases answer with
  | ok jobs => rfl
  | error cause => rfl

@[simp] theorem noteLoad_of_selected (selected : s.activeJobId = some jobId) (failed : Bool) :
    s.noteLoad jobId failed = { s with ownLoadFailed := failed } := if_pos selected

@[simp] theorem noteLoad_of_not_selected (other : s.activeJobId ≠ some jobId) (failed : Bool) :
    s.noteLoad jobId failed = s := if_neg other

end Screens

section Keeping

variable {s : CrawlStore} {jobId : String}
variable {answer : Except String PageClassificationOutput}

theorem inStep_select : (s.select jobId).InStep :=
  Screen.inStep_of_cleared rfl rfl (by rintro ⟨⟩) rfl

theorem inStep_selectJob (h : s.InStep) : (s.selectJob jobId).InStep := by
  rw [selectJob]
  split
  · exact h
  · exact inStep_select (s := s)

theorem inStep_loadCheckpoint (h : s.InStep) : (s.loadCheckpoint jobId).InStep := by
  rw [loadCheckpoint]
  split
  · exact h
  · split
    · exact inStep_select (s := s)
    · exact h

@[simp] theorem noteLoad_activeJobId (failed : Bool) :
    (s.noteLoad jobId failed).activeJobId = s.activeJobId := by
  rw [noteLoad]
  split
  · rfl
  · rfl

@[simp] theorem noteLoad_reconciliation (failed : Bool) :
    (s.noteLoad jobId failed).reconciliation = s.reconciliation := by
  rw [noteLoad]
  split
  · rfl
  · rfl

@[simp] theorem noteLoad_result (failed : Bool) : (s.noteLoad jobId failed).result = s.result := by
  rw [noteLoad]
  split
  · rfl
  · rfl

theorem inStep_of_loaded (h : s.InStep) (selected : s.activeJobId = some jobId)
    {result : PageClassificationOutput} {status : JobStatus} (succeeded : status ≠ .failed) :
    Screen.InStep
      { (s.noteLoad jobId false).toScreen with result := some ⟨jobId, result⟩, status } := by
  refine h.of_load (noteLoad_activeJobId _) (noteLoad_reconciliation _) ?_ ?_
  · rintro shown ⟨⟩
    exact Or.inr selected
  · simp [succeeded, noteLoad_of_selected selected]

theorem inStep_of_failed (h : s.InStep) (timely : s.activeJobId = some jobId ∨ s.status = .failed) :
    Screen.InStep { (s.noteLoad jobId true).toScreen with status := .failed } := by
  refine h.of_load (noteLoad_activeJobId _) (noteLoad_reconciliation _) ?_ ?_
  · intro shown shows
    exact Or.inl ((noteLoad_result true).symm.trans shows)
  · by_cases selected : s.activeJobId = some jobId
    · simp [noteLoad_of_selected selected]
    · have failed : s.status = .failed := timely.resolve_left selected
      simp [noteLoad_of_not_selected selected, h.failed failed]

theorem inStep_gotResult (h : s.InStep) (timely : s.MaySettle jobId answer) :
    (s.gotResult jobId answer).InStep := by
  cases answer with
  | ok result =>
    have selected : s.activeJobId = some jobId :=
      timely.resolve_right (by rintro ⟨⟨⟩, -⟩)
    rw [gotResult, loadReconciliation_toScreen]
    refine inStep_of_loaded h selected ?_
    split
    · rintro ⟨⟩
    · rintro ⟨⟩
  | error cause => exact inStep_of_failed h (timely.imp_right And.right)

theorem inStep_gotCheckpoint (h : s.InStep) (timely : s.MaySettle jobId answer) :
    (s.gotCheckpoint jobId answer).InStep := by
  cases answer with
  | ok result =>
    have selected : s.activeJobId = some jobId :=
      timely.resolve_right (by rintro ⟨⟨⟩, -⟩)
    exact inStep_of_loaded h selected (by rintro ⟨⟩)
  | error cause => exact inStep_of_failed h (timely.imp_right And.right)

theorem inStep_gotReconciliation {caller : ReconciliationCaller}
    {answer : Except String (Option SavedReconciliation)} (h : s.InStep) :
    (s.gotReconciliation jobId caller answer).InStep := by
  rw [gotReconciliation, await_toScreen]
  split
  · next selected =>
    refine { h with reconciliation := fun shown shows => ?_ }
    obtain ⟨saved, -, rfl⟩ := Option.map_eq_some_iff.mp shows
    exact selected
  · exact h

theorem inStep_gotPerformance {answer : Except String (Option SavedPerformance)}
    (h : s.InStep) : (s.gotPerformance jobId answer).InStep := by
  rw [gotPerformance]
  split
  · exact h
  · split
    · refine { h with result := fun shown shows => ?_ }
      obtain ⟨before, had, rfl⟩ := Option.map_eq_some_iff.mp shows
      exact h.result before had
    · exact h

theorem inStep_refreshedJobs {caller : RefreshCaller} (h : s.InStep) :
    (s.refreshedJobs caller).InStep := by
  cases caller with
  | poller => exact h
  | deleteJob jobId =>
    rw [refreshedJobs]
    split
    · exact Screen.inStep_of_cleared rfl rfl (by rintro ⟨⟩) rfl
    · exact h
  | reconcileScreamingFrog jobId =>
    rw [refreshedJobs]
    split
    · rw [loadReconciliation_toScreen]
      exact h
    · exact h

end Keeping

section Runs

variable {s t : CrawlStore} {event : CrawlEvent}

theorem inStep_step (h : s.InStep) (settles : s.SettlesSelected event)
    (hstep : s.step event = some t) : t.InStep := by
  cases event with
  | selectJob jobId =>
    cases hstep
    exact inStep_selectJob h
  | loadCheckpoint jobId =>
    cases hstep
    exact inStep_loadCheckpoint h
  | deleteJob jobId =>
    cases hstep
    rw [deleteJob_toScreen]
    exact h
  | reconcileScreamingFrog jobId =>
    cases hstep
    rw [reconcileScreamingFrog_toScreen]
    exact h
  | refreshJobs =>
    cases hstep
    rw [refreshJobs_toScreen]
    exact h
  | setGrouping grouping =>
    cases hstep
    exact h
  | toggleIncludeDefaulters =>
    cases hstep
    exact h
  | gotResult jobId answer =>
    rw [step, resume_eq_some] at hstep
    obtain ⟨waits, rfl⟩ := hstep
    exact inStep_gotResult h (settles waits)
  | gotCheckpoint jobId answer =>
    rw [step, resume_eq_some] at hstep
    obtain ⟨waits, rfl⟩ := hstep
    exact inStep_gotCheckpoint h (settles waits)
  | gotReconciliation jobId caller answer =>
    rw [step, resume_eq_some] at hstep
    obtain ⟨-, rfl⟩ := hstep
    exact inStep_gotReconciliation h
  | loadedReconciliation jobId caller =>
    rw [step, resume_eq_some] at hstep
    obtain ⟨-, rfl⟩ := hstep
    rw [loadedReconciliation_toScreen]
    exact h
  | gotPerformance jobId answer =>
    rw [step, resume_eq_some] at hstep
    obtain ⟨-, rfl⟩ := hstep
    exact inStep_gotPerformance h
  | deletedJob jobId answer =>
    rw [step, resume_eq_some] at hstep
    obtain ⟨-, rfl⟩ := hstep
    split
    · rw [refreshJobs_toScreen]
      exact h
    · exact h
  | reconciledScreamingFrog jobId answer =>
    rw [step, resume_eq_some] at hstep
    obtain ⟨-, rfl⟩ := hstep
    split
    · rw [refreshJobs_toScreen]
      exact h
    · exact h
  | gotJobs caller answer =>
    rw [step, resume_eq_some] at hstep
    obtain ⟨-, rfl⟩ := hstep
    rw [gotJobs_toScreen]
    exact h
  | refreshedJobs caller =>
    rw [step, resume_eq_some] at hstep
    obtain ⟨-, rfl⟩ := hstep
    exact inStep_refreshedJobs h

theorem maySettle_of_failed {jobId cause : String} (h : s.InStep)
    (shown : Screen.OfSelected { (s.noteLoad jobId true).toScreen with status := .failed }) :
    s.MaySettle jobId (.error cause) := by
  by_cases selected : s.activeJobId = some jobId
  · exact Or.inl selected
  · refine Or.inr ⟨rfl, h.reported ?_⟩
    have own := shown.failed rfl
    rwa [noteLoad_of_not_selected selected] at own

theorem maySettle_of_gotResult {jobId : String} {answer : Except String PageClassificationOutput}
    (h : s.InStep) (shown : (s.gotResult jobId answer).OfSelected) :
    s.MaySettle jobId answer := by
  cases answer with
  | ok result =>
    rw [gotResult, loadReconciliation_toScreen] at shown
    exact Or.inl ((noteLoad_activeJobId _).symm.trans (shown.result _ rfl))
  | error cause => exact maySettle_of_failed h shown

theorem maySettle_of_gotCheckpoint {jobId : String}
    {answer : Except String PageClassificationOutput} (h : s.InStep)
    (shown : (s.gotCheckpoint jobId answer).OfSelected) : s.MaySettle jobId answer := by
  cases answer with
  | ok result => exact Or.inl ((noteLoad_activeJobId _).symm.trans (shown.result _ rfl))
  | error cause => exact maySettle_of_failed h shown

theorem settlesSelected_of_ofSelected (h : s.InStep) (hstep : s.step event = some t)
    (shown : t.OfSelected) : s.SettlesSelected event := by
  cases event with
  | gotResult jobId answer =>
    intro _
    rw [step, resume_eq_some] at hstep
    obtain ⟨-, rfl⟩ := hstep
    exact maySettle_of_gotResult (s := { s with pending := s.pending.erase (.getResult jobId) })
      h shown
  | gotCheckpoint jobId answer =>
    intro _
    rw [step, resume_eq_some] at hstep
    obtain ⟨-, rfl⟩ := hstep
    exact maySettle_of_gotCheckpoint
      (s := { s with pending := s.pending.erase (.getCheckpoint jobId) }) h shown
  | _ => trivial

theorem settlesSelected_of_step_eq_none (h : s.step event = none) : s.SettlesSelected event := by
  cases event with
  | gotResult jobId answer =>
    intro waits
    rw [step, resume, if_pos waits] at h
    cases h
  | gotCheckpoint jobId answer =>
    intro waits
    rw [step, resume, if_pos waits] at h
    cases h
  | _ => trivial

end Runs

end CrawlStore

/-- The store as its calls and the promises they wait for move it. -/
def crawlScreen : Machine CrawlStore CrawlEvent := ⟨CrawlStore.step⟩

namespace CrawlStore

/-- **What is on screen belongs to the selected job unless a load outlives its
selection.** In every run of a store that has loaded its list of jobs, over any
adapter, a result and a cross-check that are shown were fetched for the selected
job, and a failure that is shown is its own load's, exactly when every result and
checkpoint settles while its job is selected, or fails where the status tells of a
failure already. -/
theorem always_ofSelected_iff_settles (adapter : Option Adapter) (jobs : List String)
    (run : List CrawlEvent) :
    crawlScreen.Always (fun s => s.OfSelected) { adapter, jobs } run ↔
      crawlScreen.Meets SettlesSelected { adapter, jobs } run :=
  Machine.always_iff_meets_of_invariant (I := fun s => s.InStep) (fun _ _ _ => inStep_step)
    (fun _ h => h.toOfSelected) (fun _ _ _ => settlesSelected_of_ofSelected)
    (fun _ _ => settlesSelected_of_step_eq_none)
    (Screen.inStep_of_cleared rfl rfl (by rintro ⟨⟩) rfl)

/-- Two jobs are selected in turn, and the first one's result arrives last. -/
def sampleSelections : List CrawlEvent :=
  [.selectJob "a", .selectJob "b", .gotResult "b" (.ok ⟨[], 1, false⟩),
    .gotResult "a" (.ok ⟨[], 1, false⟩)]

/-- The second job's label is over the first one's result. -/
theorem shows_earlier_selection : ¬crawlScreen.Always (fun s => s.OfSelected)
      { adapter := some ⟨true, true, true, true⟩, jobs := ["a", "b"] } sampleSelections := by
  intro always
  have mixed : (crawlScreen.run
      { adapter := some ⟨true, true, true, true⟩, jobs := ["a", "b"] } sampleSelections).any
      fun s => s.activeJobId = some "b" && s.result.any fun shown => shown.jobId = "a" := by
    decide
  obtain ⟨s, hs, mixed⟩ := (Option.any_eq_true _ _).mp mixed
  rw [Bool.and_eq_true, decide_eq_true_iff] at mixed
  obtain ⟨shown, shows, first⟩ := (Option.any_eq_true _ _).mp mixed.2
  have selected := (always.last hs).result shown shows
  rw [mixed.1, of_decide_eq_true first] at selected
  exact absurd selected (by decide)

end CrawlStore

end Rankuno.Dashboard
