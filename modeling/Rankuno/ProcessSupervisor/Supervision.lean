import Rankuno.Foundation.Machine
import Rankuno.ProcessSupervisor.Ledger

/-!
# Processes that share one ledger

Threads of any number of processes launch children, terminate them and reconcile
the ledger, all over one file. A call on the ledger reads the file, works on the
copy it read and writes the whole file back, so a machine step is one read, the
verdict on one entry, one write, or one call to the operating system in between.
The lock orders the upserts and removals of one process. It does not order those
of another process, nor a reconciliation.

The ledger should name every child from the write that first recorded it until
the child ends. It does in every state of a run exactly when no call writes back
a copy that misses such a child, `Covers`.
-/

namespace Rankuno

/-- A process the operating system runs. -/
structure OsProcess where
  identity : ProcessIdentity
  /-- The job object it was assigned to. -/
  jobObject : Option String := none
  /-- A launch has written its entry. -/
  enrolled : Bool := false
  deriving DecidableEq

namespace OsProcess

def pid (p : OsProcess) : ℕ+ := p.identity.pid

def assigned (p : OsProcess) (jobObject : String) : OsProcess :=
  { p with jobObject := some jobObject }

def recorded (p : OsProcess) : OsProcess := { p with enrolled := true }

theorem pid_assigned (jobObject : String) (p : OsProcess) : (p.assigned jobObject).pid = p.pid :=
  rfl

theorem pid_recorded (p : OsProcess) : p.recorded.pid = p.pid := rfl

end OsProcess

/-- What `launch_supervised` hands back: the handles that `owner` holds. -/
structure SupervisedProcess where
  owner : ProcessIdentity
  jobId : String
  child : ProcessIdentity
  deriving DecidableEq

/-- One thing a thread does between two points where others may run. -/
inductive SupervisorAction where
  | ledger (call : LedgerUpdate)
  | assignToJobObject (jobId : String) (child : ProcessIdentity)
  | terminateJobObject (handle : SupervisedProcess)
  | terminateProcess (child : ProcessIdentity)
  | handOver (handle : SupervisedProcess)
  deriving DecidableEq

/-- A call on the ledger between its read and its write. -/
structure OpenUpdate where
  call : LedgerUpdate
  /-- The entries it read, less those it has found to be done with. -/
  entries : Ledger
  unexamined : List LedgerRow
  deriving DecidableEq

/-- A thread, with what it still has to do after the call it is in. -/
structure SupervisorThread where
  process : ProcessIdentity
  todo : List SupervisorAction
  opened : Option OpenUpdate := none
  deriving DecidableEq

/-- The entry `launch_supervised` records, before and after the assignment. -/
def launchEntry (supervisor child : ProcessIdentity) (jobObjectName : Option String) :
    LedgerEntry where
  pid := child.pid
  processStartTime := child.startTime
  jobObjectName := jobObjectName
  supervisorPid := some supervisor.pid
  supervisorStartTime := some supervisor.startTime

/-- `launch_supervised` once the child exists. -/
def launchSupervised (supervisor : ProcessIdentity) (jobId : String) (child : ProcessIdentity) :
    List SupervisorAction :=
  [.ledger (.upsert jobId (launchEntry supervisor child none)), .assignToJobObject jobId child,
    .ledger (.upsert jobId (launchEntry supervisor child (some (jobObjectName jobId)))),
    .handOver ⟨supervisor, jobId, child⟩]

/-- The handler of `launch_supervised` for a failed assignment. -/
def abandonLaunch (jobId : String) (child : ProcessIdentity) : List SupervisorAction :=
  [.terminateProcess child, .ledger (.remove jobId)]

/-- `SupervisedProcess.terminate`. -/
def SupervisedProcess.terminate (handle : SupervisedProcess) : List SupervisorAction :=
  [.terminateJobObject handle, .ledger (.remove handle.jobId)]

structure SupervisionState where
  ledger : Ledger
  processes : Table ℕ+ OsProcess.pid
  threads : List SupervisorThread
  handles : List SupervisedProcess
  deriving DecidableEq

inductive SupervisionEvent where
  /-- A process of the engine, or any other, starts. -/
  | start (process : ProcessIdentity)
  | exit (pid : ℕ+)
  /-- `CreateProcess` in a thread of `supervisor` returns `child`. -/
  | launch (supervisor : ProcessIdentity) (jobId : String) (child : ProcessIdentity)
  | terminate (handle : SupervisedProcess)
  | reconcile (process : ProcessIdentity)
  | read (thread : Nat) (fails : Bool)
  | examine (thread : Nat) (jobOpens : Bool) (treeKilled : List ℕ+)
  | write (thread : Nat)
  | act (thread : Nat) (fails : Bool)
  deriving DecidableEq

namespace SupervisionState

/-- Before any process runs. The file is what an earlier boot left. -/
def booted (ledger : Ledger) : SupervisionState := ⟨ledger, .empty, [], []⟩

/-- The creation time of the process that holds the PID. -/
def observed (s : SupervisionState) (pid : ℕ+) : Option Timestamp :=
  (s.processes.find? pid).map fun p => p.identity.startTime

def Runs (s : SupervisionState) (p : ProcessIdentity) : Prop := s.observed p.pid = some p.startTime

instance (s : SupervisionState) (p : ProcessIdentity) : Decidable (s.Runs p) :=
  inferInstanceAs (Decidable (_ = _))

/-- The thread with this number, if its process still runs. -/
def thread? (s : SupervisionState) (i : Nat) : Option SupervisorThread :=
  (s.threads[i]?).filter fun thread => s.Runs thread.process

/-- A thread of the process is in a call that holds the lock. -/
def Locked (s : SupervisionState) (p : ProcessIdentity) : Prop :=
  ∃ thread ∈ s.threads, thread.process = p ∧ ∃ o ∈ thread.opened, o.call.locks = true

instance (s : SupervisionState) (p : ProcessIdentity) : Decidable (s.Locked p) :=
  inferInstanceAs (Decidable (∃ thread ∈ s.threads, _ ∧ ∃ o ∈ thread.opened, _))

def setThread (s : SupervisionState) (i : Nat) (thread : SupervisorThread) : SupervisionState :=
  { s with threads := s.threads.set i thread }

def spawn (s : SupervisionState) (process : ProcessIdentity) (todo : List SupervisorAction) :
    SupervisionState :=
  { s with threads := s.threads ++ [{ process, todo }] }

def kill (s : SupervisionState) (p : OsProcess → Bool) : SupervisionState :=
  { s with processes := s.processes.delete p }

/-- The child runs under a job object. -/
def assign (s : SupervisionState) (child : ProcessIdentity) (jobId : String) : SupervisionState :=
  { s with
    processes := s.processes.update (fun p => p.identity = child)
      (fun p => p.assigned (jobObjectName jobId)) (OsProcess.pid_assigned _) }

variable {s : SupervisionState}

theorem mem_assign {child : ProcessIdentity} {jobId : String}
    {p : OsProcess} : p ∈ (s.assign child jobId).processes.rows ↔ ∃ q ∈ s.processes.rows,
      (if q.identity = child then q.assigned (jobObjectName jobId) else q) = p := by
  simp [assign, Table.mem_update]

/-- The children that the entry names are recorded from now on. -/
def enrol (s : SupervisionState) (call : LedgerUpdate) : SupervisionState :=
  { s with
    processes := s.processes.update (fun p => call.Enters p.identity)
      OsProcess.recorded OsProcess.pid_recorded }

theorem mem_enrol {call : LedgerUpdate} {p : OsProcess} :
    p ∈ (s.enrol call).processes.rows ↔ ∃ q ∈ s.processes.rows,
      (if call.Enters q.identity then q.recorded else q) = p := by
  simp [enrol, Table.mem_update]

/-- The thread takes up a call on the ledger, unless it has to wait for the lock. -/
def read (s : SupervisionState) (i : Nat) (fails : Bool) : Option SupervisionState := do
  let thread ← s.thread? i
  match thread.todo, thread.opened with
  | .ledger call :: rest, none =>
    if call.locks && s.Locked thread.process then none
    else
      let entries := readLedger s.ledger fails
      let opened := { call, entries, unexamined := call.examines entries }
      some (s.setThread i { thread with todo := rest, opened := some opened })
  | _, _ => none

/-- What the verdict on an entry ends. -/
def execute (s : SupervisionState) (entry : LedgerEntry) (treeKilled : List ℕ+) :
    Verdict → SupervisionState
  | .killedViaJobObject => s.kill fun p => p.jobObject.isSome && p.jobObject = entry.jobObjectName
  | .killedViaProcessTree => s.kill fun p => treeKilled.contains p.pid
  | .supervisorAlive | .alreadyGone | .reusedOrVanished | .killFailed => s

/-- A reconciliation reaches its verdict on the next entry. -/
def examine (s : SupervisionState) (i : Nat) (jobOpens : Bool) (treeKilled : List ℕ+) :
    Option SupervisionState := do
  let thread ← s.thread? i
  let opened ← thread.opened
  match opened.unexamined with
  | [] => none
  | row :: rows =>
    let verdict := row.entry.judge s.observed jobOpens treeKilled
    let entries :=
      if verdict.survives then opened.entries
      else opened.entries.delete fun q => q.jobId = row.jobId
    let opened := { opened with entries, unexamined := rows }
    some ((s.execute row.entry treeKilled verdict).setThread i
      { thread with opened := some opened })

/-- The call a thread is in, once nothing but the write is left of it. -/
def pending? (s : SupervisionState) (i : Nat) : Option (SupervisorThread × OpenUpdate) := do
  let thread ← s.thread? i
  let opened ← thread.opened
  if opened.unexamined.isEmpty then some (thread, opened) else none

/-- The thread writes the file back and releases the lock. -/
def write (s : SupervisionState) (i : Nat) : Option SupervisionState := do
  let (thread, opened) ← s.pending? i
  let s := s.setThread i { thread with opened := none }
  if opened.call.writes opened.entries then
    some { s.enrol opened.call with ledger := opened.call.result opened.entries }
  else some s

/-- The thread calls the operating system. The processes of a job object end by
the call or else when its handle closes; the second of two threads that
terminate through one handle finds it closed and goes on to the removal. -/
def act (s : SupervisionState) (i : Nat) (fails : Bool) : Option SupervisionState := do
  let thread ← s.thread? i
  match thread.todo, thread.opened with
  | .assignToJobObject jobId child :: rest, none =>
    if fails then some (s.setThread i { thread with todo := abandonLaunch jobId child })
    else some ((s.assign child jobId).setThread i { thread with todo := rest })
  | .terminateJobObject handle :: rest, none =>
    let s :=
      if handle ∈ s.handles then
        s.kill fun p => p.jobObject = some (jobObjectName handle.jobId)
      else s
    some { s.setThread i { thread with todo := rest } with handles := s.handles.erase handle }
  | .terminateProcess child :: rest, none =>
    some ((s.kill fun p => p.identity = child).setThread i { thread with todo := rest })
  | .handOver handle :: rest, none =>
    some { s.setThread i { thread with todo := rest } with handles := s.handles ++ [handle] }
  | _, _ => none

/-- One event. A PID is given to one running process at a time. -/
def step (s : SupervisionState) : SupervisionEvent → Option SupervisionState
  | .start process =>
    (s.processes.insert? { identity := process }).map fun processes => { s with processes }
  | .exit pid => some (s.kill fun p => p.pid = pid)
  | .launch supervisor jobId child =>
    if s.Runs supervisor ∧ IsJobId jobId then
      (s.processes.insert? { identity := child }).map fun processes =>
        { s with processes }.spawn supervisor (launchSupervised supervisor jobId child)
    else none
  | .terminate handle =>
    if s.Runs handle.owner ∧ handle ∈ s.handles then
      some (s.spawn handle.owner handle.terminate)
    else none
  | .reconcile process =>
    if s.Runs process then some (s.spawn process [.ledger .reconcile]) else none
  | .read i fails => s.read i fails
  | .examine i jobOpens treeKilled => s.examine i jobOpens treeKilled
  | .write i => s.write i
  | .act i fails => s.act i fails

/-- The ledger names every child that was recorded and has not ended. -/
def Remembers (s : SupervisionState) : Prop :=
  ∀ p ∈ s.processes.rows, p.enrolled = true → s.ledger.Tells p.identity

instance (s : SupervisionState) : Decidable s.Remembers :=
  inferInstanceAs (Decidable (∀ p ∈ s.processes.rows, _))

/-- What the pending call of a thread is about to write back names every
recorded child that has not ended, other than the one whose entry it sets. -/
def Covers (s : SupervisionState) : SupervisionEvent → Prop
  | .write i => ∀ pending ∈ s.pending? i, pending.2.call.writes pending.2.entries = true →
      ∀ p ∈ s.processes.rows, p.enrolled = true → pending.2.call.Enters p.identity ∨
          (pending.2.call.leaves pending.2.entries).Tells p.identity
  | _ => True

theorem covers_write {i : Nat} {thread : SupervisorThread}
    {opened : OpenUpdate} (pending : s.pending? i = some (thread, opened)) :
    s.Covers (.write i) ↔ (opened.call.writes opened.entries = true →
      ∀ p ∈ s.processes.rows, p.enrolled = true →
        opened.call.Enters p.identity ∨ (opened.call.leaves opened.entries).Tells p.identity) := by
  constructor
  · intro covers
    exact covers (thread, opened) pending
  · intro covers other mem
    obtain rfl := Option.some.inj (pending.symm.trans mem)
    exact covers

/-- Only the write of a call changes the file, and only it records a child. -/
structure AsksNoMore (s t : SupervisionState) : Prop where
  ledger : t.ledger = s.ledger
  recorded : ∀ p ∈ t.processes.rows, p.enrolled = true →
    ∃ q ∈ s.processes.rows, q.enrolled = true ∧ q.identity = p.identity

namespace AsksNoMore

theorem refl (s : SupervisionState) : AsksNoMore s s :=
  ⟨rfl, fun p mem recorded => ⟨p, mem, recorded, rfl⟩⟩

theorem trans {s t u : SupervisionState} (h : AsksNoMore s t) (k : AsksNoMore t u) :
    AsksNoMore s u := by
  refine ⟨k.ledger.trans h.ledger, fun p mem recorded => ?_⟩
  obtain ⟨q, hq, recorded, same⟩ := k.recorded p mem recorded
  obtain ⟨r, hr, recorded, same'⟩ := h.recorded q hq recorded
  exact ⟨r, hr, recorded, same'.trans same⟩

theorem remembers {s t : SupervisionState} (h : AsksNoMore s t) (told : s.Remembers) :
    t.Remembers := by
  intro p mem recorded
  obtain ⟨q, hq, recorded, same⟩ := h.recorded p mem recorded
  rw [h.ledger, ← same]
  exact told q hq recorded

theorem of_eq {s t : SupervisionState} (ledger : t.ledger = s.ledger)
    (processes : t.processes = s.processes) : AsksNoMore s t := by
  refine ⟨ledger, fun p mem recorded => ⟨p, ?_, recorded, rfl⟩⟩
  rwa [← processes]

theorem kill (s : SupervisionState) (p : OsProcess → Bool) : AsksNoMore s (s.kill p) :=
  ⟨rfl, fun q mem recorded => ⟨q, (Table.mem_delete.mp mem).1, recorded, rfl⟩⟩

theorem assign (s : SupervisionState) (child : ProcessIdentity) (jobId : String) :
    AsksNoMore s (s.assign child jobId) := by
  refine ⟨rfl, fun p mem recorded => ?_⟩
  obtain ⟨q, hq, rfl⟩ := mem_assign.mp mem
  refine ⟨q, hq, ?_, ?_⟩
  · split at recorded <;> exact recorded
  · split <;> rfl

theorem insert {s : SupervisionState} {identity : ProcessIdentity}
    {processes : Table ℕ+ OsProcess.pid}
    (h : s.processes.insert? { identity } = some processes) :
    AsksNoMore s { s with processes } := by
  refine ⟨rfl, fun p mem recorded => ?_⟩
  obtain ⟨-, rows⟩ := Table.insert?_eq_some.mp h
  rw [rows, List.mem_append, List.mem_singleton] at mem
  obtain mem | rfl := mem
  · exact ⟨p, mem, recorded, rfl⟩
  · cases recorded

theorem execute (s : SupervisionState) (entry : LedgerEntry) (treeKilled : List ℕ+)
    (verdict : Verdict) : AsksNoMore s (s.execute entry treeKilled verdict) := by
  cases verdict with
  | killedViaJobObject => exact kill s _
  | killedViaProcessTree => exact kill s _
  | supervisorAlive | alreadyGone | reusedOrVanished | killFailed => exact refl s

end AsksNoMore

variable {s t : SupervisionState} {i : Nat} {a : SupervisionEvent}

theorem read_asksNoMore {fails : Bool}
    (h : s.read i fails = some t) : AsksNoMore s t := by
  obtain ⟨thread, -, h⟩ := Option.bind_eq_some_iff.mp h
  split at h
  · split at h
    · cases h
    · cases h
      exact .of_eq rfl rfl
  · cases h

theorem examine_asksNoMore {jobOpens : Bool}
    {treeKilled : List ℕ+} (h : s.examine i jobOpens treeKilled = some t) : AsksNoMore s t := by
  obtain ⟨thread, -, h⟩ := Option.bind_eq_some_iff.mp h
  obtain ⟨opened, -, h⟩ := Option.bind_eq_some_iff.mp h
  split at h
  · cases h
  · next row rows _ =>
    cases h
    exact (AsksNoMore.execute s row.entry treeKilled _).trans (.of_eq rfl rfl)

theorem act_asksNoMore {fails : Bool}
    (h : s.act i fails = some t) : AsksNoMore s t := by
  obtain ⟨thread, -, h⟩ := Option.bind_eq_some_iff.mp h
  split at h
  · next jobId child _ _ _ =>
    split at h
    · cases h
      exact .of_eq rfl rfl
    · cases h
      exact (AsksNoMore.assign s child jobId).trans (.of_eq rfl rfl)
  · cases h
    split
    · exact (AsksNoMore.kill s _).trans (.of_eq rfl rfl)
    · exact .of_eq rfl rfl
  · cases h
    exact (AsksNoMore.kill s _).trans (.of_eq rfl rfl)
  · cases h
    exact .of_eq rfl rfl
  · cases h

theorem step_asksNoMore
    (h : s.step a = some t) (other : ∀ i, a ≠ .write i) : AsksNoMore s t := by
  cases a with
  | start process =>
    obtain ⟨processes, inserted, rfl⟩ := Option.map_eq_some_iff.mp h
    exact .insert inserted
  | exit pid =>
    cases h
    exact .kill s _
  | launch supervisor jobId child =>
    rw [step] at h
    split at h
    · obtain ⟨processes, inserted, rfl⟩ := Option.map_eq_some_iff.mp h
      exact (AsksNoMore.insert inserted).trans (.of_eq rfl rfl)
    · cases h
  | terminate handle =>
    rw [step] at h
    split at h
    · cases h
      exact .of_eq rfl rfl
    · cases h
  | reconcile process =>
    rw [step] at h
    split at h
    · cases h
      exact .of_eq rfl rfl
    · cases h
  | read i fails => exact read_asksNoMore h
  | examine i jobOpens treeKilled => exact examine_asksNoMore h
  | act i fails => exact act_asksNoMore h
  | write i => exact absurd rfl (other i)

theorem write_eq_some (h : s.write i = some t) :
    ∃ thread opened, s.pending? i = some (thread, opened) ∧
      (opened.call.writes opened.entries = true ∧ t.ledger = opened.call.result opened.entries ∧
          t.processes = (s.enrol opened.call).processes ∨
        opened.call.writes opened.entries = false ∧ AsksNoMore s t) := by
  obtain ⟨⟨thread, opened⟩, pending, h⟩ := Option.bind_eq_some_iff.mp h
  refine ⟨thread, opened, pending, ?_⟩
  dsimp only at h
  split at h
  · next writes =>
    cases h
    exact Or.inl ⟨writes, rfl, rfl⟩
  · next quiet =>
    cases h
    exact Or.inr ⟨Bool.eq_false_iff.mpr quiet, .of_eq rfl rfl⟩

theorem remembers_write (told : s.Remembers)
    (h : s.write i = some t) : t.Remembers ↔ s.Covers (.write i) := by
  obtain ⟨thread, opened, pending, ⟨writes, ledger, processes⟩ | ⟨quiet, same⟩⟩ :=
    write_eq_some h
  · rw [covers_write pending, Remembers, ledger, processes]
    simp only [writes, forall_const, LedgerUpdate.tells_result]
    constructor
    · intro complete p mem recorded
      by_cases enters : opened.call.Enters p.identity
      · exact Or.inl enters
      · exact complete p (mem_enrol.mpr ⟨p, mem, if_neg enters⟩) recorded
    · intro covers p mem recorded
      obtain ⟨q, hq, rfl⟩ := mem_enrol.mp mem
      split
      · next enters => exact Or.inl enters
      · next others =>
        rw [if_neg others] at recorded
        exact covers q hq recorded
  · refine iff_of_true (same.remembers told) ?_
    rw [covers_write pending]
    intro writes
    rw [quiet] at writes
    cases writes

theorem remembers_step (told : s.Remembers)
    (h : s.step a = some t) : t.Remembers ↔ s.Covers a := by
  cases a with
  | write i => exact remembers_write told h
  | start | exit | launch | terminate | reconcile | read | examine | act =>
    refine iff_of_true ((step_asksNoMore h ?_).remembers told) trivial
    intro i same
    cases same

theorem covers_of_step_eq_none {s : SupervisionState}
    (h : s.step a = none) : s.Covers a := by
  cases a with
  | write i =>
    intro pending mem
    have ready : s.write i ≠ none := by
      rw [write, Option.mem_def.mp mem]
      simp only [Option.bind_eq_bind, Option.bind_some]
      split <;> exact Option.some_ne_none _
    exact absurd h ready
  | start | exit | launch | terminate | reconcile | read | examine | act => trivial

end SupervisionState

def supervision : Machine SupervisionState SupervisionEvent := ⟨SupervisionState.step⟩

namespace SupervisionState

/-- A launch that no failure interrupts, up to the handle it hands back. -/
def sampleLaunch (thread : Nat) (supervisor : ProcessIdentity) (jobId : String)
    (child : ProcessIdentity) : List SupervisionEvent :=
  [.launch supervisor jobId child, .read thread false, .write thread, .act thread false,
    .read thread false, .write thread, .act thread false]

/-- The second launch of a worker cannot read the file. -/
def sampleUnreadable : List SupervisionEvent :=
  .start ⟨10, 100⟩ :: sampleLaunch 0 ⟨10, 100⟩ "a" ⟨20, 200⟩ ++
    [.launch ⟨10, 100⟩ "b" ⟨21, 300⟩, .read 1 true, .write 1]

/-- A server starts, and reconciles while a worker launches its first child. -/
def sampleReconciliation : List SupervisionEvent :=
  [.start ⟨10, 100⟩, .start ⟨11, 150⟩, .reconcile ⟨11, 150⟩, .read 0 false] ++
    sampleLaunch 1 ⟨10, 100⟩ "a" ⟨20, 200⟩ ++ [.write 0]

end SupervisionState

end Rankuno
