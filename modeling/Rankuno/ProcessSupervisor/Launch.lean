import Rankuno.Foundation.Effects
import Rankuno.ProcessSupervisor.Supervision

/-!
# A launch whose calls may fail

`launch_supervised` once `CreateProcess` has returned a suspended child: it reads two creation
times, writes the ledger, makes a job object and assigns the child to it, writes the ledger
again and resumes the child. Which of these calls raises, and what, is a parameter. A write of
the ledger that raises leaves the file as it was, and one that cannot be read counts as one
without entries. The job object ends its processes with its last handle, so a child that was
assigned does not outlive an exception for long; its entry does.

A launch is all or nothing exactly where what fails is caught, `Covered`: nothing, or a
`pywin32` error of the job object with no failure in the cleanup.
-/

namespace Rankuno

/-- The exceptions of a launch. -/
inductive LaunchError where
  /-- `pywintypes.error`. -/
  | win32
  | os
  /-- `ProcessSupervisorError`. -/
  | supervisor
  deriving DecidableEq

/-- The calls after the child exists, in the order of the source. -/
inductive LaunchCall where
  | childTimes
  | supervisorTimes
  | enrolRead
  | enrolWrite
  | createJobObject
  | queryJobObject
  | setJobObject
  | assignProcess
  | terminateProcess
  | removeRead
  | removeWrite
  | closeThreadOfFailed
  | closeProcessOfFailed
  | recordRead
  | recordWrite
  | resumeThread
  | closeThread
  deriving DecidableEq

/-- What a call raises. -/
inductive LaunchFault where
  | win32
  | os
  deriving DecidableEq

def LaunchFault.error : LaunchFault → LaunchError
  | win32 => .win32
  | os => .os

/-- The calls that raise. -/
abbrev LaunchFaults := LaunchCall → Option LaunchFault

/-- The child, and the file. -/
structure LaunchState where
  ledger : Ledger
  /-- The job object the child was assigned to. -/
  jobObject : Option String := none
  resumed : Bool := false
  terminated : Bool := false

abbrev LaunchEffect := Effect LaunchState LaunchError

section Source

variable (faults : LaunchFaults)

/-- A call that does nothing to the child or to the file. -/
def attempt (call : LaunchCall) : LaunchEffect Unit :=
  match faults call with
  | none => pure ()
  | some fault => Effect.raise fault.error

/-- `read_ledger`, which answers an `OSError` itself. -/
def attemptRead (call : LaunchCall) : LaunchEffect Ledger :=
  match faults call with
  | none => Effect.read LaunchState.ledger
  | some .os => pure .empty
  | some .win32 => Effect.raise .win32

/-- `upsert_entry`. -/
def upsertEntry (read write : LaunchCall) (jobId : String) (entry : LedgerEntry) :
    LaunchEffect Unit := do
  let entries ← attemptRead faults read
  attempt faults write
  Effect.update fun s => { s with ledger := entries.put ⟨jobId, entry⟩ }

/-- `remove_entry`. -/
def removeEntry (jobId : String) : LaunchEffect Unit := do
  let entries ← attemptRead faults .removeRead
  if (entries.find? jobId).isSome then
    attempt faults .removeWrite
    Effect.update fun s => { s with ledger := entries.delete fun row => row.jobId = jobId }
  else pure ()

/-- The `try` block: a job object with the child in it. -/
def assignJobObject (jobId : String) : LaunchEffect Unit := do
  attempt faults .createJobObject
  attempt faults .queryJobObject
  attempt faults .setJobObject
  attempt faults .assignProcess
  Effect.update fun s => { s with jobObject := some (jobObjectName jobId) }

/-- The handler of the `try` block, for `pywintypes.error` alone. -/
def abandon (jobId : String) : LaunchError → LaunchEffect Unit
  | .win32 => do
      attempt faults .terminateProcess
      Effect.update fun s => { s with terminated := true }
      removeEntry faults jobId
      attempt faults .closeThreadOfFailed
      attempt faults .closeProcessOfFailed
      Effect.raise .supervisor
  | e => Effect.raise e

variable (supervisor child : ProcessIdentity) (jobId : String)

/-- From the child to its first entry. -/
def enrolChild : LaunchEffect Unit := do
  attempt faults .childTimes
  attempt faults .supervisorTimes
  upsertEntry faults .enrolRead .enrolWrite jobId (launchEntry supervisor child none)

/-- From the assignment to the process handed back. -/
def startChild : LaunchEffect SupervisedProcess := do
  upsertEntry faults .recordRead .recordWrite jobId
    (launchEntry supervisor child (some (jobObjectName jobId)))
  attempt faults .resumeThread
  Effect.update fun s => { s with resumed := true }
  attempt faults .closeThread
  return ⟨supervisor, jobId, child⟩

/-- `launch_supervised`, from the creation of the child on. -/
def launchChild : LaunchEffect SupervisedProcess := do
  enrolChild faults supervisor child jobId
  (assignJobObject faults jobId).rescue (abandon faults jobId)
  startChild faults supervisor child jobId

end Source

/-- What a launch may leave: a process that runs in its job object under an entry that says
so, or else a child that was terminated and has no entry. -/
def AllOrNothing (child : ProcessIdentity) (jobId : String) :
    Except LaunchError SupervisedProcess → LaunchState → Prop
  | .ok handle, s => handle.child = child ∧ handle.jobId = jobId ∧ s.resumed = true ∧
      s.terminated = false ∧ s.jobObject = some (jobObjectName jobId) ∧
      ∃ row ∈ s.ledger.rows, row.jobId = jobId ∧ row.entry.Describes child ∧
        row.entry.jobObjectName = some (jobObjectName jobId)
  | .error _, s => s.terminated = true ∧ ¬s.ledger.Tells child

/-- The first of the calls that raises, if any does. -/
def firstFault (faults : LaunchFaults) (calls : List LaunchCall) : Option LaunchFault :=
  calls.findSome? faults

def LaunchCall.ofJobObject : List LaunchCall :=
  [.createJobObject, .queryJobObject, .setJobObject, .assignProcess]

/-- The child gets its first entry. -/
structure Enrols (faults : LaunchFaults) : Prop where
  childTimes : faults .childTimes = none
  supervisorTimes : faults .supervisorTimes = none
  read : faults .enrolRead ≠ some .win32
  write : faults .enrolWrite = none

/-- Nothing fails after the assignment. -/
structure Starts (faults : LaunchFaults) : Prop where
  read : faults .recordRead ≠ some .win32
  write : faults .recordWrite = none
  resume : faults .resumeThread = none
  close : faults .closeThread = none

/-- Neither the termination nor the removal fails. -/
structure CleansUp (faults : LaunchFaults) : Prop where
  terminate : faults .terminateProcess = none
  read : faults .removeRead = none
  write : faults .removeWrite = none

/-- The child gets its first entry, and then nothing more fails, or only a call of the job
object does, with a `pywin32` error, and neither the termination nor the removal. -/
def Covered (faults : LaunchFaults) : Prop :=
  Enrols faults ∧ (firstFault faults LaunchCall.ofJobObject = none ∧ Starts faults ∨
    firstFault faults LaunchCall.ofJobObject = some .win32 ∧ CleansUp faults)

section Rules

open Effect

variable {faults : LaunchFaults} {s : LaunchState} {call read write : LaunchCall}
  {supervisor child : ProcessIdentity} {jobId : String} {entry : LedgerEntry}

theorem ensures_attempt : (attempt faults call).Ensures s
    (outcome (fun _ t => t = s ∧ faults call = none)
      fun e t => t = s ∧ ∃ fault, faults call = some fault ∧ e = fault.error) := by
  rw [attempt]
  cases failed : faults call with
  | none => exact ⟨rfl, rfl⟩
  | some fault => exact ⟨rfl, fault, rfl, rfl⟩

theorem ensures_attemptRead : (attemptRead faults call).Ensures s
    (outcome (fun entries t => t = s ∧ (faults call = none ∧ entries = s.ledger ∨
        faults call = some .os ∧ entries = .empty))
      fun _ t => t = s ∧ faults call = some .win32) := by
  rw [attemptRead]
  cases failed : faults call with
  | none => exact ⟨rfl, Or.inl ⟨rfl, rfl⟩⟩
  | some fault =>
    cases fault with
    | win32 => exact ⟨rfl, rfl⟩
    | os => exact ⟨rfl, Or.inr ⟨rfl, rfl⟩⟩

theorem ensures_upsertEntry : (upsertEntry faults read write jobId entry).Ensures s
    (outcome (fun _ t => faults read ≠ some .win32 ∧ faults write = none ∧
        ∃ entries, (entries = s.ledger ∨ entries = .empty) ∧
          t = { s with ledger := entries.put ⟨jobId, entry⟩ })
      fun _ t => t = s ∧ ¬(faults read ≠ some .win32 ∧ faults write = none)) := by
  refine ensures_bind ensures_attemptRead ?_ ?_
  · rintro entries _ ⟨rfl, was⟩
    have readable : faults read ≠ some .win32 := by
      obtain ⟨none, -⟩ | ⟨os, -⟩ := was
      · rw [none]; decide
      · rw [os]; decide
    refine ensures_bind ensures_attempt ?_ ?_
    · rintro _ _ ⟨rfl, quiet⟩
      exact ⟨readable, quiet, entries, was.imp And.right And.right, rfl⟩
    · rintro _ _ ⟨rfl, fault, failed, -⟩
      exact ⟨rfl, fun quiet => Option.some_ne_none _ (failed.symm.trans quiet.2)⟩
  · rintro _ _ ⟨rfl, failed⟩
    exact ⟨rfl, fun quiet => quiet.1 failed⟩

theorem ensures_enrolChild : (enrolChild faults supervisor child jobId).Ensures s
    (outcome (fun _ t => Enrols faults ∧ ∃ entries, (entries = s.ledger ∨ entries = .empty) ∧
        t = { s with ledger := entries.put ⟨jobId, launchEntry supervisor child none⟩ })
      fun _ t => t = s ∧ ¬Enrols faults) := by
  refine ensures_bind ensures_attempt ?_ ?_
  · rintro _ _ ⟨rfl, childTimes⟩
    refine ensures_bind ensures_attempt ?_ ?_
    · rintro _ _ ⟨rfl, supervisorTimes⟩
      refine (ensures_upsertEntry).mono fun r t reached => ?_
      cases r with
      | ok _ =>
        obtain ⟨read, write, written⟩ := reached
        exact ⟨⟨childTimes, supervisorTimes, read, write⟩, written⟩
      | error _ =>
        obtain ⟨same, failed⟩ := reached
        exact ⟨same, fun enrols => failed ⟨enrols.read, enrols.write⟩⟩
    · rintro _ _ ⟨rfl, fault, failed, -⟩
      exact ⟨rfl, fun enrols => Option.some_ne_none _ (failed.symm.trans enrols.supervisorTimes)⟩
  · rintro _ _ ⟨rfl, fault, failed, -⟩
    exact ⟨rfl, fun enrols => Option.some_ne_none _ (failed.symm.trans enrols.childTimes)⟩

theorem firstFault_cons {calls : List LaunchCall} :
    firstFault faults (call :: calls) = (faults call).or (firstFault faults calls) := by
  rw [firstFault, List.findSome?_cons]
  cases faults call <;> rfl

theorem ensures_attempt_bind {calls : List LaunchCall} {rest : LaunchEffect Unit} {t : LaunchState}
    (h : rest.Ensures s (outcome (fun _ u => firstFault faults calls = none ∧ u = t)
      fun e u => u = s ∧ ∃ fault, firstFault faults calls = some fault ∧ e = fault.error)) :
    (attempt faults call >>= fun _ => rest).Ensures s
      (outcome (fun _ u => firstFault faults (call :: calls) = none ∧ u = t) fun e u => u = s ∧
          ∃ fault, firstFault faults (call :: calls) = some fault ∧ e = fault.error) := by
  rw [firstFault_cons]
  refine ensures_bind ensures_attempt ?_ ?_
  · rintro _ _ ⟨rfl, quiet⟩
    rw [quiet, Option.none_or]
    exact h
  · rintro e _ ⟨rfl, fault, failed, raised⟩
    rw [failed, Option.some_or]
    exact ⟨rfl, fault, rfl, raised⟩

theorem ensures_assignJobObject : (assignJobObject faults jobId).Ensures s
    (outcome (fun _ t => firstFault faults LaunchCall.ofJobObject = none ∧
        t = { s with jobObject := some (jobObjectName jobId) })
      fun e t => t = s ∧ ∃ fault,
        firstFault faults LaunchCall.ofJobObject = some fault ∧ e = fault.error) := by
  refine ensures_attempt_bind (ensures_attempt_bind (ensures_attempt_bind
    (ensures_attempt_bind ?_)))
  exact ensures_update ⟨rfl, rfl⟩

theorem ensures_removeEntry (listed : (s.ledger.find? jobId).isSome = true) :
    (removeEntry faults jobId).Ensures s
      (outcome (fun _ t => (faults .removeRead = none ∧ faults .removeWrite = none ∧
            t = { s with ledger := s.ledger.delete fun row => row.jobId = jobId }) ∨
          faults .removeRead ≠ none ∧ t = s)
        fun _ t => t = s ∧ ¬(faults .removeRead = none ∧ faults .removeWrite = none)) := by
  refine ensures_bind ensures_attemptRead ?_ ?_
  · rintro entries _ ⟨rfl, ⟨read, rfl⟩ | ⟨failed, rfl⟩⟩
    · rw [if_pos listed]
      refine ensures_bind ensures_attempt ?_ ?_
      · rintro _ _ ⟨rfl, write⟩
        exact ensures_update (Or.inl ⟨read, write, rfl⟩)
      · rintro _ _ ⟨rfl, fault, failed, -⟩
        exact ⟨rfl, fun quiet => Option.some_ne_none _ (failed.symm.trans quiet.2)⟩
    · rw [if_neg (by simp [Table.find?, Table.empty])]
      refine ensures_pure (Or.inr ⟨?_, rfl⟩)
      rw [failed]
      exact Option.some_ne_none _
  · rintro _ _ ⟨rfl, failed⟩
    exact ⟨rfl, fun quiet => Option.some_ne_none _ (failed.symm.trans quiet.1)⟩

/-- The child is one that no entry but its own tells of. -/
def OnlyUnder (ledger : Ledger) (jobId : String) (child : ProcessIdentity) : Prop :=
  ∃ row ∈ ledger.rows, row.jobId = jobId ∧ row.entry.Describes child ∧
    ∀ other ∈ ledger.rows, other.entry.Describes child → other.jobId = jobId

variable {ledger : Ledger}

theorem onlyUnder_put (fresh : ¬ledger.Tells child)
    {entry : LedgerEntry} (describes : entry.Describes child) :
    OnlyUnder (ledger.put ⟨jobId, entry⟩) jobId child := by
  refine ⟨⟨jobId, entry⟩, Table.mem_put.mpr (Or.inr rfl), rfl, describes, ?_⟩
  intro other mem tells
  obtain ⟨listed, -⟩ | rfl := Table.mem_put.mp mem
  · exact absurd ⟨other, listed, tells⟩ fresh
  · rfl

theorem OnlyUnder.tells (h : OnlyUnder ledger jobId child) :
    ledger.Tells child := by
  obtain ⟨row, mem, -, describes, -⟩ := h
  exact ⟨row, mem, describes⟩

theorem OnlyUnder.isSome_find? (h : OnlyUnder ledger jobId child) :
    (ledger.find? jobId).isSome = true := by
  obtain ⟨row, mem, rfl, -, -⟩ := h
  rw [Table.find?_key mem]
  rfl

theorem OnlyUnder.not_tells_delete (h : OnlyUnder ledger jobId child) :
    ¬Ledger.Tells (ledger.delete fun row => row.jobId = jobId) child := by
  obtain ⟨-, -, -, -, only⟩ := h
  rintro ⟨row, mem, describes⟩
  obtain ⟨mem, other⟩ := Table.mem_delete.mp mem
  exact of_decide_eq_false other (only row mem describes)

theorem ensures_closeHandles : Ensures (α := Unit) (do
      attempt faults .closeThreadOfFailed
      attempt faults .closeProcessOfFailed
      raise .supervisor) s (outcome (fun _ _ => False) fun _ t => t = s) := by
  refine ensures_bind ensures_attempt ?_ fun _ _ raised => raised.1
  rintro _ _ ⟨rfl, -⟩
  refine ensures_bind ensures_attempt ?_ fun _ _ raised => raised.1
  rintro _ _ ⟨rfl, -⟩
  exact ensures_raise rfl

theorem ensures_abandon (told : OnlyUnder s.ledger jobId child) (fault : LaunchFault) :
    (abandon faults jobId fault.error).Ensures s
      (outcome (fun _ _ => False) fun e t => AllOrNothing child jobId (.error e) t ↔
        fault = .win32 ∧ CleansUp faults) := by
  have left {e : LaunchError} {t : LaunchState} (tells : t.ledger.Tells child)
      (fails : ¬(fault = .win32 ∧ CleansUp faults)) :
      AllOrNothing child jobId (.error e) t ↔ fault = .win32 ∧ CleansUp faults :=
    iff_of_false (fun nothing => nothing.2 tells) fails
  cases fault with
  | os => exact ensures_raise (left told.tells fun h => LaunchFault.noConfusion h.1)
  | win32 =>
    refine ensures_bind ensures_attempt ?_ ?_
    · rintro _ _ ⟨rfl, terminate⟩
      refine ensures_update_bind (ensures_bind (ensures_removeEntry told.isSome_find?) ?_ ?_)
      · rintro _ t removed
        refine ensures_closeHandles.mono fun r u raised => ?_
        cases r with
        | ok _ => exact raised
        | error e =>
          obtain rfl : u = t := raised
          obtain ⟨read, write, rfl⟩ | ⟨failed, rfl⟩ := removed
          · exact iff_of_true ⟨rfl, told.not_tells_delete⟩ ⟨rfl, terminate, read, write⟩
          · exact left told.tells fun h => failed h.2.read
      · rintro _ _ ⟨rfl, failed⟩
        exact left told.tells fun h => failed ⟨h.2.read, h.2.write⟩
    · rintro _ _ ⟨rfl, fault, failed, -⟩
      exact left told.tells fun h => Option.some_ne_none _ (failed.symm.trans h.2.terminate)

theorem ensures_assignOrAbandon (told : OnlyUnder s.ledger jobId child) :
    ((assignJobObject faults jobId).rescue (abandon faults jobId)).Ensures s
      (outcome (fun _ t => firstFault faults LaunchCall.ofJobObject = none ∧
          t = { s with jobObject := some (jobObjectName jobId) })
        fun e t => firstFault faults LaunchCall.ofJobObject ≠ none ∧
          (AllOrNothing child jobId (.error e) t ↔
            firstFault faults LaunchCall.ofJobObject = some .win32 ∧ CleansUp faults)) := by
  refine ensures_rescue ensures_assignJobObject (fun _ _ assigned => assigned) ?_
  rintro _ _ ⟨rfl, fault, failed, rfl⟩
  refine (ensures_abandon told fault).mono fun r t ended => ?_
  cases r with
  | ok _ => exact ended.elim
  | error e =>
    rw [outcome, failed, Option.some_inj]
    exact ⟨Option.some_ne_none fault, ended⟩

theorem ensures_startChild (runs : s.terminated = false)
    (assigned : s.jobObject = some (jobObjectName jobId)) :
    (startChild faults supervisor child jobId).Ensures s fun r t =>
      AllOrNothing child jobId r t ↔ Starts faults := by
  have left {e : LaunchError} {t : LaunchState} (alive : t.terminated = false)
      (fails : ¬Starts faults) : AllOrNothing child jobId (.error e) t ↔ Starts faults := by
    refine iff_of_false (fun nothing => ?_) fails
    rw [nothing.1] at alive
    cases alive
  refine ensures_bind ensures_upsertEntry ?_ ?_
  · rintro _ _ ⟨read, write, entries, -, rfl⟩
    refine ensures_bind ensures_attempt ?_ ?_
    · rintro _ _ ⟨rfl, resume⟩
      refine ensures_update_bind (ensures_bind ensures_attempt ?_ ?_)
      · rintro _ _ ⟨rfl, close⟩
        refine ensures_pure (iff_of_true ⟨rfl, rfl, rfl, runs, assigned, ?_⟩
          ⟨read, write, resume, close⟩)
        exact ⟨_, Table.mem_put.mpr (Or.inr rfl), rfl, ⟨rfl, rfl⟩, rfl⟩
      · rintro _ _ ⟨rfl, fault, failed, -⟩
        exact left runs fun h => Option.some_ne_none _ (failed.symm.trans h.close)
    · rintro _ _ ⟨rfl, fault, failed, -⟩
      exact left runs fun h => Option.some_ne_none _ (failed.symm.trans h.resume)
  · rintro _ _ ⟨rfl, failed⟩
    exact left runs fun h => failed ⟨h.read, h.write⟩

/-- **A launch is all or nothing exactly where what fails is caught.** The child is a new
process, so no entry tells of it before. -/
theorem ensures_launchChild (fresh : ¬ledger.Tells child) :
    (launchChild faults supervisor child jobId).Ensures { ledger } fun r t =>
      AllOrNothing child jobId r t ↔ Covered faults := by
  refine ensures_bind ensures_enrolChild ?_ ?_
  · rintro _ _ ⟨enrols, entries, was, rfl⟩
    have told : OnlyUnder (entries.put ⟨jobId, launchEntry supervisor child none⟩) jobId child := by
      refine onlyUnder_put ?_ ⟨rfl, rfl⟩
      obtain rfl | rfl := was
      · exact fresh
      · rintro ⟨row, mem, -⟩
        cases mem
    refine ensures_bind (ensures_assignOrAbandon told) ?_ ?_
    · rintro _ _ ⟨quiet, rfl⟩
      refine (ensures_startChild rfl rfl).mono fun r t started => started.trans ?_
      rw [Covered, quiet, and_iff_right enrols]
      exact ⟨fun starts => Or.inl ⟨rfl, starts⟩,
        fun starts => (starts.resolve_right fun h => Option.some_ne_none _ h.1.symm).2⟩
    · rintro e t ⟨failed, ended⟩
      refine ended.trans ?_
      rw [Covered, and_iff_right enrols]
      exact ⟨Or.inr, fun h => h.resolve_left fun h => failed h.1⟩
  · rintro _ _ ⟨rfl, fails⟩
    exact iff_of_false (fun nothing => Bool.noConfusion nothing.1) fun covered => fails covered.1

end Rules

section Placements

/-- **A launch is all or nothing exactly where what fails is caught.** -/
theorem allOrNothing_iff_covered (faults : LaunchFaults) (supervisor : ProcessIdentity)
    {child : ProcessIdentity} (jobId : String) {ledger : Ledger} (fresh : ¬ledger.Tells child) :
    AllOrNothing child jobId (launchChild faults supervisor child jobId { ledger }).1
        (launchChild faults supervisor child jobId { ledger }).2 ↔ Covered faults :=
  ensures_launchChild fresh

def failingAt (call : LaunchCall) (fault : LaunchFault) : LaunchFaults := fun other =>
  if other = call then some fault else none

/-- The first launch of a worker, over a ledger without entries. -/
def sampleLaunchChild (faults : LaunchFaults) :
    Except LaunchError SupervisedProcess × LaunchState :=
  launchChild faults ⟨50, 100⟩ ⟨60, 200⟩ "a" ⟨.empty, none, false, false⟩

/-- An assignment that is refused leaves nothing behind. -/
theorem allOrNothing_refused : AllOrNothing ⟨60, 200⟩ "a"
    (sampleLaunchChild (failingAt .assignProcess .win32)).1
    (sampleLaunchChild (failingAt .assignProcess .win32)).2 := by
  have fresh : ¬Ledger.Tells .empty ⟨60, 200⟩ := by decide
  refine (allOrNothing_iff_covered _ _ _ fresh).mpr ⟨⟨rfl, rfl, by decide, rfl⟩, Or.inr ⟨rfl, ?_⟩⟩
  exact ⟨rfl, rfl, rfl⟩

/-- **A first write that fails leaves the child suspended, and nobody to end it.** -/
theorem not_allOrNothing_unwritten : ¬∀ (faults : LaunchFaults) (supervisor child : ProcessIdentity)
    (jobId : String) (ledger : Ledger), ¬ledger.Tells child →
      AllOrNothing child jobId (launchChild faults supervisor child jobId { ledger }).1
        (launchChild faults supervisor child jobId { ledger }).2 := by
  intro always
  have nothing := always (failingAt .enrolWrite .os) ⟨50, 100⟩ ⟨60, 200⟩ "a" .empty (by decide)
  exact Bool.noConfusion (nothing.1 : false = true)

end Placements

end Rankuno
