import Mathlib.Data.PNat.Defs
import Rankuno.Foundation.Table
import Rankuno.Python.Text
import Rankuno.Python.Values

/-!
# The ledger of supervised processes

One file names every process the engine launched, by PID and creation time: a
PID alone is reused as soon as its holder exits. This module has the entries,
what a read, an upsert, a removal and a reconciliation make of the file, and the
verdict a reconciliation reaches on each entry. What the operating system answers
is a parameter of the verdict: the creation time of the process that holds a PID
now, whether the job object can be reopened, and which processes of the tree the
fallback manages to terminate.
-/

namespace Rankuno

/-- A process, told apart from the earlier and later holders of its PID. -/
structure ProcessIdentity where
  pid : ℕ+
  startTime : Timestamp
  deriving DecidableEq

structure LedgerEntry where
  pid : ℕ+
  processStartTime : Timestamp
  jobObjectName : Option String := none
  supervisorPid : Option ℕ+ := none
  supervisorStartTime : Option Timestamp := none
  deriving DecidableEq

/-- One item of the JSON object the file holds. -/
structure LedgerRow where
  jobId : String
  entry : LedgerEntry
  deriving DecidableEq

abbrev Ledger := Table String LedgerRow.jobId

/-- `_JOB_ID_PATTERN`. -/
def IsJobId (jobId : String) : Prop :=
  1 ≤ jobId.length ∧ jobId.length ≤ 200 ∧
    ∀ c ∈ jobId.toList, Python.Text.isAsciiAlpha c ∨ Python.Text.isAsciiDigit c ∨ c = '_' ∨ c = '-'

instance (jobId : String) : Decidable (IsJobId jobId) :=
  haveI := List.decidableBAll (fun c => Python.Text.isAsciiAlpha c ∨
    Python.Text.isAsciiDigit c ∨ c = '_' ∨ c = '-') jobId.toList
  inferInstanceAs (Decidable (_ ∧ _ ∧ _))

/-- The name of the job object of a launch, `_JOB_NAME_PREFIX` and the job id. -/
def jobObjectName (jobId : String) : String := "Local\\rankuno-process-supervisor-" ++ jobId

/-- `read_ledger`: a file that cannot be read counts as one without entries. -/
def readLedger (file : Ledger) (fails : Bool) : Ledger := if fails then .empty else file

/-- The entry names this process. -/
def LedgerEntry.Describes (e : LedgerEntry) (p : ProcessIdentity) : Prop :=
  e.pid = p.pid ∧ e.processStartTime = p.startTime

instance (e : LedgerEntry) (p : ProcessIdentity) : Decidable (e.Describes p) :=
  inferInstanceAs (Decidable (_ ∧ _))

/-- Some entry of the ledger names this process. -/
def Ledger.Tells (ledger : Ledger) (p : ProcessIdentity) : Prop :=
  ∃ row ∈ ledger.rows, row.entry.Describes p

instance (ledger : Ledger) (p : ProcessIdentity) : Decidable (ledger.Tells p) :=
  inferInstanceAs (Decidable (∃ row ∈ ledger.rows, _))

section Calls

/-- The calls that rewrite the file. -/
inductive LedgerUpdate where
  | upsert (jobId : String) (entry : LedgerEntry)
  | remove (jobId : String)
  | reconcile
  deriving DecidableEq

namespace LedgerUpdate

/-- `upsert_entry` and `remove_entry` hold the lock of their process from the
read to the write. `reconcile_orphans` does not take it. -/
def locks : LedgerUpdate → Bool
  | upsert _ _ | remove _ => true
  | reconcile => false

/-- The entries the call still has to examine before it writes. -/
def examines (entries : Ledger) : LedgerUpdate → List LedgerRow
  | upsert _ _ | remove _ => []
  | reconcile => entries.rows

/-- `remove_entry` leaves a file without the job id as it is. -/
def writes (entries : Ledger) : LedgerUpdate → Bool
  | upsert _ _ | reconcile => true
  | remove jobId => (entries.find? jobId).isSome

/-- The entries the call writes back out of those it read. -/
def leaves (entries : Ledger) : LedgerUpdate → Ledger
  | upsert jobId _ | remove jobId => entries.delete fun row => row.jobId = jobId
  | reconcile => entries

/-- What the call writes. -/
def result (entries : Ledger) : LedgerUpdate → Ledger
  | upsert jobId entry => entries.put ⟨jobId, entry⟩
  | remove jobId => entries.delete fun row => row.jobId = jobId
  | reconcile => entries

/-- The entry the call sets names this process. -/
def Enters (p : ProcessIdentity) : LedgerUpdate → Prop
  | upsert _ entry => entry.Describes p
  | remove _ | reconcile => False

instance (p : ProcessIdentity) : (call : LedgerUpdate) → Decidable (call.Enters p)
  | upsert _ entry => inferInstanceAs (Decidable (entry.Describes p))
  | remove _ | reconcile => isFalse id

theorem tells_result (call : LedgerUpdate) (entries : Ledger) (p : ProcessIdentity) :
    (call.result entries).Tells p ↔ call.Enters p ∨ (call.leaves entries).Tells p := by
  cases call with
  | upsert jobId entry =>
    constructor
    · rintro ⟨row, mem, tells⟩
      obtain ⟨mem, other⟩ | rfl := Table.mem_put.mp mem
      · exact Or.inr ⟨row, Table.mem_delete.mpr ⟨mem, by simpa using other⟩, tells⟩
      · exact Or.inl tells
    · rintro (tells | ⟨row, mem, tells⟩)
      · exact ⟨⟨jobId, entry⟩, Table.mem_put.mpr (Or.inr rfl), tells⟩
      · obtain ⟨mem, other⟩ := Table.mem_delete.mp mem
        exact ⟨row, Table.mem_put.mpr (Or.inl ⟨mem, by simpa using other⟩), tells⟩
  | remove jobId => exact ⟨Or.inr, fun tells => tells.resolve_left id⟩
  | reconcile => exact ⟨Or.inr, fun tells => tells.resolve_left id⟩

end LedgerUpdate

end Calls

section Reconciliation

/-- `_START_TIME_TOLERANCE_S`, in microseconds. -/
def startTimeTolerance : Nat := 1000

/-- The two readings of a creation time are of the same process. -/
def sameStart (observed recorded : Timestamp) : Bool :=
  (observed - recorded).natAbs ≤ startTimeTolerance

/-- `_supervisor_is_alive`. An entry without a supervisor is nobody's. -/
def LedgerEntry.supervisorIsAlive (observed : ℕ+ → Option Timestamp) (e : LedgerEntry) : Bool :=
  match e.supervisorPid, e.supervisorStartTime with
  | some pid, some startTime => (observed pid).any fun seen => sameStart seen startTime
  | _, _ => false

/-- What `reconcile_orphans` does about one entry. -/
inductive Verdict where
  | supervisorAlive
  | alreadyGone
  | reusedOrVanished
  | killedViaJobObject
  | killedViaProcessTree
  | killFailed
  deriving DecidableEq

/-- The entry is among those written back. -/
def Verdict.survives : Verdict → Bool
  | supervisorAlive | killFailed => true
  | alreadyGone | reusedOrVanished | killedViaJobObject | killedViaProcessTree => false

/-- The loop body of `reconcile_orphans`. The tree is walked only when there is
no job object to terminate, and an entry is kept only if not one process of the
tree could be terminated. -/
def LedgerEntry.judge (observed : ℕ+ → Option Timestamp) (jobOpens : Bool)
    (treeKilled : List ℕ+) (e : LedgerEntry) : Verdict :=
  if e.supervisorIsAlive observed then .supervisorAlive
  else
    match observed e.pid with
    | none => .alreadyGone
    | some seen =>
      if !sameStart seen e.processStartTime then .reusedOrVanished
      else if e.jobObjectName.isSome && jobOpens then .killedViaJobObject
      else if treeKilled.isEmpty then .killFailed
      else .killedViaProcessTree

end Reconciliation

end Rankuno
