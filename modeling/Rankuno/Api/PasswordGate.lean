import Mathlib.Algebra.Group.Nat.Defs
import Mathlib.Data.List.Basic
import Rankuno.Foundation.Machine
import Rankuno.Python.Values

/-!
# The password gate of a job

`enforce_job_password` in `api/job_password_gate.py` with the lockout counter of
`core/state_store.py`, for the calls on one job. A call reads the lock, checks
the password against a hash, and writes the counter, each at its own time. The
check itself is a parameter, and the clock only moves forward.
-/

namespace Rankuno

def deleteLockFailures : Nat := 5

def deleteLockBaseS : Nat := 15 * 60

/-- `DELETE_LOCK_MAX_S`. -/
def deleteLockMaxS : Nat := 24 * 60 * 60

def deleteLockSoftCap : Nat := 50

/-- `_delete_lock_window_s`. -/
def deleteLockWindowS (lockouts lifetimeFailures : Nat) : Nat :=
  if deleteLockSoftCap ≤ lifetimeFailures then deleteLockMaxS
  else min deleteLockMaxS (deleteLockBaseS * 2 ^ (lockouts - 1))

/-- `_DeleteLockout`, the counter beside the job. -/
structure DeleteLockout where
  failures : Nat := 0
  lockouts : Nat := 0
  lifetimeFailures : Nat := 0
  lockedUntil : Option Timestamp := none
  deriving DecidableEq

namespace DeleteLockout

/-- `delete_lockout_remaining_s`, in microseconds. -/
def remaining (lockout : DeleteLockout) (now : Timestamp) : Int :=
  match lockout.lockedUntil with
  | none => 0
  | some lockedUntil => max 0 (lockedUntil - now)

/-- `record_failed_delete`: the lock it sets, in seconds, and the new counter. -/
def recordFailedDelete (lockout : DeleteLockout) (now : Timestamp) : Nat × DeleteLockout :=
  let failures := lockout.failures + 1
  let lifetime := lockout.lifetimeFailures + 1
  if deleteLockFailures ≤ failures then
    let lockouts := lockout.lockouts + 1
    let lockedFor := deleteLockWindowS lockouts lifetime
    (lockedFor, {
      failures := 0
      lockouts := lockouts
      lifetimeFailures := lifetime
      lockedUntil := some (now + lockedFor * 1000000) })
  else
    (0, { lockout with failures := failures, lifetimeFailures := lifetime })

end DeleteLockout

def rateLimitedDetail : String := "too many delete attempts; wait a moment and try again"

/-- `_locked`. -/
def lockedException (seconds : Int) : HTTPException where
  status := 429
  detail := rateLimitedDetail
  retryAfter := some seconds

/-- `math.ceil` of a time in microseconds, in seconds. -/
def ceilSeconds (microseconds : Int) : Int := -(-microseconds / 1000000)

/-- Where a call of `enforce_job_password` is. One that is `verifying` keeps the
counter it read; an answer without an exception admits the write. -/
inductive GatePhase where
  | arrived (password : String)
  | refusing (password : String) (remaining : Int)
  | verifying (password : String) (read : DeleteLockout)
  | recording
  | clearing
  | answered (refusal : Option HTTPException)
  deriving DecidableEq

/-- What the two buckets and the kind of store say to a call when it comes. -/
structure GateArrival where
  password : Option String
  perJobToken : Bool
  perOperatorToken : Bool
  diskStore : Bool
  deriving DecidableEq

/-- `enforce_job_password` up to the read of the lock. -/
def GateArrival.phase (arrival : GateArrival) : GatePhase :=
  if ¬arrival.perJobToken ∨ ¬arrival.perOperatorToken then
    .answered (some { status := 429, detail := rateLimitedDetail })
  else
    match arrival.password with
    | none => .answered (some { status := 403, detail := "job password required" })
    | some password =>
      if arrival.diskStore then .arrived password
      else .answered (some { status := 503, detail := "job lock unavailable; write refused" })

inductive GateEvent where
  | call (arrival : GateArrival)
  | readLockout (call : Nat)
  | verify (call : Nat)
  | recordFailed (call : Nat)
  | clear (call : Nat)
  | tick (elapsed : Nat)
  deriving DecidableEq

/-- The counter's file, if there is one, and the calls. `wrongCompared` is there
to state what holds: the wrong passwords compared with the job's hash since the
last lock was set or the history was cleared. -/
structure PasswordGate where
  clock : Timestamp
  lockout : Option DeleteLockout
  calls : List GatePhase
  wrongCompared : Nat
  deriving DecidableEq

namespace PasswordGate

def start (clock : Timestamp) : PasswordGate := ⟨clock, none, [], 0⟩

/-- `_read_delete_lockout`: no file reads as zero. -/
def counter (s : PasswordGate) : DeleteLockout := s.lockout.getD {}

/-- A lock is in force. -/
def Locked (s : PasswordGate) : Prop := 0 < s.counter.remaining s.clock

def setPhase (s : PasswordGate) (call : Nat) (phase : GatePhase) : PasswordGate :=
  { s with calls := s.calls.set call phase }

/-- One step of one call from the phase it is in. -/
def stepCall (verify : String → Bool) (s : PasswordGate) :
    GateEvent → GatePhase → Option PasswordGate
  | .readLockout call, .arrived password =>
    let remaining := s.counter.remaining s.clock
    some (s.setPhase call
      (if 0 < remaining then .refusing password remaining else .verifying password s.counter))
  -- A locked job's password is checked against `_DUMMY_HASH`, for its time only.
  | .verify call, .refusing _ remaining =>
    some (s.setPhase call (.answered (some (lockedException (ceilSeconds remaining)))))
  | .verify call, .verifying password _ =>
    if verify password then some (s.setPhase call .clearing)
    else some { s.setPhase call .recording with wrongCompared := s.wrongCompared + 1 }
  | .recordFailed call, .recording =>
    let (lockedFor, lockout) := s.counter.recordFailedDelete s.clock
    some {
      clock := s.clock
      lockout := some lockout
      calls := s.calls.set call (.answered (some
        (if 0 < lockedFor then lockedException lockedFor
        else { status := 403, detail := "incorrect password" })))
      wrongCompared := if 0 < lockedFor then 0 else s.wrongCompared }
  | .clear call, .clearing =>
    some { s.setPhase call (.answered none) with lockout := none, wrongCompared := 0 }
  | _, _ => none

/-- The call an event is a step of. -/
def callOf : GateEvent → Option Nat
  | .readLockout call | .verify call | .recordFailed call | .clear call => some call
  | _ => none

/-- Every interleaving of the calls' steps, while time passes. -/
def machine (verify : String → Bool) : Machine PasswordGate GateEvent where
  step s
    | .call arrival => some { s with calls := s.calls ++ [arrival.phase] }
    | .tick elapsed => some { s with clock := s.clock + elapsed }
    | event =>
      (callOf event).bind fun call => s.calls[call]?.bind fun phase =>
        s.stepCall verify event phase

end PasswordGate

end Rankuno
