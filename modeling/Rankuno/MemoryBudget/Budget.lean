import Mathlib.Data.List.MinMax
import Mathlib.Algebra.BigOperators.Group.List.Basic
import Rankuno.Foundation.Machine
import Rankuno.MemoryBudget.Account
import Rankuno.Python.Values

/-!
# The memory budget every running crawl charges

The operations of `MemoryBudget` in `core/memory_budget.py`. Each runs under one
lock, so a call is one step. Account objects outlive their registration: a crawl
may charge or credit an account after closing it, so the state keeps every
object ever built, at its sequence number, beside the registry of open ones.

A call returns its reply together with the state it leaves, also when it raises.
-/

namespace Rankuno

/-- What a call writes to the server log outside the lock. -/
inductive MemoryLog where
  | victim (victimJobId : String) (victimBytes : Int) (triggerJobId : String)
      (projectedBytes budgetBytes fairShareBytes : Int)
  | overrunNoVictim (projectedBytes budgetBytes : Int)
  | overCreditBody (jobId : String) (requestedBytes outstandingBodyBytes : Int)
  | overCreditLinks (jobId : String) (requestedBytes outstandingLinkBytes : Int)
  deriving DecidableEq

/-- `objects` holds every account built, in sequence order; `accounts` the
sequence numbers of the registered ones, in the registry's insertion order. -/
structure MemoryBudget where
  budgetBytes : Int
  fairShareBytes : Int
  objects : List MemoryAccount
  accounts : List Nat
  overrunLogged : Bool
  deriving DecidableEq

/-- The pair the victim scan maximises, compared as Python compares tuples: the
projected bytes first, then the start order. -/
structure VictimKey where
  projectedBytes : Int
  sequence : Nat
  deriving DecidableEq

namespace VictimKey

instance : Preorder VictimKey where
  le k l := k.projectedBytes < l.projectedBytes ∨
    k.projectedBytes = l.projectedBytes ∧ k.sequence ≤ l.sequence
  lt k l := k.projectedBytes < l.projectedBytes ∨
    k.projectedBytes = l.projectedBytes ∧ k.sequence < l.sequence
  le_refl k := by omega
  le_trans k l m := by omega
  lt_iff_le_not_ge k l := by omega

theorem lt_iff {k l : VictimKey} : k < l ↔ k.projectedBytes < l.projectedBytes ∨
    k.projectedBytes = l.projectedBytes ∧ k.sequence < l.sequence := Iff.rfl

instance : DecidableLT VictimKey := fun _ _ => decidable_of_iff _ lt_iff.symm

end VictimKey

namespace MemoryBudget

/-- `MemoryBudget.__init__`. -/
def init (budgetBytes fairShareSlots : Int) : Except ValueError MemoryBudget :=
  if budgetBytes < 1 ∨ fairShareSlots < 1 then
    .error ⟨"budget_bytes and fair_share_slots must both be positive"⟩
  else
    .ok
      { budgetBytes := budgetBytes
        fairShareBytes := budgetBytes / fairShareSlots
        objects := []
        accounts := []
        overrunLogged := false }

def update (b : MemoryBudget) (sequence : Nat) (f : MemoryAccount → MemoryAccount) : MemoryBudget :=
  { b with objects := b.objects.modify sequence f }

def setOverrunLogged (b : MemoryBudget) (logged : Bool) : MemoryBudget :=
  { b with overrunLogged := logged }

def openAccounts (b : MemoryBudget) : List MemoryAccount :=
  b.accounts.filterMap fun sequence => b.objects[sequence]?

def projectedLocked (b : MemoryBudget) : Int :=
  (b.openAccounts.map MemoryAccount.projectedBytes).sum

/-- Whether `_choose_victim_locked` considers the account. -/
def IsCandidate (b : MemoryBudget) (a : MemoryAccount) : Prop :=
  0 < a.pages ∧ a.stopRequested = false ∧ b.fairShareBytes < a.projectedBytes

instance (b : MemoryBudget) (a : MemoryAccount) : Decidable (b.IsCandidate a) := by
  unfold IsCandidate
  infer_instance

def victimKey (a : MemoryAccount) : VictimKey := ⟨a.projectedBytes, a.sequence⟩

/-- The largest crawl over its fair share, newest first on a tie. -/
def chooseVictimLocked (b : MemoryBudget) : Option MemoryAccount :=
  (b.openAccounts.filter fun a => b.IsCandidate a).argmax victimKey

/-- What `_after_charge_locked` hands to the log. -/
structure ChargeOutcome where
  projected : Int
  victim : Option MemoryAccount
  victimBytes : Int
  deriving DecidableEq

/-- Choose a victim if the budget is reached. -/
def afterChargeLocked (b : MemoryBudget) (sequence : Nat) : Option ChargeOutcome × MemoryBudget :=
  if sequence ∉ b.accounts then (none, b)
  else if b.projectedLocked < b.budgetBytes then (none, b.setOverrunLogged false)
  else
    match b.chooseVictimLocked with
    | some victim =>
      (some ⟨b.projectedLocked, some victim, victim.projectedBytes⟩,
        b.update victim.sequence MemoryAccount.requestStop)
    | none =>
      if b.overrunLogged then (none, b)
      else (some ⟨b.projectedLocked, none, 0⟩, b.setOverrunLogged true)

/-- Re-arm the overrun log once a credit takes the total below the budget. -/
def rearmLocked (b : MemoryBudget) (sequence : Nat) : MemoryBudget :=
  if sequence ∈ b.accounts ∧ b.projectedLocked < b.budgetBytes then b.setOverrunLogged false
  else b

/-- `_log_outcome`. -/
def logOutcome (b : MemoryBudget) (account : MemoryAccount) :
    Option ChargeOutcome → Option MemoryLog
  | none => none
  | some ⟨projected, some victim, victimBytes⟩ =>
    some (.victim victim.accountId victimBytes account.accountId projected b.budgetBytes
      b.fairShareBytes)
  | some ⟨projected, none, _⟩ => some (.overrunNoVictim projected b.budgetBytes)

/-- A call's reply, a raised error or the record it logs, and the state after it. -/
abbrev Reply := Except ValueError (Option MemoryLog) × MemoryBudget

def openAccount (b : MemoryBudget) (accountId : String) (inFlightCeiling : Int) : Reply :=
  let sequence := b.objects.length
  (.ok none,
    { b with
      objects := b.objects ++ [MemoryAccount.new accountId sequence inFlightCeiling]
      accounts := b.accounts ++ [sequence] })

def close (b : MemoryBudget) (account : MemoryAccount) : Reply :=
  let closed := { b with accounts := b.accounts.filter (· ≠ account.sequence) }
  (.ok none,
    if closed.projectedLocked < closed.budgetBytes then closed.setOverrunLogged false
    else closed)

def charge (b : MemoryBudget) (account : MemoryAccount) (nbytes overheadBytes : Int) : Reply :=
  if nbytes < 0 ∨ overheadBytes < 0 then
    (.error ⟨"nbytes and overhead_bytes must not be negative"⟩, b)
  else
    let charged := b.update account.sequence (MemoryAccount.landPage nbytes overheadBytes)
    let (outcome, settled) := charged.afterChargeLocked account.sequence
    (.ok (settled.logOutcome account outcome), settled)

def chargeLinks (b : MemoryBudget) (account : MemoryAccount) (nbytes : Int) : Reply :=
  if nbytes < 0 then (.error ⟨"nbytes must not be negative"⟩, b)
  else
    let charged := b.update account.sequence (MemoryAccount.holdLinks nbytes)
    let (outcome, settled) := charged.afterChargeLocked account.sequence
    (.ok (settled.logOutcome account outcome), settled)

def credit (b : MemoryBudget) (account : MemoryAccount) (nbytes : Int) : Reply :=
  if nbytes < 0 then (.error ⟨"nbytes must not be negative"⟩, b)
  else
    let credited := b.update account.sequence (MemoryAccount.releaseBody nbytes)
    (.ok (if min nbytes account.outstandingBodyBytes < nbytes then
        some (.overCreditBody account.accountId nbytes account.outstandingBodyBytes)
      else none),
      credited.rearmLocked account.sequence)

def creditLinks (b : MemoryBudget) (account : MemoryAccount) (nbytes : Int) : Reply :=
  if nbytes < 0 then (.error ⟨"nbytes must not be negative"⟩, b)
  else
    let credited := b.update account.sequence (MemoryAccount.releaseLinks nbytes)
    (.ok (if min nbytes account.outstandingLinkBytes < nbytes then
        some (.overCreditLinks account.accountId nbytes account.outstandingLinkBytes)
      else none),
      credited.rearmLocked account.sequence)

end MemoryBudget

/-- One call on the budget. An account is named by its sequence number. -/
inductive BudgetCall where
  | open (accountId : String) (inFlightCeiling : Int)
  | close (sequence : Nat)
  | charge (sequence : Nat) (nbytes overheadBytes : Int)
  | chargeLinks (sequence : Nat) (nbytes : Int)
  | credit (sequence : Nat) (nbytes : Int)
  | creditLinks (sequence : Nat) (nbytes : Int)
  deriving DecidableEq

namespace MemoryBudget

/-- Carry out a call. A sequence number no account was ever given names no
object, so there is nothing to call. -/
def call (b : MemoryBudget) : BudgetCall → Option Reply
  | .open accountId inFlightCeiling => some (b.openAccount accountId inFlightCeiling)
  | .close sequence => b.objects[sequence]?.map b.close
  | .charge sequence nbytes overheadBytes =>
    b.objects[sequence]?.map fun account => b.charge account nbytes overheadBytes
  | .chargeLinks sequence nbytes =>
    b.objects[sequence]?.map fun account => b.chargeLinks account nbytes
  | .credit sequence nbytes => b.objects[sequence]?.map fun account => b.credit account nbytes
  | .creditLinks sequence nbytes =>
    b.objects[sequence]?.map fun account => b.creditLinks account nbytes

/-- The budget under any sequence of calls. -/
def machine : Machine MemoryBudget BudgetCall where
  step b op := (b.call op).map Prod.snd

theorem step_eq_some {b b' : MemoryBudget} {op : BudgetCall} :
    machine.step b op = some b' ↔ ∃ reply, b.call op = some (reply, b') := by
  simp [machine]

end MemoryBudget

end Rankuno
