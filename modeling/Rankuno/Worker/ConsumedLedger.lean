import Rankuno.Foundation.Machine

/-!
# The worker's record of job ids it has already run

`ConsumedJobLedger` in `core/worker_consumed_ledger.py`: one JSON file, read in
full and replaced in full. A read that fails counts as an empty record, and
`try_consume` writes back what it read plus the new id. The machine takes any
sequence of calls, on any number of ledgers opened over the one file, with any
fault at any read or write.
-/

namespace Rankuno

/-- The recorded job ids with the time each was recorded. -/
abbrev LedgerEntries := List (String × String)

/-- What the ledger's path holds. -/
inductive LedgerFile where
  | absent
  | entries (es : LedgerEntries)
  /-- JSON that is not an object. -/
  | otherJson
  /-- Text that is not JSON. -/
  | notJson
  deriving DecidableEq

/-- What goes wrong while the file is read. -/
inductive ReadFault where
  | none
  /-- `exists()` itself raises. -/
  | existsRaises
  | osError
  /-- The text read is not valid JSON, whatever the file holds. -/
  | notJson
  deriving DecidableEq

/-- How writing the file ends. The replacement is one atomic step, so a write
that raises has either replaced the whole file or left it alone. -/
inductive WriteOutcome where
  | landed
  | raised
  | landedThenRaised
  deriving DecidableEq

namespace WriteOutcome

/-- Whether the new content replaced the file. -/
def Lands : WriteOutcome → Prop
  | landed => True
  | raised => False
  | landedThenRaised => True

instance : DecidablePred Lands
  | landed => isTrue trivial
  | raised => isFalse id
  | landedThenRaised => isTrue trivial

end WriteOutcome

/-- An exception that leaves a call. -/
inductive LedgerError where
  | read
  | write
  deriving DecidableEq

namespace ConsumedJobLedger

def keys (es : LedgerEntries) : List String := es.map Prod.fst

/-- `_read`: no file, no readable text or no object is an empty record. -/
def read (file : LedgerFile) : ReadFault → Except LedgerError LedgerEntries
  | .existsRaises => .error .read
  | .osError => .ok []
  | .notJson => .ok []
  | .none =>
    match file with
    | .entries es => .ok es
    | .absent | .otherJson | .notJson => .ok []

/-- `_write`: replace the file, or leave it alone. -/
def write (file : LedgerFile) (es : LedgerEntries) (outcome : WriteOutcome) : LedgerFile :=
  if outcome.Lands then .entries es else file

/-- `has_run`, which changes nothing. -/
def hasRun (file : LedgerFile) (jobId : String) (fault : ReadFault) : Except LedgerError Bool :=
  (read file fault).map fun es => decide (jobId ∈ keys es)

/-- `try_consume`, with the file it leaves. `now` is the recorded time. -/
def tryConsume (file : LedgerFile) (jobId now : String) (fault : ReadFault)
    (outcome : WriteOutcome) : Except LedgerError Bool × LedgerFile :=
  match read file fault with
  | .error e => (.error e, file)
  | .ok es =>
    if jobId ∈ keys es then (.ok false, file)
    else
      let written := write file (es ++ [(jobId, now)]) outcome
      match outcome with
      | .landed => (.ok true, written)
      | .raised | .landedThenRaised => (.error .write, written)

/-- The entries a file durably records. -/
def recorded : LedgerFile → LedgerEntries
  | .entries es => es
  | .absent | .otherJson | .notJson => []

theorem read_none (file : LedgerFile) : read file .none = .ok (recorded file) := by
  cases file <;> rfl

theorem tryConsume_clean (file : LedgerFile) (jobId now : String) :
    tryConsume file jobId now .none .landed =
      if jobId ∈ keys (recorded file) then (.ok false, file)
      else (.ok true, .entries (recorded file ++ [(jobId, now)])) := by
  rw [tryConsume, read_none]
  rfl

theorem tryConsume_cases (file : LedgerFile) (jobId now : String) (fault : ReadFault)
    (outcome : WriteOutcome) :
    ((tryConsume file jobId now fault outcome).1 ≠ .ok true ∧
      (tryConsume file jobId now fault outcome).2 = file) ∨
    (outcome.Lands ∧ ∃ es, read file fault = .ok es ∧ jobId ∉ keys es ∧
      (tryConsume file jobId now fault outcome).2 = .entries (es ++ [(jobId, now)])) := by
  unfold tryConsume
  cases read file fault with
  | error e => exact .inl ⟨by simp, rfl⟩
  | ok es =>
    by_cases known : jobId ∈ keys es
    · exact .inl ⟨by simp [known], by simp [known]⟩
    · cases outcome with
      | landed => exact .inr ⟨trivial, es, rfl, known, by simp [known, write, WriteOutcome.Lands]⟩
      | raised =>
        exact .inl ⟨by simp [known], by simp [known, write, WriteOutcome.Lands]⟩
      | landedThenRaised =>
        exact .inr ⟨trivial, es, rfl, known, by simp [known, write, WriteOutcome.Lands]⟩

end ConsumedJobLedger

/-- The ledger file, how many ledgers are open over it, and every job id that
`try_consume` answered `True` for, in order. -/
structure LedgerRun where
  file : LedgerFile
  ledgers : Nat
  granted : List String
  deriving DecidableEq

/-- One call on a ledger. Ledgers are numbered as they are opened. -/
inductive LedgerCall where
  | openLedger
  | hasRun (ledger : Nat) (jobId : String) (fault : ReadFault)
  | tryConsume (ledger : Nat) (jobId now : String) (fault : ReadFault)
      (outcome : WriteOutcome)
  deriving DecidableEq

namespace LedgerRun

open ConsumedJobLedger

def fresh (file : LedgerFile) : LedgerRun := ⟨file, 0, []⟩

/-- Keep the job ids that were granted. -/
def record (jobId : String) : Except LedgerError Bool → List String → List String
  | .ok true, granted => granted ++ [jobId]
  | _, granted => granted

def machine : Machine LedgerRun LedgerCall where
  step s
    | .openLedger => some { s with ledgers := s.ledgers + 1 }
    | .hasRun ledger _ _ => if ledger < s.ledgers then some s else none
    | .tryConsume ledger jobId now fault outcome =>
      if ledger < s.ledgers then
        let result := tryConsume s.file jobId now fault outcome
        some { s with file := result.2, granted := record jobId result.1 s.granted }
      else none

/-- A call whose write lands has read the file, or there was no entry to lose. -/
def ReadsWhatItReplaces (s : LedgerRun) : LedgerCall → Prop
  | .tryConsume _ _ _ fault outcome =>
    outcome.Lands → fault = .none ∨ recorded s.file = []
  | .openLedger => True
  | .hasRun _ _ _ => True

instance (s : LedgerRun) : ∀ call, Decidable (s.ReadsWhatItReplaces call)
  | .tryConsume _ _ _ fault outcome =>
    inferInstanceAs (Decidable (outcome.Lands → fault = .none ∨ recorded s.file = []))
  | .openLedger => isTrue trivial
  | .hasRun _ _ _ => isTrue trivial

/-- Every granted id is on file, and none was granted twice. -/
structure SingleUse (s : LedgerRun) : Prop where
  on_file : ∀ jobId ∈ s.granted, jobId ∈ keys (recorded s.file)
  once : s.granted.Nodup

theorem SingleUse.fresh (file : LedgerFile) : (LedgerRun.fresh file).SingleUse :=
  ⟨fun _ h => by simp [LedgerRun.fresh] at h, List.nodup_nil⟩

theorem read_of_readsWhatItReplaces {s : LedgerRun} {ledger : Nat} {jobId now : String}
    {fault : ReadFault} {outcome : WriteOutcome} {es : LedgerEntries}
    (h : s.ReadsWhatItReplaces (.tryConsume ledger jobId now fault outcome))
    (lands : outcome.Lands) (hread : read s.file fault = .ok es) :
    ∀ id ∈ keys (recorded s.file), id ∈ keys es := by
  rcases h lands with rfl | nothing
  · rw [read_none] at hread
    cases hread
    exact fun id hid => hid
  · rw [nothing]
    intro id hid
    cases hid

theorem record_of_ne {jobId : String} {answer : Except LedgerError Bool}
    (h : answer ≠ .ok true) (granted : List String) : record jobId answer granted = granted := by
  unfold record
  split
  · exact absurd rfl h
  · rfl

theorem record_cases (jobId : String) (answer : Except LedgerError Bool) (granted : List String) :
    record jobId answer granted = granted ∨ record jobId answer granted = granted ++ [jobId] := by
  unfold record
  split
  · exact .inr rfl
  · exact .inl rfl

theorem SingleUse.step {s t : LedgerRun} {call : LedgerCall} (h : s.SingleUse)
    (condition : s.ReadsWhatItReplaces call) (hstep : machine.step s call = some t) :
    t.SingleUse := by
  cases call with
  | openLedger =>
    cases hstep
    exact ⟨h.on_file, h.once⟩
  | hasRun ledger jobId fault =>
    obtain ⟨-, same⟩ := Option.ite_none_right_eq_some.mp hstep
    cases same
    exact h
  | tryConsume ledger jobId now fault outcome =>
    obtain ⟨-, same⟩ := Option.ite_none_right_eq_some.mp hstep
    cases same
    rcases tryConsume_cases s.file jobId now fault outcome with
      ⟨refused, unchanged⟩ | ⟨lands, es, hread, unknown, replaced⟩
    · simp only [unchanged, record_of_ne refused]
      exact ⟨h.on_file, h.once⟩
    · -- what was granted before is still among the entries written back
      have kept : ∀ id ∈ s.granted, id ∈ keys es := fun id hid =>
        read_of_readsWhatItReplaces condition lands hread id (h.on_file id hid)
      have fresh : jobId ∉ s.granted := fun hid => unknown (kept jobId hid)
      have keys_eq : keys (recorded (.entries (es ++ [(jobId, now)]))) = keys es ++ [jobId] := by
        simp [keys, recorded]
      rw [replaced]
      rcases record_cases jobId (tryConsume s.file jobId now fault outcome).1 s.granted with
        same | grown
      · rw [same]
        refine ⟨fun id hid => ?_, h.once⟩
        rw [keys_eq]
        exact List.mem_append_left _ (kept id hid)
      · rw [grown]
        refine ⟨fun id hid => ?_, ?_⟩
        · rw [keys_eq]
          rcases List.mem_append.mp hid with old | new
          · exact List.mem_append_left _ (kept id old)
          · exact List.mem_append_right _ new
        · exact List.nodup_append.mpr ⟨h.once, List.pairwise_singleton _ jobId, by
            rintro id hid _ hjob rfl
            exact fresh (List.mem_singleton.mp hjob ▸ hid)⟩

/-- In a run whose landed writes each read the file, or found no entry in it,
no job id is granted twice in any state. -/
theorem granted_once_if_reads_precede_writes (file : LedgerFile) (calls : List LedgerCall)
    (condition : machine.Meets ReadsWhatItReplaces (fresh file) calls) :
    machine.Always (fun s => s.granted.Nodup) (fresh file) calls :=
  Machine.always_of_meets (I := SingleUse) (fun _ _ _ h g hstep => h.step g hstep)
    (.fresh file) condition fun _ h => h.once

/-- A read fault may still occur: this one happens before anything is recorded. -/
theorem granted_once_after_first_fault : machine.Always (fun s => s.granted.Nodup) (fresh .notJson)
        [.openLedger, .tryConsume 0 "a" "t0" .osError .landed,
          .openLedger, .tryConsume 1 "a" "t1" .none .landed,
          .tryConsume 1 "b" "t2" .osError .raised] ∧
      (machine.run (fresh .notJson) [.openLedger, .tryConsume 0 "a" "t0" .osError .landed,
          .openLedger, .tryConsume 1 "a" "t1" .none .landed,
          .tryConsume 1 "b" "t2" .osError .raised]).map granted = some ["a"] :=
  ⟨granted_once_if_reads_precede_writes .notJson _ (by decide), by decide⟩

/-- One failed read is enough: the second call writes back an empty record, and
the first job is granted again. -/
theorem granted_twice_after_failed_read : ¬∀ (file : LedgerFile) (calls : List LedgerCall),
      machine.Always (fun s => s.granted.Nodup) (fresh file) calls := by
  intro h
  have twice : ¬["a", "b", "a"].Nodup := by decide
  have granted := h .absent
    [.openLedger, .tryConsume 0 "a" "t0" .none .landed,
      .tryConsume 0 "b" "t1" .osError .landed, .tryConsume 0 "a" "t2" .none .landed]
  exact twice (granted.last (t := ⟨.entries [("b", "t1"), ("a", "t2")], 1, ["a", "b", "a"]⟩)
    (by decide))

end LedgerRun

end Rankuno
