import Rankuno.WorkerDispatch.Steps

/-!
# The columns of a job row

A transition assigns the status, the time the job finished and the columns it was given,
and leaves the others as they were. An upload that is complete gives no reason, so the
row keeps the error of whatever came before it: a sweep or a failure report that a late
upload follows. The columns of every row agree with its status exactly as long as no
complete upload is recorded for a row with an error.
-/

namespace Rankuno

open DispatchStore

/-- The columns of the row say what its status says. -/
structure WorkerJob.Coherent (j : WorkerJob) : Prop where
  succeeded : j.status = .succeeded → j.error = none ∧ j.bundleSizeBytes.isSome = true
  partialBundle : j.status = .partialBundle → j.error = some missingSpineReason
  failed : j.status = .failed → ∃ error, j.error = some error ∧ error ≠ ""
  finished : j.finishedAt.isSome = true ↔ j.status.IsTerminal

/-- The report says what the row then says: a complete upload that there was no error,
a failure what it was. The schema of a failure refuses an empty text. -/
def WorkerReport.Agrees (report : WorkerReport) (j : WorkerJob) : Prop :=
  match report with
  | .emptyUpload => True
  | .upload _ spinePresent => spinePresent = true → j.error = none
  | .failure error => error ≠ ""
  | .progress _ _ _ => True

namespace WorkerJob

variable {j : WorkerJob} {now : Timestamp}

theorem coherent_queuedJob (args : ConfirmArgs) (count : Option Nat) (jobId : String) :
    (queuedJob args count jobId now).Coherent where
  succeeded status := by cases status
  partialBundle status := by cases status
  failed status := by cases status
  finished := by
    constructor
    · intro finished
      cases finished
    · intro terminal
      exact terminal.elim

theorem Coherent.claimed (h : j.Coherent) (queued : j.status = .queued) :
    (claimed now j).Coherent where
  succeeded status := by cases status
  partialBundle status := by cases status
  failed status := by cases status
  finished := by
    have unfinished := h.finished
    rw [queued] at unfinished
    exact unfinished

theorem isTerminal_succeeded : WorkerJobStatus.succeeded.IsTerminal := trivial

theorem isTerminal_partialBundle : WorkerJobStatus.partialBundle.IsTerminal := trivial

theorem isTerminal_failed : WorkerJobStatus.failed.IsTerminal := trivial

theorem append_ne_empty {a b : String} (filled : b ≠ "") : a ++ b ≠ "" :=
  fun empty => filled (String.append_eq_empty_iff.mp empty).2

theorem staleError_ne_empty (olderThan : Int) : staleError olderThan ≠ "" :=
  append_ne_empty (by simp)

theorem coherent_expired (olderThan : Int) : (expired olderThan now j).Coherent where
  succeeded status := by cases status
  partialBundle status := by cases status
  failed _ := ⟨staleError olderThan, rfl, staleError_ne_empty olderThan⟩
  finished := ⟨fun _ => trivial, fun _ => rfl⟩

theorem coherent_transitioned_iff {status : WorkerJobStatus} {size : Option Nat}
    {error : Option String} (terminal : status.IsTerminal) :
    (transitioned status size error now j).Coherent ↔
      (status = .succeeded → (error <|> j.error) = none ∧
        (size <|> j.bundleSizeBytes).isSome = true) ∧
      (status = .partialBundle → (error <|> j.error) = some missingSpineReason) ∧
      (status = .failed → ∃ text, (error <|> j.error) = some text ∧ text ≠ "") := by
  constructor
  · intro h
    exact ⟨h.succeeded, h.partialBundle, h.failed⟩
  · rintro ⟨succeeded, partialBundle, failed⟩
    exact ⟨succeeded, partialBundle, failed, fun _ => terminal, fun _ => rfl⟩

/-- **A report keeps a row coherent exactly when it agrees with it.** -/
theorem Coherent.written_iff (h : j.Coherent) (report : WorkerReport) :
    (report.written now j).Coherent ↔ report.Agrees j := by
  cases report with
  | emptyUpload =>
    refine iff_of_true ((coherent_transitioned_iff isTerminal_failed).mpr ⟨?_, ?_, ?_⟩) trivial
    · intro status; cases status
    · intro status; cases status
    · exact fun _ => ⟨emptyBundleError, rfl, by decide⟩
  | upload size spinePresent =>
    cases spinePresent with
    | false =>
      refine iff_of_true ((coherent_transitioned_iff isTerminal_partialBundle).mpr ⟨?_, ?_, ?_⟩) ?_
      · intro status; cases status
      · exact fun _ => rfl
      · intro status; cases status
      · intro present; cases present
    | true =>
      refine (coherent_transitioned_iff isTerminal_succeeded).trans ⟨?_, ?_⟩
      · rintro ⟨succeeded, -⟩ -
        exact (succeeded rfl).1
      · intro agrees
        refine ⟨fun _ => ⟨agrees rfl, rfl⟩, ?_, ?_⟩
        · intro status; cases status
        · intro status; cases status
  | failure error =>
    refine (coherent_transitioned_iff isTerminal_failed).trans ⟨?_, ?_⟩
    · rintro ⟨-, -, failed⟩
      obtain ⟨text, same, filled⟩ := failed rfl
      cases same
      exact filled
    · intro filled
      refine ⟨?_, ?_, fun _ => ⟨error, rfl, filled⟩⟩
      · intro status; cases status
      · intro status; cases status
  | progress pages pct phase =>
    exact iff_of_true ⟨h.succeeded, h.partialBundle, h.failed, h.finished⟩ trivial

end WorkerJob

namespace DispatchState

variable {s t : DispatchState} {event : DispatchEvent}

/-- Every row of the table is coherent. -/
def RowsCoherent (s : DispatchState) : Prop := ∀ id j, s.job id = some j → j.Coherent

/-- A report that is recorded agrees with the row of its job. -/
def ReportAgrees (s : DispatchState) : DispatchEvent → Prop
  | .finishReport call _ => ∀ id report j, s.reports[call]? = some (id, report) →
      s.job id = some j → report.Agrees j
  | _ => True

theorem rowsCoherent_step (coherent : s.RowsCoherent) (step : machine.step s event = some t) :
    t.RowsCoherent ↔ s.ReportAgrees event := by
  constructor
  · intro kept
    cases event with
    | finishReport call now =>
      intro id report j pending row
      have written : t.job id = some (report.written now j) := by
        obtain ⟨⟨jobId, other⟩, found, rfl⟩ := Option.map_eq_some_iff.mp step
        cases pending.symm.trans found
        rw [job, WorkerReport.apply_job]
        rw [job] at row
        simp [row]
      exact ((coherent id j row).written_iff report).mp (kept id _ written)
    | _ => trivial
  · intro agrees id k row
    have effect := row_effect step id
    rw [row] at effect
    generalize before : s.job id = old at effect
    cases effect with
    | untouched => exact coherent id k before
    | created call args count now => exact WorkerJob.coherent_queuedJob args count id
    | claimed j locked now _ queued => exact (coherent id j before).claimed queued
    | expired j olderThan checkedAt now => exact WorkerJob.coherent_expired olderThan
    | reported j call report now hevent pending =>
      subst hevent
      exact ((coherent id j before).written_iff report).mpr (agrees id report j pending before)

/-- **The columns of every job agree with its status, in every state of a run, exactly
when no complete upload is recorded for a row with an error** (nor a failure without a
text, which its schema refuses). -/
theorem rowsCoherent_iff_reports_agree (events : List DispatchEvent) :
    machine.Always RowsCoherent .empty events ↔ machine.Meets ReportAgrees .empty events := by
  refine Machine.always_iff_meets (fun _ _ _ => rowsCoherent_step) ?_ ?_
  · intro s event stuck
    cases event with
    | finishReport call now =>
      intro id report j pending
      rw [Option.map_eq_none_iff.mp stuck] at pending
      cases pending
    | _ => trivial
  · intro id j row
    cases row

/-- A worker reports a failure, then its upload of the same crawl is recorded. -/
def uploadAfterFailure : List DispatchEvent :=
  [.preview ⟨"t", "org", "w", "https://example.com/", none, "c", 120, none, none⟩,
    .beginConfirm ⟨"t", "org", "w", "https://example.com/", none, "c", none⟩,
    .finishConfirm 0 none "j" 1, .claim "w" "org" [] 2, .expire "org" 10 50 50,
    .beginReport "w" "org" "j" (.upload 9 true), .finishReport 0 60]

/-- The row of a job whose bundle came after the sweep: it succeeded, with an error. -/
theorem late_upload_keeps_error : ¬∀ events, machine.Always RowsCoherent .empty events := by
  intro h
  obtain ⟨s, run, row⟩ := Option.map_eq_some_iff.mp
    (show (machine.run .empty uploadAfterFailure).map
      (fun s => (s.job "j").map fun j => (j.status, j.error.isSome)) =
        some (some (.succeeded, true)) by decide)
  obtain ⟨j, found, columns⟩ := Option.map_eq_some_iff.mp row
  obtain ⟨status, erred⟩ := Prod.mk.inj columns
  have clean := ((h uploadAfterFailure).last run "j" j found).succeeded status
  rw [clean.1] at erred
  cases erred

end DispatchState

end Rankuno
