import Rankuno.WorkerDispatch.Routes

/-!
# What one step does to one job row

Every event leaves a job's row alone, creates it, or rewrites it in one of
three ways. `row_effect` says which, with the guard under which the row was
chosen, so that no later proof opens a transaction again.
-/

namespace Rankuno

namespace DispatchStore

theorem oldest_mem {js : List WorkerJob} {j : WorkerJob} (h : oldest js = some j) : j ∈ js := by
  induction js generalizing j with
  | nil => cases h
  | cons k js ih =>
    unfold oldest at h
    cases hrest : oldest js with
    | none =>
      rw [hrest] at h
      cases h
      exact List.mem_cons_self
    | some l =>
      simp only [hrest] at h
      split at h
      · cases h
        exact List.mem_cons_of_mem _ (ih hrest)
      · cases h
        exact List.mem_cons_self

theorem oldest_eq_none {js : List WorkerJob} : oldest js = none ↔ js = [] := by
  cases js with
  | nil => simp [oldest]
  | cons k js =>
    simp only [oldest, reduceCtorEq, iff_false]
    cases oldest js with
    | none => simp
    | some l =>
      simp only
      split <;> simp

theorem nextJob_spec {s : DispatchStore} {workerId orgId : String} {locked : List String}
    {j : WorkerJob} (h : s.nextJob workerId orgId locked = some j) :
    s.jobs.find? j.id = some j ∧ j.status = .queued ∧ j.workerId = workerId ∧ j.orgId = orgId := by
  obtain ⟨mem, selected⟩ := List.mem_filter.mp (oldest_mem h)
  obtain ⟨hworker, horg, hstatus, -⟩ := of_decide_eq_true selected
  exact ⟨Table.find?_key mem, hstatus, hworker, horg⟩

theorem findActiveJob_eq_none {s : DispatchStore} {workerId orgId : String} :
    s.findActiveJob workerId orgId = none ↔
      ∀ id j, s.jobs.find? id = some j → j.workerId = workerId → j.orgId = orgId →
        ¬j.status.IsActive := by
  unfold findActiveJob
  rw [oldest_eq_none, List.filter_eq_nil_iff]
  constructor
  · intro h id j hj hworker horg hactive
    exact h j (Table.find?_eq_some.mp hj).1 (decide_eq_true ⟨hworker, horg, hactive⟩)
  · intro h j mem selected
    obtain ⟨hworker, horg, hactive⟩ := of_decide_eq_true selected
    exact h j.id j (Table.find?_key mem) hworker horg hactive

theorem find?_update_id {jobs : Table String WorkerJob.id} {jobId : String}
    {f : WorkerJob → WorkerJob} (keep : ∀ j, (f j).id = j.id) (id : String) :
    (jobs.update (fun j => j.id = jobId) f keep).find? id =
      (jobs.find? id).map fun j => if id = jobId then f j else j := by
  rw [Table.find?_update]
  cases hid : jobs.find? id with
  | none => rfl
  | some j =>
    have hj : j.id = id := (Table.find?_eq_some.mp hid).2
    simp [hj]

theorem map_of_find?_none {jobs : Table String WorkerJob.id} {jobId : String}
    {f : WorkerJob → WorkerJob} (h : jobs.find? jobId = none) (id : String) :
    jobs.find? id = (jobs.find? id).map fun j => if id = jobId then f j else j := by
  by_cases same : id = jobId
  · rw [same, h]
    rfl
  · simp [same]

theorem confirmDispatch_cases (s : DispatchStore) (args : ConfirmArgs)
    (urlListUrlCount : Option Nat) (jobId : String) (now : Timestamp) :
    ((∀ job, (s.confirmDispatch args urlListUrlCount jobId now).1 ≠ .ok (some job)) ∧
      (s.confirmDispatch args urlListUrlCount jobId now).2 = s) ∨
    ((∃ row ∈ s.previews.rows, Consumes args now row) ∧ s.jobs.find? jobId = none ∧
      (s.confirmDispatch args urlListUrlCount jobId now).1 =
        .ok (some (queuedJob args urlListUrlCount jobId now)) ∧
      (s.confirmDispatch args urlListUrlCount jobId now).2.previews = consume s.previews args now ∧
      ∀ id, (s.confirmDispatch args urlListUrlCount jobId now).2.jobs.find? id =
        if jobId = id then some (queuedJob args urlListUrlCount jobId now)
        else s.jobs.find? id) := by
  unfold confirmDispatch
  split
  · next consumes =>
    simp only [List.any_eq_true, decide_eq_true_eq] at consumes
    cases hinsert : s.jobs.insert? (queuedJob args urlListUrlCount jobId now) with
    | none => exact .inl ⟨fun job => by simp, rfl⟩
    | some jobs =>
      exact .inr ⟨consumes, (Table.insert?_eq_some.mp hinsert).1, rfl, rfl,
        fun id => Table.find?_insert? hinsert⟩
  · exact .inl ⟨fun job => by simp, rfl⟩

theorem claimNextJob_cases (s : DispatchStore) (workerId orgId : String) (locked : List String)
    (now : Timestamp) :
    (s.claimNextJob workerId orgId locked now).1 = none ∧
      (s.claimNextJob workerId orgId locked now).2 = s ∨
    ∃ j, s.nextJob workerId orgId locked = some j ∧
      (s.claimNextJob workerId orgId locked now).1 = some (claimed now j) ∧
      (s.claimNextJob workerId orgId locked now).2.previews = s.previews ∧
      ∀ id, (s.claimNextJob workerId orgId locked now).2.jobs.find? id =
        if j.id = id then some (claimed now j) else s.jobs.find? id := by
  unfold claimNextJob
  cases hnext : s.nextJob workerId orgId locked with
  | none => exact .inl ⟨rfl, rfl⟩
  | some j =>
    refine .inr ⟨j, rfl, rfl, rfl, fun id => ?_⟩
    obtain ⟨hj, -⟩ := nextJob_spec hnext
    refine (find?_update_id (claimed_id now) id).trans ?_
    by_cases same : j.id = id
    · rw [← same, hj]
      simp
    · simp [same, Ne.symm same]

theorem expireStaleDispatched_job (s : DispatchStore) (orgId : String) (olderThan : Int)
    (checkedAt now : Timestamp) (id : String) :
    (s.expireStaleDispatched orgId olderThan checkedAt now).2.jobs.find? id =
      (s.jobs.find? id).map fun j =>
        if IsStale orgId (checkedAt - olderThan) j then expired olderThan now j else j := by
  simp only [expireStaleDispatched, Table.find?_update, decide_eq_true_eq]

theorem transition_job (s : DispatchStore) (jobId : String) (status : WorkerJobStatus)
    (bundleSizeBytes : Option Nat) (error : Option String) (now : Timestamp) (id : String) :
    (s.transition jobId status bundleSizeBytes error now).2.jobs.find? id =
      (s.jobs.find? id).map fun j =>
        if id = jobId then transitioned status bundleSizeBytes error now j else j := by
  unfold transition
  cases hjob : s.jobs.find? jobId with
  | none => exact map_of_find?_none hjob id
  | some k => exact find?_update_id (transitioned_id status bundleSizeBytes error now) id

theorem updateJobProgress_job (s : DispatchStore) (jobId : String) (pages : Option Nat)
    (pct : Option Rat) (phase : Option WorkerJobPhase) (now : Timestamp) (id : String) :
    (s.updateJobProgress jobId pages pct phase now).2.jobs.find? id = (s.jobs.find? id).map fun j =>
        if id = jobId then progressed pages pct phase now j else j := by
  unfold updateJobProgress
  cases hjob : s.jobs.find? jobId with
  | none => exact map_of_find?_none hjob id
  | some k => exact find?_update_id (progressed_id pages pct phase now) id

end DispatchStore

namespace WorkerReport

/-- The row a report leaves of the job it is about. -/
def written (now : Timestamp) : WorkerReport → WorkerJob → WorkerJob
  | .emptyUpload => DispatchStore.transitioned .failed none (some emptyBundleError) now
  | .upload bundleSizeBytes spinePresent =>
    DispatchStore.transitioned (if !spinePresent then .partialBundle else .succeeded)
      (some bundleSizeBytes) (if spinePresent then none else some missingSpineReason) now
  | .failure error => DispatchStore.transitioned .failed none (some error) now
  | .progress pages pct phase => DispatchStore.progressed pages pct phase now

theorem apply_job (report : WorkerReport) (s : DispatchStore) (jobId : String)
    (now : Timestamp) (id : String) :
    (report.apply s jobId now).2.jobs.find? id =
      (s.jobs.find? id).map fun j => if id = jobId then report.written now j else j := by
  cases report with
  | emptyUpload => exact s.transition_job jobId _ _ _ now id
  | upload size spinePresent => exact s.transition_job jobId _ _ _ now id
  | failure error => exact s.transition_job jobId _ _ _ now id
  | progress pages pct phase => exact s.updateJobProgress_job jobId pages pct phase now id

theorem apply_previews (report : WorkerReport) (s : DispatchStore) (jobId : String)
    (now : Timestamp) : (report.apply s jobId now).2.previews = s.previews := by
  cases report
  all_goals
    simp only [apply, DispatchStore.markFailed, DispatchStore.markUploaded,
      DispatchStore.transition, DispatchStore.updateJobProgress]
    split <;> rfl

theorem written_status (now : Timestamp) (report : WorkerReport) (j : WorkerJob) :
    (report.written now j).status = report.writes.getD j.status := by
  cases report with
  | upload size spinePresent => cases spinePresent <;> rfl
  | _ => rfl

theorem written_owner (now : Timestamp) (report : WorkerReport) (j : WorkerJob) :
    (report.written now j).workerId = j.workerId ∧ (report.written now j).orgId = j.orgId ∧
      (report.written now j).envelope = j.envelope := by
  cases report <;> exact ⟨rfl, rfl, rfl⟩

end WorkerReport

namespace DispatchState

open DispatchStore

variable {s t : DispatchState} {event : DispatchEvent}

/-- Everything an event can do to the row of the job `id`. -/
inductive RowEffect (s : DispatchState) (event : DispatchEvent) (id : String) :
    Option WorkerJob → Option WorkerJob → Prop where
  | untouched (row) : RowEffect s event id row row
  | created (call : Nat) (args : ConfirmArgs) (urlListUrlCount : Option Nat) (now : Timestamp)
      (hevent : event = .finishConfirm call urlListUrlCount id now)
      (pending : s.confirms[call]? = some args) :
      RowEffect s event id none (some (queuedJob args urlListUrlCount id now))
  | claimed (j : WorkerJob) (locked : List String) (now : Timestamp)
      (hevent : event = .claim j.workerId j.orgId locked now) (hqueued : j.status = .queued) :
      RowEffect s event id (some j) (some (claimed now j))
  | expired (j : WorkerJob) (olderThan : Int) (checkedAt now : Timestamp)
      (hevent : event = .expire j.orgId olderThan checkedAt now)
      (hdispatched : j.status = .dispatched) :
      RowEffect s event id (some j) (some (expired olderThan now j))
  | reported (j : WorkerJob) (call : Nat) (report : WorkerReport) (now : Timestamp)
      (hevent : event = .finishReport call now)
      (pending : s.reports[call]? = some (id, report)) :
      RowEffect s event id (some j) (some (report.written now j))

theorem row_effect (hstep : machine.step s event = some t) (id : String) :
    RowEffect s event id (s.job id) (t.job id) := by
  cases event with
  | preview row =>
    cases hstep
    have same : (s.store.mintDispatchPreview row).2.jobs = s.store.jobs := by
      unfold mintDispatchPreview
      split <;> rfl
    rw [job, job, same]
    exact .untouched _
  | beginConfirm args =>
    obtain ⟨-, same⟩ := Option.ite_none_right_eq_some.mp hstep
    cases same
    exact .untouched _
  | finishConfirm call count jobId now =>
    obtain ⟨args, pending, rfl⟩ := Option.map_eq_some_iff.mp hstep
    rcases s.store.confirmDispatch_cases args count jobId now with
      ⟨-, unchanged⟩ | ⟨-, fresh, -, -, jobs⟩
    · rw [job, job, unchanged]
      exact .untouched _
    · rw [job, job, jobs]
      split
      · next same =>
        subst same
        rw [fresh]
        exact .created call args count now rfl pending
      · exact .untouched _
  | claim workerId orgId locked now =>
    cases hstep
    rcases s.store.claimNextJob_cases workerId orgId locked now with
      ⟨-, unchanged⟩ | ⟨j, next, -, -, jobs⟩
    · rw [job, job, unchanged]
      exact .untouched _
    · obtain ⟨hj, hqueued, rfl, rfl⟩ := nextJob_spec next
      rw [job, job, jobs]
      split
      · next same =>
        rw [← same, hj]
        exact .claimed j locked now rfl hqueued
      · exact .untouched _
  | expire orgId olderThan checkedAt now =>
    cases hstep
    rw [job, job, expireStaleDispatched_job]
    cases s.store.jobs.find? id with
    | none => exact .untouched _
    | some j =>
      rw [Option.map_some]
      split
      · next stale =>
        obtain ⟨rfl, hdispatched, -⟩ := stale
        exact .expired j olderThan checkedAt now rfl hdispatched
      · exact .untouched _
  | beginReport workerId orgId jobId report =>
    obtain ⟨-, same⟩ := Option.ite_none_right_eq_some.mp hstep
    cases same
    exact .untouched _
  | finishReport call now =>
    obtain ⟨⟨jobId, report⟩, pending, rfl⟩ := Option.map_eq_some_iff.mp hstep
    rw [job, job, WorkerReport.apply_job]
    cases s.store.jobs.find? id with
    | none => exact .untouched _
    | some j =>
      rw [Option.map_some]
      split
      · next same =>
        subst same
        exact .reported j call report now rfl pending
      · exact .untouched _

end DispatchState

end Rankuno
