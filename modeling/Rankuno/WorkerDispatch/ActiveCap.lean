import Rankuno.WorkerDispatch.Steps

/-!
# One active job per worker

A worker runs one Screaming Frog crawl at a time. The confirming route looks
for an active job in one transaction and queues the new one in another, so the
cap holds in every state of a run exactly when each confirmation that queues a
job still finds none active.
-/

namespace Rankuno

namespace DispatchState

open DispatchStore

variable {s t : DispatchState} {event : DispatchEvent}

/-- No worker has two jobs queued or dispatched. -/
def OneActivePerWorker (s : DispatchState) : Prop :=
  ∀ id id' j j', s.job id = some j → s.job id' = some j' → j.status.IsActive → j'.status.IsActive →
    j.workerId = j'.workerId → j.orgId = j'.orgId → id = id'

/-- A confirmation that queues a job finds no active job for its worker. -/
def QueuesOnlyWhenIdle (s : DispatchState) : DispatchEvent → Prop
  | .finishConfirm call urlListUrlCount jobId now =>
    ∀ args job, s.confirms[call]? = some args →
      (s.store.confirmDispatch args urlListUrlCount jobId now).1 = .ok (some job) →
      s.store.findActiveJob args.workerId args.orgId = none
  | _ => True

theorem not_isActive_of_isTerminal {status : WorkerJobStatus} (h : status.IsTerminal) :
    ¬status.IsActive := by
  cases status
  all_goals first | exact h.elim | exact id

theorem active_before (hstep : machine.step s event = some t) {id : String} {k : WorkerJob}
    (hk : t.job id = some k) (hactive : k.status.IsActive) :
    (∃ call args count now, event = .finishConfirm call count id now ∧
      s.confirms[call]? = some args ∧ s.job id = none ∧ k = queuedJob args count id now) ∨
    ∃ j, s.job id = some j ∧ j.status.IsActive ∧ j.workerId = k.workerId ∧ j.orgId = k.orgId := by
  have effect := row_effect hstep id
  rw [hk] at effect
  generalize hbefore : s.job id = before at effect
  cases effect with
  | untouched => exact .inr ⟨k, rfl, hactive, rfl, rfl⟩
  | created call args count now hevent pending =>
    exact .inl ⟨call, args, count, now, hevent, pending, rfl, rfl⟩
  | claimed j locked now hevent hqueued =>
    exact .inr ⟨j, rfl, hqueued ▸ trivial, rfl, rfl⟩
  | expired j olderThan checkedAt now hevent hdispatched => exact hactive.elim
  | reported j call report now hevent pending =>
    obtain ⟨hworker, horg, -⟩ := report.written_owner now j
    refine .inr ⟨j, rfl, ?_, hworker.symm, horg.symm⟩
    rw [report.written_status] at hactive
    cases writes : report.writes with
    | none => rwa [writes, Option.getD_none] at hactive
    | some status =>
      rw [writes, Option.getD_some] at hactive
      exact absurd hactive
        (not_isActive_of_isTerminal (WorkerReport.isTerminal_of_writes writes))

theorem finishConfirm_spec {call : Nat} {count : Option Nat} {jobId : String} {now : Timestamp}
    {args : ConfirmArgs} {job : WorkerJob} (pending : s.confirms[call]? = some args)
    (queues : (s.store.confirmDispatch args count jobId now).1 = .ok (some job))
    (hstep : machine.step s (.finishConfirm call count jobId now) = some t) :
    s.job jobId = none ∧ ∀ id, t.job id =
        if jobId = id then some (queuedJob args count jobId now) else s.job id := by
  obtain ⟨other, hother, rfl⟩ := Option.map_eq_some_iff.mp hstep
  cases pending.symm.trans hother
  rcases s.store.confirmDispatch_cases args count jobId now with
    ⟨refused, -⟩ | ⟨-, fresh, -, -, jobs⟩
  · exact absurd queues (refused job)
  · exact ⟨fresh, jobs⟩

theorem oneActive_finishConfirm {call : Nat} {count : Option Nat} {jobId : String}
    {now : Timestamp} {args : ConfirmArgs} {job : WorkerJob} (h : s.OneActivePerWorker)
    (pending : s.confirms[call]? = some args)
    (queues : (s.store.confirmDispatch args count jobId now).1 = .ok (some job))
    (hstep : machine.step s (.finishConfirm call count jobId now) = some t) :
    t.OneActivePerWorker ↔ s.store.findActiveJob args.workerId args.orgId = none := by
  obtain ⟨fresh, rows⟩ := finishConfirm_spec pending queues hstep
  have created : t.job jobId = some (queuedJob args count jobId now) := by
    rw [rows, if_pos rfl]
  rw [findActiveJob_eq_none]
  constructor
  · intro cap id j hj hworker horg hactive
    have other : jobId ≠ id := by
      rintro rfl
      cases fresh.symm.trans hj
    have kept : t.job id = some j := by
      rw [rows, if_neg other]
      exact hj
    exact other (cap jobId id _ j created kept trivial hactive hworker.symm horg.symm)
  · intro idle
    -- a row other than the new one was there before, and cannot share its worker
    have apart : ∀ id j, jobId ≠ id → t.job id = some j → j.status.IsActive →
        ¬(args.workerId = j.workerId ∧ args.orgId = j.orgId) := by
      rintro id j other hj hactive ⟨hworker, horg⟩
      rw [rows, if_neg other] at hj
      exact idle id j hj hworker.symm horg.symm hactive
    intro id id' j j' hj hj' hactive hactive' hworker horg
    by_cases first : jobId = id
    · subst first
      cases created.symm.trans hj
      by_contra other
      exact apart id' j' other hj' hactive' ⟨hworker, horg⟩
    · by_cases second : jobId = id'
      · subst second
        cases created.symm.trans hj'
        exact absurd ⟨hworker.symm, horg.symm⟩ (apart id j first hj hactive)
      · rw [rows, if_neg first] at hj
        rw [rows, if_neg second] at hj'
        exact h id id' j j' hj hj' hactive hactive' hworker horg

theorem oneActive_step (h : s.OneActivePerWorker) (hstep : machine.step s event = some t) :
    t.OneActivePerWorker ↔ s.QueuesOnlyWhenIdle event := by
  by_cases queues : ∃ call args count jobId now job,
      event = .finishConfirm call count jobId now ∧ s.confirms[call]? = some args ∧
        (s.store.confirmDispatch args count jobId now).1 = .ok (some job)
  · obtain ⟨call, args, count, jobId, now, job, rfl, pending, queues⟩ := queues
    rw [oneActive_finishConfirm h pending queues hstep]
    constructor
    · intro idle args' job' pending'
      cases pending.symm.trans pending'
      exact fun _ => idle
    · exact fun condition => condition args job pending queues
  · -- no row is created, so each active row was active before
    have before : ∀ {id k}, t.job id = some k → k.status.IsActive →
        ∃ j, s.job id = some j ∧ j.status.IsActive ∧ j.workerId = k.workerId ∧
          j.orgId = k.orgId := by
      intro id k hk hactive
      rcases active_before hstep hk hactive with
        ⟨call, args, count, now, rfl, pending, fresh, rfl⟩ | kept
      · exfalso
        obtain ⟨other, hother, rfl⟩ := Option.map_eq_some_iff.mp hstep
        cases pending.symm.trans hother
        rcases s.store.confirmDispatch_cases args count id now with
          ⟨-, unchanged⟩ | ⟨-, -, accepted, -, -⟩
        · rw [job, unchanged] at hk
          cases fresh.symm.trans hk
        · exact queues ⟨call, args, count, id, now, _, rfl, pending, accepted⟩
      · exact kept
    constructor
    · intro _
      cases event with
      | finishConfirm call count jobId now =>
        intro args job pending accepted
        exact absurd ⟨call, args, count, jobId, now, job, rfl, pending, accepted⟩ queues
      | _ => trivial
    · intro _ id id' k k' hk hk' hactive hactive' hworker horg
      obtain ⟨j, hj, jactive, jworker, jorg⟩ := before hk hactive
      obtain ⟨j', hj', jactive', jworker', jorg'⟩ := before hk' hactive'
      exact h id id' j j' hj hj' jactive jactive'
        (jworker.trans (hworker.trans jworker'.symm)) (jorg.trans (horg.trans jorg'.symm))

theorem OneActivePerWorker.empty : OneActivePerWorker .empty := by
  intro id id' j j' hj
  cases hj

/-- From empty tables, no worker ever has two active jobs exactly when each
confirmation that queues a job still finds none active for its worker. -/
theorem one_active_iff_confirms_find_idle (events : List DispatchEvent) :
    machine.Always OneActivePerWorker .empty events ↔
      machine.Meets QueuesOnlyWhenIdle .empty events := by
  refine Machine.always_iff_meets (fun _ _ _ => oneActive_step) ?_ .empty
  intro s event stuck
  cases event with
  | finishConfirm call count jobId now =>
    intro args job pending
    rw [Option.map_eq_none_iff.mp stuck] at pending
    cases pending
  | _ => trivial

/-- Two confirming calls, each with its own token, both find no active job
before either queues one. -/
theorem overlapping_confirms_queue_two_jobs :
    ¬∀ events, machine.Always OneActivePerWorker .empty events := by
  intro h
  obtain ⟨s, hs, hjobs⟩ := Option.map_eq_some_iff.mp
    (show (machine.run .empty
        [.preview ⟨"t", "org", "w", "https://example.com/", none, "c", 120, none, none⟩,
          .preview ⟨"u", "org", "w", "https://example.com/", none, "d", 120, none, none⟩,
          .beginConfirm ⟨"t", "org", "w", "https://example.com/", none, "c", none⟩,
          .beginConfirm ⟨"u", "org", "w", "https://example.com/", none, "d", none⟩,
          .finishConfirm 0 none "j" 1, .finishConfirm 0 none "k" 2]).map
        (fun s => (["j", "k"].map fun id => (s.job id).map fun j =>
          (j.workerId, j.orgId, j.status))) =
      some [some ("w", "org", .queued), some ("w", "org", .queued)] by decide)
  have cap := (h _).last hs
  simp only [List.map_cons, List.map_nil, List.cons.injEq, and_true,
    Option.map_eq_some_iff, Prod.mk.injEq] at hjobs
  obtain ⟨⟨j, hj, jworker, jorg, jstatus⟩, k, hk, kworker, korg, kstatus⟩ := hjobs
  have same := cap "j" "k" j k hj hk (jstatus ▸ trivial) (kstatus ▸ trivial)
    (jworker.trans kworker.symm) (jorg.trans korg.symm)
  exact absurd same (by decide)

end DispatchState

end Rankuno
