import Rankuno.Foundation.Finality
import Rankuno.WorkerDispatch.Steps

/-!
# The lifecycle of a dispatched job

A job is meant to move one way, from queued to dispatched by a claim and from
dispatched to one final status. The claim and the sweep name the status they
start from in their `WHERE` clause; the reports do not. A run keeps every job on
its way exactly when each report's update finds its job dispatched, or already
in the status it writes.
-/

namespace Rankuno

namespace DispatchState

variable {s t : DispatchState} {event : DispatchEvent}

/-- How one step may change the row of a job. -/
inductive OneWay : Option WorkerJob → Option WorkerJob → Prop where
  | absent : OneWay none none
  | created {k} (h : k.status = .queued) : OneWay none (some k)
  | kept {j k} (h : k.status = j.status) : OneWay (some j) (some k)
  | claimed {j k} (hj : j.status = .queued) (hk : k.status = .dispatched) : OneWay (some j) (some k)
  | finished {j k} (hj : j.status = .dispatched) (hk : k.status.IsTerminal) :
      OneWay (some j) (some k)

/-- Each step of the run moves each job one way. -/
def MovesOneWay (s : DispatchState) (events : List DispatchEvent) : Prop :=
  machine.Stepwise (fun u v => ∀ id, OneWay (u.job id) (v.job id)) s events

/-- Within these events, a claim moved the job from queued to dispatched. -/
def WasClaimed (s : DispatchState) (events : List DispatchEvent) (id : String) : Prop :=
  ∃ before workerId orgId locked now after u v j k,
    events = before ++ .claim workerId orgId locked now :: after ∧
    machine.run s before = some u ∧
    machine.step u (.claim workerId orgId locked now) = some v ∧
    u.job id = some j ∧ j.status = .queued ∧ v.job id = some k ∧ k.status = .dispatched

/-- A job that is over has been claimed before. -/
def ClaimedFirst (s : DispatchState) (events : List DispatchEvent) : Prop :=
  ∀ pre post u id j, events = pre ++ post → machine.run s pre = some u →
    u.job id = some j → j.status.IsTerminal → WasClaimed s pre id

/-- A job that is over keeps its status. -/
def TerminalStays (u v : DispatchState) : Prop :=
  FinalStays job WorkerJob.status WorkerJobStatus.IsTerminal u v

/-- The lifecycle of every job over a whole run. -/
structure Lifecycle (s : DispatchState) (events : List DispatchEvent) : Prop where
  one_way : MovesOneWay s events
  terminal_stays : machine.Relates TerminalStays s events
  claimed_first : ClaimedFirst s events

/-- A finishing report finds its job dispatched, or in the status it writes. -/
def FindsItsJobDispatched (s : DispatchState) : DispatchEvent → Prop
  | .finishReport call _ =>
    ∀ id report status j, s.reports[call]? = some (id, report) →
      report.writes = some status → s.job id = some j →
      j.status = .dispatched ∨ j.status = status
  | _ => True

theorem isTerminal_ne_queued {status : WorkerJobStatus} (h : status.IsTerminal) :
    status ≠ .queued := by
  rintro rfl
  exact h

theorem isTerminal_ne_dispatched {status : WorkerJobStatus} (h : status.IsTerminal) :
    status ≠ .dispatched := by
  rintro rfl
  exact h

theorem oneWay_written {j : WorkerJob} {report : WorkerReport} {now : Timestamp} :
    OneWay (some j) (some (report.written now j)) ↔
      ∀ status, report.writes = some status → j.status = .dispatched ∨ j.status = status := by
  constructor
  · intro h status writes
    have hk : (report.written now j).status = status := by
      rw [report.written_status, writes, Option.getD_some]
    have terminal := WorkerReport.isTerminal_of_writes writes
    rcases h with _ | _ | same | ⟨-, hdispatched⟩ | ⟨hj, -⟩
    · exact .inr (same.symm.trans hk)
    · rw [hk] at hdispatched
      exact absurd hdispatched (isTerminal_ne_dispatched terminal)
    · exact .inl hj
  · intro h
    cases writes : report.writes with
    | none => exact .kept (by rw [report.written_status, writes, Option.getD_none])
    | some status =>
      have hk : (report.written now j).status = status := by
        rw [report.written_status, writes, Option.getD_some]
      rcases h status writes with hj | hj
      · exact .finished hj (hk ▸ WorkerReport.isTerminal_of_writes writes)
      · exact .kept (hk.trans hj.symm)

theorem oneWay_step (hstep : machine.step s event = some t) :
    (∀ id, OneWay (s.job id) (t.job id)) ↔ s.FindsItsJobDispatched event := by
  constructor
  · intro h
    cases event with
    | finishReport call now =>
      intro id report status j pending writes hj
      have written : t.job id = some (report.written now j) := by
        obtain ⟨⟨jobId, other⟩, hother, rfl⟩ := Option.map_eq_some_iff.mp hstep
        cases pending.symm.trans hother
        rw [job, WorkerReport.apply_job]
        rw [job] at hj
        simp [hj]
      have step := h id
      rw [hj, written] at step
      exact oneWay_written.mp step status writes
    | _ => trivial
  · intro h id
    have effect := row_effect hstep id
    generalize t.job id = after at effect
    generalize hbefore : s.job id = before at effect
    cases effect with
    | untouched row =>
      cases after with
      | none => exact .absent
      | some j => exact .kept rfl
    | created call args count now hevent pending => exact .created rfl
    | claimed j locked now hevent hqueued => exact .claimed hqueued rfl
    | expired j olderThan checkedAt now hevent hdispatched =>
      exact .finished hdispatched trivial
    | reported j call report now hevent pending =>
      subst hevent
      exact oneWay_written.mpr fun status writes => h id report status j pending writes hbefore

theorem terminalStays_of_oneWay (h : ∀ id, OneWay (s.job id) (t.job id)) : TerminalStays s t := by
  intro id j hj terminal
  have step := h id
  rw [hj] at step
  generalize hafter : t.job id = after at step
  cases step with
  | kept same => exact ⟨_, rfl, same⟩
  | claimed hqueued => exact absurd hqueued (isTerminal_ne_queued terminal)
  | finished hdispatched => exact absurd hdispatched (isTerminal_ne_dispatched terminal)

theorem claim_of_dispatched (hstep : machine.step s event = some t) {id : String}
    {j k : WorkerJob} (hj : s.job id = some j) (hqueued : j.status = .queued)
    (hk : t.job id = some k) (hdispatched : k.status = .dispatched) :
    ∃ workerId orgId locked now, event = .claim workerId orgId locked now := by
  have effect := row_effect hstep id
  rw [hj, hk] at effect
  cases effect with
  | untouched => exact absurd (hqueued.symm.trans hdispatched) (by decide)
  | claimed _ locked now hevent => exact ⟨_, _, locked, now, hevent⟩
  | expired _ olderThan checkedAt now hevent hj' =>
    exact absurd (hqueued.symm.trans hj') (by decide)
  | reported _ call report now hevent pending =>
    rw [report.written_status] at hdispatched
    cases writes : report.writes with
    | none =>
      rw [writes, Option.getD_none, hqueued] at hdispatched
      cases hdispatched
    | some status =>
      rw [writes, Option.getD_some] at hdispatched
      exact absurd hdispatched
        (isTerminal_ne_dispatched (WorkerReport.isTerminal_of_writes writes))

variable {events : List DispatchEvent}

theorem WasClaimed.append {id : String}
    (h : WasClaimed s events id) (more : List DispatchEvent) :
    WasClaimed s (events ++ more) id := by
  obtain ⟨before, workerId, orgId, locked, now, after, u, v, j, k, rfl, rest⟩ := h
  exact ⟨before, workerId, orgId, locked, now, after ++ more, u, v, j, k, by simp, rest⟩

theorem wasClaimed_of_movesOneWay
    (moves : MovesOneWay .empty events) (run : machine.run .empty events = some s)
    {id : String} {j : WorkerJob} (hj : s.job id = some j) (left : j.status ≠ .queued) :
    WasClaimed .empty events id := by
  induction events using List.reverseRecOn generalizing s j with
  | nil =>
    cases run
    cases hj
  | append_singleton events event ih =>
    obtain ⟨r, hr, hlast⟩ := Machine.run_append_eq_some.mp run
    rw [Machine.run_singleton] at hlast
    have earlier : MovesOneWay .empty events := by
      intro pre a post u v split
      exact moves pre a (post ++ [event]) u v (by simp [split])
    have step := moves events event [] r s rfl hr hlast id
    rw [hj] at step
    generalize hbefore : r.job id = before at step
    cases step with
    | created h => exact absurd h left
    | kept h => exact (ih earlier hr hbefore (h ▸ left)).append [event]
    | claimed hqueued hdispatched =>
      obtain ⟨workerId, orgId, locked, now, rfl⟩ :=
        claim_of_dispatched hlast hbefore hqueued hj hdispatched
      exact ⟨events, workerId, orgId, locked, now, [], r, s, _, j, rfl, hr, hlast,
        hbefore, hqueued, hj, hdispatched⟩
    | finished hdispatched h =>
      refine (ih earlier hr hbefore ?_).append [event]
      rw [hdispatched]
      decide

theorem claimedFirst_of_movesOneWay
    (moves : MovesOneWay .empty events) : ClaimedFirst .empty events := by
  rintro pre post u id j rfl hu hj terminal
  have earlier : MovesOneWay .empty pre := by
    intro first a rest v w split
    exact moves first a (rest ++ post) v w (by simp [split])
  exact wasClaimed_of_movesOneWay earlier hu hj (isTerminal_ne_queued terminal)

theorem movesOneWay_iff :
    MovesOneWay .empty events ↔ machine.Meets FindsItsJobDispatched .empty events := by
  refine Machine.stepwise_iff_meets (I := fun _ => True) (fun _ _ _ _ _ => trivial)
    (fun _ _ _ _ hstep => oneWay_step hstep) ?_ trivial
  intro s event stuck
  cases event with
  | finishReport call now =>
    intro id report status j pending
    rw [Option.map_eq_none_iff.mp stuck] at pending
    cases pending
  | _ => trivial

/-- From empty tables, a run keeps the lifecycle of every job exactly when each
finishing report finds its job dispatched, or in the status it writes. -/
theorem lifecycle_iff_reports_find_dispatched (events : List DispatchEvent) :
    Lifecycle .empty events ↔ machine.Meets FindsItsJobDispatched .empty events := by
  rw [← movesOneWay_iff]
  constructor
  · exact fun h => h.one_way
  · intro moves
    refine ⟨moves, ?_, claimedFirst_of_movesOneWay moves⟩
    exact Machine.relates_of_meets (I := fun _ => True) FinalStays.refl
      (fun {_ _ _} => FinalStays.trans) (fun _ _ _ _ _ _ => trivial)
      (fun _ _ _ _ guard hstep => terminalStays_of_oneWay ((oneWay_step hstep).mpr guard))
      trivial (movesOneWay_iff.mp moves)

/-- A claimed job that the sweep failed while its upload was still on the way. -/
def expiredDuringUpload : List DispatchEvent :=
  [.preview ⟨"t", "org", "w", "https://example.com/", none, "c", 120, none, none⟩,
    .beginConfirm ⟨"t", "org", "w", "https://example.com/", none, "c", none⟩,
    .finishConfirm 0 none "j" 1, .claim "w" "org" [] 2,
    .beginReport "w" "org" "j" (.upload 9 true), .expire "org" 10 50 50]

/-- A bundle whose upload was accepted before the sweep is recorded after it:
the failed job becomes a succeeded one. -/
theorem late_upload_revives_expired_job : ¬∀ events, Lifecycle .empty events := by
  intro h
  have stays := (h (expiredDuringUpload ++ [.finishReport 0 60])).terminal_stays
  obtain ⟨u, hu, hfailed⟩ := Option.map_eq_some_iff.mp
    (show (machine.run .empty expiredDuringUpload).map
      (fun u => (u.job "j").map WorkerJob.status) = some (some .failed) by decide)
  obtain ⟨v, hv, hsucceeded⟩ := Option.map_eq_some_iff.mp
    (show (machine.run .empty (expiredDuringUpload ++ [.finishReport 0 60])).map
      (fun v => (v.job "j").map WorkerJob.status) = some (some .succeeded) by decide)
  obtain ⟨j, hj, failed⟩ := Option.map_eq_some_iff.mp hfailed
  obtain ⟨k, hk, same⟩ := stays.endpoints hu hv "j" j hj (failed ▸ trivial)
  rw [hk, Option.map_some, same, failed] at hsucceeded
  cases hsucceeded

end DispatchState

end Rankuno
