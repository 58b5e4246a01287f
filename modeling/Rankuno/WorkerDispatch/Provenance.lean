import Rankuno.WorkerDispatch.Steps

/-!
# Where a dispatch job comes from

The log of a run keeps every preview that was minted and every consumption: the
preview a confirming call found, the job it queued and when. Over any run each
job row is bound to what one consumed preview names, and no preview and no job
id is in two consumptions.
-/

namespace Rankuno

/-- What an approval binds a job to. -/
structure DispatchTerms where
  jobId : String
  orgId : String
  workerId : String
  seedUrl : String
  templateName : Option String
  urlListSha256 : Option String
  deriving DecidableEq

def WorkerJob.terms (j : WorkerJob) : DispatchTerms :=
  ⟨j.id, j.orgId, j.workerId, j.envelope.seedUrl, j.envelope.templateName, j.envelope.urlListSha256⟩

/-- A confirming call that queued a job: the preview as it found it, the job's
id and the time it recorded. -/
structure Consumption where
  preview : DispatchPreview
  jobId : String
  consumedAt : Timestamp
  deriving DecidableEq

namespace Consumption

def terms (c : Consumption) : DispatchTerms :=
  ⟨c.jobId, c.preview.orgId, c.preview.workerId, c.preview.seedUrl, c.preview.templateName,
    c.preview.urlListSha256⟩

end Consumption

/-- What has been minted and what has been consumed, in order. -/
structure DispatchLog where
  minted : List DispatchPreview
  consumed : List Consumption
  deriving DecidableEq

theorem WorkerReport.written_terms (now : Timestamp) (report : WorkerReport) (j : WorkerJob) :
    (report.written now j).terms = j.terms := by
  cases report <;> rfl

namespace DispatchState

open DispatchStore

/-- The preview a step mints. -/
def mintedBy (s : DispatchState) : DispatchEvent → Option DispatchPreview
  | .preview row =>
    match (s.store.mintDispatchPreview row).1 with
    | .ok minted => some minted
    | .error _ => none
  | _ => none

/-- The consumption a step makes. -/
def consumedBy (s : DispatchState) : DispatchEvent → Option Consumption
  | .finishConfirm call urlListUrlCount jobId now =>
    match s.confirms[call]? with
    | none => none
    | some args =>
      match (s.store.confirmDispatch args urlListUrlCount jobId now).1,
          s.store.previews.find? args.token with
      | .ok (some job), some preview => some ⟨preview, job.id, now⟩
      | _, _ => none
  | _ => none

def jobTerms (s : DispatchState) (id : String) : Option DispatchTerms :=
  (s.job id).map WorkerJob.terms

variable {s t : DispatchState} {event : DispatchEvent}

/-- Everything an event can do to the previews and to the terms of the jobs. -/
inductive ApprovalEffect (s : DispatchState) (event : DispatchEvent) (t : DispatchState) :
    Prop where
  | quiet (unminted : s.mintedBy event = none) (unconsumed : s.consumedBy event = none)
      (previews : t.store.previews = s.store.previews)
      (jobs : ∀ id, t.jobTerms id = s.jobTerms id)
  | minted (row : DispatchPreview) (minted : s.mintedBy event = some row)
      (unconsumed : s.consumedBy event = none)
      (fresh : s.store.previews.find? row.token = none)
      (previews : ∀ token, t.store.previews.find? token =
        if row.token = token then some row else s.store.previews.find? token)
      (jobs : ∀ id, t.jobTerms id = s.jobTerms id)
  | consumed (c : Consumption) (unminted : s.mintedBy event = none)
      (consumed : s.consumedBy event = some c)
      (found : s.store.previews.find? c.preview.token = some c.preview)
      (unused : c.preview.consumedAt = none)
      (in_time : c.consumedAt < c.preview.expiresAt)
      (previews : ∀ token, t.store.previews.find? token =
        if c.preview.token = token then some (DispatchStore.consumed c.consumedAt c.preview)
        else s.store.previews.find? token)
      (fresh : s.jobTerms c.jobId = none)
      (jobs : ∀ id, t.jobTerms id = if c.jobId = id then some c.terms else s.jobTerms id)

theorem jobTerms_of_not_confirm (hstep : machine.step s event = some t)
    (other : ∀ call urlListUrlCount jobId now,
      event ≠ .finishConfirm call urlListUrlCount jobId now) (id : String) :
    t.jobTerms id = s.jobTerms id := by
  have effect := row_effect hstep id
  unfold jobTerms
  generalize t.job id = after at effect
  generalize s.job id = before at effect
  cases effect with
  | untouched => rfl
  | created call args count now hevent => exact absurd hevent (other call count id now)
  | claimed j => rfl
  | expired j => rfl
  | reported j call report now => rw [Option.map_some, report.written_terms now, Option.map_some]

variable {now : Timestamp} {args : ConfirmArgs} {row : DispatchPreview}

theorem find?_of_consumes
    {previews : Table String DispatchPreview.token} (mem : row ∈ previews.rows)
    (consumes : Consumes args now row) : previews.find? args.token = some row := by
  rw [← consumes.1]
  exact Table.find?_key mem

theorem find?_consume
    {previews : Table String DispatchPreview.token} (mem : row ∈ previews.rows)
    (consumes : Consumes args now row) (token : String) :
    (consume previews args now).find? token =
      if row.token = token then some (consumed now row) else previews.find? token := by
  unfold consume
  rw [Table.find?_update]
  split
  · next same =>
    rw [← same, Table.find?_key mem]
    simp [consumes]
  · next other =>
    cases found : previews.find? token with
    | none => rfl
    | some q =>
      have unselected : ¬Consumes args now q := by
        intro h
        have hq := (Table.find?_eq_some.mp found).2
        exact other (consumes.1.trans (h.1.symm.trans hq))
      simp [unselected]

theorem queuedJob_terms
    (consumes : Consumes args now row) (urlListUrlCount : Option Nat) (jobId : String) :
    (queuedJob args urlListUrlCount jobId now).terms = (Consumption.mk row jobId now).terms := by
  obtain ⟨-, horg, hworker, hseed, htemplate, hlist, -⟩ := consumes
  simp [WorkerJob.terms, queuedJob, Consumption.terms, horg, hworker, hseed, htemplate, hlist]

theorem approval_effect_finishConfirm {call : Nat} {urlListUrlCount : Option Nat}
    {jobId : String}
    (hstep : machine.step s (.finishConfirm call urlListUrlCount jobId now) = some t) :
    ApprovalEffect s (.finishConfirm call urlListUrlCount jobId now) t := by
  obtain ⟨args, pending, rfl⟩ := Option.map_eq_some_iff.mp hstep
  rcases s.store.confirmDispatch_cases args urlListUrlCount jobId now with
    ⟨refused, unchanged⟩ | ⟨⟨row, mem, consumes⟩, fresh, queued, previews, jobs⟩
  · refine .quiet rfl ?_ ?_ ?_
    · simp only [consumedBy, pending]
      split
      · next job _ hjob _ => exact absurd hjob (refused job)
      · rfl
    · show (s.store.confirmDispatch args urlListUrlCount jobId now).2.previews = s.store.previews
      rw [unchanged]
    · intro id
      simp only [jobTerms, job, unchanged]
  · have found := find?_of_consumes mem consumes
    have token : row.token = args.token := consumes.1
    refine .consumed ⟨row, jobId, now⟩ rfl ?_ (by rw [token]; exact found)
      consumes.2.2.2.2.2.2.2.1 consumes.2.2.2.2.2.2.2.2 ?_ ?_ ?_
    · simp only [consumedBy, pending, queued, found]
      rfl
    · intro token
      show (s.store.confirmDispatch args urlListUrlCount jobId now).2.previews.find? token = _
      rw [previews]
      exact find?_consume mem consumes token
    · simp only [jobTerms, job, fresh, Option.map_none]
    · intro id
      simp only [jobTerms, job, jobs]
      split
      · rw [Option.map_some, queuedJob_terms consumes]
      · rfl

theorem approval_effect (hstep : machine.step s event = some t) : ApprovalEffect s event t := by
  cases event with
  | preview row =>
    have jobs := jobTerms_of_not_confirm hstep (fun _ _ _ _ => by simp)
    cases hstep
    cases hinsert : s.store.previews.insert? { row with consumedAt := none } with
    | none =>
      refine .quiet ?_ rfl ?_ jobs
      · simp [mintedBy, mintDispatchPreview, hinsert]
      · simp [mintDispatchPreview, hinsert]
    | some previews =>
      refine .minted { row with consumedAt := none } ?_ rfl
        (Table.insert?_eq_some.mp hinsert).1 ?_ jobs
      · simp [mintedBy, mintDispatchPreview, hinsert]
      · intro token
        simp only [mintDispatchPreview, hinsert]
        exact Table.find?_insert? hinsert
  | beginConfirm args =>
    obtain ⟨-, same⟩ := Option.ite_none_right_eq_some.mp hstep
    cases same
    exact .quiet rfl rfl rfl fun _ => rfl
  | finishConfirm call count jobId now => exact approval_effect_finishConfirm hstep
  | claim workerId orgId locked now =>
    have jobs := jobTerms_of_not_confirm hstep (fun _ _ _ _ => by simp)
    cases hstep
    refine .quiet rfl rfl ?_ jobs
    rcases s.store.claimNextJob_cases workerId orgId locked now with
      ⟨-, unchanged⟩ | ⟨j, -, -, previews, -⟩
    · rw [unchanged]
    · exact previews
  | expire orgId olderThan checkedAt now =>
    have jobs := jobTerms_of_not_confirm hstep (fun _ _ _ _ => by simp)
    cases hstep
    exact .quiet rfl rfl rfl jobs
  | beginReport workerId orgId jobId report =>
    obtain ⟨-, same⟩ := Option.ite_none_right_eq_some.mp hstep
    cases same
    exact .quiet rfl rfl rfl fun _ => rfl
  | finishReport call now =>
    have jobs := jobTerms_of_not_confirm hstep (fun _ _ _ _ => by simp)
    obtain ⟨⟨jobId, report⟩, pending, rfl⟩ := Option.map_eq_some_iff.mp hstep
    exact .quiet rfl rfl (report.apply_previews s.store jobId now) jobs

end DispatchState

namespace DispatchLog

open DispatchState

def empty : DispatchLog := ⟨[], []⟩

/-- The log after a step. -/
def record (log : DispatchLog) (s : DispatchState) (event : DispatchEvent) : DispatchLog where
  minted := log.minted ++ (s.mintedBy event).toList
  consumed := log.consumed ++ (s.consumedBy event).toList

/-- What the log says about the tables: each job's terms come from a
consumption, each unused preview was minted, and each consumption used up a
minted preview in time. -/
structure Traces (log : DispatchLog) (s : DispatchState) : Prop where
  jobs : ∀ id terms, s.jobTerms id = some terms → ∃ c ∈ log.consumed, c.terms = terms
  queued : ∀ c ∈ log.consumed, s.jobTerms c.jobId ≠ none
  unused : ∀ token row, s.store.previews.find? token = some row → row.consumedAt = none →
    row ∈ log.minted
  minted : ∀ c ∈ log.consumed, c.preview ∈ log.minted
  in_time : ∀ c ∈ log.consumed, c.consumedAt < c.preview.expiresAt
  used : ∀ c ∈ log.consumed, s.store.previews.find? c.preview.token =
    some (DispatchStore.consumed c.consumedAt c.preview)
  tokens_nodup : (log.consumed.map fun c => c.preview.token).Nodup
  jobs_nodup : (log.consumed.map Consumption.jobId).Nodup

theorem Traces.empty : DispatchLog.empty.Traces .empty where
  jobs := by
    intro id terms h
    cases h
  queued := by
    intro c hc
    cases hc
  unused := by
    intro token row h
    cases h
  minted := by
    intro c hc
    cases hc
  in_time := by
    intro c hc
    cases hc
  used := by
    intro c hc
    cases hc
  tokens_nodup := List.nodup_nil
  jobs_nodup := List.nodup_nil

variable {log : DispatchLog} {s t : DispatchState} {event : DispatchEvent}

theorem mem_consumed_record {c : Consumption} (h : c ∈ log.consumed) :
    c ∈ (log.record s event).consumed :=
  List.mem_append_left _ h

theorem Traces.fresh_of_consumed (h : log.Traces s) {c : Consumption}
    (found : s.store.previews.find? c.preview.token = some c.preview)
    (unused : c.preview.consumedAt = none) (fresh : s.jobTerms c.jobId = none) :
    (∀ d ∈ log.consumed, d.preview.token ≠ c.preview.token) ∧
      ∀ d ∈ log.consumed, d.jobId ≠ c.jobId := by
  constructor
  · intro d hd same
    have used := h.used d hd
    rw [same, found] at used
    have consumedAt := congrArg DispatchPreview.consumedAt (Option.some.inj used)
    rw [unused] at consumedAt
    cases consumedAt
  · intro d hd same
    exact h.queued d hd (same ▸ fresh)

theorem Traces.step (h : log.Traces s) (hstep : machine.step s event = some t) :
    (log.record s event).Traces t := by
  cases approval_effect hstep with
  | quiet unminted unconsumed previews jobs =>
    have same : log.record s event = log := by
      simp [record, unminted, unconsumed]
    rw [same]
    exact {
      jobs := fun id terms => by rw [jobs]; exact h.jobs id terms
      queued := fun c hc => by rw [jobs]; exact h.queued c hc
      unused := by rw [previews]; exact h.unused
      minted := h.minted
      in_time := h.in_time
      used := by rw [previews]; exact h.used
      tokens_nodup := h.tokens_nodup
      jobs_nodup := h.jobs_nodup }
  | minted row minted unconsumed fresh previews jobs =>
    have consumed : (log.record s event).consumed = log.consumed := by
      simp [record, unconsumed]
    have grown : (log.record s event).minted = log.minted ++ [row] := by
      simp [record, minted]
    refine {
      jobs := fun id terms => by rw [jobs, consumed]; exact h.jobs id terms
      queued := fun c hc => by rw [jobs]; exact h.queued c (consumed ▸ hc)
      unused := ?_
      minted := fun c hc => by
        rw [grown]
        exact List.mem_append_left _ (h.minted c (consumed ▸ hc))
      in_time := fun c hc => h.in_time c (consumed ▸ hc)
      used := ?_
      tokens_nodup := by rw [consumed]; exact h.tokens_nodup
      jobs_nodup := by rw [consumed]; exact h.jobs_nodup }
    · intro token q found hq
      rw [previews] at found
      rw [grown]
      split at found
      · cases found
        exact List.mem_append_right _ (List.mem_singleton_self row)
      · exact List.mem_append_left _ (h.unused token q found hq)
    · intro c hc
      have used := h.used c (consumed ▸ hc)
      have other : row.token ≠ c.preview.token := by
        intro same
        rw [← same, fresh] at used
        cases used
      rw [previews, if_neg other]
      exact used
  | consumed c unminted consumed found unused in_time previews fresh jobs =>
    obtain ⟨new_token, new_job⟩ := h.fresh_of_consumed found unused fresh
    have grown : (log.record s event).consumed = log.consumed ++ [c] := by
      simp [record, consumed]
    have same : (log.record s event).minted = log.minted := by
      simp [record, unminted]
    -- a consumption of the grown log is an old one or the new one
    have split_mem : ∀ d ∈ (log.record s event).consumed, d ∈ log.consumed ∨ d = c := by
      intro d hd
      rw [grown] at hd
      simpa using hd
    refine {
      jobs := ?_
      queued := ?_
      unused := ?_
      minted := ?_
      in_time := ?_
      used := ?_
      tokens_nodup := ?_
      jobs_nodup := ?_ }
    · intro id terms hterms
      rw [jobs] at hterms
      split at hterms
      · cases hterms
        exact ⟨c, by rw [grown]; simp, rfl⟩
      · obtain ⟨d, hd, hterms⟩ := h.jobs id terms hterms
        exact ⟨d, mem_consumed_record hd, hterms⟩
    · intro d hd
      rw [jobs]
      split
      · simp
      · next other =>
        rcases split_mem d hd with old | rfl
        · exact h.queued d old
        · exact absurd rfl other
    · intro token q found hq
      rw [previews] at found
      rw [same]
      split at found
      · cases found
        cases hq
      · exact h.unused token q found hq
    · intro d hd
      rw [same]
      rcases split_mem d hd with old | rfl
      · exact h.minted d old
      · exact h.unused _ _ found unused
    · intro d hd
      rcases split_mem d hd with old | rfl
      · exact h.in_time d old
      · exact in_time
    · intro d hd
      rw [previews]
      rcases split_mem d hd with old | rfl
      · rw [if_neg fun same => new_token d old same.symm]
        exact h.used d old
      · rw [if_pos rfl]
    · rw [grown]
      exact nodup_map_append_singleton h.tokens_nodup new_token
    · rw [grown]
      exact nodup_map_append_singleton h.jobs_nodup new_job

end DispatchLog

end Rankuno
