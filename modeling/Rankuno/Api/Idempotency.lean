import Rankuno.Api.CreateJob

/-!
# One job for each idempotency key

A key is looked up before a call may wait for its hash and recorded after it, so
two calls under one key can both find nothing. Creation is idempotent over a
whole run exactly when each call that comes back from its hash and creates a job
would still find nothing.
-/

namespace Rankuno

namespace JobIntake

variable {s t u : JobIntake} {event : IntakeEvent} {request : CreateJobRequest}
variable {desk : StartDesk} {orgId key : String}

/-- Jobs that were made for one organization and key, and live, are one job. -/
def OneJobPerKey (s : JobIntake) : Prop :=
  ∀ e ∈ s.made, ∀ e' ∈ s.made, e.pair = e'.pair → (s.record e.jobId).isSome →
    (s.record e'.jobId).isSome → e.jobId = e'.jobId

/-- A call that passes the first refusals, while a job lives that was made for
its organization and key, is answered with that job. -/
def AnswersWithExisting (s : JobIntake) : IntakeEvent → Prop
  | .createJob request front desk =>
    front.refusal request.orgId = none → ∀ e ∈ s.made, e.orgId = request.orgId →
      request.key? = some e.key → (s.record e.jobId).isSome →
      ∃ accepted, (s.createJob request front desk).1 = some (.ok accepted) ∧ accepted.id = e.jobId
  | _ => True

/-- Idempotent creation over a whole run. -/
structure Idempotent (s : JobIntake) (events : List IntakeEvent) : Prop where
  one_job : machine.Always OneJobPerKey s events
  answers : machine.Meets AnswersWithExisting s events

/-- A call that comes back from its hash and creates a job under a key would
still find nothing under it. -/
def CreatesUnclaimed (s : JobIntake) : IntakeEvent → Prop
  | .hashed call _ desk =>
    ∀ request key, s.hashing[call]? = some request → request.key? = some key →
      desk.newId ∉ s.used → desk.refusal request = none →
      (s.checkIdempotencyKey request.orgId key).1 = none
  | _ => True

theorem checkIdempotencyKey_eq_none : (s.checkIdempotencyKey orgId key).1 = none ↔
      ∀ e, s.registry.find? (orgId, key) = some e → s.record e.jobId = none := by
  rw [checkIdempotencyKey]
  cases hentry : s.registry.find? (orgId, key) with
  | none => simp
  | some entry =>
    cases hr : s.record entry.jobId with
    | none => simp [hr]
    | some r => simp [hr]

variable {e : IdempotencyEntry}

theorem checkIdempotencyKey_of_registered {r : JobRecord}
    (hentry : s.registry.find? (orgId, key) = some e) (hr : s.record e.jobId = some r) :
    s.checkIdempotencyKey orgId key = (some r, s) := by
  simp only [checkIdempotencyKey, hentry, hr]

/-- A step that makes no job for a key: it may forget jobs, write others, and
drop entries of jobs that are gone. -/
structure Calm (s t : JobIntake) : Prop where
  made : t.made = s.made
  used : ∀ id ∈ s.used, id ∈ t.used
  live : ∀ id ∈ s.used, (t.record id).isSome → (s.record id).isSome
  entries : ∀ k e, t.registry.find? k = some e → s.registry.find? k = some e
  registered : ∀ k e, s.registry.find? k = some e → (s.record e.jobId).isSome →
    t.registry.find? k = some e
  known : (∀ id r, s.record id = some r → id ∈ s.used) → ∀ id r, t.record id = some r → id ∈ t.used

theorem Calm.of_same_registry (made : t.made = s.made) (used : ∀ id ∈ s.used, id ∈ t.used)
    (live : ∀ id ∈ s.used, (t.record id).isSome → (s.record id).isSome)
    (registry : t.registry = s.registry)
    (known : (∀ id r, s.record id = some r → id ∈ s.used) →
      ∀ id r, t.record id = some r → id ∈ t.used) : Calm s t :=
  ⟨made, used, live, fun _ _ h => registry ▸ h, fun _ _ h _ => registry ▸ h, known⟩

theorem Calm.refl (s : JobIntake) : Calm s s :=
  .of_same_registry rfl (fun _ h => h) (fun _ _ h => h) rfl fun h => h

theorem calm_check : Calm s (s.checkIdempotencyKey orgId key).2 := by
  rw [checkIdempotencyKey]
  split
  · exact .refl s
  · next entry hentry =>
    split
    · exact .refl s
    · next gone =>
      refine ⟨rfl, fun _ h => h, fun _ _ h => h, fun k e he => ?_, fun k e he live => ?_,
        fun h => h⟩
      · rw [Table.find?_delete] at he
        exact (Option.filter_eq_some_iff.mp he).1
      · rw [Table.find?_delete, he]
        have other : e.pair ≠ (orgId, key) := by
          intro same
          obtain ⟨-, hk⟩ := Table.find?_eq_some.mp he
          rw [← hk, same, hentry] at he
          cases he
          rw [gone] at live
          cases live
        simp [Option.filter_some, other]

theorem Calm.writeNew {r : JobRecord} (fresh : r.id ∉ s.used) :
    Calm s { s with disk := s.disk.writeRecord r, used := r.id :: s.used } := by
  have lookup : ∀ id, (s.disk.writeRecord r).record id =
      if r.id = id then some r else s.record id := fun id => JobDisk.writeRecord_record ..
  refine .of_same_registry rfl (fun _ h => List.mem_cons_of_mem _ h) ?_ rfl ?_
  · intro id old live
    have other : r.id ≠ id := by
      rintro rfl
      exact fresh old
    rw [record, lookup, if_neg other] at live
    exact live
  · intro known id q hq
    rw [record, lookup] at hq
    split at hq
    · next same => exact same ▸ List.mem_cons_self
    · exact List.mem_cons_of_mem _ (known id q hq)

theorem Calm.transition (s : JobIntake) (jobId : String) (change : RecordChange)
    (now : Timestamp) : Calm s { s with disk := (s.disk.transition jobId change now).2 } := by
  refine .of_same_registry rfl (fun _ h => h) ?_ rfl ?_
  · intro id _ live
    rw [record, JobDisk.transition_record, Option.isSome_map] at live
    exact live
  · intro known id q hq
    rw [record, JobDisk.transition_record] at hq
    obtain ⟨r, hr, -⟩ := Option.map_eq_some_iff.mp hq
    exact known id r hr

theorem Calm.delete (s : JobIntake) (jobId : String) :
    Calm s { s with disk := s.disk.unlinkRecord jobId } := by
  have before : ∀ {id r}, (s.disk.unlinkRecord jobId).record id = some r →
      s.record id = some r := by
    intro id r hr
    rw [JobDisk.unlinkRecord_record] at hr
    split at hr
    · cases hr
    · exact hr
  refine .of_same_registry rfl (fun _ h => h) ?_ rfl fun known id r hr => known id r (before hr)
  intro id _ live
  obtain ⟨r, hr⟩ := Option.isSome_iff_exists.mp live
  rw [before hr]
  rfl

/-- What a call that creates a job under a key makes of the state. -/
structure Makes (s t : JobIntake) (e : IdempotencyEntry) : Prop where
  fresh : e.jobId ∉ s.used
  made : t.made = e :: s.made
  used : t.used = e.jobId :: s.used
  record : ∀ id, (t.record id).isSome ↔ e.jobId = id ∨ (s.record id).isSome
  registry : ∀ k, t.registry.find? k = if e.pair = k then some e else s.registry.find? k

theorem finishCreate_makes (fresh : desk.newId ∉ s.used) (admitted : desk.refusal request = none)
    (hkey : request.key? = some key) (passwordHash : Option String) :
    Makes s (s.finishCreate request passwordHash desk).2 ⟨request.orgId, key, desk.newId⟩ := by
  simp only [finishCreate, startJob, admitted, hkey]
  refine ⟨fresh, rfl, rfl, fun id => ?_, fun k => Table.find?_put⟩
  show ((s.disk.writeRecord _).record id).isSome ↔ _
  rw [JobDisk.writeRecord_record]
  split
  · next same => exact ⟨fun _ => .inl same, fun _ => rfl⟩
  · next other => exact ⟨.inr, fun h => h.resolve_left other⟩

theorem finishCreate_cases (fresh : desk.newId ∉ s.used) (passwordHash : Option String) :
    (s.finishCreate request passwordHash desk).2 = s ∨
    (request.key? = none ∧ Calm s (s.finishCreate request passwordHash desk).2) ∨
    desk.refusal request = none ∧ ∃ key, request.key? = some key ∧
      Makes s (s.finishCreate request passwordHash desk).2 ⟨request.orgId, key, desk.newId⟩ := by
  cases admitted : desk.refusal request with
  | some refused =>
    left
    simp only [finishCreate, startJob, admitted]
  | none =>
    right
    cases hkey : request.key? with
    | none =>
      left
      refine ⟨rfl, ?_⟩
      simp only [finishCreate, startJob, admitted, hkey]
      exact .writeNew fresh
    | some key => exact .inr ⟨rfl, key, rfl, finishCreate_makes fresh admitted hkey passwordHash⟩

/-- No live job is registered under the pair. -/
def Unclaimed (s : JobIntake) (pair : String × String) : Prop :=
  ∀ e, s.registry.find? pair = some e → s.record e.jobId = none

@[simp] theorem checkIdempotencyKey_used : (s.checkIdempotencyKey orgId key).2.used = s.used := by
  rw [checkIdempotencyKey]
  split
  · rfl
  · split <;> rfl

theorem unclaimed_of_check (h : (s.checkIdempotencyKey orgId key).1 = none) :
    Unclaimed (s.checkIdempotencyKey orgId key).2 (orgId, key) := by
  intro e he
  have before := calm_check.entries _ e he
  have gone := checkIdempotencyKey_eq_none.mp h e before
  obtain ⟨-, hused⟩ := Table.find?_eq_some.mp he
  rw [checkIdempotencyKey, before]
  simp only [gone]
  exact gone

theorem Calm.wait (h : Calm s t) (waiting : List CreateJobRequest) :
    Calm s { t with hashing := waiting } :=
  ⟨h.made, h.used, h.live, h.entries, h.registered, h.known⟩

theorem existingJob_spec : Calm s (s.existingJob request).2 ∧
    (s.existingJob request).2.used = s.used ∧
    (request.key? = none → (s.existingJob request).2 = s) ∧
    ((s.existingJob request).1 = none → ∀ key, request.key? = some key →
      Unclaimed (s.existingJob request).2 (request.orgId, key)) := by
  rw [existingJob]
  split
  · next key hkey =>
    refine ⟨calm_check, checkIdempotencyKey_used, fun hnone => ?_, fun absent key' hkey' => ?_⟩
    · rw [hkey] at hnone
      cases hnone
    rw [hkey] at hkey'
    cases hkey'
    exact unclaimed_of_check absent
  · next hkey =>
    refine ⟨.refl s, rfl, fun _ => rfl, fun _ key hkey' => ?_⟩
    rw [hkey] at hkey'
    cases hkey'

theorem lookUpAndCreate_cases (fresh : desk.newId ∉ s.used) :
    Calm s (s.lookUpAndCreate request desk).2 ∨
      ∃ u e, Calm s u ∧ Unclaimed u e.pair ∧ Makes u (s.lookUpAndCreate request desk).2 e := by
  obtain ⟨calm, used, keyless, unclaimed⟩ := @existingJob_spec s request
  rw [lookUpAndCreate]
  generalize s.existingJob request = looked at calm used keyless unclaimed
  obtain ⟨existing, u⟩ := looked
  cases existing with
  | some r => exact .inl calm
  | none =>
    simp only
    split
    · exact .inl (calm.wait _)
    · rw [← used] at fresh
      rcases finishCreate_cases fresh none with same | ⟨hnone, quiet⟩ | ⟨-, key, hkey, makes⟩
      · exact .inl (same.symm ▸ calm)
      · obtain rfl : u = s := keyless hnone
        exact .inl quiet
      · exact .inr ⟨u, ⟨request.orgId, key, desk.newId⟩, calm, unclaimed rfl key hkey, makes⟩

theorem step_cases (hstep : machine.step s event = some t) :
    Calm s t ∨ ∃ u e, Calm s u ∧ Makes u t e ∧ (s.CreatesUnclaimed event → Unclaimed u e.pair) := by
  cases event with
  | createJob request front desk =>
    obtain ⟨fresh, hstep⟩ := Option.ite_none_left_eq_some.mp hstep
    cases hstep
    rw [createJob]
    split
    · exact .inl (.refl s)
    · rcases lookUpAndCreate_cases fresh with calm | ⟨u, e, calm, unclaimed, makes⟩
      · exact .inl calm
      · exact .inr ⟨u, e, calm, makes, fun _ => unclaimed⟩
  | hashed call passwordHash desk =>
    obtain ⟨fresh, hstep⟩ := Option.ite_none_left_eq_some.mp hstep
    obtain ⟨request, waiting, rfl⟩ := Option.map_eq_some_iff.mp hstep
    have calm := (Calm.refl s).wait (s.hashing.eraseIdx call)
    rcases @finishCreate_cases { s with hashing := s.hashing.eraseIdx call } request desk fresh
      (some passwordHash) with same | ⟨-, quiet⟩ | ⟨admitted, key, hkey, makes⟩
    · exact .inl (same.symm ▸ calm)
    · exact .inl ⟨quiet.made, quiet.used, quiet.live, quiet.entries, quiet.registered, quiet.known⟩
    · refine .inr ⟨_, _, calm, makes, fun guard => ?_⟩
      have absent : ∀ e, s.registry.find? (request.orgId, key) = some e → s.record e.jobId = none :=
        checkIdempotencyKey_eq_none.mp (guard request key waiting hkey fresh admitted)
      exact absent
  | transition jobId change now =>
    cases hstep
    exact .inl (.transition s jobId change now)
  | writeNew r =>
    obtain ⟨fresh, hstep⟩ := Option.ite_none_left_eq_some.mp hstep
    cases hstep
    exact .inl (.writeNew fresh)
  | delete jobId =>
    cases hstep
    exact .inl (.delete s jobId)

/-- Every entry stands for a job that was made for it, and ids are known. -/
structure Tracked (s : JobIntake) : Prop where
  made_used : ∀ e ∈ s.made, e.jobId ∈ s.used
  record_used : ∀ id r, s.record id = some r → id ∈ s.used
  registry_made : ∀ k e, s.registry.find? k = some e → e ∈ s.made

theorem Tracked.start (disk : JobDisk) : Tracked (start disk) where
  made_used _ mem := nomatch mem
  record_used id r hr := by
    obtain ⟨mem, hid⟩ := Table.find?_eq_some.mp hr
    exact hid ▸ List.mem_map_of_mem mem
  registry_made _ _ he := nomatch he

theorem Tracked.calm (h : s.Tracked) (calm : Calm s t) : t.Tracked where
  made_used e mem := calm.used _ (h.made_used e (calm.made ▸ mem))
  record_used := calm.known h.record_used
  registry_made k e he := calm.made ▸ h.registry_made k e (calm.entries k e he)

theorem Tracked.makes (h : s.Tracked) (makes : Makes s t e) : t.Tracked := by
  refine ⟨fun e' mem => ?_, fun id r hr => ?_, fun k e' he => ?_⟩
  · rw [makes.made] at mem
    rw [makes.used]
    rcases List.mem_cons.mp mem with rfl | mem
    · exact List.mem_cons_self
    · exact List.mem_cons_of_mem _ (h.made_used e' mem)
  · rw [makes.used]
    rcases (makes.record id).mp (by rw [hr]; rfl) with rfl | live
    · exact List.mem_cons_self
    · obtain ⟨q, hq⟩ := Option.isSome_iff_exists.mp live
      exact List.mem_cons_of_mem _ (h.record_used id q hq)
  · rw [makes.registry] at he
    rw [makes.made]
    split at he
    · cases he
      exact List.mem_cons_self
    · exact List.mem_cons_of_mem _ (h.registry_made k e' he)

theorem Tracked.step (h : s.Tracked) (hstep : machine.step s event = some t) : t.Tracked := by
  rcases step_cases hstep with calm | ⟨u, e, calm, makes, -⟩
  · exact h.calm calm
  · exact (h.calm calm).makes makes

/-- A live job that was made for a key is the one its key stands for. -/
def Registered (s : JobIntake) : Prop :=
  ∀ e ∈ s.made, (s.record e.jobId).isSome → s.registry.find? e.pair = some e

theorem Registered.calm (h : s.Registered) (tracked : s.Tracked) (calm : Calm s t) :
    t.Registered := by
  intro e mem live
  rw [calm.made] at mem
  have before := calm.live _ (tracked.made_used e mem) live
  exact calm.registered _ e (h e mem before) before

theorem Registered.makes (h : s.Registered) (tracked : s.Tracked)
    (makes : Makes s t e) (unclaimed : Unclaimed s e.pair) : t.Registered := by
  intro e' mem live
  rw [makes.registry]
  rw [makes.made] at mem
  rcases List.mem_cons.mp mem with rfl | mem
  · exact if_pos rfl
  · have other : e.jobId ≠ e'.jobId := fun same => makes.fresh (same ▸ tracked.made_used e' mem)
    have before := ((makes.record e'.jobId).mp live).resolve_left other
    have entry := h e' mem before
    have apart : e.pair ≠ e'.pair := by
      intro same
      rw [unclaimed e' (same ▸ entry)] at before
      cases before
    rw [if_neg apart]
    exact entry

theorem Registered.step (h : s.Registered) (tracked : s.Tracked)
    (guard : s.CreatesUnclaimed event) (hstep : machine.step s event = some t) :
    t.Registered := by
  rcases step_cases hstep with calm | ⟨u, e, calm, makes, unclaimed⟩
  · exact h.calm tracked calm
  · exact (h.calm tracked calm).makes (tracked.calm calm) makes (unclaimed guard)

theorem Registered.oneJobPerKey (h : s.Registered) : s.OneJobPerKey := by
  intro e mem e' mem' same live live'
  have entry := h e mem live
  rw [same, h e' mem' live'] at entry
  cases entry
  rfl

theorem Registered.answersWithExisting (h : s.Registered) : s.AnswersWithExisting event := by
  cases event with
  | createJob request front desk =>
    intro admitted e mem org hkey live
    obtain ⟨r, hr⟩ := Option.isSome_iff_exists.mp live
    have entry : s.registry.find? (request.orgId, e.key) = some e := org ▸ h e mem live
    have found : s.existingJob request = (some r, s) := by
      rw [existingJob, hkey]
      exact checkIdempotencyKey_of_registered entry hr
    refine ⟨⟨r.id, r.status, r.label⟩, ?_, (Table.find?_eq_some.mp hr).2⟩
    simp only [createJob, admitted, lookUpAndCreate, found]
  | _ => trivial

theorem createsUnclaimed_of_oneJobPerKey (h : s.Tracked)
    (one : ∀ t, machine.step s event = some t → t.OneJobPerKey) : s.CreatesUnclaimed event := by
  cases event with
  | hashed call passwordHash desk =>
    intro request key waiting hkey fresh admitted
    rw [checkIdempotencyKey_eq_none]
    intro e entry
    by_contra live
    have makes := @finishCreate_makes { s with hashing := s.hashing.eraseIdx call } request desk
      key fresh admitted hkey (some passwordHash)
    have hstep : machine.step s (.hashed call passwordHash desk) =
        some ({ s with hashing := s.hashing.eraseIdx call }.finishCreate request
          (some passwordHash) desk).2 := by
      simp only [machine, if_neg fresh, waiting, Option.map_some]
    have mem := h.registry_made _ e entry
    have other : desk.newId ≠ e.jobId := by
      intro same
      exact fresh (same ▸ h.made_used e mem)
    refine other (one _ hstep ⟨request.orgId, key, desk.newId⟩ ?_ e ?_ ?_ ?_ ?_)
    · rw [makes.made]
      exact List.mem_cons_self
    · rw [makes.made]
      exact List.mem_cons_of_mem _ mem
    · exact (Table.find?_eq_some.mp entry).2.symm
    · exact (makes.record desk.newId).mpr (.inl rfl)
    · exact (makes.record e.jobId).mpr (.inr (Option.isSome_iff_ne_none.mpr live))
  | _ => trivial

theorem idempotent_of_createsUnclaimed {disk : JobDisk} {events : List IntakeEvent}
    (meets : machine.Meets CreatesUnclaimed (start disk) events) :
    Idempotent (start disk) events := by
  have keep : ∀ s a t, (Tracked s ∧ Registered s) → CreatesUnclaimed s a →
      machine.step s a = some t → Tracked t ∧ Registered t :=
    fun s a t h guard hstep => ⟨h.1.step hstep, h.2.step h.1 guard hstep⟩
  have init : Tracked (start disk) ∧ Registered (start disk) :=
    ⟨.start disk, fun _ mem => nomatch mem⟩
  exact ⟨Machine.always_of_meets keep init meets fun _ h => h.2.oneJobPerKey,
    meets.of_invariant keep (fun _ _ h _ => h.2.answersWithExisting) init⟩

theorem createsUnclaimed_of_idempotent {disk : JobDisk} {events : List IntakeEvent}
    (h : Idempotent (start disk) events) :
    machine.Meets CreatesUnclaimed (start disk) events := by
  rw [Machine.meets_iff]
  intro pre event post u split hu
  have tracked : u.Tracked := Machine.invariant (fun _ _ _ h => h.step) (.start disk) hu
  refine createsUnclaimed_of_oneJobPerKey tracked fun v hv => ?_
  refine h.one_job (pre ++ [event]) post v (by simp [split]) ?_
  exact Machine.run_append_eq_some.mpr ⟨u, hu, by rw [Machine.run_singleton, hv]⟩

/-- From any jobs the server starts on, creation is idempotent over a run
exactly when each call that comes back from its hash and creates a job would
still find nothing under its key. -/
theorem idempotent_iff_creates_unclaimed (disk : JobDisk) (events : List IntakeEvent) :
    Idempotent (start disk) events ↔ machine.Meets CreatesUnclaimed (start disk) events :=
  ⟨createsUnclaimed_of_idempotent, idempotent_of_createsUnclaimed⟩

/-- A crawl under key `k` that carries a password. -/
def keyedRequest : CreateJobRequest :=
  ⟨"org", "seo.page_classifier", some "k", ⟨"https://example.com/", none, none, some "pw", ""⟩⟩

/-- A server with everything a call needs, about to draw `newId`. -/
def openDesk (newId : String) : StartDesk :=
  ⟨.allowed, none, [], none, true, 3, true, newId, 1⟩

/-- Two calls under one key that both wait for their hash. -/
def overlappingRetries : List IntakeEvent :=
  [.createJob keyedRequest ⟨true, some ⟨true, 5⟩⟩ (openDesk "a"),
    .createJob keyedRequest ⟨true, some ⟨true, 5⟩⟩ (openDesk "b"),
    .hashed 0 "h" (openDesk "a"), .hashed 0 "h" (openDesk "b")]

/-- Both find nothing under the key, and each creates a job. -/
theorem overlapping_retries_make_two_jobs : ¬∀ events, Idempotent (start .empty) events := by
  intro h
  obtain ⟨s, hs, two⟩ := Option.map_eq_some_iff.mp
    (show (machine.run (start .empty) overlappingRetries).map
      (fun s => (s.made, (s.record "a").isSome, (s.record "b").isSome)) =
        some ([⟨"org", "k", "b"⟩, ⟨"org", "k", "a"⟩], true, true) by decide)
  obtain ⟨made, two⟩ := Prod.mk.inj two
  obtain ⟨liveA, liveB⟩ := Prod.mk.inj two
  have one := (h overlappingRetries).one_job.last hs
  have same := one ⟨"org", "k", "a"⟩ (by rw [made]; decide) ⟨"org", "k", "b"⟩
    (by rw [made]; decide) rfl liveA liveB
  exact absurd same (by decide)

end JobIntake

end Rankuno
