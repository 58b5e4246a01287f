import Rankuno.PostgresJobs.Conformance

/-!
# Imports, exactly once

`import_terminal` of any number of replicas on one database, each attempt in its
two statements, with deletions between them. The unique index refuses a second
row of a source, and a loser looks again and answers for the row that won. The
second attempt stands in the handler of the first, so it has no handler of its
own: imports are exactly once, and raise nothing else, exactly in the runs in
which no second attempt loses too. The disk store holds its lock throughout.
-/

universe u v

namespace Rankuno

/-- The record is an import of the job's source. -/
def ImportedJob.IsSourceOf (job : ImportedJob) (r : JobRecord) : Prop :=
  r.importSource = some (job.orgId, job.provenance.sourceInstanceId, job.provenance.sourceJobId)

/-- The record was imported with the job's contents. -/
def ImportedJob.HasContentsOf (job : ImportedJob) (r : JobRecord) : Prop :=
  ∃ origin ∈ r.provenance, origin.bundleSha256 = job.provenance.bundleSha256

section Promise

variable {σ : Type u} (rows : σ → List JobRecord)

/-- At most one import of each source. -/
def ImportsOnce (s : σ) : Prop :=
  ∀ r ∈ rows s, ∀ q ∈ rows s, r.importSource.isSome → q.importSource = r.importSource → q = r

/-- What an import answers and does, by the imports of its source there are. -/
inductive Settles (s t : σ) (job : ImportedJob) : Except JobStoreError ImportOutcome → Prop where
  | duplicate {r : JobRecord} (there : r ∈ rows s) (source : job.IsSourceOf r)
      (same : job.HasContentsOf r) (unchanged : t = s) : Settles s t job (.ok ⟨r, true⟩)
  | conflict {r : JobRecord} (there : r ∈ rows s) (source : job.IsSourceOf r)
      (other : ¬job.HasContentsOf r) (unchanged : t = s) :
      Settles s t job (.error (.importConflict r.id))
  | imported {r : JobRecord} (first : ∀ q ∈ rows s, ¬job.IsSourceOf q)
      (source : job.IsSourceOf r) (contents : job.HasContentsOf r)
      (added : ∀ q, q ∈ rows t ↔ q ∈ rows s ∨ q = r) : Settles s t job (.ok ⟨r, false⟩)

variable {rows}

theorem Settles.of_existing {s : σ} {job : ImportedJob} {r : JobRecord} (there : r ∈ rows s)
    (source : job.IsSourceOf r) :
    Settles rows s s job (ImportOutcome.ofExisting r job.provenance) := by
  unfold ImportOutcome.ofExisting
  split
  · next same =>
    obtain ⟨origin, horigin, same⟩ := (Option.any_eq_true _ _).mp same
    exact .duplicate there source ⟨origin, horigin, of_decide_eq_true same⟩ rfl
  · next other =>
    refine .conflict there source ?_ rfl
    rintro ⟨origin, horigin, same⟩
    exact other ((Option.any_eq_true _ _).mpr ⟨origin, horigin, decide_eq_true same⟩)

theorem ImportsOnce.of_settles {s t : σ} {job : ImportedJob}
    {answer : Except JobStoreError ImportOutcome} (h : ImportsOnce rows s)
    (settles : Settles rows s t job answer) : ImportsOnce rows t := by
  cases settles with
  | duplicate there source same unchanged => exact unchanged ▸ h
  | conflict there source other unchanged => exact unchanged ▸ h
  | imported first source contents added =>
    intro r' hr' q' hq' some same
    rcases (added r').mp hr' with hr | rfl
    · rcases (added q').mp hq' with hq | rfl
      · exact h r' hr q' hq some same
      · exact absurd (same.symm.trans source) (first r' hr)
    · rcases (added q').mp hq' with hq | rfl
      · exact absurd (same.trans source) (first q' hq)
      · rfl

end Promise

theorem isSourceOf_record (job : ImportedJob) : job.IsSourceOf job.record := rfl

theorem hasContentsOf_record (job : ImportedJob) : job.HasContentsOf job.record :=
  ⟨job.provenance, rfl, rfl⟩

/-- Where an import stands: before the lookup of its first or second attempt,
between lookup and insertion, or at its end. -/
inductive ImportPhase where
  | selecting (retry : Bool)
  | inserting (retry : Bool)
  | answered (answer : Except JobStoreError ImportOutcome)
  deriving DecidableEq

structure ImportCall where
  job : ImportedJob
  valid : job.Valid
  resultJson : String
  phase : ImportPhase

namespace ImportCall

variable (call : ImportCall) (db : JobDatabase)

/-- The lookup of `_import_once`. -/
def select (retry : Bool) : ImportPhase :=
  match db.findImport call.job.orgId call.job.provenance with
  | some row => .answered do
      let existing ← rowToJobRecord row
      ImportOutcome.ofExisting existing call.job.provenance
  | none => .inserting retry

/-- The insertions of `_import_once`, up to their commit. What the second attempt
raises is not caught. -/
def insert (retry : Bool) (draw : Draw) : ImportPhase × JobDatabase :=
  match db.insertImport (call.job.drawn draw) call.resultJson with
  | .ok (row, committed) => (.answered ((rowToJobRecord row).map fun r => ⟨r, false⟩), committed)
  | .error error =>
    if retry then (.answered (.error (.database error)), db)
    else match error with
      | .uniqueViolation => (.selecting true, db)
      | .foreignKeyViolation => (.answered (.error (.notProvisioned call.job.orgId)), db)
      | .operational => (.answered (.error .unavailable), db)

end ImportCall

namespace PostgresJobStore

variable {τ : Type v} [Sub τ] [LE τ] [DecidableLE τ]
variable {s : PostgresJobStore τ} {db : JobDatabase} {io : CallConditions τ} {call : ImportCall}

end PostgresJobStore

/-- A call is made, takes one of its two steps, or a job is deleted. -/
inductive ImportEvent where
  | importTerminal (job : ImportedJob) (valid : job.Valid) (resultJson : String)
  | select (call : Nat)
  | insert (call : Nat) (draw : Draw)
  | delete (jobId : String)

/-- The database and the imports of all replicas. -/
structure ImportService where
  database : JobDatabase
  calls : List ImportCall
  drawn : List String

namespace ImportService

def start (orgConfigs : Table String OrgConfigRow.orgId) : ImportService :=
  ⟨.start orgConfigs, [], []⟩

variable (s : ImportService)

def moved (i : Nat) (call : ImportCall) (phase : ImportPhase) : ImportService :=
  { s with calls := s.calls.set i { call with phase := phase } }

def machine : Machine ImportService ImportEvent where
  step s
    | .importTerminal job valid resultJson =>
      some { s with calls := s.calls ++ [⟨job, valid, resultJson, .selecting false⟩] }
    | .select i =>
      s.calls[i]?.bind fun call =>
        match call.phase with
        | .selecting retry => some (s.moved i call (call.select s.database retry))
        | _ => none
    | .insert i draw =>
      s.calls[i]?.bind fun call =>
        match call.phase with
        | .inserting retry =>
          if draw.id ∈ s.drawn ∨ draw.id = "" then none
          else some {
            s.moved i call (call.insert s.database retry draw).1 with
            database := (call.insert s.database retry draw).2
            drawn := draw.id :: s.drawn }
        | _ => none
    | .delete jobId =>
      match s.database.delete jobId with
      | .ok (_, database) => some { s with database := database }
      | .error _ => some s

/-- The rows of the `jobs` table. -/
def rows (db : JobDatabase) : List JobRecord := db.jobs.rows

/-- How one step may take a call on. -/
inductive Moves (db db' : JobDatabase) (call : ImportCall) : ImportPhase → Prop where
  | stays : Moves db db' call call.phase
  | finds {retry : Bool} {answer : Except JobStoreError ImportOutcome}
      (phase : call.phase = .selecting retry) (settles : Settles rows db db' call.job answer) :
      Moves db db' call (.answered answer)
  | finds_none {retry : Bool} (phase : call.phase = .selecting retry)
      (none : ∀ r ∈ rows db, ¬call.job.IsSourceOf r) (unchanged : db' = db) :
      Moves db db' call (.inserting retry)
  | inserts {retry : Bool} {answer : Except JobStoreError ImportOutcome}
      (phase : call.phase = .inserting retry) (settles : Settles rows db db' call.job answer) :
      Moves db db' call (.answered answer)
  | loses (phase : call.phase = .inserting false) {r : JobRecord} (winner : r ∈ rows db)
      (source : call.job.IsSourceOf r) (unchanged : db' = db) : Moves db db' call (.selecting true)
  | refused {retry : Bool} (phase : call.phase = .inserting retry)
      (absent : db.orgConfigs.find? call.job.orgId = none) (unchanged : db' = db) :
      Moves db db' call (.answered (.error (.notProvisioned call.job.orgId)))

/-- Each call there is moves so in a step. -/
def Lawful (s : ImportService) (event : ImportEvent) : Prop :=
  ∀ t, machine.step s event = some t → ∀ (i : Nat) (call : ImportCall), s.calls[i]? = some call →
    ∃ call' : ImportCall, t.calls[i]? = some call' ∧ call'.job = call.job ∧
      Moves s.database t.database call call'.phase

/-- The insertion of a second attempt finds no row of its source. -/
def RetryFindsNone (s : ImportService) : ImportEvent → Prop
  | .insert i draw =>
    draw.id ∉ s.drawn → draw.id ≠ "" → ∀ call ∈ s.calls[i]?, call.phase = .inserting true →
      s.database.findImport call.job.orgId call.job.provenance = none
  | _ => True

section Steps

variable {s t : ImportService} {event : ImportEvent} {db : JobDatabase} {call : ImportCall}

/-- What each step keeps: the rows are valid and under drawn ids, and a call that
tries again is of an organization there is. -/
structure Kept (s : ImportService) : Prop where
  valid : ∀ r ∈ rows s.database, r.Valid
  drawn : ∀ r ∈ rows s.database, r.id ∈ s.drawn
  retried : ∀ call ∈ s.calls, call.phase = .selecting true ∨ call.phase = .inserting true →
    (s.database.orgConfigs.find? call.job.orgId).isSome

theorem start_kept (orgConfigs : Table String OrgConfigRow.orgId) : (start orgConfigs).Kept where
  valid := List.forall_mem_nil _
  drawn := List.forall_mem_nil _
  retried := List.forall_mem_nil _

theorem select_cases (valid : ∀ r ∈ rows db, r.Valid) (call : ImportCall) (retry : Bool) :
    (∃ r ∈ rows db, call.job.IsSourceOf r ∧
        call.select db retry = .answered (ImportOutcome.ofExisting r call.job.provenance)) ∨
      (∀ r ∈ rows db, ¬call.job.IsSourceOf r) ∧ call.select db retry = .inserting retry := by
  cases found : db.findImport call.job.orgId call.job.provenance with
  | some r =>
    obtain ⟨there, source⟩ := JobDatabase.findImport_eq_some.mp found
    refine .inl ⟨r, there, source, ?_⟩
    simp only [ImportCall.select, found, JobDatabase.rowToJobRecord_of_valid (valid r there)]
    rfl
  | none =>
    refine .inr ⟨JobDatabase.findImport_eq_none.mp found, ?_⟩
    simp only [ImportCall.select, found]

theorem insert_cases (call : ImportCall) (retry : Bool) {draw : Draw}
    (fresh : db.job draw.id = none) (named : draw.id ≠ "") :
    (∃ r ∈ rows db, call.job.IsSourceOf r ∧ call.insert db retry draw =
        (if retry then .answered (.error (.database .uniqueViolation)) else .selecting true, db)) ∨
      (∀ r ∈ rows db, ¬call.job.IsSourceOf r) ∧
        ((∃ u, db.jobs.insert? (call.job.drawn draw).record = some u.jobs ∧
            u.orgConfigs = db.orgConfigs ∧
              call.insert db retry draw = (.answered (.ok ⟨(call.job.drawn draw).record, false⟩), u)) ∨
          db.orgConfigs.find? call.job.orgId = none ∧ call.insert db retry draw =
            (.answered (.error (if retry then .database .foreignKeyViolation
              else .notProvisioned call.job.orgId)), db)) := by
  cases found : db.findImport call.job.orgId call.job.provenance with
  | some r =>
    obtain ⟨there, source⟩ := JobDatabase.findImport_eq_some.mp found
    have again : db.findImport (call.job.drawn draw).orgId (call.job.drawn draw).provenance =
        some r := found
    refine .inl ⟨r, there, source, ?_⟩
    simp only [ImportCall.insert, JobDatabase.insertImport_of_existing again]
    split <;> rfl
  | none =>
    have first : db.findImport (call.job.drawn draw).orgId (call.job.drawn draw).provenance =
        none := found
    refine .inr ⟨JobDatabase.findImport_eq_none.mp found, ?_⟩
    cases provisioned : db.orgConfigs.find? call.job.orgId with
    | none =>
      refine .inr ⟨rfl, ?_⟩
      simp only [ImportCall.insert, JobDatabase.insertImport_of_absent fresh first provisioned]
      split <;> rfl
    | some org =>
      obtain ⟨u, ran, ⟨jobs, orgs⟩, -⟩ := JobDatabase.insertImport_of_new fresh first
        (by rw [show (call.job.drawn draw).orgId = call.job.orgId from rfl, provisioned]; rfl)
        call.resultJson
      refine .inl ⟨u, jobs, orgs, ?_⟩
      simp only [ImportCall.insert, ran,
        JobDatabase.rowToJobRecord_of_valid (call.valid.record draw named)]
      rfl

/-- The steps of the service, one by one. -/
inductive Step (s : ImportService) : ImportEvent → ImportService → Prop where
  | begins (job : ImportedJob) (valid : job.Valid) (resultJson : String) :
      Step s (.importTerminal job valid resultJson)
        { s with calls := s.calls ++ [⟨job, valid, resultJson, .selecting false⟩] }
  | selects {i : Nat} {call : ImportCall} {retry : Bool} (here : s.calls[i]? = some call)
      (phase : call.phase = .selecting retry) :
      Step s (.select i) (s.moved i call (call.select s.database retry))
  | inserts {i : Nat} {call : ImportCall} {retry : Bool} {draw : Draw}
      (here : s.calls[i]? = some call) (phase : call.phase = .inserting retry)
      (new : draw.id ∉ s.drawn) (named : draw.id ≠ "") :
      Step s (.insert i draw) {
        s.moved i call (call.insert s.database retry draw).1 with
        database := (call.insert s.database retry draw).2
        drawn := draw.id :: s.drawn }
  | deletes (jobId : String) :
      Step s (.delete jobId) { s with database := s.database.deleteJob jobId }
  | deletes_none (jobId : String) : Step s (.delete jobId) s

theorem Step.of_step (hstep : machine.step s event = some t) : Step s event t := by
  cases event with
  | importTerminal job valid resultJson =>
    cases hstep
    exact .begins job valid resultJson
  | select i =>
    obtain ⟨call, here, hstep⟩ := Option.bind_eq_some_iff.mp hstep
    cases phase : call.phase with
    | selecting retry =>
      simp only [phase] at hstep
      cases hstep
      exact .selects here phase
    | inserting retry => simp [phase] at hstep
    | answered answer => simp [phase] at hstep
  | insert i draw =>
    obtain ⟨call, here, hstep⟩ := Option.bind_eq_some_iff.mp hstep
    cases phase : call.phase with
    | inserting retry =>
      simp only [phase] at hstep
      split at hstep
      · cases hstep
      · next fresh =>
        obtain ⟨new, named⟩ := not_or.mp fresh
        cases hstep
        exact .inserts here phase new named
    | selecting retry => simp [phase] at hstep
    | answered answer => simp [phase] at hstep
  | delete jobId =>
    simp only [machine, JobDatabase.delete] at hstep
    cases found : s.database.job jobId with
    | none =>
      simp only [found] at hstep
      cases hstep
      exact .deletes_none jobId
    | some r =>
      simp only [found] at hstep
      cases hstep
      exact .deletes jobId

variable {phase : ImportPhase}

theorem retried_set (h : s.Kept) {i : Nat}
    (again : phase = .selecting true ∨ phase = .inserting true →
      (s.database.orgConfigs.find? call.job.orgId).isSome) :
    ∀ c ∈ s.calls.set i { call with phase := phase },
      c.phase = .selecting true ∨ c.phase = .inserting true →
        (s.database.orgConfigs.find? c.job.orgId).isSome := by
  intro c hc
  rcases List.mem_or_eq_of_mem_set hc with old | rfl
  · exact h.retried c old
  · exact again

theorem fresh_of_kept (h : s.Kept) {id : String} (new : id ∉ s.drawn) :
    s.database.job id = none := by
  refine Table.find?_eq_none.mpr fun r hr same => new ?_
  rw [← same]
  exact h.drawn r hr

theorem Kept.step (h : s.Kept) (step : Step s event t) : t.Kept := by
  cases step with
  | begins job valid resultJson =>
    refine ⟨h.valid, h.drawn, fun c hc again => ?_⟩
    rcases List.mem_append.mp hc with old | new
    · exact h.retried c old again
    · rw [List.mem_singleton.mp new] at again
      simp at again
  | @selects i call retry here phase =>
    refine ⟨h.valid, h.drawn, retried_set h fun again => ?_⟩
    have there := List.mem_of_getElem? here
    rcases select_cases h.valid call retry with ⟨r, -, -, found⟩ | ⟨-, none⟩
    · simp [found] at again
    · have second : retry = true := by simpa [none] using again
      exact h.retried call there (.inl (by rw [phase, second]))
  | @inserts i call retry draw here phase new named =>
    have fresh := fresh_of_kept h new
    have there := List.mem_of_getElem? here
    rcases insert_cases call retry fresh named with
      ⟨r, hr, source, lost⟩ | ⟨-, ⟨u, jobs, orgs, stored⟩ | ⟨-, refused⟩⟩
    · rw [lost]
      refine ⟨h.valid, fun q hq => List.mem_cons_of_mem _ (h.drawn q hq), ?_⟩
      refine retried_set h fun _ => ?_
      have org : r.orgId = call.job.orgId := by
        obtain ⟨origin, -, same⟩ := Option.map_eq_some_iff.mp source
        exact congrArg Prod.fst same
      rw [← org]
      exact s.database.jobs_org r hr
    · rw [stored]
      have added := (Table.insert?_eq_some.mp jobs).2
      refine ⟨fun q hq => ?_, fun q hq => ?_, ?_⟩
      · change q ∈ u.jobs.rows at hq
        rw [added] at hq
        rcases List.mem_append.mp hq with old | new
        · exact h.valid q old
        · rw [List.mem_singleton.mp new]
          exact call.valid.record draw named
      · change q ∈ u.jobs.rows at hq
        rw [added] at hq
        rcases List.mem_append.mp hq with old | new
        · exact List.mem_cons_of_mem _ (h.drawn q old)
        · rw [List.mem_singleton.mp new]
          exact List.mem_cons_self
      · show ∀ c ∈ _, _ → (u.orgConfigs.find? _).isSome
        rw [orgs]
        exact retried_set h fun again => by simp at again
    · rw [refused]
      refine ⟨h.valid, fun q hq => List.mem_cons_of_mem _ (h.drawn q hq), ?_⟩
      exact retried_set h fun again => by simp at again
  | deletes jobId =>
    exact ⟨fun r hr => h.valid r (Table.mem_delete.mp hr).1,
      fun r hr => h.drawn r (Table.mem_delete.mp hr).1, h.retried⟩
  | deletes_none jobId => exact h

theorem lawful_of_moved {i : Nat}
    (calls : t.calls = s.calls.set i { call with phase := phase }) (here : s.calls[i]? = some call)
    (moves : Moves s.database t.database call phase) (j : Nat) (c : ImportCall)
    (there : s.calls[j]? = some c) :
    ∃ c' : ImportCall, t.calls[j]? = some c' ∧ c'.job = c.job ∧
      Moves s.database t.database c c'.phase := by
  rw [calls]
  by_cases same : i = j
  · subst same
    obtain rfl := Option.some.inj (here.symm.trans there)
    refine ⟨{ call with phase := phase }, ?_, rfl, moves⟩
    rw [List.getElem?_set_self (List.getElem?_eq_some_iff.mp here).1]
  · refine ⟨c, ?_, rfl, .stays⟩
    rw [List.getElem?_set_ne same, there]

theorem Moves.phase_of_database {db' : JobDatabase} {e : DatabaseError}
    (h : Moves db db' call phase) (raised : phase = .answered (.error (.database e))) :
    call.phase = phase := by
  cases h with
  | stays => rfl
  | finds phase settles =>
    cases raised
    cases settles
  | inserts phase settles =>
    cases raised
    cases settles
  | finds_none | loses | refused => cases raised

theorem lawful_of_retryFindsNone (h : s.Kept) (none : s.RetryFindsNone event) : s.Lawful event := by
  intro t hstep
  cases Step.of_step hstep with
  | begins job valid resultJson =>
    intro i c there
    refine ⟨c, ?_, rfl, .stays⟩
    rw [List.getElem?_append_left (List.getElem?_eq_some_iff.mp there).1, there]
  | @selects i call retry here phase =>
    refine lawful_of_moved rfl here ?_
    rcases select_cases h.valid call retry with ⟨r, hr, source, found⟩ | ⟨absent, found⟩
    · rw [found]
      exact .finds phase (.of_existing hr source)
    · rw [found]
      exact .finds_none phase absent rfl
  | @inserts i call retry draw here phase new named =>
    refine lawful_of_moved rfl here ?_
    rcases insert_cases call retry (fresh_of_kept h new) named with
      ⟨r, hr, source, lost⟩ | ⟨first, ⟨u, jobs, -, stored⟩ | ⟨absent, refused⟩⟩
    · rw [lost]
      cases retry with
      | false => exact .loses phase hr source rfl
      | true =>
        have found := none new named call here phase
        exact absurd source (JobDatabase.findImport_eq_none.mp found r hr)
    · rw [stored]
      refine .inserts phase (.imported first ?_ ?_ fun q => ?_)
      · exact isSourceOf_record (call.job.drawn draw)
      · exact hasContentsOf_record (call.job.drawn draw)
      · show q ∈ u.jobs.rows ↔ _
        rw [(Table.insert?_eq_some.mp jobs).2, List.mem_append, List.mem_singleton]
        rfl
    · rw [refused]
      cases retry with
      | false => exact .refused phase absent rfl
      | true =>
        have known := h.retried call (List.mem_of_getElem? here) (.inr phase)
        rw [absent] at known
        cases known
  | deletes jobId => exact fun i c there => ⟨c, there, rfl, .stays⟩
  | deletes_none jobId => exact fun i c there => ⟨c, there, rfl, .stays⟩

theorem retryFindsNone_of_lawful (h : s.Kept) (lawful : s.Lawful event) :
    s.RetryFindsNone event := by
  cases event with
  | insert i draw =>
    intro new named call here phase
    rcases insert_cases call true (fresh_of_kept h new) named with
      ⟨r, hr, source, lost⟩ | ⟨first, -⟩
    · have hstep : machine.step s (.insert i draw) = some {
          s.moved i call (call.insert s.database true draw).1 with
          database := (call.insert s.database true draw).2
          drawn := draw.id :: s.drawn } := by
        refine Option.bind_eq_some_iff.mpr ⟨call, here, ?_⟩
        simp only [phase]
        rw [if_neg (not_or.mpr ⟨new, named⟩)]
      obtain ⟨call', there, -, moves⟩ := lawful _ hstep i call here
      have answered : call'.phase = .answered (.error (.database .uniqueViolation)) := by
        have set := List.getElem?_set_self (a := { call with
          phase := (call.insert s.database true draw).1 }) (List.getElem?_eq_some_iff.mp here).1
        obtain rfl := Option.some.inj (there.symm.trans set)
        rw [lost]
        rfl
      have same := moves.phase_of_database answered
      rw [answered, phase] at same
      cases same
    · exact JobDatabase.findImport_eq_none.mpr first
  | importTerminal | select | delete => trivial

theorem Kept.step_machine (h : s.Kept) (hstep : machine.step s event = some t) : t.Kept :=
  h.step (.of_step hstep)

theorem meets_retryFindsNone_of_lawful {events : List ImportEvent} (h : s.Kept)
    (lawful : machine.Meets Lawful s events) : machine.Meets RetryFindsNone s events :=
  lawful.of_invariant (fun _ _ _ h _ hstep => Kept.step_machine h hstep)
    (fun _ _ h lawful => retryFindsNone_of_lawful h lawful) h

theorem importsOnce_rows (db : JobDatabase) : ImportsOnce rows db := by
  intro r hr q hq some same
  exact db.imports_unique r hr q hq (by simp [JobRecord.sharesImport, some, same])

end Steps

end ImportService

/-- The one process with its disk store. -/
structure ImportDisk where
  disk : JobDisk
  drawn : List String

/-- A call, which holds the lock from its lookup to its last write. -/
inductive DiskImportEvent where
  | importTerminal (job : ImportedJob) (valid : job.Valid) (resultJson : String) (draw : Draw)
  | delete (jobId : String)

namespace ImportDisk

def start : ImportDisk := ⟨.empty, []⟩

variable (s : ImportDisk)

def machine : Machine ImportDisk DiskImportEvent where
  step s
    | .importTerminal job _ resultJson draw =>
      if draw.id ∈ s.drawn ∨ draw.id = "" then none
      else some ⟨(s.disk.importTerminal (job.drawn draw) resultJson).2, draw.id :: s.drawn⟩
    | .delete jobId => some { s with disk := (s.disk.delete jobId).2 }

def rows (d : JobDisk) : List JobRecord := d.records.rows

/-- An import answers for what there is, or adds the first one of its source. -/
def Lawful : DiskImportEvent → Prop
  | .importTerminal job _ resultJson draw =>
    draw.id ∉ s.drawn → draw.id ≠ "" →
      Settles rows s.disk (s.disk.importTerminal (job.drawn draw) resultJson).2 job
        (s.disk.importTerminal (job.drawn draw) resultJson).1
  | .delete _ => True

/-- What each call keeps: the records are under drawn ids, one for each source. -/
structure Kept (s : ImportDisk) : Prop where
  once : ImportsOnce rows s.disk
  drawn : ∀ r ∈ rows s.disk, r.id ∈ s.drawn

theorem importTerminal_settles {d : JobDisk} {job : ImportedJob} {draw : Draw}
    (valid : job.Valid) (named : draw.id ≠ "") (fresh : ∀ r ∈ rows d, r.id ≠ draw.id)
    (resultJson : String) :
    Settles rows d (d.importTerminal (job.drawn draw) resultJson).2 job
      (d.importTerminal (job.drawn draw) resultJson).1 := by
  unfold JobDisk.importTerminal
  cases found : d.findImport (job.drawn draw).orgId (job.drawn draw).provenance with
  | some r =>
    obtain ⟨there, source⟩ := PostgresJobStore.findImport_disk_eq_some found
    exact .of_existing there source
  | none =>
    simp only [if_pos (valid.record draw named)]
    have added : ∀ e : JobDisk, e.records = d.records →
        Settles rows d (e.writeRecord (job.drawn draw).record) job
          (.ok ⟨(job.drawn draw).record, false⟩) := by
      intro e same
      refine .imported (fun q hq => PostgresJobStore.findImport_disk_eq_none found hq)
        (isSourceOf_record (job.drawn draw)) (hasContentsOf_record (job.drawn draw)) fun q => ?_
      show q ∈ (e.records.put _).rows ↔ q ∈ d.records.rows ∨ _
      rw [Table.mem_put, same]
      constructor
      · rintro (⟨old, -⟩ | new)
        · exact .inl old
        · exact .inr new
      · rintro (old | new)
        · exact .inl ⟨old, fresh q old⟩
        · exact .inr new
    cases (job.drawn draw).homepageHtml with
    | none => exact added _ rfl
    | some html => exact added _ rfl

variable {s t : ImportDisk} {event : DiskImportEvent}

theorem start_kept : start.Kept := ⟨List.forall_mem_nil _, List.forall_mem_nil _⟩

theorem Kept.fresh (h : s.Kept) {id : String} (new : id ∉ s.drawn) :
    ∀ r ∈ rows s.disk, r.id ≠ id := by
  rintro r hr rfl
  exact new (h.drawn r hr)

theorem Kept.lawful (h : s.Kept) (event : DiskImportEvent) : s.Lawful event := by
  cases event with
  | importTerminal job valid resultJson draw =>
    intro new named
    exact importTerminal_settles valid named (h.fresh new) resultJson
  | delete jobId => trivial

theorem Kept.step (h : s.Kept) (hstep : machine.step s event = some t) : t.Kept := by
  cases event with
  | importTerminal job valid resultJson draw =>
    simp only [machine] at hstep
    split at hstep
    · cases hstep
    · next guard =>
      obtain ⟨new, named⟩ := not_or.mp guard
      have settles := importTerminal_settles valid named (h.fresh new) resultJson
      cases hstep
      refine ⟨h.once.of_settles settles, fun r hr => ?_⟩
      have absent : ∀ id ∉ s.drawn, s.disk.record id = none := fun id new =>
        Table.find?_eq_none.mpr (h.fresh new)
      have unheld : s.disk.record (job.drawn draw).id = none := absent _ new
      have evolves := JobDisk.importTerminal_evolves unheld resultJson
      by_contra unseen
      rw [List.mem_cons, not_or] at unseen
      have gone := evolves.adds r.id (absent _ unseen.2) unseen.1
      exact Table.find?_eq_none.mp gone r hr rfl
  | delete jobId =>
    cases hstep
    have fewer : ∀ r ∈ rows (s.disk.delete jobId).2, r ∈ rows s.disk := by
      unfold JobDisk.delete
      split
      · exact fun r hr => hr
      · exact fun r hr => (Table.mem_delete.mp hr).1
    refine ⟨fun r hr q hq => h.once r (fewer r hr) q (fewer q hq), fun r hr => ?_⟩
    exact h.drawn r (fewer r hr)

end ImportDisk

/-- In every run on one database each import is exactly once, and raises what it
documents, exactly when no second attempt finds a row of its source where it
inserts. On a disk store each import is, in every run. -/
theorem imports_exactly_once_iff (orgConfigs : Table String OrgConfigRow.orgId)
    (events : List ImportEvent) (diskEvents : List DiskImportEvent) :
    ((ImportService.machine.Always (fun s => ImportsOnce ImportService.rows s.database)
          (.start orgConfigs) events ∧
        ImportService.machine.Meets ImportService.Lawful (.start orgConfigs) events) ↔
      ImportService.machine.Meets ImportService.RetryFindsNone (.start orgConfigs) events) ∧
    ImportDisk.machine.Always (fun s => ImportsOnce ImportDisk.rows s.disk) .start diskEvents ∧
      ImportDisk.machine.Meets ImportDisk.Lawful .start diskEvents := by
  have init := ImportService.start_kept orgConfigs
  refine ⟨⟨?_, ?_⟩, ?_, ?_⟩
  · rintro ⟨-, lawful⟩
    exact ImportService.meets_retryFindsNone_of_lawful init lawful
  · intro none
    refine ⟨fun _ _ s _ _ => ImportService.importsOnce_rows s.database, ?_⟩
    exact none.of_invariant (fun _ _ _ h _ hstep => ImportService.Kept.step_machine h hstep)
      (fun _ _ h none => ImportService.lawful_of_retryFindsNone h none) init
  · exact Machine.always_of_invariant (fun _ _ _ h hstep => ImportDisk.Kept.step h hstep)
      ImportDisk.start_kept fun _ h => h.once
  · have free : ImportDisk.machine.Meets (fun _ _ => True) .start diskEvents := by
      simp [Machine.meets_iff]
    exact free.of_invariant (fun _ _ _ h _ hstep => ImportDisk.Kept.step h hstep)
      (fun _ event h _ => h.lawful event) ImportDisk.start_kept

namespace ImportService

section Sample

def sampleImport : ImportedJob where
  id := ""
  orgId := "default"
  toolName := "seo_page_classifier"
  facetId := "seo.page_classifier"
  label := ""
  request := "{}"
  status := .succeeded
  startedAt := 0
  finishedAt := 1
  error := none
  telemetry := "{}"
  homepageHtml := none
  provenance := ⟨"local", "job", "0"⟩
  moment := 0

theorem sampleImport_valid : sampleImport.Valid where
  org_id := by decide
  tool_name := by decide
  facet_id := by decide
  label := by decide
  error := by simp [sampleImport]

def sampleBegin : ImportEvent := .importTerminal sampleImport sampleImport_valid "{}"

def sampleInsert (call : Nat) (id : String) : ImportEvent := .insert call ⟨id, fun _ => 0⟩

/-- The first of three imports of one source loses to the second. By the time it
looks again that one is deleted, and it loses to the third. -/
def sampleRace : List ImportEvent :=
  [sampleBegin, .select 0, sampleBegin, .select 1, sampleInsert 1 "b", sampleInsert 0 "a",
    .delete "b", .select 0, sampleBegin, .select 2, sampleInsert 2 "d"]

/-- The loser's second `UniqueViolation` is what its caller sees. -/
theorem second_loss_escapes : ((machine.run (start ⟨[⟨"default", 100⟩], List.nodup_singleton _⟩)
      (sampleRace ++ [sampleInsert 0 "c"])).any fun s =>
        s.calls[0]?.map ImportCall.phase = some (.answered (.error (.database .uniqueViolation)))) ∧
      ¬machine.Meets Lawful (start ⟨[⟨"default", 100⟩], List.nodup_singleton _⟩)
        (sampleRace ++ [sampleInsert 0 "c"]) := by
  refine ⟨by decide, fun lawful => ?_⟩
  have none := meets_retryFindsNone_of_lawful (start_kept _) lawful
  have found : (machine.run (start ⟨[⟨"default", 100⟩], List.nodup_singleton _⟩) sampleRace).any
      fun s => "c" ∉ s.drawn ∧ s.calls[0]?.any fun call =>
        call.phase = .inserting true ∧
          (s.database.findImport call.job.orgId call.job.provenance).isSome := by decide
  obtain ⟨s, hs, found⟩ := (Option.any_eq_true _ _).mp found
  obtain ⟨new, found⟩ := of_decide_eq_true found
  obtain ⟨call, here, found⟩ := (Option.any_eq_true _ _).mp found
  obtain ⟨phase, found⟩ := of_decide_eq_true found
  have absent := ((Machine.meets_append.mp none).2 s hs).head new (by decide) call here phase
  rw [absent] at found
  cases found

end Sample

end ImportService

end Rankuno
