import Rankuno.PostgresJobs.Conformance

/-!
# A caller of two stores

One caller makes its calls on a `DiskJobStore` and on a `PostgresJobStore`. The
ids the two draw are named alike, their clocks are their own. The answers agree
at every call, as long as the records that `create` makes are valid.
-/

universe u

namespace Rankuno

def JobAnswer.untimed : JobAnswer → JobAnswer
  | .record r => .record r.untimed
  | .records rs => .records (rs.map JobRecord.untimed)
  | .outcome o => .outcome o.untimed
  | a => a

/-- Two answers that differ in times, and in an order nobody promised, at most. -/
def JobAnswer.Agrees : JobAnswer → JobAnswer → Prop
  | .records rs, .records qs =>
    (rs.map JobRecord.untimed).Perm (qs.map JobRecord.untimed) ∧ NewestFirst rs ∧ NewestFirst qs
  | .ids is, .ids js => is.Perm js
  | a, b => a.untimed = b.untimed

/-- The same exception, or answers that agree. -/
def AgreedReply : Except JobStoreError JobAnswer → Except JobStoreError JobAnswer → Prop
  | .ok a, .ok b => a.Agrees b
  | .error e, .error e' => e = e'
  | _, _ => False

/-- A call on both stores: the disk store's clock, and what the other one meets. -/
structure TwinCall (τ : Type u) where
  call : JobCall
  clock : Nat → Timestamp
  io : CallConditions τ

structure TwinStores (τ : Type u) where
  disk : JobDisk
  postgres : PostgresJobStore τ
  database : JobDatabase
  drawn : List String

namespace TwinStores

variable {τ : Type u}

/-- Two new stores, with the organizations of the database. -/
def start (failureThreshold : Int) (recoveryTimeoutS : τ) (fallbackStore : JobDisk)
    (orgConfigs : Table String OrgConfigRow.orgId) : TwinStores τ where
  disk := .empty
  postgres := ⟨.new failureThreshold recoveryTimeoutS, fallbackStore⟩
  database := .start orgConfigs
  drawn := []

variable (s : TwinStores τ) (a : TwinCall τ)

/-- The organization has budget. -/
def HasBudget (orgId : String) : Prop := (s.database.creditLimit orgId).any (0 < ·)

instance (orgId : String) : Decidable (s.HasBudget orgId) :=
  inferInstanceAs (Decidable (_ = true))

/-- The organization a call makes a job for has budget. -/
def Budgeted : JobCall → Prop
  | .create job => s.HasBudget job.record.orgId
  | .importTerminal job _ _ => s.HasBudget job.orgId
  | _ => True

instance : DecidablePred s.Budgeted := fun call => by
  cases call <;> unfold Budgeted <;> infer_instance

/-- No fault meets the call, the id it draws is new, and the organization has
budget. -/
def Undisturbed : Prop :=
  a.io.fault = .none ∧ a.io.draw.id ∉ s.drawn ∧ a.io.draw.id ≠ "" ∧ s.Budgeted a.call

instance : Decidable (s.Undisturbed a) := inferInstanceAs (Decidable (_ ∧ _ ∧ _ ∧ _))

/-- A `create` makes a valid record. -/
def Validates (draw : Draw) : JobCall → Prop
  | .create job => (job.drawn draw).record.Valid
  | _ => True

instance (draw : Draw) : DecidablePred (Validates draw) := fun call => by
  cases call <;> unfold Validates <;> infer_instance

def diskReply : Except JobStoreError JobAnswer × JobDisk :=
  s.disk.call ⟨a.io.draw.id, a.clock⟩ a.call

variable [Sub τ] [LE τ] [DecidableLE τ]

def postgresReply : Reply τ JobAnswer := s.postgres.call s.database a.io a.call

/-- The stores after a call. -/
def called : TwinStores τ where
  disk := (s.diskReply a).2
  postgres := (s.postgresReply a).store
  database := (s.postgresReply a).database
  drawn := a.io.draw.id :: s.drawn

def machine : Machine (TwinStores τ) (TwinCall τ) where
  step s a := some (s.called a)

/-- The two stores answer a call alike. -/
def Agree (s : TwinStores τ) (a : TwinCall τ) : Prop :=
  AgreedReply (s.diskReply a).1 (s.postgresReply a).answer

/-- They give the same answer, and the same order, up to times. -/
def Same (s : TwinStores τ) (a : TwinCall τ) : Prop :=
  (s.diskReply a).1.map JobAnswer.untimed = (s.postgresReply a).answer.map JobAnswer.untimed

end TwinStores

namespace JobView

/-- The jobs of a view are valid records under drawn ids. -/
def Known (drawn : List String) (v : JobView) : Prop := v.All fun id r => r.Valid ∧ id ∈ drawn

variable {v : JobView} {drawn : List String} {id jobId : String}

theorem Known.valid (h : v.Known drawn) : v.Valid := fun id r hr => (h id r hr).1

theorem Known.mono (h : v.Known drawn) (id : String) : v.Known (id :: drawn) :=
  fun i r hr => ⟨(h i r hr).1, List.mem_cons_of_mem _ (h i r hr).2⟩

theorem Known.write (h : v.Known drawn) {r : JobRecord} (valid : r.Valid) :
    (v.write r.untimed).Known (r.id :: drawn) :=
  All.write (h.mono r.id) ⟨r.untimed_valid.mpr valid, List.mem_cons_self⟩

theorem Known.change (h : v.Known drawn) (jobId : String) (change : RecordChange) :
    (v.change jobId change).Known drawn :=
  All.change h (fun _ _ _ known => ⟨(RecordChange.apply_valid _ _ _).mpr known.1, known.2⟩) jobId
    change

theorem Known.failUnfinished (h : v.Known drawn) : v.failUnfinished.Known drawn := by
  refine All.rewrite h fun id r known => ?_
  split
  · exact known
  · exact ⟨(RecordChange.apply_valid _ _ _).mpr known.1, known.2⟩

theorem Known.finish (h : v.Known drawn) (jobId result : String) (isPartial : Bool)
    (error : Option String) : (v.finish jobId result isPartial error).2.Known drawn := by
  unfold JobView.finish
  split
  · exact h
  · exact Known.change (v := v.saveResult jobId result) h jobId _

theorem Known.writeCheckpoint (h : v.Known drawn) (jobId payload : String) :
    (v.writeCheckpoint jobId payload).2.Known drawn := by
  unfold JobView.writeCheckpoint
  split
  · exact h
  · exact Known.change (v := v.saveCheckpoint jobId payload) h jobId _

theorem Known.importTerminal (h : v.Known drawn) (existing : Option JobRecord)
    {job : ImportedJob} (valid : job.record.Valid) (resultJson : String) :
    (v.importTerminal existing job resultJson).2.Known (job.id :: drawn) := by
  cases existing with
  | some r => exact h.mono job.id
  | none => exact Known.write (v := v.saveResult job.id resultJson) h (r := job.record) valid

theorem Known.delete (h : v.Known drawn) (jobId : String) : (v.delete jobId).2.Known drawn := by
  unfold JobView.delete
  split
  · exact h
  · exact All.remove h jobId

end JobView

namespace TwinStores

variable {τ : Type u}

/-- What each call keeps: the stores show one view, of drawn and valid jobs. -/
structure Twins (s : TwinStores τ) : Prop where
  view : s.disk.view = s.database.view
  known : s.disk.view.Known s.drawn
  closed : s.postgres.circuitBreaker.state = .closed

theorem start_twins (failureThreshold : Int) (recoveryTimeoutS : τ) (fallbackStore : JobDisk)
    (orgConfigs : Table String OrgConfigRow.orgId) :
    (start failureThreshold recoveryTimeoutS fallbackStore orgConfigs).Twins where
  view := rfl
  known := by
    intro id r found
    change Option.map JobRecord.untimed none = some r at found
    cases found
  closed := rfl

theorem Twins.fresh {s : TwinStores τ} (h : s.Twins) {id : String}
    (new : id ∉ s.drawn) : s.database.job id = none := by
  cases found : s.database.job id with
  | none => rfl
  | some r =>
    have shown : s.disk.view.job id = some r.untimed := by
      rw [h.view, JobDatabase.view_job, found]
      rfl
    exact absurd (h.known id r.untimed shown).2 new

variable [Sub τ] [LE τ] [DecidableLE τ] {s : TwinStores τ}
variable {call : JobCall} {clock : Nat → Timestamp} {io : CallConditions τ}

theorem agree_of_conforms {α γ : Type} {untimed : α → γ} {wrap : α → JobAnswer}
    {answer : Except JobStoreError α} {left : JobDisk} {reply : Reply τ α}
    {contract : Except JobStoreError γ × JobView}
    (conforms : Conforms untimed answer left.view contract)
    (answers : PostgresJobStore.Answers untimed reply contract)
    (known : contract.2.Known (io.draw.id :: s.drawn))
    (disk : s.diskReply ⟨call, clock, io⟩ = (answer.map wrap, left))
    (postgres : s.postgresReply ⟨call, clock, io⟩ = reply.map wrap)
    (same : ∀ x y, untimed x = untimed y → (wrap x).Agrees (wrap y)) :
    s.Agree ⟨call, clock, io⟩ ∧ (s.called ⟨call, clock, io⟩).Twins := by
  refine ⟨?_, ?_, ?_, ?_⟩
  · have equal := conforms.answer.trans answers.conforms.answer.symm
    unfold Agree
    rw [disk, postgres]
    show AgreedReply (answer.map wrap) (reply.answer.map wrap)
    cases hd : answer with
    | ok x =>
      cases hp : reply.answer with
      | ok y =>
        rw [hd, hp] at equal
        exact same x y (Except.ok.inj equal)
      | error e =>
        rw [hd, hp] at equal
        cases equal
    | error e =>
      cases hp : reply.answer with
      | ok y =>
        rw [hd, hp] at equal
        cases equal
      | error e' =>
        rw [hd, hp] at equal
        exact Except.error.inj equal
  · show (s.diskReply _).2.view = (s.postgresReply _).database.view
    rw [disk, postgres]
    exact conforms.view.trans answers.conforms.view.symm
  · show (s.diskReply _).2.view.Known _
    rw [disk]
    show left.view.Known _
    rw [conforms.view]
    exact known
  · show (s.postgresReply _).store.circuitBreaker.state = .closed
    rw [postgres]
    exact answers.closed

theorem agree_of_lists {answer answer' : JobAnswer} {left : JobDisk} {v : JobView}
    (disk : s.diskReply ⟨call, clock, io⟩ = (.ok answer, left))
    (postgres : (s.postgresReply ⟨call, clock, io⟩).answer = .ok answer')
    (same : answer.Agrees answer') (view : left.view = v)
    (view' : (s.postgresReply ⟨call, clock, io⟩).database.view = v)
    (closed : (s.postgresReply ⟨call, clock, io⟩).store.circuitBreaker.state = .closed)
    (known : v.Known (io.draw.id :: s.drawn)) :
    s.Agree ⟨call, clock, io⟩ ∧ (s.called ⟨call, clock, io⟩).Twins := by
  refine ⟨?_, ?_, ?_, closed⟩
  · unfold Agree
    rw [disk, postgres]
    exact same
  · show (s.diskReply _).2.view = _
    rw [disk]
    exact view.trans view'.symm
  · show (s.diskReply _).2.view.Known _
    rw [disk]
    show left.view.Known _
    rwa [view]

theorem Twins.step (h : s.Twins) (undisturbed : s.Undisturbed ⟨call, clock, io⟩)
    (validates : Validates io.draw call) :
    s.Agree ⟨call, clock, io⟩ ∧ (s.called ⟨call, clock, io⟩).Twins := by
  obtain ⟨fault, new, named, budget⟩ := undisturbed
  have calm : s.postgres.Calm io := ⟨h.closed, fault⟩
  have valid : s.database.view.Valid := h.view ▸ h.known.valid
  have known : s.disk.view.Known (io.draw.id :: s.drawn) := h.known.mono io.draw.id
  have records : ∀ x y : JobRecord, x.untimed = y.untimed →
      (JobAnswer.record x).Agrees (.record y) := fun _ _ same => by
    show JobAnswer.record _ = .record _
    rw [same]
  have moved : ∀ jobId (change : Draw → RecordChange) reading now,
      (change ⟨io.draw.id, clock⟩).untimed = (change io.draw).untimed →
      ∃ contract, Conforms JobRecord.untimed
          (s.disk.transition jobId (change ⟨io.draw.id, clock⟩) now).1
          (s.disk.transition jobId (change ⟨io.draw.id, clock⟩) now).2.view contract ∧
        PostgresJobStore.Answers JobRecord.untimed
          (s.postgres.transition s.database io jobId change reading) contract ∧
        contract.2.Known (io.draw.id :: s.drawn) := by
    intro jobId change reading now same
    refine ⟨_, JobDisk.transition_conforms jobId _ now, ?_, known.change jobId _⟩
    rw [h.view, same]
    exact PostgresJobStore.transition_answers calm valid jobId change reading
  cases call with
  | create job =>
    obtain ⟨limit, hlimit, positive⟩ := (Option.any_eq_true _ _).mp budget
    have proper : (job.drawn ⟨io.draw.id, clock⟩).record.Valid :=
      (JobRecord.untimed_valid _).mp ((job.drawn io.draw).record.untimed_valid.mpr validates)
    refine agree_of_conforms (JobDisk.create_conforms proper) ?_ (h.known.write proper)
      rfl rfl records
    rw [h.view]
    exact PostgresJobStore.create_answers calm hlimit (of_decide_eq_true positive) (h.fresh new)
      validates
  | get jobId =>
    have conforms : Conforms JobRecord.untimed (s.disk.get jobId) s.disk.view
        (s.disk.view.get jobId, s.disk.view) := ⟨JobDisk.get_conforms jobId, rfl⟩
    refine agree_of_conforms conforms ?_ known rfl rfl records
    rw [h.view]
    exact PostgresJobStore.get_answers calm valid jobId
  | listJobs =>
    obtain ⟨⟨rs, answer, listed, newest⟩, view, closed⟩ :=
      PostgresJobStore.listJobs_answers calm valid
    have returned : (s.postgresReply ⟨.listJobs, clock, io⟩).answer = .ok (.records rs) := by
      show (s.postgres.listJobs s.database io).answer.map JobAnswer.records = _
      rw [answer]
      rfl
    rw [← h.view] at listed view
    have agrees : (JobAnswer.records s.disk.listJobs).Agrees (.records rs) :=
      ⟨JobDisk.listJobs_conforms.perm listed, newestFirst_insertionSort _, newest⟩
    exact agree_of_lists rfl returned agrees rfl view closed known
  | markRunning jobId =>
    obtain ⟨contract, conforms, answers, known⟩ :=
      moved jobId (fun draw => .markRunning (draw.clock 0)) 1 (clock 1) rfl
    exact agree_of_conforms conforms answers known rfl rfl records
  | updateTelemetry jobId telemetry =>
    obtain ⟨contract, conforms, answers, known⟩ :=
      moved jobId (fun _ => .updateTelemetry telemetry) 0 (clock 0) rfl
    exact agree_of_conforms conforms answers known rfl rfl records
  | markFailed jobId error =>
    obtain ⟨contract, conforms, answers, known⟩ :=
      moved jobId (fun draw => .markFailed error (draw.clock 0)) 1 (clock 1) rfl
    exact agree_of_conforms conforms answers known rfl rfl records
  | finish jobId result isPartial error =>
    refine agree_of_conforms (JobDisk.finish_conforms jobId result isPartial error (clock 0)
      (clock 1)) ?_ (known.finish jobId result isPartial error) rfl rfl records
    rw [h.view]
    exact PostgresJobStore.finish_answers calm valid jobId result isPartial error
  | readResult jobId =>
    have conforms : Conforms id (s.disk.readResult jobId) s.disk.view
        (s.disk.view.readResult jobId, s.disk.view) :=
      .of_eq (JobDisk.readResult_conforms jobId)
    refine agree_of_conforms conforms ?_ known rfl rfl (fun x y same => ?_)
    · rw [h.view]
      exact PostgresJobStore.readResult_answers calm jobId
    · obtain rfl : x = y := same
      rfl
  | writeCheckpoint jobId payload =>
    have conforms := JobDisk.writeCheckpoint_conforms (d := s.disk) jobId payload (clock 0)
    have conforms' : Conforms id ((s.disk.writeCheckpoint jobId payload (clock 0)).1.map
        fun _ => ()) (s.disk.writeCheckpoint jobId payload (clock 0)).2.view
        (s.disk.view.writeCheckpoint jobId payload) :=
      ⟨(Conforms.of_eq (v := s.disk.view) conforms.answer).answer, conforms.view⟩
    have replied : s.postgresReply ⟨.writeCheckpoint jobId payload, clock, io⟩ =
        (s.postgres.writeCheckpoint s.database io jobId payload).map fun _ => .done := rfl
    refine agree_of_conforms conforms' ?_ (known.writeCheckpoint jobId payload) ?_ replied
      fun _ _ _ => rfl
    · rw [h.view]
      exact PostgresJobStore.writeCheckpoint_answers calm jobId payload
    · show (Except.map _ (s.disk.writeCheckpoint jobId payload (clock 0)).1, _) = _
      cases (s.disk.writeCheckpoint jobId payload (clock 0)).1 <;> rfl
  | readCheckpoint jobId =>
    have conforms : Conforms id (.ok (s.disk.readCheckpoint jobId)) s.disk.view
        (.ok (s.disk.view.checkpoint jobId), s.disk.view) := .of_eq rfl
    refine agree_of_conforms conforms ?_ known rfl rfl (fun x y same => ?_)
    · rw [h.view]
      exact PostgresJobStore.readCheckpoint_answers calm jobId
    · obtain rfl : x = y := same
      rfl
  | importTerminal job proper resultJson =>
    obtain ⟨limit, hlimit, positive⟩ := (Option.any_eq_true _ _).mp budget
    have conforms := JobDisk.importTerminal_conforms (d := s.disk)
      (proper.record ⟨io.draw.id, clock⟩ named) resultJson
    have earlier := PostgresJobStore.findImport_untimed h.view job.orgId job.provenance
    refine agree_of_conforms conforms ?_ ?_ rfl rfl (fun x y same => ?_)
    · have answers := PostgresJobStore.importTerminal_answers calm valid hlimit (h.fresh new)
        (proper.record io.draw named) resultJson
      rw [← h.view, ← earlier] at answers
      exact answers
    · exact h.known.importTerminal _ (proper.record ⟨io.draw.id, clock⟩ named) resultJson
    · show JobAnswer.outcome _ = .outcome _
      rw [same]
  | recoverOrphans =>
    obtain ⟨⟨ids, answer, listed⟩, view, closed⟩ :=
      PostgresJobStore.recoverOrphans_answers s.database calm
    obtain ⟨⟨ids', answer', listed'⟩, view'⟩ :=
      JobDisk.recoverOrphans_conforms (d := s.disk) clock
    rw [← h.view] at listed view
    have returned : (s.postgresReply ⟨.recoverOrphans, clock, io⟩).answer = .ok (.ids ids) := by
      show (s.postgres.recoverOrphans s.database io).answer.map JobAnswer.ids = _
      rw [answer]
      rfl
    have returned' : s.diskReply ⟨.recoverOrphans, clock, io⟩ =
        (.ok (.ids ids'), (s.disk.recoverOrphans clock).2) := by
      show (Except.map _ (s.disk.recoverOrphans clock).1, (s.disk.recoverOrphans clock).2) = _
      rw [answer']
      rfl
    have agrees : (JobAnswer.ids ids').Agrees (.ids ids) := listed'.perm listed
    exact agree_of_lists returned' returned agrees view' view closed known.failUnfinished
  | delete jobId =>
    have replied : s.postgresReply ⟨.delete jobId, clock, io⟩ =
        (s.postgres.delete s.database io jobId).map fun _ => .done := rfl
    refine agree_of_conforms (JobDisk.delete_conforms jobId) ?_ (known.delete jobId) rfl replied
      fun _ _ _ => rfl
    rw [h.view]
    exact PostgresJobStore.delete_answers calm jobId

section Sample

def sampleStart : TwinStores Int := start 5 30 .empty ⟨[⟨"default", 500⟩], List.nodup_singleton _⟩

/-- A call that meets no fault, at a time both stores read. -/
def sampleCall (id : String) (now : Timestamp) (call : JobCall) : TwinCall Int :=
  ⟨call, fun _ => now, ⟨.none, ⟨id, fun _ => now⟩, ⟨id, fun _ => now⟩, 0, 0, 0⟩⟩

def sampleCreate (id toolName : String) (now : Timestamp) : TwinCall Int :=
  sampleCall id now (.create (JobFleet.sampleJob toolName))

end Sample

end TwinStores

end Rankuno
