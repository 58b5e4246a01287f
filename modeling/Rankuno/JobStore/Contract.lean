import Rankuno.JobStore.Methods

/-!
# What every job store does

The contract behind the `JobStore` protocol of `core/state_store.py`: jobs, their
results and their checkpoints by id, without the times a store stamps and the
order it keeps its jobs in. `DiskJobStore` does what the contract says.
-/

namespace Rankuno

namespace JobRecord

/-- A record without its times. Which of them are set remains. -/
def untimed (r : JobRecord) : JobRecord :=
  { r with
    createdAt := 0
    updatedAt := 0
    startedAt := r.startedAt.map fun _ => 0
    finishedAt := r.finishedAt.map fun _ => 0 }

@[simp] theorem untimed_id (r : JobRecord) : r.untimed.id = r.id := rfl

@[simp] theorem untimed_orgId (r : JobRecord) : r.untimed.orgId = r.orgId := rfl

@[simp] theorem untimed_status (r : JobRecord) : r.untimed.status = r.status := rfl

@[simp] theorem untimed_provenance (r : JobRecord) : r.untimed.provenance = r.provenance := rfl

@[simp] theorem interruptedError_untimed (r : JobRecord) :
    interruptedError r.untimed = interruptedError r := rfl

theorem untimed_valid (r : JobRecord) : r.untimed.Valid ↔ r.Valid := by
  rw [valid_iff, valid_iff]
  rfl

end JobRecord

namespace RecordChange

def untimed : RecordChange → RecordChange
  | .markRunning _ => .markRunning 0
  | .updateTelemetry telemetry => .updateTelemetry telemetry
  | .markFailed error _ => .markFailed error 0
  | .finish isPartial error _ => .finish isPartial error 0
  | .checkpoint => .checkpoint

theorem apply_untimed (change : RecordChange) (now : Timestamp) (r : JobRecord) :
    (change.apply now r).untimed = change.untimed.apply 0 r.untimed := by
  cases change <;> rfl

end RecordChange

namespace ImportOutcome

def untimed (outcome : ImportOutcome) : ImportOutcome :=
  { outcome with record := outcome.record.untimed }

theorem ofExisting_untimed (existing : JobRecord) (source : JobProvenance) :
    ofExisting existing.untimed source = (ofExisting existing source).map untimed := by
  unfold ofExisting
  rw [JobRecord.untimed_provenance]
  split <;> rfl

theorem ofExisting_cases (existing : JobRecord) (source : JobProvenance) :
    ofExisting existing source = .ok ⟨existing, true⟩ ∨
      ofExisting existing source = .error (.importConflict existing.id) := by
  unfold ofExisting
  split
  · exact .inl rfl
  · exact .inr rfl

end ImportOutcome

/-- What a caller can come to know of a store, up to times. -/
@[ext] structure JobView where
  job : String → Option JobRecord
  result : String → Option String
  checkpoint : String → Option String

namespace JobView

def empty : JobView := ⟨fun _ => none, fun _ => none, fun _ => none⟩

variable (v : JobView)

def write (r : JobRecord) : JobView :=
  { v with job := fun id => if r.id = id then some r else v.job id }

def rewrite (f : String → JobRecord → JobRecord) : JobView :=
  { v with job := fun id => (v.job id).map (f id) }

def change (jobId : String) (change : RecordChange) : JobView :=
  v.rewrite fun id r => if id = jobId then change.apply 0 r else r

def saveResult (jobId body : String) : JobView :=
  { v with result := fun id => if jobId = id then some body else v.result id }

def saveCheckpoint (jobId body : String) : JobView :=
  { v with checkpoint := fun id => if jobId = id then some body else v.checkpoint id }

def remove (jobId : String) : JobView where
  job id := if jobId = id then none else v.job id
  result id := if jobId = id then none else v.result id
  checkpoint id := if jobId = id then none else v.checkpoint id

/-- The record found under an id. -/
def found (jobId : String) : Option JobRecord → Except JobStoreError JobRecord
  | some r => .ok r
  | none => .error (.jobNotFound jobId)

def get (jobId : String) : Except JobStoreError JobRecord := found jobId (v.job jobId)

def transition (jobId : String) (change : RecordChange) :
    Except JobStoreError JobRecord × JobView :=
  ((v.change jobId change).get jobId, v.change jobId change)

def finish (jobId result : String) (isPartial : Bool) (error : Option String) :
    Except JobStoreError JobRecord × JobView :=
  match v.job jobId with
  | none => (.error (.jobNotFound jobId), v)
  | some _ => (v.saveResult jobId result).transition jobId (.finish isPartial error 0)

def readResult (jobId : String) : Except JobStoreError String :=
  match v.job jobId, v.result jobId with
  | none, _ => .error (.jobNotFound jobId)
  | some _, none => .error (.noResult jobId)
  | some _, some result => .ok result

def writeCheckpoint (jobId payload : String) : Except JobStoreError Unit × JobView :=
  match v.job jobId with
  | none => (.error (.jobNotFound jobId), v)
  | some _ => (.ok (), (v.saveCheckpoint jobId payload).change jobId .checkpoint)

/-- Import a job, given the earlier import of its source, if there is one. -/
def importTerminal (existing : Option JobRecord) (job : ImportedJob) (resultJson : String) :
    Except JobStoreError ImportOutcome × JobView :=
  match existing with
  | some r => (ImportOutcome.ofExisting r job.provenance, v)
  | none =>
    (.ok ⟨job.record.untimed, false⟩, (v.saveResult job.id resultJson).write job.record.untimed)

/-- Fail the unfinished jobs. -/
def failUnfinished : JobView :=
  v.rewrite fun _ r =>
    if r.status.IsTerminal then r else (RecordChange.markFailed (interruptedError r) 0).apply 0 r

def delete (jobId : String) : Except JobStoreError Unit × JobView :=
  match v.job jobId with
  | none => (.error (.jobNotFound jobId), v)
  | some _ => (.ok (), v.remove jobId)

end JobView

namespace JobView

variable {v : JobView}

/-- The records of a view, each once. -/
structure Lists (v : JobView) (rs : List JobRecord) : Prop where
  nodup : (rs.map JobRecord.id).Nodup
  mem : ∀ r, r ∈ rs.map JobRecord.untimed ↔ v.job r.id = some r

/-- The ids of the unfinished jobs of a view, each once. -/
structure ListsUnfinished (v : JobView) (ids : List String) : Prop where
  nodup : ids.Nodup
  mem : ∀ id, id ∈ ids ↔ ∃ r, v.job id = some r ∧ ¬r.status.IsTerminal

theorem Lists.perm {rs qs : List JobRecord} (h : v.Lists rs) (k : v.Lists qs) :
    (rs.map JobRecord.untimed).Perm (qs.map JobRecord.untimed) := by
  have distinct : ∀ {rs : List JobRecord}, v.Lists rs → (rs.map JobRecord.untimed).Nodup := by
    intro rs h
    refine List.Nodup.of_map JobRecord.id ?_
    rw [List.map_map]
    exact h.nodup
  refine (List.perm_ext_iff_of_nodup (distinct h) (distinct k)).mpr fun r => ?_
  rw [h.mem, k.mem]

theorem ListsUnfinished.perm {is js : List String} (h : v.ListsUnfinished is)
    (k : v.ListsUnfinished js) : is.Perm js := by
  refine (List.perm_ext_iff_of_nodup h.nodup k.nodup).mpr fun id => ?_
  rw [h.mem, k.mem]

/-- Every record of the view satisfies `P`, with the id it is found under. -/
def All (v : JobView) (P : String → JobRecord → Prop) : Prop := ∀ id r, v.job id = some r → P id r

section All

variable {P : String → JobRecord → Prop}

theorem All.write (h : v.All P) {r : JobRecord} (new : P r.id r) : (v.write r).All P := by
  intro id q hq
  simp only [JobView.write] at hq
  split at hq
  · next same =>
    cases hq
    exact same ▸ new
  · exact h id q hq

theorem All.rewrite (h : v.All P) {f : String → JobRecord → JobRecord}
    (keeps : ∀ id r, P id r → P id (f id r)) : (v.rewrite f).All P := by
  intro id q hq
  obtain ⟨r, hr, rfl⟩ := Option.map_eq_some_iff.mp hq
  exact keeps id r (h id r hr)

theorem All.change (h : v.All P)
    (keeps : ∀ id r change, P id r → P id (RecordChange.apply change 0 r)) (jobId : String)
    (change : RecordChange) : (v.change jobId change).All P := by
  refine h.rewrite fun id r hr => ?_
  split
  · exact keeps id r change hr
  · exact hr

theorem All.remove (h : v.All P) (jobId : String) : (v.remove jobId).All P := by
  intro id q hq
  simp only [JobView.remove] at hq
  split at hq
  · cases hq
  · exact h id q hq

/-- A store validates the records it makes. -/
def Valid (v : JobView) : Prop := v.All fun _ r => r.Valid

theorem Valid.change (h : v.Valid) (jobId : String) (change : RecordChange) :
    (v.change jobId change).Valid :=
  All.change h (fun _ _ _ valid => (RecordChange.apply_valid _ _ _).mpr valid) jobId change

end All

theorem lists_of_perm {t : Table String JobRecord.id} {rs : List JobRecord}
    (jobs : ∀ id, v.job id = (t.find? id).map JobRecord.untimed) (perm : rs.Perm t.rows) :
    v.Lists rs := by
  refine ⟨((perm.map _).nodup_iff).mpr t.keys_nodup, fun r => ?_⟩
  rw [(perm.map JobRecord.untimed).mem_iff, jobs, Option.map_eq_some_iff, List.mem_map]
  constructor
  · rintro ⟨q, hq, rfl⟩
    exact ⟨q, Table.find?_key hq, rfl⟩
  · rintro ⟨q, hq, same⟩
    exact ⟨q, (Table.find?_eq_some.mp hq).1, same⟩

theorem listsUnfinished_of_perm {t : Table String JobRecord.id} {rs : List JobRecord}
    (jobs : ∀ id, v.job id = (t.find? id).map JobRecord.untimed)
    (perm : rs.Perm (t.rows.filter fun r => ¬r.status.IsTerminal)) :
    v.ListsUnfinished (rs.map JobRecord.id) := by
  refine ⟨((perm.map _).nodup_iff).mpr (t.keys_nodup.sublist (List.filter_sublist.map _)), ?_⟩
  intro id
  rw [(perm.map JobRecord.id).mem_iff, jobs, List.mem_map]
  constructor
  · rintro ⟨q, hq, rfl⟩
    obtain ⟨there, unfinished⟩ := List.mem_filter.mp hq
    refine ⟨q.untimed, ?_, of_decide_eq_true unfinished⟩
    rw [Table.find?_key there]
    rfl
  · rintro ⟨r, hr, unfinished⟩
    obtain ⟨q, hq, rfl⟩ := Option.map_eq_some_iff.mp hr
    obtain ⟨there, rfl⟩ := Table.find?_eq_some.mp hq
    exact ⟨q, List.mem_filter.mpr ⟨there, decide_eq_true unfinished⟩, rfl⟩

end JobView

/-- What `list_jobs` promises of its order. -/
def NewestFirst (rs : List JobRecord) : Prop := rs.Pairwise fun r q => q.createdAt ≤ r.createdAt

theorem newestFirst_insertionSort (rs : List JobRecord) :
    NewestFirst (rs.insertionSort fun r q => q.createdAt ≤ r.createdAt) := by
  have total : Std.Total fun r q : JobRecord => q.createdAt ≤ r.createdAt :=
    ⟨fun r q => Int.le_total q.createdAt r.createdAt⟩
  have trans : IsTrans JobRecord fun r q => q.createdAt ≤ r.createdAt :=
    ⟨fun _ _ _ h k => Int.le_trans k h⟩
  exact List.pairwise_insertionSort _ _

/-- A method answers what the contract says, up to times, and leaves that view. -/
structure Conforms {α β : Type} (untimed : α → β) (answer : Except JobStoreError α)
    (view : JobView) (contract : Except JobStoreError β × JobView) : Prop where
  answer : answer.map untimed = contract.1
  view : view = contract.2

theorem Conforms.of_eq {α : Type} {answer answer' : Except JobStoreError α} {v : JobView}
    (h : answer = answer') : Conforms id answer v (answer', v) := by
  subst h
  refine ⟨?_, rfl⟩
  cases answer <;> rfl

namespace JobDisk

/-- What the files tell. -/
def view (d : JobDisk) : JobView where
  job id := (d.record id).map JobRecord.untimed
  result id := (d.sidecar .result id).map SidecarFile.body
  checkpoint id := (d.sidecar .checkpoint id).map SidecarFile.body

variable (d : JobDisk)

theorem view_job (id : String) : d.view.job id = (d.record id).map JobRecord.untimed := rfl

theorem view_result (id : String) :
    d.view.result id = (d.sidecar .result id).map SidecarFile.body := rfl

@[simp] theorem view_writeRecord (r : JobRecord) :
    (d.writeRecord r).view = d.view.write r.untimed := by
  ext1
  · funext id
    show ((d.writeRecord r).record id).map JobRecord.untimed = _
    rw [writeRecord_record, apply_ite (Option.map JobRecord.untimed)]
    rfl
  · rfl
  · rfl

@[simp] theorem view_unlinkRecord_job (id i : String) :
    (d.unlinkRecord id).view.job i = if id = i then none else d.view.job i := by
  show ((d.unlinkRecord id).record i).map JobRecord.untimed = _
  rw [unlinkRecord_record, apply_ite (Option.map JobRecord.untimed)]
  rfl

theorem view_writeSidecar_result (id body : String) :
    (d.writeSidecar .result id body).view = d.view.saveResult id body := by
  ext1
  · rfl
  · funext i
    show ((d.writeSidecar .result id body).sidecar .result i).map SidecarFile.body = _
    rw [writeSidecar_sidecar, apply_ite (Option.map SidecarFile.body)]
    simp only [true_and]
    rfl
  · funext i
    show ((d.writeSidecar .result id body).sidecar .checkpoint i).map SidecarFile.body = _
    rw [writeSidecar_sidecar, if_neg (by simp)]
    rfl

theorem view_writeSidecar_checkpoint (id body : String) :
    (d.writeSidecar .checkpoint id body).view = d.view.saveCheckpoint id body := by
  ext1
  · rfl
  · funext i
    show ((d.writeSidecar .checkpoint id body).sidecar .result i).map SidecarFile.body = _
    rw [writeSidecar_sidecar, if_neg (by simp)]
    rfl
  · funext i
    show ((d.writeSidecar .checkpoint id body).sidecar .checkpoint i).map SidecarFile.body = _
    rw [writeSidecar_sidecar, apply_ite (Option.map SidecarFile.body)]
    simp only [true_and]
    rfl

theorem view_writeSidecar_homepage (id body : String) :
    (d.writeSidecar .homepage id body).view = d.view := by
  ext1
  · rfl
  · funext i
    show ((d.writeSidecar .homepage id body).sidecar .result i).map SidecarFile.body = _
    rw [writeSidecar_sidecar, if_neg (by simp)]
    rfl
  · funext i
    show ((d.writeSidecar .homepage id body).sidecar .checkpoint i).map SidecarFile.body = _
    rw [writeSidecar_sidecar, if_neg (by simp)]
    rfl

section Methods

variable {d}

theorem get_conforms (jobId : String) : (d.get jobId).map JobRecord.untimed = d.view.get jobId := by
  rw [get, JobView.get, view_job]
  cases d.record jobId <;> rfl

theorem create_conforms {job : NewJob} (valid : job.record.Valid) :
    Conforms JobRecord.untimed (d.create job).1 (d.create job).2.view
      (.ok job.record.untimed, d.view.write job.record.untimed) := by
  rw [create, if_pos valid]
  exact ⟨rfl, d.view_writeRecord _⟩

theorem view_transition (jobId : String) (change : RecordChange) (now : Timestamp) :
    (d.transition jobId change now).2.view = d.view.change jobId change.untimed := by
  have same : ∀ id, ((d.transition jobId change now).2.record id).map JobRecord.untimed =
      (d.view.change jobId change.untimed).job id := by
    intro id
    rw [transition_record, Option.map_map]
    show _ = ((d.record id).map JobRecord.untimed).map _
    rw [Option.map_map]
    congr 1
    funext r
    simp only [Function.comp_apply]
    rw [apply_ite JobRecord.untimed, RecordChange.apply_untimed]
  ext1
  · exact funext same
  · unfold transition
    split <;> rfl
  · unfold transition
    split <;> rfl

theorem transition_conforms (jobId : String) (change : RecordChange) (now : Timestamp) :
    Conforms JobRecord.untimed (d.transition jobId change now).1
      (d.transition jobId change now).2.view (d.view.transition jobId change.untimed) := by
  refine ⟨?_, view_transition _ _ _⟩
  rw [JobView.transition, ← view_transition jobId change now, JobView.get, view_job,
    transition_record]
  unfold transition
  cases d.record jobId with
  | none => rfl
  | some r => simp [Except.map, JobView.found]

theorem listJobs_conforms : d.view.Lists d.listJobs :=
  JobView.lists_of_perm (t := d.records) (fun _ => rfl) (List.perm_insertionSort _ _)

theorem finish_conforms (jobId result : String) (isPartial : Bool) (error : Option String)
    (finishedAt now : Timestamp) :
    Conforms JobRecord.untimed (d.finish jobId result isPartial error finishedAt now).1
      (d.finish jobId result isPartial error finishedAt now).2.view
      (d.view.finish jobId result isPartial error) := by
  unfold finish JobView.finish
  rw [view_job]
  cases d.record jobId with
  | none => exact ⟨rfl, rfl⟩
  | some r =>
    show Conforms _ _ _ ((d.view.saveResult jobId result).transition jobId _)
    rw [← view_writeSidecar_result]
    exact transition_conforms jobId (.finish isPartial error finishedAt) now

theorem readResult_conforms (jobId : String) : d.readResult jobId = d.view.readResult jobId := by
  unfold readResult JobView.readResult
  rw [view_job, view_result]
  cases d.record jobId with
  | none => rfl
  | some r => cases d.sidecar .result jobId <;> rfl

theorem writeCheckpoint_conforms (jobId payload : String) (now : Timestamp) :
    Conforms (fun _ => ()) (d.writeCheckpoint jobId payload now).1
      (d.writeCheckpoint jobId payload now).2.view (d.view.writeCheckpoint jobId payload) := by
  unfold writeCheckpoint JobView.writeCheckpoint
  rw [view_job]
  cases found : d.record jobId with
  | none => exact ⟨rfl, rfl⟩
  | some r =>
    constructor
    · have there : (d.writeSidecar .checkpoint jobId payload).record jobId = some r := found
      simp only [transition, there]
      rfl
    · show ((d.writeSidecar .checkpoint jobId payload).transition jobId _ now).2.view = _
      rw [view_transition, view_writeSidecar_checkpoint]
      rfl

theorem importTerminal_conforms {job : ImportedJob} (valid : job.record.Valid)
    (resultJson : String) :
    Conforms ImportOutcome.untimed
      (d.importTerminal job resultJson).1 (d.importTerminal job resultJson).2.view
      (d.view.importTerminal ((d.findImport job.orgId job.provenance).map JobRecord.untimed) job
        resultJson) := by
  unfold importTerminal
  cases d.findImport job.orgId job.provenance with
  | some existing =>
    exact ⟨(ImportOutcome.ofExisting_untimed existing job.provenance).symm, rfl⟩
  | none =>
    simp only [if_pos valid]
    refine ⟨rfl, ?_⟩
    have stored : ∀ e : JobDisk, e.view = d.view.saveResult job.id resultJson →
        (e.writeRecord job.record).view =
          (d.view.saveResult job.id resultJson).write job.record.untimed := by
      intro e same
      rw [view_writeRecord, same]
    cases job.homepageHtml with
    | none => exact stored _ (d.view_writeSidecar_result _ _)
    | some html =>
      refine stored _ ?_
      rw [view_writeSidecar_homepage, view_writeSidecar_result]

theorem foldl_unlinkSidecar_sidecar (kinds : List SidecarKind) (d : JobDisk) (jobId id : String)
    (kind : SidecarKind) :
    (kinds.foldl (fun d kind => d.unlinkSidecar kind jobId) d).sidecar kind id =
      if kind ∈ kinds ∧ jobId = id then none else d.sidecar kind id := by
  induction kinds generalizing d with
  | nil => simp
  | cons first kinds ih =>
    rw [List.foldl_cons, ih, unlinkSidecar_sidecar]
    by_cases same : jobId = id
    · by_cases here : first = kind <;> simp [same, here, List.mem_cons, Ne.symm]
    · simp [same]

theorem delete_conforms (jobId : String) :
    Conforms id (d.delete jobId).1 (d.delete jobId).2.view (d.view.delete jobId) := by
  unfold delete JobView.delete
  rw [view_job]
  cases d.record jobId with
  | none => exact ⟨rfl, rfl⟩
  | some r =>
    refine ⟨rfl, ?_⟩
    ext1
    · funext i
      exact d.view_unlinkRecord_job jobId i
    · funext i
      show ((StoreCall.sidecarKinds.foldl _ (d.unlinkRecord jobId)).sidecar .result i).map _ = _
      rw [foldl_unlinkSidecar_sidecar, apply_ite (Option.map SidecarFile.body)]
      simp only [StoreCall.sidecarKinds, List.mem_cons, true_or, true_and]
      rfl
    · funext i
      show ((StoreCall.sidecarKinds.foldl _ (d.unlinkRecord jobId)).sidecar .checkpoint i).map _ = _
      rw [foldl_unlinkSidecar_sidecar, apply_ite (Option.map SidecarFile.body)]
      simp only [StoreCall.sidecarKinds, List.mem_cons, true_or, or_true, true_and]
      rfl

theorem failOrphans_conforms {rs : List JobRecord} (clock : Nat → Timestamp) {d : JobDisk}
    (nodup : (rs.map JobRecord.id).Nodup) (there : ∀ r ∈ rs, d.record r.id = some r) :
    (failOrphans clock d rs).1 = .ok (rs.map JobRecord.id) ∧
      (failOrphans clock d rs).2.view = d.view.rewrite fun id r =>
        if id ∈ rs.map JobRecord.id then
          (RecordChange.markFailed (interruptedError r) 0).apply 0 r
        else r := by
  induction rs generalizing clock d with
  | nil =>
    refine ⟨rfl, ?_⟩
    ext1
    · funext id
      simp [failOrphans, JobView.rewrite]
    · rfl
    · rfl
  | cons r rest ih =>
    rw [List.map_cons, List.nodup_cons] at nodup
    obtain ⟨apart, nodup⟩ := nodup
    have found := there r List.mem_cons_self
    have others : ∀ q ∈ rest, (d.transition r.id (.markFailed (interruptedError r) (clock 0))
        (clock 1)).2.record q.id = some q := by
      intro q hq
      have other : q.id ≠ r.id := fun same => apart (List.mem_map.mpr ⟨q, hq, same⟩)
      rw [transition_record, there q (List.mem_cons_of_mem _ hq)]
      simp [other]
    have failed := view_transition (d := d) r.id (.markFailed (interruptedError r) (clock 0))
      (clock 1)
    have ran : failOrphans clock d (r :: rest) =
        ((failOrphans (fun i => clock (i + 2)) (d.transition r.id
          (.markFailed (interruptedError r) (clock 0)) (clock 1)).2 rest).1.map (r.id :: ·),
        (failOrphans (fun i => clock (i + 2)) (d.transition r.id
          (.markFailed (interruptedError r) (clock 0)) (clock 1)).2 rest).2) := by
      simp only [failOrphans, transition, found]
    obtain ⟨answer, view⟩ := ih (fun i => clock (i + 2)) nodup others
    rw [ran, answer, view, failed]
    refine ⟨rfl, ?_⟩
    ext1
    · funext id
      show (((d.record id).map JobRecord.untimed).map _).map _ =
        ((d.record id).map JobRecord.untimed).map _
      rw [Option.map_map, Option.map_map, Option.map_map]
      by_cases same : id = r.id
      · subst same
        rw [found]
        simp [apart, RecordChange.untimed]
      · simp only [List.map_cons, List.mem_cons, same, false_or, if_false]
        rfl
    · rfl
    · rfl

theorem recoverOrphans_conforms (clock : Nat → Timestamp) :
    (∃ ids, (d.recoverOrphans clock).1 = .ok ids ∧ d.view.ListsUnfinished ids) ∧
      (d.recoverOrphans clock).2.view = d.view.failUnfinished := by
  have perm : (d.listJobs.filter fun r => ¬r.status.IsTerminal).Perm
      (d.records.rows.filter fun r => ¬r.status.IsTerminal) :=
    (List.perm_insertionSort _ _).filter _
  have listed := JobView.listsUnfinished_of_perm (v := d.view) (fun _ => rfl) perm
  obtain ⟨answer, view⟩ := failOrphans_conforms clock listed.nodup fun r hr =>
    Table.find?_key (List.mem_filter.mp (perm.mem_iff.mp hr)).1
  refine ⟨⟨_, answer, listed⟩, ?_⟩
  rw [recoverOrphans, view]
  ext1
  · funext id
    show (d.view.job id).map _ = (d.view.job id).map _
    cases found : d.view.job id with
    | none => rfl
    | some r =>
      have unfinished : id ∈ (d.listJobs.filter fun r => ¬r.status.IsTerminal).map JobRecord.id ↔
          ¬r.status.IsTerminal := by
        rw [listed.mem, found]
        simp
      simp only [Option.map_some, unfinished]
      rw [← ite_not]
      simp only [not_not]
  · rfl
  · rfl

end Methods

end JobDisk

end Rankuno
