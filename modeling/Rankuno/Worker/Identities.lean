import Mathlib.Logic.Function.Basic
import Rankuno.Foundation.Machine
import Rankuno.Python.Text
import Rankuno.Python.Values

/-!
# Worker identities on disk

The store keeps every identity in memory and writes all of them to one file at
each change, atomically or not at all. A call holds the lock, changes the memory
and saves; the save may fail, and then the call raises. Building the store again
reads the file, and a file that cannot be read counts as one with no identities.

`set_active` and `replace_credential` put back what was in memory when their save
fails. `create` and `touch` do not. Memory and file stay the same exactly as long
as no failed save leaves such a change behind and no failed read hides a file,
`LeavesInStep`, and then no credential comes back once it is withdrawn.
-/

namespace Rankuno

open Python (Text)

def maxReportedTemplates : Nat := 200

structure WorkerTemplate where
  name : String
  description : String
  deriving DecidableEq

structure WorkerTemplateReport where
  templates : List WorkerTemplate
  unrecognisedCount : Nat
  deriving DecidableEq

structure Worker where
  workerId : String
  orgId : String
  secretHash : String
  displayName : String
  isActive : Bool := true
  createdAt : Timestamp
  lastSeenAt : Option Timestamp := none
  templates : List WorkerTemplate := []
  unrecognisedTemplateCount : Nat := 0
  deriving DecidableEq

structure WorkerPrincipal where
  workerId : String
  orgId : String
  deriving DecidableEq

namespace Worker

/-- `_IDENTIFIER_PATTERN`. -/
def isIdentifier (s : String) : Bool :=
  1 ≤ s.length && s.length ≤ 64 && s.toList.all Text.isSlugChar

/-- What the model checks when it is built. The templates were checked one by one
when they were. -/
def validates (w : Worker) : Bool :=
  isIdentifier w.workerId && isIdentifier w.orgId && w.secretHash ≠ "" &&
    (1 ≤ w.displayName.length && w.displayName.length ≤ 200) &&
    (w.templates.length ≤ maxReportedTemplates &&
      w.unrecognisedTemplateCount ≤ maxReportedTemplates)

/-- The record after a check-in. -/
def touched (w : Worker) (seenAt : Timestamp) (report : Option WorkerTemplateReport) : Worker :=
  match report with
  | none => { w with lastSeenAt := some seenAt }
  | some report =>
    { w with
      lastSeenAt := some seenAt
      templates := report.templates
      unrecognisedTemplateCount := report.unrecognisedCount }

end Worker

/-- The records by worker id. -/
abbrev Identities := String → Option Worker

namespace Identities

def put (identities : Identities) (workerId : String) (w : Worker) : Identities :=
  Function.update identities workerId (some w)

/-- The worker is there and active, with this credential. -/
def Accepts (identities : Identities) (workerId hash : String) : Prop :=
  ∃ w, identities workerId = some w ∧ w.isActive = true ∧ w.secretHash = hash

/-- `verify_worker_credential`, where `verify` is `verify_password`. Its three
refusals are one. -/
def verifyWorkerCredential (verify : String → String → Bool) (identities : Identities)
    (workerId secret : String) : Option WorkerPrincipal :=
  match identities workerId with
  | none => none
  | some w =>
    if !w.isActive || !verify secret w.secretHash then none else some ⟨w.workerId, w.orgId⟩

end Identities

inductive IdentityCall where
  | create (worker : Worker) (fails : Bool)
  | touch (workerId : String) (seenAt : Timestamp) (report : Option WorkerTemplateReport)
      (fails : Bool)
  | setActive (workerId orgId : String) (active : Bool) (fails : Bool)
  | replaceCredential (workerId orgId newCredentialHash : String) (fails : Bool)
  /-- The store is built again, in this process or another. -/
  | reopen (fails : Bool)
  deriving DecidableEq

structure DiskWorkerStore where
  memory : Identities
  file : Identities

namespace DiskWorkerStore

/-- A store that has just read its file. -/
def opened (file : Identities) : DiskWorkerStore := ⟨file, file⟩

/-- `_load`. -/
def load (s : DiskWorkerStore) (fails : Bool) : Identities :=
  if fails then fun _ => none else s.file

/-- `_save`, and whether it returned. -/
def save (s : DiskWorkerStore) (fails : Bool) : DiskWorkerStore × Bool :=
  if fails then (s, false) else ({ s with file := s.memory }, true)

/-- `create`. A worker that is not valid cannot be handed to it. -/
def create (s : DiskWorkerStore) (worker : Worker) (fails : Bool) : DiskWorkerStore × Bool :=
  match s.memory worker.workerId with
  | some _ => (s, false)
  | none =>
    if worker.validates then
      save { s with memory := s.memory.put worker.workerId worker } fails
    else (s, false)

def touch (s : DiskWorkerStore) (workerId : String) (seenAt : Timestamp)
    (report : Option WorkerTemplateReport) (fails : Bool) : DiskWorkerStore × Bool :=
  match s.memory workerId with
  | none => (s, false)
  | some data =>
    let worker := data.touched seenAt report
    if worker.validates then save { s with memory := s.memory.put workerId worker } fails
    else (s, false)

/-- `_update_owned`. When the save fails it puts back what was in memory. -/
def updateOwned (s : DiskWorkerStore) (workerId orgId : String) (update : Worker → Worker)
    (fails : Bool) : DiskWorkerStore × Bool :=
  match s.memory workerId with
  | none => (s, false)
  | some data =>
    if data.orgId ≠ orgId then (s, false)
    else
      let worker := update data
      if worker.validates then
        match save { s with memory := s.memory.put workerId worker } fails with
        | (s, true) => (s, true)
        | (s, false) => ({ s with memory := s.memory.put workerId data }, false)
      else (s, false)

def setActive (s : DiskWorkerStore) (workerId orgId : String) (active fails : Bool) :
    DiskWorkerStore × Bool :=
  s.updateOwned workerId orgId (fun w => { w with isActive := active }) fails

def replaceCredential (s : DiskWorkerStore) (workerId orgId newCredentialHash : String)
    (fails : Bool) : DiskWorkerStore × Bool :=
  s.updateOwned workerId orgId
    (fun w => { w with secretHash := newCredentialHash, isActive := true, lastSeenAt := none })
    fails

/-- A call, and whether it returned. -/
def apply (s : DiskWorkerStore) : IdentityCall → DiskWorkerStore × Bool
  | .create worker fails => s.create worker fails
  | .touch workerId seenAt report fails => s.touch workerId seenAt report fails
  | .setActive workerId orgId active fails => s.setActive workerId orgId active fails
  | .replaceCredential workerId orgId newCredentialHash fails =>
    s.replaceCredential workerId orgId newCredentialHash fails
  | .reopen fails => ({ s with memory := s.load fails }, true)

/-- The call takes a credential away: it returned from deactivating the worker or
from giving it another credential, or it failed to register the worker. -/
def Withdraws (s : DiskWorkerStore) (workerId hash : String) (call : IdentityCall) : Prop :=
  match call with
  | .setActive id _ active _ => id = workerId ∧ active = false ∧ (s.apply call).2 = true
  | .replaceCredential id _ new _ => id = workerId ∧ new ≠ hash ∧ (s.apply call).2 = true
  | .create worker _ =>
    worker.workerId = workerId ∧ s.file workerId = none ∧ (s.apply call).2 = false
  | .touch .. | .reopen _ => False

/-- The call gives a credential: it returned from registering a worker with it,
from activating the worker, or from replacing its credential by this one. -/
def Gives (s : DiskWorkerStore) (workerId hash : String) (call : IdentityCall) : Prop :=
  match call with
  | .setActive id _ active _ => id = workerId ∧ active = true ∧ (s.apply call).2 = true
  | .replaceCredential id _ new _ => id = workerId ∧ new = hash ∧ (s.apply call).2 = true
  | .create worker _ =>
    worker.workerId = workerId ∧ worker.secretHash = hash ∧ (s.apply call).2 = true
  | .touch .. | .reopen _ => False

/-- A save that fails leaves no change in memory, and a read that fails hides no
identity. -/
def LeavesInStep (s : DiskWorkerStore) : IdentityCall → Prop
  | .create worker fails =>
    fails = true → worker.validates = true → s.memory worker.workerId ≠ none
  | .touch workerId seenAt report fails =>
    fails = true → ∀ w, s.memory workerId = some w → (w.touched seenAt report).validates = true →
      w.touched seenAt report = w
  | .setActive .. | .replaceCredential .. => True
  | .reopen fails => fails = true → ∀ id, s.file id = none

section Steps

variable {s : DiskWorkerStore} {call : IdentityCall} {workerId orgId hash id : String}
variable {update : Worker → Worker} {worker data w : Worker} {fails : Bool}

theorem updateOwned_cases (s : DiskWorkerStore) (workerId orgId : String)
    (update : Worker → Worker) (fails : Bool) :
    s.updateOwned workerId orgId update fails = (s, false) ∨ ∃ data, s.memory workerId = some data ∧
        s.updateOwned workerId orgId update fails =
          (opened (s.memory.put workerId (update data)), true) := by
  rw [updateOwned]
  cases found : s.memory workerId with
  | none => exact Or.inl rfl
  | some data =>
    dsimp only
    split
    · exact Or.inl rfl
    · split
      · cases fails with
        | true =>
          left
          simp only [save, if_true, Identities.put, Function.update_idem, ← found,
            Function.update_eq_self]
        | false => exact Or.inr ⟨data, rfl, rfl⟩
      · exact Or.inl rfl

/-- Memory and file are the same. -/
def InStep (s : DiskWorkerStore) : Prop := s.memory = s.file

@[simp] theorem inStep_opened (file : Identities) : (opened file).InStep := rfl

theorem inStep_put (h : s.InStep) :
    InStep { s with memory := s.memory.put workerId w } ↔ s.memory workerId = some w := by
  rw [InStep, Identities.put, ← h, Function.update_eq_self_iff]
  exact eq_comm

theorem inStep_apply (h : s.InStep) : (s.apply call).1.InStep ↔ s.LeavesInStep call := by
  cases call with
  | create worker fails =>
    rw [apply, create, LeavesInStep]
    cases found : s.memory worker.workerId with
    | some data => simpa using h
    | none =>
      dsimp only
      split
      · next valid =>
        cases fails with
        | true => simp [save, inStep_put h, found, valid]
        | false => simp [save, InStep]
      · next invalid => simpa [invalid] using h
  | touch workerId seenAt report fails =>
    rw [apply, touch, LeavesInStep]
    cases found : s.memory workerId with
    | none => simpa using h
    | some data =>
      dsimp only
      split
      · next valid =>
        cases fails with
        | true =>
          rw [save, if_pos rfl, inStep_put h, found, Option.some.injEq]
          constructor
          · intro same _ w there _
            cases there
            exact same.symm
          · intro leaves
            exact (leaves rfl data rfl valid).symm
        | false => simp [save, InStep]
      · next invalid =>
        refine iff_of_true h fun _ w same valid => ?_
        cases same
        exact absurd valid invalid
  | setActive workerId orgId active fails =>
    rw [apply, setActive]
    obtain same | ⟨data, -, same⟩ := updateOwned_cases s workerId orgId _ fails
    · rw [same]
      exact iff_of_true h trivial
    · rw [same]
      exact iff_of_true rfl trivial
  | replaceCredential workerId orgId newCredentialHash fails =>
    rw [apply, replaceCredential]
    obtain same | ⟨data, -, same⟩ := updateOwned_cases s workerId orgId _ fails
    · rw [same]
      exact iff_of_true h trivial
    · rw [same]
      exact iff_of_true rfl trivial
  | reopen fails =>
    cases fails with
    | true =>
      simp only [apply, load, InStep, if_true, LeavesInStep, true_implies]
      constructor
      · intro same id
        exact (congrFun same id).symm
      · intro empty
        funext id
        exact (empty id).symm
    | false => simp [apply, load, InStep, LeavesInStep]

theorem apply_of_leavesInStep (h : s.InStep) (leaves : s.LeavesInStep call) :
    (s.apply call).1 = s ∨ ∃ id w, (s.apply call).1 = opened (s.memory.put id w) ∧
      (w.isActive = true → s.memory.Accepts id w.secretHash ∨ s.Gives id w.secretHash call) := by
  cases call with
  | create worker fails =>
    rw [LeavesInStep] at leaves
    simp only [Gives, apply, create]
    cases found : s.memory worker.workerId with
    | some data => exact Or.inl rfl
    | none =>
      dsimp only
      split
      · next valid =>
        cases fails with
        | true => exact absurd found (leaves rfl valid)
        | false => exact Or.inr ⟨_, worker, rfl, fun _ => Or.inr ⟨rfl, rfl, rfl⟩⟩
      · exact Or.inl rfl
  | touch workerId seenAt report fails =>
    rw [LeavesInStep] at leaves
    simp only [apply, touch]
    cases found : s.memory workerId with
    | none => exact Or.inl rfl
    | some data =>
      have accepts : (data.touched seenAt report).isActive = true →
          s.memory.Accepts workerId (data.touched seenAt report).secretHash := by
        intro active
        cases report with
        | none => exact ⟨data, found, active, rfl⟩
        | some report => exact ⟨data, found, active, rfl⟩
      dsimp only
      split
      · next valid =>
        cases fails with
        | true =>
          have same := leaves rfl data found valid
          rw [same, save, if_pos rfl, Identities.put, ← found, Function.update_eq_self]
          exact Or.inl rfl
        | false => exact Or.inr ⟨workerId, _, rfl, fun active => Or.inl (accepts active)⟩
      · exact Or.inl rfl
  | setActive workerId orgId active fails =>
    simp only [Gives, apply, setActive]
    obtain same | ⟨data, -, same⟩ := updateOwned_cases s workerId orgId _ fails
    · rw [same]
      exact Or.inl rfl
    · rw [same]
      exact Or.inr ⟨workerId, _, rfl, fun active => Or.inr ⟨rfl, active, rfl⟩⟩
  | replaceCredential workerId orgId newCredentialHash fails =>
    simp only [Gives, apply, replaceCredential]
    obtain same | ⟨data, -, same⟩ := updateOwned_cases s workerId orgId _ fails
    · rw [same]
      exact Or.inl rfl
    · rw [same]
      exact Or.inr ⟨workerId, _, rfl, fun _ => Or.inr ⟨rfl, rfl, rfl⟩⟩
  | reopen fails =>
    have same : s.load fails = s.memory := by
      rw [load]
      split
      · next read =>
        rw [h]
        funext id
        exact (leaves read id).symm
      · exact h.symm
    exact Or.inl (by rw [apply, same])

theorem accepts_apply (h : s.InStep) (leaves : s.LeavesInStep call)
    (accepts : (s.apply call).1.memory.Accepts workerId hash) :
    s.memory.Accepts workerId hash ∨ s.Gives workerId hash call := by
  obtain same | ⟨id, w, same, origin⟩ := apply_of_leavesInStep h leaves
  · rw [same] at accepts
    exact Or.inl accepts
  · rw [same] at accepts
    obtain ⟨v, found, active, rfl⟩ := accepts
    simp only [opened, Identities.put, Function.update_apply] at found
    split at found
    · next there =>
      cases found
      subst there
      exact origin active
    · exact Or.inl ⟨v, found, active, rfl⟩

theorem not_accepts_of_withdraws (h : s.InStep) (leaves : s.LeavesInStep call)
    (withdraws : s.Withdraws workerId hash call) :
    ¬(s.apply call).1.memory.Accepts workerId hash := by
  rintro ⟨w, found, active, rfl⟩
  cases call with
  | create worker fails =>
    obtain ⟨rfl, absent, raised⟩ := withdraws
    rw [← h] at absent
    rw [LeavesInStep, absent] at leaves
    simp only [apply, create, absent] at found raised
    split at raised
    · next valid =>
      cases fails with
      | true => exact leaves rfl valid rfl
      | false => cases raised
    · next invalid =>
      rw [if_neg invalid, absent] at found
      cases found
  | touch workerId seenAt report fails => exact withdraws
  | setActive id orgId active fails =>
    obtain ⟨rfl, rfl, returned⟩ := withdraws
    simp only [apply, setActive] at found returned
    obtain same | ⟨data, -, same⟩ := updateOwned_cases s id orgId _ fails
    · rw [same] at returned
      cases returned
    · simp only [same, opened, Identities.put, Function.update_self, Option.some.injEq] at found
      subst found
      cases active
  | replaceCredential id orgId new fails =>
    obtain ⟨rfl, other, returned⟩ := withdraws
    simp only [apply, replaceCredential] at found returned
    obtain same | ⟨data, -, same⟩ := updateOwned_cases s id orgId _ fails
    · rw [same] at returned
      cases returned
    · simp only [same, opened, Identities.put, Function.update_self, Option.some.injEq] at found
      subst found
      exact other rfl
  | reopen fails => exact withdraws

end Steps

end DiskWorkerStore

def workerIdentities : Machine DiskWorkerStore IdentityCall :=
  ⟨fun s call => some (s.apply call).1⟩

namespace DiskWorkerStore

/-- What the calls of a run promise of the identities: memory and file agree
after each, none takes an identity out of the file, and a credential that a call
withdrew lets no secret in, from memory or from file, until a call gives it. -/
structure KeepsIdentities (verify : String → String → Bool) (s : DiskWorkerStore)
    (run : List IdentityCall) : Prop where
  inStep : workerIdentities.Always InStep s run
  kept : workerIdentities.Stepwise
    (fun s t => ∀ id, (s.file id).isSome → (t.file id).isSome) s run
  withdrawn : ∀ earlier call later rest u v w workerId hash,
    run = earlier ++ call :: (later ++ rest) → workerIdentities.run s earlier = some u →
      workerIdentities.step u call = some v → workerIdentities.run v later = some w →
        u.Withdraws workerId hash call →
          workerIdentities.Meets (fun s call => ¬s.Gives workerId hash call) v later →
            ∀ secret, ¬(w.memory.Accepts workerId hash ∧ verify secret hash = true) ∧
              ¬(w.file.Accepts workerId hash ∧ verify secret hash = true)

section Runs

variable {s : DiskWorkerStore} {call : IdentityCall} {run : List IdentityCall}
variable {workerId hash : String}

theorem not_accepts_run {t : DiskWorkerStore} (h : s.InStep)
    (leaves : workerIdentities.Meets LeavesInStep s run)
    (gives : workerIdentities.Meets (fun s call => ¬s.Gives workerId hash call) s run)
    (refused : ¬s.memory.Accepts workerId hash) (hrun : workerIdentities.run s run = some t) :
    t.InStep ∧ ¬t.memory.Accepts workerId hash := by
  induction run generalizing s with
  | nil =>
    cases hrun
    exact ⟨h, refused⟩
  | cons call run ih =>
    obtain ⟨u, hu, hrun⟩ := Machine.run_cons_eq_some.mp hrun
    have next := ih (s := u)
    cases hu
    refine next ((inStep_apply h).mpr leaves.head) (leaves.tail rfl) (gives.tail rfl) ?_ hrun
    intro accepts
    exact (accepts_apply h leaves.head accepts).elim refused gives.head

theorem isSome_file_apply (h : s.InStep) (leaves : s.LeavesInStep call) {id : String}
    (there : (s.file id).isSome) : ((s.apply call).1.file id).isSome := by
  obtain same | ⟨k, w, same, -⟩ := apply_of_leavesInStep h leaves
  · rwa [same]
  · rw [same]
    simp only [opened, Identities.put, Function.update_apply]
    split
    · rfl
    · rwa [h]

end Runs

/-- **Identities are kept as long as no change is left in memory only.** From any
file, whatever calls are made and whichever of their saves and reads fail, the
store keeps its promises exactly when each failed save leaves the memory as it
was and no failed read hides an identity. -/
theorem keepsIdentities_iff_leavesInStep (verify : String → String → Bool) (file : Identities)
    (run : List IdentityCall) :
    KeepsIdentities verify (opened file) run ↔
      workerIdentities.Meets LeavesInStep (opened file) run := by
  have same : workerIdentities.Always InStep (opened file) run ↔
      workerIdentities.Meets LeavesInStep (opened file) run := by
    refine Machine.always_iff_meets (fun s call t h hstep => ?_) (fun s call hstep => ?_) rfl
    · cases hstep
      exact inStep_apply h
    · cases hstep
  constructor
  · intro keeps
    exact same.mp keeps.inStep
  · intro leaves
    have always := same.mpr leaves
    refine ⟨always, fun earlier call later u v split hu hv id there => ?_, ?_⟩
    · cases hv
      exact isSome_file_apply (always earlier _ u split hu)
        (Machine.meets_iff.mp leaves earlier call later u split hu) there
    · intro earlier call later rest u v w workerId hash split hu hv hw withdraws gives secret
      have inStep := always earlier _ u split hu
      rw [split] at leaves
      obtain ⟨leaves, after⟩ := (Machine.meets_append.mp leaves).2 u hu
      cases hv
      obtain ⟨inStep, refused⟩ := not_accepts_run ((inStep_apply inStep).mpr leaves)
        (Machine.meets_append.mp (after _ rfl)).1 gives
        (not_accepts_of_withdraws inStep leaves withdraws) hw
      have refused' : ¬w.file.Accepts workerId hash := by
        rwa [← show w.memory = w.file from inStep]
      exact ⟨fun h => refused h.1, fun h => refused' h.1⟩

def sampleWorker : Worker where
  workerId := "pc"
  orgId := "org"
  secretHash := "hash"
  displayName := "PC"
  createdAt := 0

/-- Registering a worker raises, and its credential is accepted until a restart. -/
theorem accepts_unregistered :
    ¬KeepsIdentities (fun _ _ => true) (opened fun _ => none) [.create sampleWorker true] := by
  intro keeps
  have kept := keeps.withdrawn [] (.create sampleWorker true) [] [] _ _ _ "pc" "hash" rfl rfl rfl
    rfl ⟨rfl, rfl, by decide⟩ trivial ""
  exact kept.1 ⟨⟨sampleWorker, by decide, rfl, rfl⟩, rfl⟩

end DiskWorkerStore

end Rankuno
