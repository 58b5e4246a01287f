import Mathlib.Data.List.Sort
import Rankuno.Foundation.Machine
import Rankuno.Foundation.Table
import Rankuno.JobStore.Record

/-!
# The recovery of jobs that were left on disk

`recover_orphaned_jobs` of `core/fallback_recovery.py`. It reads each JSON file
of a directory, logs the job it describes and unlinks the file; the job store it
is given is never called. So a file it removes stays findable exactly when the
store held the job before. What a file holds is opaque here, and so is what
`json.loads` makes of it. A directory that is missing has no files.
-/

universe u

namespace Rankuno

/-- What `json.loads` and the two lookups make of a file's text. -/
inductive LoadedJob where
  | malformed
  | notAnObject
  | object (id orgId : Option String)
  deriving DecidableEq

structure QueueFile (β : Type u) where
  name : String
  content : β
  deriving DecidableEq

/-- The files of a directory, by their names. -/
abbrev QueueDirectory (β : Type u) := Table String (@QueueFile.name β)

/-- Where the loop of `recover_orphaned_jobs` is: at the files it has still to
read, at a file it has read, or past one it has unlinked. -/
inductive RecoveryPhase (β : Type u) where
  | reading (rest : List (QueueFile β))
  | unlinking (file : QueueFile β) (rest : List (QueueFile β))
  | counting (rest : List (QueueFile β))
  deriving DecidableEq

/-- A run of `recover_orphaned_jobs` after some of its steps. -/
structure FallbackRecovery (β : Type u) where
  directory : QueueDirectory β
  phase : RecoveryPhase β
  recoveredCount : Nat

namespace QueueFile

variable {β : Type u}

/-- `glob("*.json")`. -/
def isJson (file : QueueFile β) : Bool := ".json".toList.isSuffixOf file.name.toList

end QueueFile

namespace FallbackRecovery

variable {β : Type u}

/-- `sorted(fallback_queue_dir.glob("*.json"))`. -/
def listing (directory : QueueDirectory β) : List (QueueFile β) :=
  (directory.rows.filter QueueFile.isJson).insertionSort fun f g => f.name ≤ g.name

def start (directory : QueueDirectory β) : FallbackRecovery β :=
  ⟨directory, .reading (listing directory), 0⟩

/-- The loop is over, and its count returned. -/
def Returned (s : FallbackRecovery β) : Prop := s.phase = .reading []

variable (loads : β → LoadedJob)

/-- The file holds a JSON object, so that reading and logging it raises nothing. -/
def Readable (file : QueueFile β) : Prop := ∃ id orgId, loads file.content = .object id orgId

instance (file : QueueFile β) : Decidable (Readable loads file) :=
  match h : loads file.content with
  | .malformed => isFalse (by simp [Readable, h])
  | .notAnObject => isFalse (by simp [Readable, h])
  | .object id orgId => isTrue ⟨id, orgId, h⟩

/-- The steps of the loop. A label is whether the system raises in the step; what
is raised while a file is handled is logged, and the loop goes on. A process
that dies is a run that ends early. -/
def machine : Machine (FallbackRecovery β) Bool where
  step s raises :=
    match s.phase with
    | .reading [] => none
    | .reading (file :: rest) =>
      if raises ∨ ¬Readable loads file then some { s with phase := .reading rest }
      else some { s with phase := .unlinking file rest }
    | .unlinking file rest =>
      if raises then some { s with phase := .reading rest }
      else some { s with
        directory := s.directory.delete fun f => f.name = file.name
        phase := .counting rest }
    | .counting rest =>
      some { s with phase := .reading rest, recoveredCount := s.recoveredCount + 1 }

/-- The store finds the job that the file describes, under its id and org. -/
def Finds (get : String → Option JobRecord) (file : QueueFile β) : Prop :=
  ∃ id orgId, loads file.content = .object (some id) (some orgId) ∧
    ∃ r ∈ get id, r.id = id ∧ r.orgId = orgId

/-- What the recovery of a directory promises after any of its steps. -/
structure MovesOnly (get : String → Option JobRecord) (directory : QueueDirectory β)
    (s : FallbackRecovery β) : Prop where
  /-- What was removed can be found. -/
  removed_found : ∀ file ∈ directory.rows, file ∉ s.directory.rows → Finds loads get file
  /-- Nothing else was touched. -/
  rest_kept : s.directory.rows.Sublist directory.rows
  /-- The count it returns is that of the files removed. -/
  count : s.Returned → s.recoveredCount + s.directory.rows.length = directory.rows.length

/-- The promise holds wherever a run of the recovery ends, and a second run finds
nothing to do after a first one in which the system raised nothing. -/
def NeverDiscards (get : String → Option JobRecord) (directory : QueueDirectory β) : Prop :=
  (∀ raised s, (machine loads).run (start directory) raised = some s →
    MovesOnly loads get directory s) ∧
  ∀ raised s, (∀ raises ∈ raised, raises = false) →
    (machine loads).run (start directory) raised = some s → s.Returned →
    ∀ again t, (machine loads).run (start s.directory) again = some t → t.directory = s.directory

section Runs

variable {loads} {get : String → Option JobRecord} {directory : QueueDirectory β}
variable {s t : FallbackRecovery β} {raises : Bool}

/-- The steps of the loop, one by one. -/
inductive Step (loads : β → LoadedJob) : FallbackRecovery β → Bool → FallbackRecovery β → Prop where
  | skip {d : QueueDirectory β} {file : QueueFile β} {rest : List (QueueFile β)} {n : Nat}
      {raises : Bool} (left : raises = true ∨ ¬Readable loads file) :
      Step loads ⟨d, .reading (file :: rest), n⟩ raises ⟨d, .reading rest, n⟩
  | read {d : QueueDirectory β} {file : QueueFile β} {rest : List (QueueFile β)} {n : Nat}
      (readable : Readable loads file) :
      Step loads ⟨d, .reading (file :: rest), n⟩ false ⟨d, .unlinking file rest, n⟩
  | keep {d : QueueDirectory β} {file : QueueFile β} {rest : List (QueueFile β)} {n : Nat} :
      Step loads ⟨d, .unlinking file rest, n⟩ true ⟨d, .reading rest, n⟩
  | unlink {d : QueueDirectory β} {file : QueueFile β} {rest : List (QueueFile β)} {n : Nat} :
      Step loads ⟨d, .unlinking file rest, n⟩ false
        ⟨d.delete fun f => f.name = file.name, .counting rest, n⟩
  | count {d : QueueDirectory β} {rest : List (QueueFile β)} {n : Nat} {raises : Bool} :
      Step loads ⟨d, .counting rest, n⟩ raises ⟨d, .reading rest, n + 1⟩

theorem Step.of_step (hstep : (machine loads).step s raises = some t) : Step loads s raises t := by
  obtain ⟨d, phase, n⟩ := s
  cases phase with
  | reading rest =>
    cases rest with
    | nil => cases hstep
    | cons file rest =>
      simp only [machine] at hstep
      split at hstep
      · next left =>
        cases hstep
        exact .skip left
      · next left =>
        obtain ⟨quiet, readable⟩ := not_or.mp left
        cases hstep
        obtain rfl : raises = false := Bool.eq_false_of_not_eq_true quiet
        exact .read (not_not.mp readable)
  | unlinking file rest =>
    cases raises with
    | true =>
      cases hstep
      exact .keep
    | false =>
      cases hstep
      exact .unlink
  | counting rest =>
    cases hstep
    exact .count

/-- The files the loop has still to finish with. -/
def pending (s : FallbackRecovery β) : List (QueueFile β) :=
  match s.phase with
  | .reading rest | .counting rest => rest
  | .unlinking file rest => file :: rest

/-- A file that was unlinked and not yet counted. -/
def uncounted (s : FallbackRecovery β) : Nat :=
  match s.phase with
  | .counting _ => 1
  | .reading _ | .unlinking _ _ => 0

/-- What each step keeps: the files ahead are there and distinct, the one about
to be unlinked was read, and what is gone was read and is counted. -/
structure Tracks (loads : β → LoadedJob) (directory : QueueDirectory β)
    (s : FallbackRecovery β) : Prop where
  pending_nodup : (s.pending.map QueueFile.name).Nodup
  pending_there : ∀ file ∈ s.pending, file ∈ s.directory.rows ∧ file.isJson = true
  read : ∀ file rest, s.phase = .unlinking file rest → Readable loads file
  rest_kept : s.directory.rows.Sublist directory.rows
  removed : ∀ file ∈ directory.rows, file ∉ s.directory.rows →
    file.isJson = true ∧ Readable loads file
  counted : s.recoveredCount + s.uncounted + s.directory.rows.length = directory.rows.length

theorem mem_listing {file : QueueFile β} :
    file ∈ listing directory ↔ file ∈ directory.rows ∧ file.isJson = true := by
  rw [listing, List.mem_insertionSort, List.mem_filter]

theorem tracks_start (directory : QueueDirectory β) : Tracks loads directory (start directory) where
  pending_nodup := by
    show ((List.insertionSort _ _).map _).Nodup
    rw [((List.perm_insertionSort _ _).map QueueFile.name).nodup_iff]
    exact directory.keys_nodup.sublist (List.filter_sublist.map _)
  pending_there := fun file hfile => mem_listing.mp hfile
  read := fun file rest h => by cases h
  rest_kept := List.Sublist.refl _
  removed := fun file there gone => absurd there gone
  counted := by simp [FallbackRecovery.start, uncounted]

theorem Tracks.step (h : Tracks loads directory s) (hstep : Step loads s raises t) :
    Tracks loads directory t := by
  cases hstep with
  | skip left =>
    exact ⟨(List.nodup_cons.mp h.pending_nodup).2,
      fun f hf => h.pending_there f (List.mem_cons_of_mem _ hf),
      fun _ _ hphase => (by cases hphase),
      h.rest_kept, h.removed, h.counted⟩
  | read readable =>
    refine ⟨h.pending_nodup, h.pending_there, fun f rest hphase => ?_, h.rest_kept, h.removed,
      h.counted⟩
    cases hphase
    exact readable
  | keep =>
    exact ⟨(List.nodup_cons.mp h.pending_nodup).2,
      fun f hf => h.pending_there f (List.mem_cons_of_mem _ hf),
      fun _ _ hphase => (by cases hphase),
      h.rest_kept, h.removed, h.counted⟩
  | @unlink d file rest n =>
    obtain ⟨there, json⟩ := h.pending_there file List.mem_cons_self
    obtain ⟨apart, nodup⟩ := List.nodup_cons.mp h.pending_nodup
    refine ⟨nodup, fun f hf => ?_, fun _ _ hphase => (by cases hphase), ?_, ?_, ?_⟩
    · obtain ⟨hthere, hjson⟩ := h.pending_there f (List.mem_cons_of_mem _ hf)
      have other : f.name ≠ file.name := fun same =>
        apart (same ▸ List.mem_map_of_mem hf)
      exact ⟨Table.mem_delete.mpr ⟨hthere, by simpa using other⟩, hjson⟩
    · exact List.filter_sublist.trans h.rest_kept
    · intro f hf gone
      by_cases still : f ∈ d.rows
      · have same : f.name = file.name := by
          by_contra other
          exact gone (Table.mem_delete.mpr ⟨still, by simpa using other⟩)
        rw [List.inj_on_of_nodup_map d.keys_nodup still there same]
        exact ⟨json, h.read file rest rfl⟩
      · exact h.removed f hf still
    · have shorter := d.length_delete_key there
      have counted : n + 0 + d.rows.length = directory.rows.length := h.counted
      show n + 1 + (d.delete _).rows.length = _
      omega
  | count =>
    exact ⟨h.pending_nodup, h.pending_there, fun _ _ hphase => (by cases hphase), h.rest_kept,
      h.removed, h.counted⟩

theorem tracks_run {raised : List Bool}
    (hrun : (machine loads).run (start directory) raised = some s) : Tracks loads directory s :=
  Machine.invariant (fun _ _ _ h hstep => h.step (.of_step hstep))
    (tracks_start directory) hrun

theorem Tracks.movesOnly (h : Tracks loads directory s)
    (found : ∀ file ∈ directory.rows, file.isJson = true → Readable loads file →
      Finds loads get file) : MovesOnly loads get directory s where
  removed_found := fun file there gone =>
    found file there (h.removed file there gone).1 (h.removed file there gone).2
  rest_kept := h.rest_kept
  count := by
    intro returned
    have counted := h.counted
    rw [Returned] at returned
    rw [uncounted, returned] at counted
    simpa using counted

section Again

/-- A run in which the system raises nothing leaves no JSON object behind it. -/
def Thorough (loads : β → LoadedJob) (s : FallbackRecovery β) : Prop :=
  ∀ file ∈ s.directory.rows, file.isJson = true → Readable loads file → file ∈ s.pending

theorem Thorough.step (h : Thorough loads s) (hstep : Step loads s false t) : Thorough loads t := by
  cases hstep with
  | @skip d file rest n raises left =>
    intro f there json readable
    rcases List.mem_cons.mp (h f there json readable) with rfl | hf
    · exact absurd readable (left.resolve_left (by simp))
    · exact hf
  | read readable => exact h
  | @unlink d file rest n =>
    intro f there json readable
    obtain ⟨there, other⟩ := Table.mem_delete.mp there
    rcases List.mem_cons.mp (h f there json readable) with rfl | hf
    · simp at other
    · exact hf
  | count => exact h

theorem thorough_run {raised : List Bool} (quiet : ∀ raises ∈ raised, raises = false)
    (hrun : (machine loads).run (start directory) raised = some s) : Thorough loads s := by
  have meets : (machine loads).Meets (fun _ raises => raises = false) (start directory) raised := by
    rw [Machine.meets_iff]
    rintro pre raises post u rfl -
    exact quiet raises (by simp)
  refine Machine.invariant_of_meets (fun s raises t h same hstep => ?_) ?_ meets hrun
  · subst same
    exact h.step (.of_step hstep)
  · exact fun file there json _ => mem_listing.mpr ⟨there, json⟩

theorem directory_of_unreadable
    (unreadable : ∀ file ∈ directory.rows, file.isJson = true → ¬Readable loads file)
    {raised : List Bool} (hrun : (machine loads).run (start directory) raised = some s) :
    s.directory = directory := by
  have skips : ∀ s raises t, (s.directory = directory ∧ ∃ rest, s.phase = .reading rest ∧
        ∀ file ∈ rest, ¬Readable loads file) →
      (machine loads).step s raises = some t → t.directory = directory ∧
        ∃ rest, t.phase = .reading rest ∧ ∀ file ∈ rest, ¬Readable loads file := by
    rintro s raises t ⟨same, rest, reading, ahead⟩ hstep
    cases Step.of_step hstep with
    | skip left =>
      cases reading
      exact ⟨same, _, rfl, fun f hf => ahead f (List.mem_cons_of_mem _ hf)⟩
    | read readable =>
      cases reading
      exact absurd readable (ahead _ List.mem_cons_self)
    | keep => cases reading
    | unlink => cases reading
    | count => cases reading
  refine (Machine.invariant skips ⟨rfl, _, rfl, fun f hf => ?_⟩ hrun).1
  exact unreadable f (mem_listing.mp hf).1 (mem_listing.mp hf).2

end Again

theorem run_to_unlink {d : QueueDirectory β} {file : QueueFile β}
    (readable : Readable loads file) (before after : List (QueueFile β)) (n : Nat) :
    (machine loads).run ⟨d, .reading (before ++ file :: after), n⟩
        (List.replicate before.length true ++ [false, false]) =
      some ⟨d.delete fun f => f.name = file.name, .counting after, n⟩ := by
  induction before with
  | nil =>
    have reads : (machine loads).step ⟨d, .reading (file :: after), n⟩ false =
        some ⟨d, .unlinking file after, n⟩ := by simp [machine, readable]
    show (machine loads).run ⟨d, .reading (file :: after), n⟩ [false, false] = _
    rw [Machine.run_cons, reads]
    rfl
  | cons f before ih => exact ih

/-- The recovery of a directory never discards a job exactly when the store finds
every job that one of its JSON files describes. -/
theorem neverDiscards_iff_found (loads : β → LoadedJob) (get : String → Option JobRecord)
    (directory : QueueDirectory β) : NeverDiscards loads get directory ↔
      ∀ file ∈ directory.rows, file.isJson = true → Readable loads file → Finds loads get file := by
  constructor
  · rintro ⟨moves, -⟩ file there json readable
    obtain ⟨before, after, split⟩ := List.append_of_mem (mem_listing.mpr ⟨there, json⟩)
    have ran := run_to_unlink (d := directory) readable before after 0
    rw [← split] at ran
    refine (moves _ _ ran).removed_found file there fun stays => ?_
    simpa using (Table.mem_delete.mp stays).2
  · intro found
    refine ⟨fun raised s hrun => (tracks_run hrun).movesOnly found, ?_⟩
    intro raised s quiet hrun returned again t hagain
    refine directory_of_unreadable (fun file there json readable => ?_) hagain
    have ahead := thorough_run quiet hrun file there json readable
    rw [pending, returned] at ahead
    cases ahead

/-- A job the store does not hold is gone once its file was unlinked. -/
theorem discards_unstored_job : ¬NeverDiscards id (fun _ => none)
      ⟨[⟨"job-123.json", .object (some "job-123") (some "org-1")⟩], by simp⟩ := by
  rintro ⟨moves, -⟩
  have found := (moves [false, false] _ rfl).removed_found
    ⟨"job-123.json", .object (some "job-123") (some "org-1")⟩ (by simp) (by decide)
  obtain ⟨id, orgId, -, r, hr, -⟩ := found
  cases hr

end Runs

end FallbackRecovery

end Rankuno
