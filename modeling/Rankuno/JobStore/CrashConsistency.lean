import Rankuno.JobStore.Disk

/-!
# What a crash of the disk job store leaves behind

A record that announces a result or a checkpoint has it, and a deleted job never
comes back, whatever methods run together and wherever a fault or a crash stops
them. `finish` and `write_checkpoint` release the lock between the blob and the
flag; what carries them over is that a blob only ever goes away after its record
did, so the second section either finds both or finds no record.
-/

namespace Rankuno

namespace JobFiles

def empty : JobFiles := ⟨.empty, [], []⟩

/-- Records announce only files that are there, and deleted jobs have no record. -/
structure Consistent (s : JobFiles) : Prop where
  result : ∀ id r, s.disk.record id = some r → r.hasResult = true →
    (s.disk.sidecar .result id).isSome
  checkpoint : ∀ id r, s.disk.record id = some r → r.hasCheckpoint = true →
    (s.disk.sidecar .checkpoint id).isSome
  deleted_absent : ∀ id ∈ s.deleted, s.disk.record id = none
  record_used : ∀ id r, s.disk.record id = some r → id ∈ s.used
  deleted_used : ∀ id ∈ s.deleted, id ∈ s.used

/-- How any file operation may move the files: a record or another file goes
away only for a deleted job. -/
structure Moves (s t : JobFiles) : Prop where
  records : ∀ id, (s.disk.record id).isSome → (t.disk.record id).isSome ∨ id ∈ t.deleted
  sidecars : ∀ kind id, (s.disk.sidecar kind id).isSome →
    (t.disk.sidecar kind id).isSome ∨ id ∈ t.deleted
  deleted : ∀ id ∈ s.deleted, id ∈ t.deleted

theorem Moves.refl (s : JobFiles) : Moves s s :=
  ⟨fun _ h => .inl h, fun _ _ h => .inl h, fun _ h => h⟩

theorem Moves.trans {s t u : JobFiles} (h : Moves s t) (k : Moves t u) : Moves s u where
  records id hid := (h.records id hid).elim (k.records id) fun gone => .inr (k.deleted id gone)
  sidecars kind id hid :=
    (h.sidecars kind id hid).elim (k.sidecars kind id) fun gone => .inr (k.deleted id gone)
  deleted id hid := k.deleted id (h.deleted id hid)

/-- The rule the store's methods follow. -/
def rule : LockedProgram.Rule JobFiles := ⟨Consistent, Moves, Moves.refl, Moves.trans⟩

theorem Consistent.empty : Consistent .empty :=
  ⟨fun _ _ h => (nomatch h), fun _ _ h => (nomatch h), fun _ h => (nomatch h),
    fun _ _ h => (nomatch h), fun _ h => (nomatch h)⟩

variable {s t : JobFiles}

variable {id : String} {change : RecordChange} {r : JobRecord} {now : Timestamp}

theorem Consistent.not_deleted (h : s.Consistent)
    (hr : s.disk.record id = some r) : id ∉ s.deleted := by
  intro gone
  rw [h.deleted_absent id gone] at hr
  cases hr

theorem Consistent.writeSidecar (h : s.Consistent) (kind : SidecarKind) (id body : String) :
    Consistent { s with disk := s.disk.writeSidecar kind id body } := by
  have kept : ∀ k i, (s.disk.sidecar k i).isSome →
      ((s.disk.writeSidecar kind id body).sidecar k i).isSome := by
    intro k i hk
    rw [JobDisk.writeSidecar_sidecar]
    split
    · rfl
    · exact hk
  exact ⟨fun i r hr flag => kept _ _ (h.result i r hr flag),
    fun i r hr flag => kept _ _ (h.checkpoint i r hr flag), h.deleted_absent, h.record_used,
    h.deleted_used⟩

theorem moves_writeSidecar (s : JobFiles) (kind : SidecarKind) (id body : String) :
    Moves s { s with disk := s.disk.writeSidecar kind id body } := by
  refine ⟨fun _ h => .inl h, fun k i h => .inl ?_, fun _ h => h⟩
  rw [JobDisk.writeSidecar_sidecar]
  split
  · rfl
  · exact h

theorem Consistent.writeRecord (h : s.Consistent) (used : List String)
    (alive : r.id ∉ s.deleted) (known : r.id ∈ used) (grows : ∀ id ∈ s.used, id ∈ used)
    (result : r.hasResult = true → (s.disk.sidecar .result r.id).isSome)
    (checkpoint : r.hasCheckpoint = true → (s.disk.sidecar .checkpoint r.id).isSome) :
    Consistent { s with disk := s.disk.writeRecord r, used := used } := by
  refine ⟨?_, ?_, ?_, ?_, fun id gone => grows id (h.deleted_used id gone)⟩
  · intro id q hq flag
    rw [JobDisk.writeRecord_record] at hq
    split at hq
    · next same =>
      cases hq
      rw [← same]
      exact result flag
    · exact h.result id q hq flag
  · intro id q hq flag
    rw [JobDisk.writeRecord_record] at hq
    split at hq
    · next same =>
      cases hq
      rw [← same]
      exact checkpoint flag
    · exact h.checkpoint id q hq flag
  · intro id gone
    have other : r.id ≠ id := by
      rintro rfl
      exact alive gone
    show (s.disk.writeRecord r).record id = none
    rw [JobDisk.writeRecord_record, if_neg other]
    exact h.deleted_absent id gone
  · intro id q hq
    rw [JobDisk.writeRecord_record] at hq
    split at hq
    · next same => exact same ▸ known
    · exact grows id (h.record_used id q hq)

theorem moves_writeRecord (s : JobFiles) (r : JobRecord) (used : List String) :
    Moves s { s with disk := s.disk.writeRecord r, used := used } := by
  refine ⟨fun id h => .inl ?_, fun _ _ h => .inl h, fun _ h => h⟩
  show ((s.disk.writeRecord r).record id).isSome
  rw [JobDisk.writeRecord_record]
  split
  · rfl
  · exact h

theorem Consistent.unlinkRecord (h : s.Consistent)
    (present : (s.disk.record id).isSome) :
    Consistent { s with disk := s.disk.unlinkRecord id, deleted := id :: s.deleted } := by
  have before : ∀ {i r}, (s.disk.unlinkRecord id).record i = some r → s.disk.record i = some r := by
    intro i r hr
    rw [JobDisk.unlinkRecord_record] at hr
    split at hr
    · cases hr
    · exact hr
  refine ⟨fun i r hr flag => h.result i r (before hr) flag,
    fun i r hr flag => h.checkpoint i r (before hr) flag, ?_,
    fun i r hr => h.record_used i r (before hr), ?_⟩
  · intro i gone
    show (s.disk.unlinkRecord id).record i = none
    rw [JobDisk.unlinkRecord_record]
    split
    · rfl
    · next other =>
      exact h.deleted_absent i ((List.mem_cons.mp gone).resolve_left (Ne.symm other))
  · intro i gone
    rcases List.mem_cons.mp gone with rfl | gone
    · obtain ⟨r, hr⟩ := Option.isSome_iff_exists.mp present
      exact h.record_used i r hr
    · exact h.deleted_used i gone

theorem moves_unlinkRecord (s : JobFiles) (id : String) :
    Moves s { s with disk := s.disk.unlinkRecord id, deleted := id :: s.deleted } := by
  refine ⟨fun i h => ?_, fun _ _ h => .inl h, fun _ h => List.mem_cons_of_mem _ h⟩
  by_cases same : id = i
  · exact .inr (same ▸ List.mem_cons_self)
  · refine .inl ?_
    show ((s.disk.unlinkRecord id).record i).isSome
    rw [JobDisk.unlinkRecord_record, if_neg same]
    exact h

theorem Consistent.unlinkSidecar (h : s.Consistent) (kind : SidecarKind)
    (gone : id ∈ s.deleted) :
    Consistent { s with disk := s.disk.unlinkSidecar kind id } := by
  have kept : ∀ k i r, s.disk.record i = some r → (s.disk.sidecar k i).isSome →
      ((s.disk.unlinkSidecar kind id).sidecar k i).isSome := by
    intro k i r hr hk
    have other : ¬(kind = k ∧ id = i) := by
      rintro ⟨-, rfl⟩
      exact h.not_deleted hr gone
    rw [JobDisk.unlinkSidecar_sidecar, if_neg other]
    exact hk
  exact ⟨fun i r hr flag => kept _ i r hr (h.result i r hr flag),
    fun i r hr flag => kept _ i r hr (h.checkpoint i r hr flag), h.deleted_absent,
    h.record_used, h.deleted_used⟩

theorem moves_unlinkSidecar (s : JobFiles) (kind : SidecarKind)
    (gone : id ∈ s.deleted) : Moves s { s with disk := s.disk.unlinkSidecar kind id } := by
  refine ⟨fun _ h => .inl h, fun k i h => ?_, fun _ h => h⟩
  by_cases same : kind = k ∧ id = i
  · exact .inr (same.2 ▸ gone)
  · refine .inl ?_
    show ((s.disk.unlinkSidecar kind id).sidecar k i).isSome
    rw [JobDisk.unlinkSidecar_sidecar, if_neg same]
    exact h

open LockedProgram

variable {Q : JobFiles → Option JobRecord → Prop} {held : Option JobRecord}

/-- The change announces a file only when that file is there. -/
def Backed (s : JobFiles) (id : String) (change : RecordChange) : Prop :=
  (∀ isPartial error finishedAt, change = .finish isPartial error finishedAt →
      (s.disk.sidecar .result id).isSome) ∧
    (change = .checkpoint → (s.disk.sidecar .checkpoint id).isSome)

theorem Backed.of_silent (s : JobFiles)
    (notFinish : ∀ isPartial error finishedAt, change ≠ .finish isPartial error finishedAt)
    (notCheckpoint : change ≠ .checkpoint) : Backed s id change :=
  ⟨fun isPartial error finishedAt same => absurd same (notFinish isPartial error finishedAt),
    fun same => absurd same notCheckpoint⟩

theorem inside_writeSidecar {rest : List FileOp} {kind : SidecarKind} {id body : String}
    (h : s.Consistent)
    (next : Consistent { s with disk := s.disk.writeSidecar kind id body } →
      Inside diskJobStore rule Q rest { s with disk := s.disk.writeSidecar kind id body } held) :
    Inside diskJobStore rule Q (.writeSidecar kind id body :: rest) s held := by
  intro s' held' hexec
  cases hexec
  exact ⟨h.writeSidecar kind id body, moves_writeSidecar s kind id body,
    next (h.writeSidecar kind id body)⟩

theorem inside_writeNew (h : s.Consistent) (unflagged : r.hasCheckpoint = false)
    (result : r.hasResult = true → (s.disk.sidecar .result r.id).isSome)
    (ends : ∀ t vars, Q t vars) : Inside diskJobStore rule Q [.writeNew r] s held := by
  intro s' held' hexec
  obtain ⟨fresh, hexec⟩ := Option.ite_none_left_eq_some.mp hexec
  cases hexec
  refine ⟨?_, moves_writeRecord s r _, ends _ _⟩
  exact h.writeRecord (r.id :: s.used) (fun gone => fresh (h.deleted_used _ gone))
    List.mem_cons_self (fun _ hid => List.mem_cons_of_mem _ hid) result
    fun flag => absurd (unflagged.symm.trans flag) (by decide)

theorem inside_transition
    (h : s.Consistent) (backed : (s.disk.record id).isSome → Backed s id change)
    (ends : ∀ t vars, Q t vars) :
    Inside diskJobStore rule Q (StoreCall.transitionSection id change now) s held := by
  intro s' held' hread
  obtain ⟨r, hr, hread⟩ := Option.map_eq_some_iff.mp hread
  cases hread
  refine ⟨h, Moves.refl s, ?_⟩
  intro s' held' hwrite
  cases hwrite
  obtain ⟨-, hid⟩ := Table.find?_eq_some.mp hr
  obtain ⟨finishes, checkpoints⟩ := backed (by rw [hr]; rfl)
  refine ⟨?_, moves_writeRecord s _ s.used, ends _ _⟩
  apply h.writeRecord s.used
  · rw [RecordChange.apply_id, hid]
    exact h.not_deleted hr
  · rw [RecordChange.apply_id, hid]
    exact h.record_used id r hr
  · exact fun _ known => known
  · intro flag
    rw [RecordChange.apply_id, hid]
    rcases RecordChange.apply_hasResult flag with before | ⟨isPartial, error, finishedAt, rfl⟩
    · exact h.result id r hr before
    · exact finishes isPartial error finishedAt rfl
  · intro flag
    rw [RecordChange.apply_id, hid]
    rcases RecordChange.apply_hasCheckpoint flag with before | rfl
    · exact h.checkpoint id r hr before
    · exact checkpoints rfl

theorem later_blob_then_flag {kind : SidecarKind} {id body : String}
    (backs : ∀ t : JobFiles, (t.disk.sidecar kind id).isSome → Backed t id change) :
    Later diskJobStore rule
      [[.readRecord id, .writeSidecar kind id body], StoreCall.transitionSection id change now]
      s held := by
  intro s₁ _ h₁ s' held' hread
  obtain ⟨r, hr, hread⟩ := Option.map_eq_some_iff.mp hread
  cases hread
  refine ⟨h₁, Moves.refl s₁, inside_writeSidecar h₁ fun _ => ?_⟩
  intro s₂ moved h₂
  refine inside_transition h₂ (fun present => backs s₂ ?_) fun _ _ => trivial
  have written : ((s₁.disk.writeSidecar kind id body).sidecar kind id).isSome := by
    rw [JobDisk.writeSidecar_sidecar, if_pos ⟨rfl, rfl⟩]
    rfl
  rcases moved.sidecars kind id written with kept | gone
  · exact kept
  · obtain ⟨q, hq⟩ := Option.isSome_iff_exists.mp present
    exact absurd gone (h₂.not_deleted hq)

theorem inside_unlinkSidecars {kinds : List SidecarKind} (h : s.Consistent)
    (gone : id ∈ s.deleted) (ends : ∀ t vars, Q t vars) :
    Inside diskJobStore rule Q (kinds.map fun kind => .unlinkSidecar kind id) s held := by
  induction kinds generalizing s with
  | nil => exact ends s held
  | cons kind kinds ih =>
    intro s' held' hexec
    cases hexec
    exact ⟨h.unlinkSidecar kind gone, moves_unlinkSidecar s kind gone,
      ih (h.unlinkSidecar kind gone) gone⟩

theorem later_transition
    (silent : ∀ t : JobFiles, Backed t id change) :
    Later diskJobStore rule [StoreCall.transitionSection id change now] s held :=
  fun t _ h => inside_transition h (fun _ => silent t) fun _ _ => trivial

theorem later_importTerminal (job : ImportedJob) (resultJson : String) :
    Later diskJobStore rule (StoreCall.sections (.importTerminal job resultJson)) s held := by
  intro t _ h s' held' hexec
  obtain ⟨-, hexec⟩ := Option.ite_none_left_eq_some.mp hexec
  cases hexec
  refine ⟨h, Moves.refl t, inside_writeSidecar h fun h₁ => ?_⟩
  have written : ((t.disk.writeSidecar .result job.id resultJson).sidecar .result job.id).isSome := by
    rw [JobDisk.writeSidecar_sidecar, if_pos ⟨rfl, rfl⟩]
    rfl
  cases job.homepageHtml with
  | none => exact inside_writeNew h₁ rfl (fun _ => written) fun _ _ => trivial
  | some html =>
    refine inside_writeSidecar h₁ fun h₂ => ?_
    refine inside_writeNew h₂ rfl (fun _ => ?_) fun _ _ => trivial
    show (((t.disk.writeSidecar .result job.id resultJson).writeSidecar .homepage job.id
      html).sidecar .result job.id).isSome
    rw [JobDisk.writeSidecar_sidecar, if_neg (by simp)]
    exact written

theorem later_delete (id : String) :
    Later diskJobStore rule (StoreCall.sections (.delete id)) s held := by
  intro t _ h s' held' hrequire
  obtain ⟨present, hrequire⟩ := Option.ite_none_right_eq_some.mp hrequire
  cases hrequire
  refine ⟨h, Moves.refl t, ?_⟩
  intro s' held' hunlink
  obtain ⟨-, hunlink⟩ := Option.ite_none_right_eq_some.mp hunlink
  cases hunlink
  exact ⟨h.unlinkRecord present, moves_unlinkRecord t id,
    inside_unlinkSidecars (h.unlinkRecord present) List.mem_cons_self fun _ _ => trivial⟩

theorem diskJobStore_sound : Sound diskJobStore rule := by
  intro call s _
  cases call with
  | create job =>
    intro t _ h
    refine inside_writeNew h rfl (fun flag => ?_) fun _ _ => trivial
    cases flag
  | markRunning id startedAt now =>
    exact later_transition fun t => .of_silent t nofun nofun
  | updateTelemetry id telemetry now =>
    exact later_transition fun t => .of_silent t nofun nofun
  | markFailed id error finishedAt now =>
    exact later_transition fun t => .of_silent t nofun nofun
  | finish id body isPartial error finishedAt now =>
    exact later_blob_then_flag fun _ there => ⟨fun _ _ _ _ => there, nofun⟩
  | writeCheckpoint id body now =>
    exact later_blob_then_flag fun _ there => ⟨nofun, fun _ => there⟩
  | importTerminal job resultJson => exact later_importTerminal job resultJson
  | delete id => exact later_delete id

/-- Each announced file is there, in any directory a crash may leave. -/
def AnnouncesOnlyWhatIsThere (s : JobFiles) : Prop :=
  ∀ id r, s.disk.record id = some r → (r.hasResult = true → (s.disk.sidecar .result id).isSome) ∧
      (r.hasCheckpoint = true → (s.disk.sidecar .checkpoint id).isSome)

/-- A job that was readable and no longer is stays unreadable. -/
def DeletedForGood (events : List (LockedEvent StoreCall)) : Prop :=
  ∀ first second third post u v w id, events = first ++ second ++ third ++ post →
    diskJobStore.machine.run (.start .empty) first = some u →
    diskJobStore.machine.run u second = some v →
    diskJobStore.machine.run v third = some w →
    (u.shared.disk.record id).isSome → v.shared.disk.record id = none →
    w.shared.disk.record id = none

theorem deletedForGood (events : List (LockedEvent StoreCall)) : DeletedForGood events := by
  rintro first second third post u v w id rfl hu hv hw present gone
  have moves := relates_rely diskJobStore_sound Consistent.empty (first ++ second ++ third ++ post)
  have uv : Moves u.shared v.shared :=
    moves first second (third ++ post) u v (by simp) hu hv
  have vw : Moves v.shared w.shared :=
    moves (first ++ second) third post v w rfl
      (Machine.run_append_eq_some.mpr ⟨u, hu, hv⟩) hw
  have consistent : w.shared.Consistent :=
    always_inv diskJobStore_sound Consistent.empty (first ++ second ++ third ++ post)
      (first ++ second ++ third) post w rfl
      (Machine.run_append_eq_some.mpr
        ⟨v, Machine.run_append_eq_some.mpr ⟨u, hu, hv⟩, hw⟩)
  have unlinked : id ∈ v.shared.deleted := by
    rcases uv.records id present with kept | unlinked
    · rw [gone] at kept
      cases kept
    · exact unlinked
  exact consistent.deleted_absent id (vw.deleted id unlinked)

/-- From an empty directory, whatever calls run together and wherever faults and
crashes stop them, every record announces only files that are there, and a
deleted job never becomes readable again. -/
theorem crash_consistency (events : List (LockedEvent StoreCall)) :
    diskJobStore.machine.Always (fun s => s.shared.AnnouncesOnlyWhatIsThere)
        (.start .empty) events ∧
      DeletedForGood events := by
  refine ⟨fun pre post s split hs => ?_, deletedForGood events⟩
  have consistent : s.shared.Consistent :=
    always_inv diskJobStore_sound Consistent.empty events pre post s split hs
  exact fun id r hr => ⟨consistent.result id r hr, consistent.checkpoint id r hr⟩

end JobFiles

end Rankuno
