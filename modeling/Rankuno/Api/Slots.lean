import Mathlib.Data.Finset.Card
import Rankuno.Foundation.Machine
import Rankuno.Foundation.Table

/-!
# Concurrency slots

`try_reserve`, `release`, `rekey` and `cancel_event` of `ApiState` in `api/server.py`.
Each runs under the lock of the state, so a run is a list of calls. A job reserves a
slot under a provisional id before it has a record, and moves the reservation onto the
id of the record. What is held is read off the calls alone, `Held`, and the three
structures of the state are shown to say the same.
-/

namespace Rankuno.Slots

/-- A `threading.Event`, by how many were made before it. -/
abbrev Event : Type := Nat

/-- `max_concurrent_jobs`, and `max_concurrent` of the facets that there are. -/
structure Limits (φ : Type) where
  maxConcurrentJobs : Nat
  maxConcurrent : φ → Option Nat

variable {ι φ : Type}

section State

variable [DecidableEq ι] [DecidableEq φ]

/-- The fields of `ApiState` that hold slots, and the number of events made. -/
structure ApiState (ι φ : Type) [DecidableEq ι] [DecidableEq φ] where
  active : Finset ι := ∅
  facetActive : Dict φ (Finset ι) := .empty
  cancelFlags : Dict ι Event := .empty
  events : Nat := 0

namespace ApiState

/-- The ids a facet's set holds; a facet without a set holds none. -/
def facet (s : ApiState ι φ) (facetId : φ) : Finset ι := (s.facetActive.get facetId).getD ∅

/-- `cancel_event`. -/
def cancelEvent (s : ApiState ι φ) (jobId : ι) : Option Event := s.cancelFlags.get jobId

/-- A facet that has no set gets an empty one. -/
def withSet (s : ApiState ι φ) (facetId : φ) : ApiState ι φ :=
  { s with facetActive := s.facetActive.alter facetId ∅ fun held => held }

/-- `try_reserve`. An unknown facet raises, and has its empty set by then. -/
def tryReserve (limits : Limits φ) (s : ApiState ι φ) (jobId : ι) (facetId : φ) :
    Except φ Bool × ApiState ι φ :=
  if limits.maxConcurrentJobs ≤ s.active.card then (.ok false, s)
  else
    let s := s.withSet facetId
    match limits.maxConcurrent facetId with
    | none => (.error facetId, s)
    | some most =>
      if most ≤ (s.facet facetId).card then (.ok false, s)
      else
        (.ok true, {
          active := insert jobId s.active
          facetActive := s.facetActive.alter facetId ∅ (insert jobId)
          cancelFlags := s.cancelFlags.put (jobId, s.events)
          events := s.events + 1 })

/-- `release`. -/
def release (s : ApiState ι φ) (jobId : ι) (facetId : φ) : ApiState ι φ :=
  { s with
    active := s.active.erase jobId
    facetActive :=
      if (s.facetActive.get facetId).isSome then
        s.facetActive.alter facetId ∅ fun held => held.erase jobId
      else s.facetActive
    cancelFlags := s.cancelFlags.delete fun flag => flag.1 = jobId }

/-- `rekey`. -/
def rekey (s : ApiState ι φ) (provisional jobId : ι) (facetId : φ) : ApiState ι φ :=
  let moved := { s with
    active := insert jobId (s.active.erase provisional)
    facetActive := s.facetActive.alter facetId ∅ fun held => insert jobId (held.erase provisional) }
  let flags := s.cancelFlags.delete fun flag => flag.1 = provisional
  match s.cancelEvent provisional with
  | some event => { moved with cancelFlags := flags.put (jobId, event) }
  | none => { moved with cancelFlags := flags.put (jobId, s.events), events := s.events + 1 }

end ApiState

/-- A call, and what `try_reserve` answered. -/
inductive Call (ι φ : Type) where
  | tryReserve (jobId : ι) (facetId : φ) (answer : Except φ Bool)
  | rekey (provisional jobId : ι) (facetId : φ)
  | release (jobId : ι) (facetId : φ)

/-- The state under any order of calls. -/
def slots (limits : Limits φ) : Machine (ApiState ι φ) (Call ι φ) where
  step s
    | .tryReserve jobId facetId answer =>
      if (s.tryReserve limits jobId facetId).1 = answer then
        some (s.tryReserve limits jobId facetId).2
      else none
    | .rekey provisional jobId facetId => some (s.rekey provisional jobId facetId)
    | .release jobId facetId => some (s.release jobId facetId)

end State

/-! ## What the calls say -/

namespace Call

/-- The call takes a slot of the facet for the id, or moves one onto it. -/
inductive Admits : Call ι φ → ι → φ → Prop where
  | reserved {jobId : ι} {facetId : φ} : Admits (.tryReserve jobId facetId (.ok true)) jobId facetId
  | rekeyed {provisional jobId : ι} {facetId : φ} :
      Admits (.rekey provisional jobId facetId) jobId facetId

/-- The call gives the slot of the id back, or moves it onto another id. -/
inductive Frees : Call ι φ → ι → Prop where
  | released {jobId : ι} {facetId : φ} : Frees (.release jobId facetId) jobId
  | rekeyed {provisional jobId : ι} {facetId : φ} :
      Frees (.rekey provisional jobId facetId) provisional

/-- The ids a call names. -/
def ids : Call ι φ → List ι
  | .tryReserve jobId _ _ => [jobId]
  | .rekey provisional jobId _ => [provisional, jobId]
  | .release jobId _ => [jobId]

end Call

/-- The id was admitted under the facet. -/
def ReservedUnder (calls : List (Call ι φ)) (jobId : ι) (facetId : φ) : Prop :=
  ∃ call ∈ calls, call.Admits jobId facetId

/-- The id was admitted under the facet and is not yet released. -/
def Held (calls : List (Call ι φ)) (jobId : ι) (facetId : φ) : Prop :=
  ReservedUnder calls jobId facetId ∧ ∀ call ∈ calls, ¬call.Frees jobId

/-- No call named the id yet. -/
def Fresh (calls : List (Call ι φ)) (jobId : ι) : Prop := ∀ call ∈ calls, jobId ∉ call.ids

/-- What the callers keep to: a provisional id is fresh, one that is held is moved onto a
fresh id of the same facet, and a release names the facet of the id. -/
def Allowed (before : List (Call ι φ)) : Call ι φ → Prop
  | .tryReserve jobId _ _ => Fresh before jobId
  | .rekey provisional jobId facetId =>
    .tryReserve provisional facetId (.ok true) ∈ before ∧
      (∀ call ∈ before, ¬call.Frees provisional) ∧ Fresh before jobId
  | .release jobId facetId => ReservedUnder before jobId facetId

def Orderly (calls : List (Call ι φ)) : Prop :=
  ∀ before call after, calls = before ++ call :: after → Allowed before call

section Records

variable {calls : List (Call ι φ)} {call : Call ι φ} {jobId provisional : ι} {facetId : φ}

theorem Orderly.front (orderly : Orderly (calls ++ [call])) : Orderly calls := by
  rintro before first after rfl
  exact orderly before first (after ++ [call]) (by simp)

theorem Orderly.allowed (orderly : Orderly (calls ++ [call])) : Allowed calls call :=
  orderly calls call [] rfl

theorem orderly_nil : Orderly ([] : List (Call ι φ)) := by
  intro before call after split
  cases before with
  | nil => cases split
  | cons first before => cases split

theorem Orderly.concat (orderly : Orderly calls) (allowed : Allowed calls call) :
    Orderly (calls ++ [call]) := by
  intro before other after split
  rcases List.eq_nil_or_concat after with rfl | ⟨after, last, rfl⟩
  · obtain ⟨rfl, same⟩ := List.append_inj' split rfl
    cases same
    exact allowed
  · have split : calls ++ [call] = (before ++ other :: after) ++ [last] := by simpa using split
    exact orderly before other after (List.append_inj' split rfl).1

theorem Call.Admits.mem_ids (admits : call.Admits jobId facetId) : jobId ∈ call.ids := by
  cases admits with
  | reserved => exact List.mem_singleton_self _
  | rekeyed => exact List.mem_cons_of_mem _ (List.mem_singleton_self _)

theorem Call.Frees.mem_ids (frees : call.Frees jobId) : jobId ∈ call.ids := by
  cases frees with
  | released => exact List.mem_singleton_self _
  | rekeyed => exact List.mem_cons_self

theorem Fresh.not_reservedUnder (fresh : Fresh calls jobId) : ¬ReservedUnder calls jobId facetId :=
  fun ⟨call, mem, admits⟩ => fresh call mem admits.mem_ids

theorem reservedUnder_concat : ReservedUnder (calls ++ [call]) jobId facetId ↔
    ReservedUnder calls jobId facetId ∨ call.Admits jobId facetId := by
  simp only [ReservedUnder, List.mem_append, List.mem_singleton, or_and_right, exists_or,
    exists_eq_left]

theorem held_concat : Held (calls ++ [call]) jobId facetId ↔
    (ReservedUnder calls jobId facetId ∨ call.Admits jobId facetId) ∧
      (∀ call ∈ calls, ¬call.Frees jobId) ∧ ¬call.Frees jobId := by
  rw [Held, reservedUnder_concat, List.forall_mem_append, List.forall_mem_singleton]

theorem Orderly.facet_unique (orderly : Orderly calls) {facetId' : φ}
    (under : ReservedUnder calls jobId facetId) (under' : ReservedUnder calls jobId facetId') :
    facetId = facetId' := by
  induction calls using List.reverseRecOn with
  | nil =>
    obtain ⟨call, mem, -⟩ := under
    cases mem
  | append_singleton calls call ih =>
    have fresh : ∀ {facetId : φ}, call.Admits jobId facetId → Fresh calls jobId := by
      intro facetId admits
      have allowed := orderly.allowed
      cases admits with
      | reserved => exact allowed
      | rekeyed => exact allowed.2.2
    rcases reservedUnder_concat.mp under with old | new
    · rcases reservedUnder_concat.mp under' with old' | new'
      · exact ih orderly.front old old'
      · exact absurd old (fresh new').not_reservedUnder
    · rcases reservedUnder_concat.mp under' with old' | new'
      · exact absurd old' (fresh new).not_reservedUnder
      · cases new with
        | reserved => cases new'; rfl
        | rekeyed => cases new'; rfl

theorem held_reserved (fresh : Fresh calls provisional) {facetId' : φ} :
    Held (calls ++ [.tryReserve provisional facetId (.ok true)]) jobId facetId' ↔
      Held calls jobId facetId' ∨ jobId = provisional ∧ facetId' = facetId := by
  rw [held_concat]
  constructor
  · rintro ⟨old | new, unfreed, -⟩
    · exact Or.inl ⟨old, unfreed⟩
    · cases new
      exact Or.inr ⟨rfl, rfl⟩
  · rintro (held | ⟨rfl, rfl⟩)
    · exact ⟨Or.inl held.1, held.2, fun frees => by cases frees⟩
    · exact ⟨Or.inr .reserved, fun call mem frees => fresh call mem frees.mem_ids,
        fun frees => by cases frees⟩

theorem held_refused {answer : Except φ Bool} (refused : answer ≠ .ok true) {facetId' : φ} :
    Held (calls ++ [.tryReserve provisional facetId answer]) jobId facetId' ↔
      Held calls jobId facetId' := by
  rw [held_concat]
  constructor
  · rintro ⟨old | new, unfreed, -⟩
    · exact ⟨old, unfreed⟩
    · cases new
      exact absurd rfl refused
  · intro held
    exact ⟨Or.inl held.1, held.2, fun frees => by cases frees⟩

theorem held_rekeyed {newId : ι} (fresh : Fresh calls newId) (other : newId ≠ provisional)
    {facetId' : φ} :
    Held (calls ++ [.rekey provisional newId facetId]) jobId facetId' ↔
      Held calls jobId facetId' ∧ jobId ≠ provisional ∨ jobId = newId ∧ facetId' = facetId := by
  rw [held_concat]
  constructor
  · rintro ⟨old | new, unfreed, kept⟩
    · refine Or.inl ⟨⟨old, unfreed⟩, ?_⟩
      rintro rfl
      exact kept .rekeyed
    · cases new
      exact Or.inr ⟨rfl, rfl⟩
  · rintro (⟨held, kept⟩ | ⟨rfl, rfl⟩)
    · exact ⟨Or.inl held.1, held.2, fun frees => by cases frees; exact kept rfl⟩
    · exact ⟨Or.inr .rekeyed, fun call mem frees => fresh call mem frees.mem_ids,
        fun frees => by cases frees; exact other rfl⟩

theorem held_released {released : ι} {facetId' : φ} :
    Held (calls ++ [.release released facetId]) jobId facetId' ↔
      Held calls jobId facetId' ∧ jobId ≠ released := by
  rw [held_concat]
  constructor
  · rintro ⟨old | new, unfreed, kept⟩
    · refine ⟨⟨old, unfreed⟩, ?_⟩
      rintro rfl
      exact kept .released
    · cases new
  · rintro ⟨held, kept⟩
    exact ⟨Or.inl held.1, held.2, fun frees => by cases frees; exact kept rfl⟩

end Records

/-! ## What the state says -/

section State

variable [DecidableEq ι] [DecidableEq φ]
variable {limits : Limits φ} {s t : ApiState ι φ} {calls : List (Call ι φ)} {call : Call ι φ}
variable {jobId provisional : ι} {facetId facetId' : φ}

/-- No more slots are taken than there are, and the three structures agree on which. -/
structure Coherent (limits : Limits φ) (s : ApiState ι φ) : Prop where
  total : s.active.card ≤ limits.maxConcurrentJobs
  perFacet : ∀ facetId, (s.facet facetId).card ≤ (limits.maxConcurrent facetId).getD 0
  union : ∀ jobId, jobId ∈ s.active ↔ ∃ facetId, jobId ∈ s.facet facetId
  disjoint : ∀ facetId facetId', facetId ≠ facetId' → Disjoint (s.facet facetId) (s.facet facetId')
  flags : ∀ jobId, (s.cancelEvent jobId).isSome ↔ jobId ∈ s.active

/-- The state says what the calls say, within the limits. -/
structure Records (limits : Limits φ) (calls : List (Call ι φ)) (s : ApiState ι φ) : Prop where
  total : s.active.card ≤ limits.maxConcurrentJobs
  perFacet : ∀ facetId, (s.facet facetId).card ≤ (limits.maxConcurrent facetId).getD 0
  facet : ∀ jobId facetId, jobId ∈ s.facet facetId ↔ Held calls jobId facetId
  active : ∀ jobId, jobId ∈ s.active ↔ ∃ facetId, Held calls jobId facetId
  flags : ∀ jobId, (s.cancelEvent jobId).isSome ↔ jobId ∈ s.active

theorem Records.coherent (h : Records limits calls s) (orderly : Orderly calls) :
    Coherent limits s where
  total := h.total
  perFacet := h.perFacet
  union jobId := by simp only [h.active, h.facet]
  disjoint facetId facetId' other := by
    refine Finset.disjoint_left.mpr fun jobId mem mem' => other ?_
    exact orderly.facet_unique ((h.facet _ _).mp mem).1 ((h.facet _ _).mp mem').1
  flags := h.flags

theorem records_empty (limits : Limits φ) : Records limits [] ({} : ApiState ι φ) where
  total := Nat.zero_le _
  perFacet _ := Nat.zero_le _
  facet jobId facetId := by simp [ApiState.facet, Held, ReservedUnder]
  active jobId := by simp [Held, ReservedUnder]
  flags jobId := by simp [ApiState.cancelEvent]

theorem getD_alter {change : Finset ι → Finset ι} :
    ((s.facetActive.alter facetId ∅ change).get facetId').getD ∅ =
      if facetId' = facetId then change (s.facet facetId) else s.facet facetId' := by
  rw [Dict.get_alter]
  split
  · rfl
  · rfl

theorem facet_release : (s.release jobId facetId).facet facetId' =
    if facetId' = facetId then (s.facet facetId).erase jobId else s.facet facetId' := by
  rw [ApiState.facet, ApiState.release]
  split
  · exact getD_alter
  · next unset =>
    rw [Option.not_isSome_iff_eq_none] at unset
    split
    · next same =>
      cases same
      rw [ApiState.facet, unset]
      exact (Finset.erase_eq_of_notMem (Finset.notMem_empty jobId)).symm
    · rfl

theorem facet_rekey : (s.rekey provisional jobId facetId).facet facetId' =
    if facetId' = facetId then insert jobId ((s.facet facetId).erase provisional)
    else s.facet facetId' := by
  rw [ApiState.facet, ApiState.rekey]
  cases s.cancelEvent provisional with
  | none => exact getD_alter
  | some event => exact getD_alter

theorem active_rekey : (s.rekey provisional jobId facetId).active =
    insert jobId (s.active.erase provisional) := by
  rw [ApiState.rekey]
  cases s.cancelEvent provisional with
  | none => rfl
  | some event => rfl

/-- **The event moves with the slot.** -/
theorem cancelEvent_rekey {event : Event} (flag : s.cancelEvent provisional = some event)
    {other : ι} : (s.rekey provisional jobId facetId).cancelEvent other =
      if jobId = other then some event
      else if provisional = other then none else s.cancelEvent other := by
  rw [ApiState.rekey, flag]
  exact Dict.get_put.trans (if_congr Iff.rfl rfl Dict.get_delete_key)

theorem facet_withSet : (s.withSet facetId).facet facetId' = s.facet facetId' := by
  refine getD_alter.trans ?_
  split
  · next same => rw [same]
  · rfl

theorem tryReserve_cases (limits : Limits φ) (s : ApiState ι φ) (jobId : ι) (facetId : φ) :
    ((s.tryReserve limits jobId facetId).1 = .ok true ∧ s.active.card < limits.maxConcurrentJobs ∧
      (s.facet facetId).card < (limits.maxConcurrent facetId).getD 0 ∧
      (s.tryReserve limits jobId facetId).2.active = insert jobId s.active ∧
      (∀ facetId', (s.tryReserve limits jobId facetId).2.facet facetId' =
        if facetId' = facetId then insert jobId (s.facet facetId) else s.facet facetId') ∧
      ∀ other, (s.tryReserve limits jobId facetId).2.cancelEvent other =
        if jobId = other then some s.events else s.cancelEvent other) ∨
    ((s.tryReserve limits jobId facetId).1 ≠ .ok true ∧
      (s.tryReserve limits jobId facetId).2.active = s.active ∧
      (∀ facetId', (s.tryReserve limits jobId facetId).2.facet facetId' = s.facet facetId') ∧
      (s.tryReserve limits jobId facetId).2.cancelFlags = s.cancelFlags) := by
  rw [ApiState.tryReserve]
  split
  · exact Or.inr ⟨by simp, rfl, fun _ => rfl, rfl⟩
  · next free =>
    cases limits.maxConcurrent facetId with
    | none => exact Or.inr ⟨by simp, rfl, fun _ => facet_withSet, rfl⟩
    | some most =>
      dsimp only
      rw [facet_withSet]
      split
      · exact Or.inr ⟨by simp, rfl, fun _ => facet_withSet, rfl⟩
      · next room =>
        refine Or.inl ⟨rfl, Nat.lt_of_not_le free, Nat.lt_of_not_le room, rfl, ?_, ?_⟩
        · intro facetId'
          refine getD_alter.trans ?_
          rw [facet_withSet, facet_withSet]
        · intro other
          exact Dict.get_put

theorem Records.reserved (h : Records limits calls s) (fresh : Fresh calls jobId)
    (answer : (s.tryReserve limits jobId facetId).1 = .ok true) :
    Records limits (calls ++ [.tryReserve jobId facetId (.ok true)])
      (s.tryReserve limits jobId facetId).2 := by
  obtain ⟨-, free, room, active, facet, flags⟩ | ⟨refused, -⟩ :=
    tryReserve_cases limits s jobId facetId
  · constructor
    · rw [active]
      exact (Finset.card_insert_le _ _).trans free
    · intro facetId'
      rw [facet]
      split
      · next same =>
        cases same
        exact (Finset.card_insert_le _ _).trans room
      · exact h.perFacet facetId'
    · intro other facetId'
      rw [facet, held_reserved fresh, ← h.facet]
      split
      · next same => simp [same, or_comm]
      · next apart => simp [apart]
    · intro other
      rw [active, Finset.mem_insert, h.active]
      simp only [held_reserved fresh, exists_or, exists_and_left, exists_eq, and_true]
      exact or_comm
    · intro other
      rw [flags, active, Finset.mem_insert, ← h.flags]
      split
      · next same => simp [same]
      · next apart => simp [Ne.symm apart]
  · exact absurd answer refused

theorem Records.refused (h : Records limits calls s)
    (answer : (s.tryReserve limits jobId facetId).1 ≠ .ok true) :
    Records limits (calls ++ [.tryReserve jobId facetId (s.tryReserve limits jobId facetId).1])
      (s.tryReserve limits jobId facetId).2 := by
  obtain ⟨reserved, -⟩ | ⟨refused, active, facet, flags⟩ :=
    tryReserve_cases limits s jobId facetId
  · exact absurd reserved answer
  · constructor
    · rw [active]
      exact h.total
    · intro facetId'
      rw [facet]
      exact h.perFacet facetId'
    · intro other facetId'
      rw [facet, held_refused refused]
      exact h.facet other facetId'
    · intro other
      simp only [active, held_refused refused]
      exact h.active other
    · intro other
      rw [ApiState.cancelEvent, flags, active]
      exact h.flags other

theorem Records.rekeyed (h : Records limits calls s) (orderly : Orderly calls)
    (allowed : Allowed calls (.rekey provisional jobId facetId)) :
    Records limits (calls ++ [.rekey provisional jobId facetId])
      (s.rekey provisional jobId facetId) := by
  obtain ⟨reserved, unfreed, fresh⟩ := allowed
  have other : jobId ≠ provisional := by
    rintro rfl
    exact fresh _ reserved (List.mem_singleton_self _)
  have held : Held calls provisional facetId := ⟨⟨_, reserved, .reserved⟩, unfreed⟩
  have listed : provisional ∈ s.active := (h.active provisional).mpr ⟨facetId, held⟩
  have inFacet : provisional ∈ s.facet facetId := (h.facet provisional facetId).mpr held
  obtain ⟨event, flag⟩ := Option.isSome_iff_exists.mp ((h.flags provisional).mpr listed)
  constructor
  · rw [active_rekey]
    refine (Finset.card_insert_le _ _).trans ?_
    rw [Finset.card_erase_add_one listed]
    exact h.total
  · intro facetId'
    rw [facet_rekey]
    split
    · next same =>
      cases same
      refine (Finset.card_insert_le _ _).trans ?_
      rw [Finset.card_erase_add_one inFacet]
      exact h.perFacet facetId
    · exact h.perFacet facetId'
  · intro id facetId'
    rw [facet_rekey, held_rekeyed fresh other, ← h.facet]
    split
    · next same => simp [same, or_comm, and_comm]
    · next apart =>
      have moved : id ∈ s.facet facetId' → id ≠ provisional := by
        rintro mem rfl
        exact apart (orderly.facet_unique ((h.facet _ _).mp mem).1 held.1)
      simpa [apart] using moved
  · intro id
    rw [active_rekey, Finset.mem_insert, Finset.mem_erase, h.active]
    simp only [held_rekeyed fresh other, exists_or, exists_and_left, exists_and_right, exists_eq,
      and_true]
    rw [or_comm, and_comm]
  · intro id
    rw [cancelEvent_rekey flag, active_rekey, Finset.mem_insert, Finset.mem_erase, ← h.flags]
    split
    · next same => simp [same]
    · next apart =>
      split
      · next same => simp [← same, other.symm]
      · next kept => simp [Ne.symm apart, Ne.symm kept]

theorem Records.released (h : Records limits calls s) (orderly : Orderly calls)
    (under : ReservedUnder calls jobId facetId) :
    Records limits (calls ++ [.release jobId facetId]) (s.release jobId facetId) := by
  constructor
  · exact (Finset.card_erase_le).trans h.total
  · intro facetId'
    rw [facet_release]
    split
    · next same =>
      cases same
      exact Finset.card_erase_le.trans (h.perFacet facetId)
    · exact h.perFacet facetId'
  · intro id facetId'
    rw [facet_release, held_released, ← h.facet]
    split
    · next same => simp [same, and_comm]
    · next apart =>
      have kept : id ∈ s.facet facetId' → id ≠ jobId := by
        rintro mem rfl
        exact apart (orderly.facet_unique ((h.facet _ _).mp mem).1 under)
      simpa using kept
  · intro id
    show id ∈ s.active.erase jobId ↔ _
    simp only [Finset.mem_erase, h.active, held_released, exists_and_right]
    exact and_comm
  · intro id
    show (Dict.get (Table.delete s.cancelFlags _) id).isSome ↔ id ∈ s.active.erase jobId
    rw [Dict.get_delete_key, Finset.mem_erase, ← h.flags]
    split
    · next same => simp [same]
    · next apart => simp [Ne.symm apart, ApiState.cancelEvent]

theorem Records.step (h : Records limits calls s) (orderly : Orderly (calls ++ [call]))
    (step : (slots limits).step s call = some t) : Records limits (calls ++ [call]) t := by
  have allowed := orderly.allowed
  cases call with
  | tryReserve jobId facetId answer =>
    obtain ⟨same, taken⟩ := Option.ite_none_right_eq_some.mp step
    cases same
    cases taken
    by_cases reserved : (s.tryReserve limits jobId facetId).1 = .ok true
    · rw [reserved]
      exact h.reserved allowed reserved
    · exact h.refused reserved
  | rekey provisional jobId facetId =>
    cases step
    exact h.rekeyed orderly.front allowed
  | release jobId facetId =>
    cases step
    exact h.released orderly.front allowed

theorem records_run (limits : Limits φ) (orderly : Orderly calls)
    (run : (slots limits).run {} calls = some s) : Records limits calls s := by
  induction calls using List.reverseRecOn generalizing s with
  | nil =>
    cases run
    exact records_empty limits
  | append_singleton calls call ih =>
    obtain ⟨t, before, last⟩ := Machine.run_append_eq_some.mp run
    rw [Machine.run_singleton] at last
    exact (ih orderly.front before).step orderly last

/-- **Slots are neither leaked nor oversold.** In every state that the callers can
reach, no more slots are taken than there are, of all kinds and of each facet, the active
ids are the disjoint union of the facets' sets and the ids with a cancel flag, an id is
in a facet's set exactly if it was admitted under the facet and is not yet released, and
a job keeps the event of its provisional id. -/
theorem slots_conserved (limits : Limits φ) (calls : List (Call ι φ)) (s : ApiState ι φ)
    (orderly : Orderly calls) (run : (slots limits).run {} calls = some s) :
    Coherent limits s ∧ (∀ jobId facetId, jobId ∈ s.facet facetId ↔ Held calls jobId facetId) ∧
      ∀ provisional jobId facetId, Allowed calls (.rekey provisional jobId facetId) →
        ∃ event, s.cancelEvent provisional = some event ∧
          (s.rekey provisional jobId facetId).cancelEvent jobId = some event := by
  have records := records_run limits orderly run
  refine ⟨records.coherent orderly, records.facet, ?_⟩
  rintro provisional jobId facetId ⟨reserved, unfreed, -⟩
  have held : Held calls provisional facetId := ⟨⟨_, reserved, .reserved⟩, unfreed⟩
  have listed := (records.active provisional).mpr ⟨facetId, held⟩
  obtain ⟨event, flag⟩ := Option.isSome_iff_exists.mp ((records.flags provisional).mpr listed)
  exact ⟨event, flag, (cancelEvent_rekey flag).trans (if_pos rfl)⟩

end State

/-- A job that reserves the only slot of its facet, gets its record, and is cancelled:
its slot is released by the cancellation and again when its thread ends. -/
theorem slots_conserved_cancelled :
    let calls : List (Call Nat Nat) :=
      [.tryReserve 0 7 (.ok true), .tryReserve 1 7 (.ok false), .rekey 0 2 7, .release 2 7,
        .release 2 7]
    let limits : Limits Nat := { maxConcurrentJobs := 3, maxConcurrent := fun _ => some 1 }
    ∃ s, (slots limits).run {} calls = some s ∧ Coherent limits s ∧ s.facet 7 = ∅ := by
  intro calls limits
  have orderly : Orderly calls := by
    refine ((((orderly_nil.concat ?_).concat ?_).concat ?_).concat ?_).concat ?_
    · simp [Allowed, Fresh]
    · simp [Allowed, Fresh, Call.ids]
    · refine ⟨List.mem_cons_self, ?_, ?_⟩
      · intro call mem frees
        cases frees with
        | released => simp at mem
        | rekeyed => simp at mem
      · simp [Fresh, Call.ids]
    · exact ⟨.rekey 0 2 7, by simp, .rekeyed⟩
    · exact ⟨.rekey 0 2 7, by simp, .rekeyed⟩
  cases run : (slots limits).run {} calls with
  | none =>
    have ran : ((slots limits).run {} calls).isSome = true := by decide
    rw [run] at ran
    cases ran
  | some s =>
    obtain ⟨coherent, facet, -⟩ := slots_conserved limits calls s orderly run
    refine ⟨s, rfl, coherent, Finset.eq_empty_of_forall_notMem fun jobId mem => ?_⟩
    obtain ⟨⟨call, listed, admits⟩, unfreed⟩ := (facet jobId 7).mp mem
    cases admits with
    | reserved =>
      have first : jobId = 0 := by simpa [calls] using listed
      cases first
      exact unfreed (.rekey 0 2 7) (by simp [calls]) .rekeyed
    | rekeyed =>
      have second : jobId = 2 := by
        have := listed
        simp [calls] at this
        exact this.2
      cases second
      exact unfreed (.release 2 7) (by simp [calls]) .released

end Rankuno.Slots
