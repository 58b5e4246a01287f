import Mathlib.Data.List.Forall2
import Mathlib.Order.Bounds.Basic
import Rankuno.Foundation.Machine

/-!
# A batch of fetches under a load governor

`_gather_bounded` runs one task for each input. A task looks once whether the crawl
was cancelled or has to stop, waits for a slot of the governor, looks again whether
it has to stop, fetches, and gives the slot back; then the governor narrows or widens
its cap by what the origin answered meanwhile. Every order in which the tasks move is
a run. A batch in which nothing ends within the window is cancelled as a whole.
-/

namespace Rankuno.Gather

variable {R : Type}

def backoffRecoveryStreak : Nat := 8

/-! ## The governor -/

/-- `_LoadGovernor`. -/
structure LoadGovernor where
  ceiling : Nat
  limit : Nat
  inFlight : Nat := 0
  clean : Nat := 0
  /-- It was given the graph of the crawl to read. -/
  watching : Bool
  seen : Nat
  lowWater : Nat
  deriving DecidableEq

namespace LoadGovernor

/-- A new governor: the errors are those in the graph, where there is one. -/
def new (ceiling : Nat) (errors : Option Nat) : LoadGovernor where
  ceiling := max 1 ceiling
  limit := max 1 ceiling
  watching := errors.isSome
  seen := errors.getD 0
  lowWater := max 1 ceiling

/-- `acquire`, once the wait for a slot is over. -/
def acquire? (g : LoadGovernor) : Option LoadGovernor :=
  if g.inFlight < g.limit then some { g with inFlight := g.inFlight + 1 } else none

def narrow (g : LoadGovernor) (errors : Nat) : LoadGovernor :=
  { g with
    seen := errors
    clean := 0
    limit := max 1 (g.limit / 2)
    lowWater := min g.lowWater (max 1 (g.limit / 2)) }

def widen (g : LoadGovernor) : LoadGovernor :=
  if backoffRecoveryStreak ≤ g.clean + 1 ∧ g.limit < g.ceiling then
    { g with limit := g.limit + 1, clean := 0 }
  else { g with clean := g.clean + 1 }

/-- `release`: the errors are those in the graph by then. -/
def release (g : LoadGovernor) (errors : Nat) : LoadGovernor :=
  let freed := { g with inFlight := g.inFlight - 1 }
  if !g.watching then freed
  else if g.seen < errors then freed.narrow errors
  else freed.widen

end LoadGovernor

/-! ## The batch -/

/-- Where a task is. An answer is none where the fetch failed or was skipped. -/
inductive Task (R : Type) where
  | created
  | waiting
  | fetching
  /-- It was cancelled in the middle of its fetch. -/
  | unwinding
  | releasing (answer : Option R)
  | done (answer : Option R)
  | cancelled
  deriving DecidableEq

namespace Task

/-- The fetch was begun and is not over. -/
def inFlight : Task R → Bool
  | .fetching | .unwinding => true
  | _ => false

/-- It took a slot that it has not given back. -/
def holds : Task R → Bool
  | .fetching | .unwinding | .releasing _ => true
  | _ => false

def answer? : Task R → Option (Option R)
  | .done answer => some answer
  | _ => none

/-- `task.cancel()`. -/
def interrupt : Task R → Task R
  | .created => .cancelled
  | .waiting => .cancelled
  | .fetching => .unwinding
  | task => task

end Task

inductive Move (R : Type) where
  | begin
  | acquire
  | finish (answer : Option R)
  | release (errors : Nat)
  /-- A release that is itself cancelled. -/
  | leak
  deriving DecidableEq

/-- What the tasks of a batch share. -/
structure Shared where
  governor : LoadGovernor
  cancelled : Bool := false
  stopRequested : Bool := false
  skips : Nat := 0
  stalled : Bool := false
  deriving DecidableEq

/-- `run`: one step of a task. -/
def Shared.move (s : Shared) : Task R → Move R → Option (Shared × Task R)
  | .created, .begin =>
    if s.cancelled then some (s, .done none)
    else if s.stopRequested then some ({ s with skips := s.skips + 1 }, .done none)
    else some (s, .waiting)
  | .waiting, .acquire =>
    s.governor.acquire?.map fun governor =>
      if s.stopRequested then ({ s with governor, skips := s.skips + 1 }, .releasing none)
      else ({ s with governor }, .fetching)
  | .fetching, .finish answer => some (s, .releasing answer)
  | .releasing answer, .release errors =>
    some ({ s with governor := s.governor.release errors }, .done answer)
  | .unwinding, .release errors =>
    some ({ s with governor := s.governor.release errors }, .cancelled)
  | .releasing _, .leak => if s.stalled then some (s, .cancelled) else none
  | .unwinding, .leak => if s.stalled then some (s, .cancelled) else none
  | _, _ => none

structure Batch (R : Type) where
  shared : Shared
  tasks : List (Task R)
  /-- There is a window within which some task has to end. -/
  watched : Bool
  pending : List Nat
  results : List (Option R)
  deriving DecidableEq

/-- `_gather_bounded` with its tasks created. -/
def Batch.start (concurrency : Nat) (errors : Option Nat) (watched : Bool) (inputs : Nat) :
    Batch R where
  shared := { governor := .new concurrency errors }
  tasks := List.replicate inputs .created
  watched := watched
  pending := List.range inputs
  results := List.replicate inputs none

inductive Event (R : Type) where
  | task (i : Nat) (move : Move R)
  /-- An operator cancels the job. -/
  | cancel
  /-- The memory budget has the crawl stop. -/
  | requestStop
  /-- `asyncio.wait` returns, with tasks that are done or without one. -/
  | collect
  | stall
  deriving DecidableEq

namespace Batch

def answerOf (b : Batch R) (i : Nat) : Option (Option R) := b.tasks[i]?.bind Task.answer?

/-- The tasks that are done and were not collected yet. -/
def ready (b : Batch R) : List Nat := b.pending.filter fun i => (b.answerOf i).isSome

/-- The results of the tasks that are done are put in their places. -/
def collect (b : Batch R) : Batch R :=
  { b with
    results := b.ready.foldl (fun results i => results.set i ((b.answerOf i).getD none)) b.results
    pending := b.pending.filter fun i => !(b.answerOf i).isSome }

/-- Nothing ended within the window: what is pending is cancelled. -/
def stall (b : Batch R) : Batch R :=
  { b with
    shared := { b.shared with stalled := true }
    tasks := b.tasks.map Task.interrupt }

/-- What `_gather_bounded` returns, once it can. -/
def returned (b : Batch R) : Option (List (Option R)) :=
  if b.watched then if b.pending = [] ∧ ¬b.shared.stalled then some b.results else none
  else b.tasks.mapM Task.answer?

end Batch

/-- Every order of the steps of a batch. -/
def machine (R : Type) : Machine (Batch R) (Event R) where
  step b
    | .task i move =>
      b.tasks[i]?.bind fun task => (b.shared.move task move).map fun moved =>
        { b with shared := moved.1, tasks := b.tasks.set i moved.2 }
    | .cancel => some { b with shared := { b.shared with cancelled := true } }
    | .requestStop => some { b with shared := { b.shared with stopRequested := true } }
    | .collect =>
      if b.watched ∧ ¬b.shared.stalled ∧ b.ready ≠ [] then some b.collect else none
    | .stall =>
      if b.watched ∧ ¬b.shared.stalled ∧ b.pending ≠ [] ∧ b.ready = [] then some b.stall
      else none

/-! ## What a batch keeps to -/

/-- The answer the fetch of this task ends with in this step. -/
def Event.finish? (i : Nat) : Event R → Option (Option R)
  | .task j (.finish answer) => if j = i then some answer else none
  | _ => none

/-- The answer a task's fetch ended with, where it ended. -/
def finishOf (events : List (Event R)) (i : Nat) : Option (Option R) :=
  events.findSome? (Event.finish? i)

/-- The limits that were in force in a run. -/
def limitsInForce (s : Batch R) (events : List (Event R)) : Set Nat :=
  {limit | ∃ pre post b, events = pre ++ post ∧ (machine R).run s pre = some b ∧
    b.shared.governor.limit = limit}

/-- The fetches that were begun and are not over. -/
def Batch.fetches (b : Batch R) : Nat := b.tasks.countP Task.inFlight

/-- The step begins the fetch of a task. -/
def Starts (b b' : Batch R) (i : Nat) : Prop :=
  b.tasks[i]? ≠ some .fetching ∧ b'.tasks[i]? = some .fetching

instance [DecidableEq R] (b b' : Batch R) (i : Nat) : Decidable (Starts b b' i) :=
  inferInstanceAs (Decidable (_ ≠ _ ∧ _ = _))

/-- A run of a batch stays within its bounds, where nothing is to start once `stops`. -/
structure Bounded (stops : Shared → Bool) (concurrency inputs : Nat) (s : Batch R)
    (events : List (Event R)) : Prop where
  limits : (machine R).Always (fun b => 1 ≤ b.shared.governor.limit ∧
    b.shared.governor.limit ≤ max 1 concurrency ∧ b.fetches ≤ max 1 concurrency) s events
  /-- No slot is lost, unless the batch is abandoned. -/
  slots : (machine R).Always (fun b => b.shared.stalled = false →
    b.shared.governor.inFlight = b.tasks.countP Task.holds) s events
  starts : ∀ pre event post b b' i, events = pre ++ event :: post →
    (machine R).run s pre = some b → (machine R).step b event = some b' → Starts b b' i →
      b'.fetches ≤ b.shared.governor.limit ∧ stops b.shared = false
  lowWater : ∀ pre post b, events = pre ++ post → (machine R).run s pre = some b →
    IsLeast (limitsInForce s pre) b.shared.governor.lowWater
  results : ∀ pre post b results, events = pre ++ post → (machine R).run s pre = some b →
    b.returned = some results →
      results = (List.range inputs).map fun i => (finishOf pre i).getD none

/-- A task that had not looked yet when the crawl was cancelled never fetches. -/
def CancelHeeded (s : Batch R) (events : List (Event R)) : Prop :=
  ∀ pre mid post (b b' : Batch R) (i : Nat), events = pre ++ mid ++ post →
    (machine R).run s pre = some b → (machine R).run b mid = some b' → b.shared.cancelled = true →
      b.tasks[i]? = some Task.created → b'.tasks[i]? ≠ some Task.fetching

/-! ## Steps -/

namespace LoadGovernor

/-- The cap is within its bounds, and no more slots are taken than there may be. -/
structure Within (g : LoadGovernor) : Prop where
  limit_pos : 1 ≤ g.limit
  limit_le : g.limit ≤ g.ceiling
  inFlight_le : g.inFlight ≤ g.ceiling
  lowWater_le : g.lowWater ≤ g.limit

variable {g g' : LoadGovernor} {errors : Nat}

theorem within_new {ceiling : Nat} {errors : Option Nat} : (new ceiling errors).Within where
  limit_pos := Nat.le_max_left _ _
  limit_le := Nat.le_refl _
  inFlight_le := Nat.zero_le _
  lowWater_le := Nat.le_refl _

theorem acquire?_eq_some : g.acquire? = some g' ↔
    g.inFlight < g.limit ∧ g' = { g with inFlight := g.inFlight + 1 } := by
  rw [acquire?]
  split
  · next room =>
    rw [Option.some.injEq, eq_comm]
    exact (and_iff_right room).symm
  · next full =>
    refine iff_of_false (fun none => ?_) fun room => full room.1
    cases none

@[simp] theorem ceiling_release : (g.release errors).ceiling = g.ceiling := by
  rw [release]
  split
  · rfl
  · split
    · rfl
    · rw [widen]
      split
      · rfl
      · rfl

@[simp] theorem inFlight_release : (g.release errors).inFlight = g.inFlight - 1 := by
  rw [release]
  split
  · rfl
  · split
    · rfl
    · rw [widen]
      split
      · rfl
      · rfl

theorem lowWater_release (within : g.Within) :
    (g.release errors).lowWater = min g.lowWater (g.release errors).limit := by
  rw [release]
  split
  · exact (Nat.min_eq_left within.lowWater_le).symm
  · split
    · rfl
    · rw [widen]
      split
      · exact (Nat.min_eq_left (Nat.le_succ_of_le within.lowWater_le)).symm
      · exact (Nat.min_eq_left within.lowWater_le).symm

theorem limit_release (within : g.Within) :
    1 ≤ (g.release errors).limit ∧ (g.release errors).limit ≤ g.ceiling := by
  rw [release]
  split
  · exact ⟨within.limit_pos, within.limit_le⟩
  · split
    · have pos := Nat.le_trans within.limit_pos within.limit_le
      have half := Nat.le_trans (Nat.div_le_self g.limit 2) within.limit_le
      exact ⟨Nat.le_max_left _ _, Nat.max_le.mpr ⟨pos, half⟩⟩
    · rw [widen]
      split
      · next wider => exact ⟨Nat.le_add_left 1 _, wider.2⟩
      · exact ⟨within.limit_pos, within.limit_le⟩

theorem Within.release (within : g.Within) : (g.release errors).Within := by
  obtain ⟨pos, le⟩ := @limit_release g errors within
  refine ⟨pos, ?_, ?_, ?_⟩
  · rwa [ceiling_release]
  · rw [inFlight_release, ceiling_release]
    exact Nat.le_trans (Nat.sub_le _ _) within.inFlight_le
  · rw [lowWater_release within]
    exact Nat.min_le_right _ _

theorem Within.acquire (within : g.Within) (room : g.inFlight < g.limit) :
    ({ g with inFlight := g.inFlight + 1 } : LoadGovernor).Within :=
  { within with inFlight_le := Nat.le_trans room within.limit_le }

end LoadGovernor

/-- What one move of a task can be. -/
inductive Shared.Moves (s : Shared) : Task R → Move R → Shared → Task R → Prop
  /-- It looks, and is not to fetch. -/
  | skipped (skips : Nat) : Moves s .created .begin { s with skips } (.done none)
  | queued (live : s.cancelled = false) : Moves s .created .begin s .waiting
  /-- It looks again with a slot, and is not to fetch. -/
  | stopped (room : s.governor.inFlight < s.governor.limit) (skips : Nat) :
      Moves s .waiting .acquire
        { s with governor := { s.governor with inFlight := s.governor.inFlight + 1 }, skips }
        (.releasing none)
  | started (room : s.governor.inFlight < s.governor.limit) (live : s.stopRequested = false) :
      Moves s .waiting .acquire
        { s with governor := { s.governor with inFlight := s.governor.inFlight + 1 } } .fetching
  | finished (answer : Option R) : Moves s .fetching (.finish answer) s (.releasing answer)
  | released (answer : Option R) (errors : Nat) : Moves s (.releasing answer) (.release errors)
      { s with governor := s.governor.release errors } (.done answer)
  | unwound (errors : Nat) : Moves s .unwinding (.release errors)
      { s with governor := s.governor.release errors } .cancelled
  | leaked {t : Task R} (slot : t.holds = true) (ended : t ≠ .fetching)
      (abandoned : s.stalled = true) : Moves s t .leak s .cancelled

theorem Shared.moves_of_move {s s' : Shared} {t t' : Task R} {move : Move R}
    (moves : s.move t move = some (s', t')) : s.Moves t move s' t' := by
  cases t <;> cases move <;> try cases moves
  case created.begin =>
    rw [Shared.move] at moves
    split at moves
    · cases moves
      exact .skipped _
    · next live =>
      split at moves
      · cases moves
        exact .skipped _
      · cases moves
        exact .queued (Bool.eq_false_iff.mpr live)
  case waiting.acquire =>
    rw [Shared.move, Option.map_eq_some_iff] at moves
    obtain ⟨governor, taken, moves⟩ := moves
    obtain ⟨room, rfl⟩ := LoadGovernor.acquire?_eq_some.mp taken
    split at moves
    · cases moves
      exact .stopped room _
    · next live =>
      cases moves
      exact .started room (Bool.eq_false_iff.mpr live)
  case fetching.finish answer => exact .finished answer
  case releasing.release answer errors => exact .released answer errors
  case unwinding.release errors => exact .unwound errors
  case releasing.leak =>
    rw [Shared.move] at moves
    split at moves
    · next abandoned =>
      cases moves
      exact .leaked rfl (by intro same; cases same) abandoned
    · cases moves
  case unwinding.leak =>
    rw [Shared.move] at moves
    split at moves
    · next abandoned =>
      cases moves
      exact .leaked rfl (by intro same; cases same) abandoned
    · cases moves

/-- What one step of a batch can be. -/
inductive Batch.Steps (b : Batch R) : Event R → Batch R → Prop
  | task {i : Nat} {move : Move R} {t t' : Task R} {shared : Shared}
      (found : b.tasks[i]? = some t) (moves : b.shared.Moves t move shared t') :
      Steps b (.task i move) { b with shared, tasks := b.tasks.set i t' }
  | cancel : Steps b .cancel { b with shared := { b.shared with cancelled := true } }
  | requestStop : Steps b .requestStop { b with shared := { b.shared with stopRequested := true } }
  | collect (live : b.shared.stalled = false) : Steps b .collect b.collect
  | stall (live : b.shared.stalled = false) : Steps b .stall b.stall

theorem Batch.steps_of_step {b b' : Batch R} {event : Event R}
    (steps : (machine R).step b event = some b') : b.Steps event b' := by
  cases event with
  | task i move =>
    obtain ⟨t, found, moved⟩ := Option.bind_eq_some_iff.mp steps
    obtain ⟨⟨shared, t'⟩, made, rfl⟩ := Option.map_eq_some_iff.mp moved
    exact .task found (Shared.moves_of_move made)
  | cancel =>
    cases steps
    exact .cancel
  | requestStop =>
    cases steps
    exact .requestStop
  | collect =>
    obtain ⟨⟨-, live, -⟩, rfl⟩ := Option.ite_some_none_eq_some.mp steps
    exact .collect (Bool.not_eq_true _ ▸ live)
  | stall =>
    obtain ⟨⟨-, live, -, -⟩, rfl⟩ := Option.ite_some_none_eq_some.mp steps
    exact .stall (Bool.not_eq_true _ ▸ live)

/-! ## The invariant -/

namespace Batch

variable {concurrency inputs : Nat} {b b' : Batch R} {event : Event R} {i : Nat}

/-- Slots are counted, and what is no longer pending was collected. -/
structure Sound (concurrency inputs : Nat) (b : Batch R) : Prop where
  ceiling : b.shared.governor.ceiling = max 1 concurrency
  within : b.shared.governor.Within
  holders : b.tasks.countP Task.holds ≤ b.shared.governor.inFlight
  noLeak : b.shared.stalled = false → b.shared.governor.inFlight = b.tasks.countP Task.holds
  length : b.tasks.length = inputs
  resultsLength : b.results.length = inputs
  collected : ∀ i < inputs, i ∉ b.pending → ∃ answer, b.tasks[i]? = some (.done answer) ∧
    b.results[i]? = some answer

theorem sound_start {errors : Option Nat} {watched : Bool} :
    (start concurrency errors watched inputs : Batch R).Sound concurrency inputs where
  ceiling := rfl
  within := LoadGovernor.within_new
  holders := by
    rw [start, List.countP_replicate]
    exact Nat.le_refl 0
  noLeak := by
    intro _
    rw [start, List.countP_replicate]
    rfl
  length := List.length_replicate
  resultsLength := List.length_replicate
  collected := fun i listed missing => absurd (List.mem_range.mpr listed) missing

theorem holders_pos {t : Task R} (found : b.tasks[i]? = some t) (slot : t.holds = true) :
    0 < b.tasks.countP Task.holds :=
  List.countP_pos_iff.mpr ⟨t, List.mem_of_getElem? found, slot⟩

theorem holders_set {t : Task R} (t' : Task R) (found : b.tasks[i]? = some t) :
    (b.tasks.set i t').countP Task.holds + (if t.holds then 1 else 0) =
      b.tasks.countP Task.holds + if t'.holds then 1 else 0 := by
  obtain ⟨inRange, rfl⟩ := List.getElem?_eq_some_iff.mp found
  rw [List.countP_set inRange]
  by_cases slot : b.tasks[i].holds
  · have pos := holders_pos found slot
    simp only [slot, if_true]
    omega
  · simp only [slot, Bool.false_eq_true, if_false]
    omega

theorem Sound.moves {t t' : Task R} {move : Move R} {shared : Shared}
    (sound : b.Sound concurrency inputs) (found : b.tasks[i]? = some t)
    (moves : b.shared.Moves t move shared t') :
    shared.governor.ceiling = max 1 concurrency ∧ shared.governor.Within ∧
      (b.tasks.set i t').countP Task.holds ≤ shared.governor.inFlight ∧
      (shared.stalled = false →
        shared.governor.inFlight = (b.tasks.set i t').countP Task.holds) := by
  have counted := holders_set t' found
  have le := sound.holders
  have eq := sound.noLeak
  cases moves with
  | skipped =>
    simp only [Task.holds, Bool.false_eq_true, if_false, Nat.add_zero] at counted
    rw [counted]
    exact ⟨sound.ceiling, sound.within, le, eq⟩
  | queued =>
    simp only [Task.holds, Bool.false_eq_true, if_false, Nat.add_zero] at counted
    rw [counted]
    exact ⟨sound.ceiling, sound.within, le, eq⟩
  | stopped room =>
    simp only [Task.holds, Bool.false_eq_true, if_false, if_true, Nat.add_zero] at counted
    rw [counted]
    exact ⟨sound.ceiling, sound.within.acquire room, Nat.succ_le_succ le,
      fun live => congrArg Nat.succ (eq live)⟩
  | started room =>
    simp only [Task.holds, Bool.false_eq_true, if_false, if_true, Nat.add_zero] at counted
    rw [counted]
    exact ⟨sound.ceiling, sound.within.acquire room, Nat.succ_le_succ le,
      fun live => congrArg Nat.succ (eq live)⟩
  | finished =>
    simp only [Task.holds, if_true, Nat.add_right_cancel_iff] at counted
    rw [counted]
    exact ⟨sound.ceiling, sound.within, le, eq⟩
  | released =>
    simp only [Task.holds, Bool.false_eq_true, if_false, if_true, Nat.add_zero] at counted
    simp only [LoadGovernor.ceiling_release, LoadGovernor.inFlight_release]
    exact ⟨sound.ceiling, sound.within.release, by omega, fun live => by have := eq live; omega⟩
  | unwound =>
    simp only [Task.holds, Bool.false_eq_true, if_false, if_true, Nat.add_zero] at counted
    simp only [LoadGovernor.ceiling_release, LoadGovernor.inFlight_release]
    exact ⟨sound.ceiling, sound.within.release, by omega, fun live => by have := eq live; omega⟩
  | leaked slot _ abandoned =>
    refine ⟨sound.ceiling, sound.within, ?_, fun live => ?_⟩
    · rw [if_pos slot] at counted
      simp only [Task.holds, Bool.false_eq_true, if_false, Nat.add_zero] at counted
      omega
    · rw [live] at abandoned
      cases abandoned

@[simp] theorem holds_interrupt {t : Task R} : t.interrupt.holds = t.holds := by
  cases t with
  | created => rfl
  | waiting => rfl
  | fetching => rfl
  | unwinding => rfl
  | releasing => rfl
  | done => rfl
  | cancelled => rfl

theorem answer?_eq_some {t : Task R} {answer : Option R} :
    t.answer? = some answer ↔ t = .done answer := by
  constructor
  · intro answered
    cases t with
    | done => rw [Option.some.inj answered]
    | _ => cases answered
  · rintro rfl
    rfl

theorem answerOf_eq_some {answer : Option R} :
    b.answerOf i = some answer ↔ b.tasks[i]? = some (.done answer) := by
  rw [answerOf, Option.bind_eq_some_iff]
  constructor
  · rintro ⟨t, found, answered⟩
    rw [found, answer?_eq_some.mp answered]
  · exact fun found => ⟨_, found, rfl⟩

theorem getElem?_foldl_set (answers : Nat → Option R) (indices : List Nat)
    (results : List (Option R)) (i : Nat) :
    (indices.foldl (fun results i => results.set i (answers i)) results)[i]? =
      if i ∈ indices then results[i]?.map fun _ => answers i else results[i]? := by
  induction indices generalizing results with
  | nil => rfl
  | cons j indices ih =>
    rw [List.foldl_cons, ih]
    by_cases same : j = i
    · subst same
      have put : (results.set j (answers j))[j]? = results[j]?.map fun _ => answers j :=
        List.getElem?_set_self'
      rw [put, if_pos List.mem_cons_self, Option.map_map]
      split
      · rfl
      · rfl
    · rw [List.getElem?_set_ne same]
      simp only [List.mem_cons, Ne.symm same, false_or]

@[simp] theorem length_foldl_set (answers : Nat → Option R) (indices : List Nat)
    (results : List (Option R)) :
    (indices.foldl (fun results i => results.set i (answers i)) results).length =
      results.length := by
  induction indices generalizing results with
  | nil => rfl
  | cons j indices ih => rw [List.foldl_cons, ih, List.length_set]

theorem Sound.step (sound : b.Sound concurrency inputs) (steps : b.Steps event b') :
    b'.Sound concurrency inputs := by
  cases steps with
  | @task i move t t' shared found moves =>
    obtain ⟨ceiling, within, holders, noLeak⟩ := sound.moves found moves
    refine ⟨ceiling, within, holders, noLeak, ?_, sound.resultsLength, ?_⟩
    · rw [List.length_set]
      exact sound.length
    · intro j listed gone
      obtain ⟨answer, done, result⟩ := sound.collected j listed gone
      refine ⟨answer, ?_, result⟩
      by_cases same : i = j
      · subst same
        rw [found] at done
        cases done
        cases moves with
        | leaked slot => cases slot
      · rwa [List.getElem?_set_ne same]
  | cancel => exact { sound with }
  | requestStop => exact { sound with }
  | collect =>
    refine { sound with resultsLength := ?_, collected := ?_ }
    · rw [collect, length_foldl_set]
      exact sound.resultsLength
    · intro i listed gone
      rw [collect, getElem?_foldl_set]
      by_cases waits : i ∈ b.pending
      · have answered : (b.answerOf i).isSome = true := by
          by_contra unanswered
          refine gone (List.mem_filter.mpr ⟨waits, ?_⟩)
          rw [Bool.not_eq_true] at unanswered
          rw [unanswered]
          rfl
        obtain ⟨answer, same⟩ := Option.isSome_iff_exists.mp answered
        have placed : i < b.results.length := by rwa [sound.resultsLength]
        have ready : i ∈ b.ready := List.mem_filter.mpr ⟨waits, answered⟩
        rw [if_pos ready, List.getElem?_eq_getElem placed, same]
        exact ⟨answer, answerOf_eq_some.mp same, rfl⟩
      · obtain ⟨answer, done, result⟩ := sound.collected i listed waits
        have old : i ∉ b.ready := fun ready => waits (List.mem_filter.mp ready).1
        rw [if_neg old]
        exact ⟨answer, done, result⟩
  | stall =>
    have slots : (b.tasks.map Task.interrupt).countP Task.holds = b.tasks.countP Task.holds := by
      rw [List.countP_map]
      exact List.countP_congr fun t _ => by rw [Function.comp_apply, holds_interrupt]
    refine ⟨sound.ceiling, sound.within, ?_, fun live => ?_, ?_, sound.resultsLength, ?_⟩
    · rw [stall, slots]
      exact sound.holders
    · cases live
    · rw [stall, List.length_map]
      exact sound.length
    · intro i listed gone
      obtain ⟨answer, done, result⟩ := sound.collected i listed gone
      refine ⟨answer, ?_, result⟩
      rw [stall, List.getElem?_map, done]
      rfl

end Batch

/-! ## Runs -/

section Runs

variable {concurrency inputs : Nat} {s b b' : Batch R} {events pre post : List (Event R)}
variable {event : Event R} {i : Nat}

theorem sound_of_run (sound : s.Sound concurrency inputs)
    (run : (machine R).run s events = some b) : b.Sound concurrency inputs :=
  Machine.invariant (fun _ _ _ sound steps => sound.step (Batch.steps_of_step steps)) sound run

theorem lowWater_step (sound : b.Sound concurrency inputs) (steps : b.Steps event b') :
    b'.shared.governor.lowWater = min b.shared.governor.lowWater b'.shared.governor.limit := by
  have same := (Nat.min_eq_left sound.within.lowWater_le).symm
  cases steps with
  | task found moves =>
    cases moves with
    | released => exact LoadGovernor.lowWater_release sound.within
    | unwound => exact LoadGovernor.lowWater_release sound.within
    | _ => exact same
  | _ => exact same

theorem limitsInForce_nil : limitsInForce s [] = {s.shared.governor.limit} := by
  ext limit
  rw [Set.mem_singleton_iff]
  constructor
  · rintro ⟨pre, post, b, split, run, rfl⟩
    obtain ⟨rfl, rfl⟩ := List.append_eq_nil_iff.mp split.symm
    cases run
    rfl
  · rintro rfl
    exact ⟨[], [], s, rfl, rfl, rfl⟩

theorem limitsInForce_concat (run : (machine R).run s events = some b)
    (steps : (machine R).step b event = some b') :
    limitsInForce s (events ++ [event]) = limitsInForce s events ∪ {b'.shared.governor.limit} := by
  ext limit
  rw [Set.mem_union, Set.mem_singleton_iff]
  constructor
  · rintro ⟨pre, post, c, split, reached, rfl⟩
    rcases List.eq_nil_or_concat post with rfl | ⟨post, last, rfl⟩
    · right
      rw [List.append_nil] at split
      rw [← split, Machine.run_append, run, Option.bind_some, Machine.run_singleton, steps]
        at reached
      cases reached
      rfl
    · left
      rw [List.concat_eq_append, ← List.append_assoc] at split
      exact ⟨pre, post, c, (List.append_inj' split rfl).1, reached, rfl⟩
  · rintro (⟨pre, post, c, rfl, reached, rfl⟩ | rfl)
    · exact ⟨pre, post ++ [event], c, List.append_assoc _ _ _, reached, rfl⟩
    · refine ⟨events ++ [event], [], b', (List.append_nil _).symm, ?_, rfl⟩
      rw [Machine.run_append, run, Option.bind_some, Machine.run_singleton, steps]

theorem isLeast_lowWater (sound : s.Sound concurrency inputs)
    (fresh : s.shared.governor.lowWater = s.shared.governor.limit)
    (run : (machine R).run s events = some b) :
    IsLeast (limitsInForce s events) b.shared.governor.lowWater := by
  have known : (machine R).run s events = some b ∧
      IsLeast (limitsInForce s events) b.shared.governor.lowWater := by
    refine Machine.trace_invariant (J := fun events b => (machine R).run s events = some b ∧
      IsLeast (limitsInForce s events) b.shared.governor.lowWater) ?_ ?_ run
    · rintro events b event b' ⟨run, least⟩ steps
      refine ⟨?_, ?_⟩
      · exact Machine.run_append_eq_some.mpr ⟨b, run, by rwa [Machine.run_singleton]⟩
      · rw [limitsInForce_concat run steps,
          lowWater_step (sound_of_run sound run) (Batch.steps_of_step steps)]
        exact least.union isLeast_singleton
    · refine ⟨rfl, ?_⟩
      rw [limitsInForce_nil, fresh]
      exact isLeast_singleton
  exact known.2

/-- What a task's place says of the end of its fetch. -/
def Task.Tells (answer : Option (Option R)) : Task R → Prop
  | .created | .waiting | .fetching => answer = none
  | .releasing given | .done given => answer.getD none = given
  | .unwinding | .cancelled => True

theorem finishOf_concat : finishOf (events ++ [event]) i =
    (finishOf events i).or (event.finish? i) := by
  rw [finishOf, finishOf, List.findSome?_append]
  cases h : event.finish? i with
  | none => simp [h]
  | some => simp [h]

theorem finish?_of_ne {j : Nat} {move : Move R} (other : j ≠ i) :
    (Event.task j move).finish? i = none := by
  cases move with
  | finish answer => exact if_neg other
  | _ => rfl

theorem Task.Tells.interrupt {answer : Option (Option R)} {t : Task R} (tells : t.Tells answer) :
    t.interrupt.Tells answer := by
  cases t with
  | created => trivial
  | waiting => trivial
  | fetching => trivial
  | _ => exact tells

theorem Task.Tells.move {shared shared' : Shared} {t t' : Task R} {move : Move R}
    {answer : Option (Option R)} (tells : t.Tells answer)
    (moves : shared.Moves t move shared' t') :
    t'.Tells (answer.or ((Event.task i move).finish? i)) := by
  cases moves with
  | skipped =>
    cases tells
    rfl
  | queued =>
    cases tells
    rfl
  | stopped =>
    cases tells
    rfl
  | started =>
    cases tells
    rfl
  | finished given =>
    cases tells
    show Option.getD (if i = i then some given else none) none = given
    rw [if_pos rfl, Option.getD_some]
  | released given errors =>
    have silent : (Event.task i (.release errors) : Event R).finish? i = none := rfl
    rw [silent, Option.or_none]
    exact tells
  | unwound => trivial
  | leaked => trivial

theorem tells_of_run (init : ∀ t ∈ s.tasks, t = .created)
    (run : (machine R).run s events = some b) {t : Task R} (found : b.tasks[i]? = some t) :
    t.Tells (finishOf events i) := by
  refine Machine.trace_invariant (J := fun events b => ∀ i t, b.tasks[i]? = some t →
    t.Tells (finishOf events i)) ?_ ?_ run i t found
  · intro events b event b' tells steps i t found
    rw [finishOf_concat]
    cases Batch.steps_of_step steps with
    | @task j move u u' shared here moves =>
      by_cases same : j = i
      · subst same
        have inRange : j < b.tasks.length := (List.getElem?_eq_some_iff.mp here).1
        rw [List.getElem?_set_self inRange] at found
        cases found
        exact (tells j u here).move moves
      · rw [List.getElem?_set_ne same] at found
        rw [finish?_of_ne same, Option.or_none]
        exact tells i t found
    | stall =>
      rw [Batch.stall, List.getElem?_map, Option.map_eq_some_iff] at found
      obtain ⟨u, there, rfl⟩ := found
      have silent : (Event.stall : Event R).finish? i = none := rfl
      rw [silent, Option.or_none]
      exact (tells i u there).interrupt
    | cancel =>
      have silent : (Event.cancel : Event R).finish? i = none := rfl
      rw [silent, Option.or_none]
      exact tells i t found
    | requestStop =>
      have silent : (Event.requestStop : Event R).finish? i = none := rfl
      rw [silent, Option.or_none]
      exact tells i t found
    | collect =>
      have silent : (Event.collect : Event R).finish? i = none := rfl
      rw [silent, Option.or_none]
      exact tells i t found
  · intro i t found
    rw [init t (List.mem_of_getElem? found)]
    rfl

theorem forall₂_of_mapM {α β : Type} {f : α → Option β} {xs : List α} {ys : List β}
    (found : xs.mapM f = some ys) : List.Forall₂ (fun x y => f x = some y) xs ys := by
  induction xs generalizing ys with
  | nil =>
    cases found
    exact .nil
  | cons x xs ih =>
    rw [List.mapM_cons, Option.bind_eq_bind, Option.bind_eq_some_iff] at found
    obtain ⟨y, first, found⟩ := found
    rw [Option.bind_eq_bind, Option.bind_eq_some_iff] at found
    obtain ⟨ys, later, same⟩ := found
    cases same
    exact .cons first (ih later)

theorem eq_map_range {results : List (Option R)} (length : results.length = inputs)
    (tells : ∀ i (t : Task R), b.tasks[i]? = some t → t.Tells (finishOf events i))
    (placed : ∀ i < inputs, ∃ answer, b.tasks[i]? = some (.done answer) ∧
      results[i]? = some answer) :
    results = (List.range inputs).map fun i => (finishOf events i).getD none := by
  refine List.ext_getElem? fun i => ?_
  by_cases listed : i < inputs
  · obtain ⟨answer, done, result⟩ := placed i listed
    have told : (finishOf events i).getD none = answer := tells i _ done
    rw [result, List.getElem?_map, List.getElem?_range listed, Option.map_some, told]
  · have short := Nat.le_of_not_lt listed
    rw [List.getElem?_eq_none (by rw [length]; exact short), List.getElem?_eq_none]
    rw [List.length_map, List.length_range]
    exact short

theorem returned_eq {results : List (Option R)} (sound : b.Sound concurrency inputs)
    (tells : ∀ i (t : Task R), b.tasks[i]? = some t → t.Tells (finishOf events i))
    (returned : b.returned = some results) :
    results = (List.range inputs).map fun i => (finishOf events i).getD none := by
  rw [Batch.returned] at returned
  split at returned
  · obtain ⟨⟨empty, -⟩, same⟩ := Option.ite_some_none_eq_some.mp returned
    rw [← same]
    refine eq_map_range sound.resultsLength tells fun i listed => ?_
    refine sound.collected i listed ?_
    rw [empty]
    exact List.not_mem_nil
  · have answers := forall₂_of_mapM returned
    have length : results.length = inputs := by rw [← answers.length_eq, sound.length]
    refine eq_map_range length tells fun i listed => ?_
    have task : i < b.tasks.length := by rwa [sound.length]
    have result : i < results.length := by rwa [length]
    have answered : (b.tasks.get ⟨i, task⟩).answer? = some (results.get ⟨i, result⟩) :=
      answers.get task result
    refine ⟨results.get ⟨i, result⟩, ?_, List.getElem?_eq_getElem result⟩
    rw [List.getElem?_eq_getElem task]
    exact congrArg some (Batch.answer?_eq_some.mp answered)

theorem fetches_le_holders : b.fetches ≤ b.tasks.countP Task.holds :=
  List.countP_mono_left fun t _ fetching => by
    cases t with
    | fetching => rfl
    | unwinding => rfl
    | _ => cases fetching

theorem bounded_start (sound : b.Sound concurrency inputs) (steps : b.Steps event b')
    (starts : Starts b b' i) :
    b'.fetches ≤ b.shared.governor.limit ∧ b.shared.stopRequested = false ∧
      b.tasks[i]? = some Task.waiting := by
  obtain ⟨before, after⟩ := starts
  have kept := sound.step steps
  cases steps with
  | @task j move t t' shared found moves =>
    by_cases same : j = i
    · subst same
      rw [List.getElem?_set_self (List.getElem?_eq_some_iff.mp found).1] at after
      cases after
      cases moves with
      | started room live =>
        exact ⟨Nat.le_trans (Nat.le_trans fetches_le_holders kept.holders) room, live, found⟩
    · rw [List.getElem?_set_ne same] at after
      exact absurd after before
  | stall =>
    rw [Batch.stall, List.getElem?_map, Option.map_eq_some_iff] at after
    obtain ⟨t, -, fetching⟩ := after
    cases t with
    | _ => cases fetching
  | _ => exact absurd after before

/-- A task that will not fetch: it was cancelled before it looked, or found so. -/
def Spared (b : Batch R) (i : Nat) : Prop :=
  b.shared.cancelled = true ∧ (b.tasks[i]? = some Task.created ∨
    b.tasks[i]? = some (Task.done none) ∨ b.tasks[i]? = some Task.cancelled)

theorem cancelled_of_moves {shared shared' : Shared} {t t' : Task R} {move : Move R}
    (cancelled : shared.cancelled = true) (moves : shared.Moves t move shared' t') :
    shared'.cancelled = true := by
  cases moves with
  | _ => exact cancelled

theorem Spared.step (spared : Spared b i) (steps : b.Steps event b') : Spared b' i := by
  obtain ⟨cancelled, place⟩ := spared
  cases steps with
  | @task j move t t' shared found moves =>
    refine ⟨cancelled_of_moves cancelled moves, ?_⟩
    by_cases same : j = i
    · subst same
      rw [List.getElem?_set_self (List.getElem?_eq_some_iff.mp found).1]
      rw [found] at place
      rcases place with created | done | stopped
      · cases created
        cases moves with
        | skipped => exact .inr (.inl rfl)
        | queued live =>
          rw [cancelled] at live
          cases live
        | leaked slot => cases slot
      · cases done
        cases moves with
        | leaked slot => cases slot
      · cases stopped
        cases moves with
        | leaked slot => cases slot
    · rwa [List.getElem?_set_ne same]
  | cancel => exact ⟨rfl, place⟩
  | requestStop => exact ⟨cancelled, place⟩
  | collect => exact ⟨cancelled, place⟩
  | stall =>
    refine ⟨cancelled, ?_⟩
    rw [Batch.stall, List.getElem?_map]
    rcases place with created | done | stopped
    · rw [created]
      exact .inr (.inr rfl)
    · rw [done]
      exact .inr (.inl rfl)
    · rw [stopped]
      exact .inr (.inr rfl)

theorem cancelHeeded (s : Batch R) (events : List (Event R)) : CancelHeeded s events := by
  intro pre mid post b b' i _ _ run cancelled created fetching
  have before : Spared b i := ⟨cancelled, .inl created⟩
  obtain ⟨-, place⟩ := Machine.invariant (I := fun b => Spared b i)
    (fun _ _ _ spared steps => spared.step (Batch.steps_of_step steps)) before run
  rw [fetching] at place
  rcases place with same | same | same
  · cases same
  · cases same
  · cases same

theorem init_start {errors : Option Nat} {watched : Bool} :
    ∀ t ∈ (Batch.start concurrency errors watched inputs : Batch R).tasks, t = .created :=
  fun _ listed => List.eq_of_mem_replicate listed

end Runs

section Sample

/-- Two fetches of a batch with one slot; the crawl is cancelled while the second waits
for the slot of the first. -/
def cancelledWaiting : List (Event Unit) :=
  [.task 0 .begin, .task 1 .begin, .task 0 .acquire, .cancel, .task 0 (.finish (some ())),
    .task 0 (.release 0), .task 1 .acquire]

end Sample

end Rankuno.Gather
