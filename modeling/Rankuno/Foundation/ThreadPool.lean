import Mathlib.Algebra.Order.BigOperators.Group.List
import Mathlib.Data.List.Basic
import Mathlib.Tactic.Abel
import Rankuno.Foundation.Machine

/-!
# Pools of threads over a shared state

A thread is moved by its own actions, each together with a state that all
threads share. Calls add threads, and a run of `ThreadPool.machine` is any
interleaving of their actions.

An invariant has a part about the shared state and a part that each thread
owns: an action has to keep the shared part, the part of the thread that takes
it, and the parts of all others. A rank that a thread's own actions lower and
that nobody raises bounds the number of actions the thread can take. What the
threads weigh in total changes by what the thread that acts weighs more or less.
-/

universe u v w x

/-- How a call becomes a thread, and what the thread with a given number does. -/
structure ThreadPool (σ : Type u) (τ : Type v) (π : Type w) (ι : Type x) where
  spawn : π → τ
  move : Nat → ι → σ → τ → Option (σ × τ)

structure PoolState (σ : Type u) (τ : Type v) where
  shared : σ
  threads : List τ

inductive PoolEvent (π : Type w) (ι : Type x) where
  | call (program : π)
  | act (thread : Nat) (action : ι)

namespace PoolEvent

variable {π : Type w} {ι : Type x}

def isActionOf (i : Nat) : PoolEvent π ι → Bool
  | call _ => false
  | act j _ => j == i

end PoolEvent

namespace ThreadPool

variable {σ : Type u} {τ : Type v} {π : Type w} {ι : Type x}

/-- Every interleaving of the threads, and of calls that add more of them. -/
def machine (pool : ThreadPool σ τ π ι) : Machine (PoolState σ τ) (PoolEvent π ι) where
  step s
    | .call program => some ⟨s.shared, s.threads ++ [pool.spawn program]⟩
    | .act i action =>
      s.threads[i]?.bind fun t =>
        (pool.move i action s.shared t).map fun moved =>
          ⟨moved.1, s.threads.set i moved.2⟩

/-- No thread has been called yet. -/
def start (shared : σ) : PoolState σ τ := ⟨shared, []⟩

variable {pool : ThreadPool σ τ π ι} {s s' : PoolState σ τ} {event : PoolEvent π ι}

theorem step_cases (hstep : pool.machine.step s event = some s') :
    (∃ program, event = .call program ∧ s' = ⟨s.shared, s.threads ++ [pool.spawn program]⟩) ∨
    (∃ i action t shared t', event = .act i action ∧ s.threads[i]? = some t ∧
      pool.move i action s.shared t = some (shared, t') ∧
      s' = ⟨shared, s.threads.set i t'⟩) := by
  cases event with
  | call program =>
    cases hstep
    exact .inl ⟨program, rfl, rfl⟩
  | act i action =>
    obtain ⟨t, ht, hmoved⟩ := Option.bind_eq_some_iff.mp hstep
    obtain ⟨⟨shared, t'⟩, hmove, rfl⟩ := Option.map_eq_some_iff.mp hmoved
    exact .inr ⟨i, action, t, shared, t', rfl, ht, hmove, rfl⟩

theorem called {κ : Type*} (attr : τ → κ)
    (keep : ∀ i action s t s' t', pool.move i action s t = some (s', t') → attr t' = attr t)
    {shared : σ} {events : List (PoolEvent π ι)}
    (run : pool.machine.run (start shared) events = some s) :
    ∀ t ∈ s.threads, ∃ program, .call program ∈ events ∧ attr t = attr (pool.spawn program) := by
  refine Machine.trace_invariant (J := fun events s => ∀ t ∈ s.threads,
    ∃ program, .call program ∈ events ∧ attr t = attr (pool.spawn program)) ?_ ?_ run
  · intro before s event s' h hstep t mem
    obtain ⟨program, rfl, rfl⟩ | ⟨i, action, u, shared, u', rfl, hu, hmove, rfl⟩ :=
      step_cases hstep
    · obtain old | new := List.mem_append.mp mem
      · obtain ⟨program', called, same⟩ := h t old
        exact ⟨program', List.mem_append_left _ called, same⟩
      · rw [List.mem_singleton.mp new]
        exact ⟨program, List.mem_append_right _ (List.mem_singleton_self _), rfl⟩
    · obtain old | rfl := List.mem_or_eq_of_mem_set mem
      · obtain ⟨program, called, same⟩ := h t old
        exact ⟨program, List.mem_append_left _ called, same⟩
      · obtain ⟨program, called, same⟩ := h u (List.mem_of_getElem? hu)
        refine ⟨program, List.mem_append_left _ called, ?_⟩
        rw [keep i action s.shared u shared t hmove, same]
  · intro t mem
    cases mem

section Invariants

variable {inv : σ → Nat → Prop} {own : Nat → σ → τ → Prop}

/-- The shared part may speak of the number of threads, so that a new thread
can be told apart from those before it. -/
structure Invariant (pool : ThreadPool σ τ π ι) (inv : σ → Nat → Prop)
    (own : Nat → σ → τ → Prop) : Prop where
  spawn : ∀ s n program, inv s n → inv s (n + 1) ∧ own n s (pool.spawn program)
  move : ∀ i n action s t s' t', i < n → inv s n → own i s t →
    pool.move i action s t = some (s', t') → inv s' n ∧ own i s' t'
  others : ∀ i j action s t s' t' u, j ≠ i → own i s t → own j s u →
    pool.move i action s t = some (s', t') → own j s' u

/-- Both parts, of a state of the pool. -/
structure Holds (inv : σ → Nat → Prop) (own : Nat → σ → τ → Prop) (s : PoolState σ τ) : Prop where
  shared : inv s.shared s.threads.length
  threads : ∀ i t, s.threads[i]? = some t → own i s.shared t

theorem Holds.start {shared : σ} (init : inv shared 0) : Holds inv own (start shared) :=
  ⟨init, fun i t ht => by simp [ThreadPool.start] at ht⟩

theorem Invariant.step (rule : pool.Invariant inv own) (h : Holds inv own s)
    (hstep : pool.machine.step s event = some s') : Holds inv own s' := by
  obtain ⟨program, -, rfl⟩ | ⟨i, action, t, shared, t', -, ht, hmove, rfl⟩ := step_cases hstep
  · obtain ⟨more, new⟩ := rule.spawn s.shared s.threads.length program h.shared
    refine ⟨by simpa using more, fun j u hu => ?_⟩
    rw [List.getElem?_append] at hu
    split at hu
    · exact h.threads j u hu
    · next beyond =>
      rw [List.getElem?_singleton] at hu
      split at hu
      · next last =>
        cases hu
        have same : j = s.threads.length := by omega
        rw [same]
        exact new
      · cases hu
  · have inRange : i < s.threads.length := (List.getElem?_eq_some_iff.mp ht).1
    obtain ⟨kept, mine⟩ := rule.move i s.threads.length action s.shared t shared t' inRange
      h.shared (h.threads i t ht) hmove
    refine ⟨by simpa using kept, fun j u hu => ?_⟩
    rw [List.getElem?_set] at hu
    by_cases same : i = j
    · subst same
      rw [if_pos rfl, if_pos inRange] at hu
      cases hu
      exact mine
    · rw [if_neg same] at hu
      exact rule.others i j action s.shared t shared t' u (Ne.symm same) (h.threads i t ht)
        (h.threads j u hu) hmove

theorem Invariant.run (rule : pool.Invariant inv own) {shared : σ} (init : inv shared 0)
    {events : List (PoolEvent π ι)} (run : pool.machine.run (start shared) events = some s) :
    Holds inv own s :=
  Machine.invariant (fun _ _ _ h hstep => rule.step h hstep) (.start init) run

end Invariants

section Ranks

variable {rank : σ → τ → Nat} {bound : Nat}

/-- Each action of a thread lowers its rank, and no action raises another's. -/
structure Ranked (pool : ThreadPool σ τ π ι) (rank : σ → τ → Nat) (bound : Nat) : Prop where
  spawn : ∀ s program, rank s (pool.spawn program) ≤ bound
  move : ∀ i action s t s' t', pool.move i action s t = some (s', t') → rank s' t' < rank s t
  others : ∀ i action s t s' t' u, pool.move i action s t = some (s', t') → rank s' u ≤ rank s u

/-- The actions each thread has taken and its rank stay within the bound, and a
thread that does not exist yet has taken none. -/
structure WithinRank (rank : σ → τ → Nat) (bound : Nat) (events : List (PoolEvent π ι))
    (s : PoolState σ τ) : Prop where
  taken : ∀ i t, s.threads[i]? = some t →
    events.countP (PoolEvent.isActionOf i) + rank s.shared t ≤ bound
  absent : ∀ i, s.threads.length ≤ i → events.countP (PoolEvent.isActionOf i) = 0

variable {events : List (PoolEvent π ι)}

theorem Ranked.call (rule : pool.Ranked rank bound) (h : WithinRank rank bound events s)
    (program : π) :
    WithinRank rank bound (events ++ [.call program])
      ⟨s.shared, s.threads ++ [pool.spawn program]⟩ := by
  have same : ∀ i, (events ++ [PoolEvent.call program]).countP (PoolEvent.isActionOf i) =
      events.countP (PoolEvent.isActionOf i) := by
    intro i
    simp [PoolEvent.isActionOf]
  refine ⟨fun i t ht => ?_, fun i hi => ?_⟩
  · rw [same]
    rw [List.getElem?_append] at ht
    split at ht
    · exact h.taken i t ht
    · next beyond =>
      rw [List.getElem?_singleton] at ht
      split at ht
      · cases ht
        rw [h.absent i (by omega), Nat.zero_add]
        exact rule.spawn s.shared program
      · cases ht
  · rw [same]
    simp only [List.length_append, List.length_singleton] at hi
    exact h.absent i (by omega)

theorem Ranked.act (rule : pool.Ranked rank bound) (h : WithinRank rank bound events s)
    {j : Nat} {action : ι} {u u' : τ} {shared : σ} (hu : s.threads[j]? = some u)
    (hmove : pool.move j action s.shared u = some (shared, u')) :
    WithinRank rank bound (events ++ [.act j action]) ⟨shared, s.threads.set j u'⟩ := by
  have inRange : j < s.threads.length := (List.getElem?_eq_some_iff.mp hu).1
  refine ⟨fun i t ht => ?_, fun i hi => ?_⟩
  · rw [List.countP_append, List.countP_singleton]
    rw [List.getElem?_set] at ht
    by_cases same : j = i
    · subst same
      rw [if_pos rfl, if_pos inRange] at ht
      cases ht
      have lower := rule.move j action s.shared u shared u' hmove
      have before := h.taken j u hu
      simp only [PoolEvent.isActionOf, beq_self_eq_true, if_true]
      omega
    · rw [if_neg same] at ht
      have lower := rule.others j action s.shared u shared u' t hmove
      have before := h.taken i t ht
      simp only [PoolEvent.isActionOf, beq_eq_false_iff_ne.mpr same, Bool.false_eq_true, if_false]
      omega
  · rw [List.length_set] at hi
    have other : j ≠ i := by omega
    rw [List.countP_append, List.countP_singleton, h.absent i hi]
    simp [PoolEvent.isActionOf, other]

theorem Ranked.run (rule : pool.Ranked rank bound) {shared : σ}
    (run : pool.machine.run (start shared) events = some s) :
    WithinRank rank bound events s := by
  refine Machine.trace_invariant (J := WithinRank rank bound) ?_ ?_ run
  · intro before s event s' h hstep
    obtain ⟨program, rfl, rfl⟩ | ⟨j, action, u, shared, u', rfl, hu, hmove, rfl⟩ :=
      step_cases hstep
    · exact rule.call h program
    · exact rule.act h hu hmove
  · exact ⟨fun i t ht => by simp [ThreadPool.start] at ht, fun _ _ => rfl⟩

theorem Ranked.actions_le (rule : pool.Ranked rank bound) {shared : σ}
    (run : pool.machine.run (start shared) events = some s)
    {i : Nat} {t : τ} (ht : s.threads[i]? = some t) :
    events.countP (PoolEvent.isActionOf i) ≤ bound :=
  Nat.le_of_add_right_le ((rule.run run).taken i t ht)

end Ranks

end ThreadPool

namespace PoolState

variable {σ : Type u} {τ : Type v} {α : Type w} [AddCommMonoid α] (weight : τ → α)

/-- What the threads weigh together. -/
def total (s : PoolState σ τ) : α := (s.threads.map weight).sum

theorem total_set {s : PoolState σ τ} {i : Nat} {t : τ} (shared : σ) (t' : τ)
    (ht : s.threads[i]? = some t) :
    PoolState.total weight ⟨shared, s.threads.set i t'⟩ + weight t =
      s.total weight + weight t' := by
  obtain ⟨inRange, rfl⟩ := List.getElem?_eq_some_iff.mp ht
  rw [total, total, List.set_eq_take_append_cons_drop, if_pos inRange]
  conv in s.threads.map weight => rw [← List.take_append_drop i s.threads]
  rw [List.drop_eq_getElem_cons inRange]
  simp only [List.map_append, List.map_cons, List.sum_append, List.sum_cons]
  abel

variable {weight} {s : PoolState σ τ} {shared : σ} {t : τ} {i : Nat}

@[simp] theorem total_start : (ThreadPool.start (τ := τ) shared).total weight = 0 := rfl

@[simp] theorem total_shared : PoolState.total weight ⟨shared, s.threads⟩ = s.total weight := rfl

theorem total_append : PoolState.total weight ⟨shared, s.threads ++ [t]⟩ =
    s.total weight + weight t := by
  rw [total, total, List.map_append, List.sum_append, List.map_singleton, List.sum_singleton]

theorem total_add {other : τ → α} :
    s.total (fun t => weight t + other t) = s.total weight + s.total other :=
  List.sum_map_add

theorem total_le_total [PartialOrder α] [IsOrderedAddMonoid α] {other : τ → α}
    (le : ∀ t ∈ s.threads, weight t ≤ other t) : s.total weight ≤ s.total other :=
  List.sum_le_sum le

theorem weight_le_total [PartialOrder α] [IsOrderedAddMonoid α] (nonneg : ∀ t, 0 ≤ weight t)
    (ht : s.threads[i]? = some t) : weight t ≤ s.total weight :=
  List.single_le_sum (List.forall_mem_map.mpr fun t _ => nonneg t) _
    (List.mem_map_of_mem (List.mem_of_getElem? ht))

end PoolState
