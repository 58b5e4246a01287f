import Rankuno.Foundation.ThreadPool

/-!
# Calls in some sequential order

An object whose calls take several steps, and a specification that has each call happen at
once. A run is linearizable when the calls that have returned can be put in an order in
which the specification gives each of them its result and ends with what the object holds,
and in which a call that returned before another was made comes first.

The rule is that of a last step: the steps of a call before its last leave what the object
holds, and the last does to it what the specification says. It may be used for the runs
that meet a condition on the state a step is taken from.
-/

universe u v w x y z

/-- What a call does on its own, and what it returns. -/
structure SequentialSpec (σ : Type u) (Op : Type v) (Res : Type w) where
  apply : Op → σ → σ × Res

/-- A call that is under way has a state of its own. A step of it makes a choice. -/
structure ConcurrentObject (κ : Type u) (τ : Type v) (Op : Type w) (Res : Type x)
    (ι : Type y) where
  start : Op → τ
  step : ι → Op → κ → τ → κ × (τ ⊕ Res)

structure ObjectCall (τ : Type u) (Op : Type v) (Res : Type w) where
  op : Op
  state : τ ⊕ Res

namespace SequentialSpec

variable {σ : Type u} {τ : Type v} {Op : Type w} {Res : Type x} (spec : SequentialSpec σ Op Res)

/-- The calls, in this order, take one state to the other and return what they did. -/
def Explains (calls : List (ObjectCall τ Op Res)) : σ → List Nat → σ → Prop
  | a, [], b => a = b
  | a, i :: order, b => ∃ call, calls[i]? = some call ∧
      call.state = .inr (spec.apply call.op a).2 ∧ Explains calls (spec.apply call.op a).1 order b

variable {spec} {calls calls' : List (ObjectCall τ Op Res)} {a b : σ} {order : List Nat} {i : Nat}

theorem Explains.holds {P : σ → Prop} (keep : ∀ call ∈ calls, ∀ s, P s → P (spec.apply call.op s).1)
    (explains : spec.Explains calls a order b) (start : P a) : P b := by
  induction order generalizing a with
  | nil => rwa [← explains]
  | cons i order ih =>
    obtain ⟨call, known, -, rest⟩ := explains
    exact ih rest (keep call (List.mem_of_getElem? known) a start)

theorem Explains.holds_of_mem {P : σ → Prop}
    (keep : ∀ call ∈ calls, ∀ s, P s → P (spec.apply call.op s).1) {call : ObjectCall τ Op Res}
    (known : calls[i]? = some call) (makes : ∀ s, P (spec.apply call.op s).1)
    (explains : spec.Explains calls a order b) (ordered : i ∈ order) : P b := by
  induction order generalizing a with
  | nil => cases ordered
  | cons j order ih =>
    obtain ⟨next, knownNext, -, rest⟩ := explains
    rcases List.mem_cons.mp ordered with rfl | later
    · obtain rfl := Option.some.inj (known.symm.trans knownNext)
      exact rest.holds keep (makes a)
    · exact ih rest later

theorem Explains.returned (explains : spec.Explains calls a order b) (ordered : i ∈ order) :
    ∃ call res, calls[i]? = some call ∧ call.state = .inr res := by
  induction order generalizing a with
  | nil => cases ordered
  | cons j order ih =>
    obtain ⟨call, known, returned, rest⟩ := explains
    rcases List.mem_cons.mp ordered with rfl | later
    · exact ⟨call, _, known, returned⟩
    · exact ih rest later

theorem Explains.mono (same : ∀ i ∈ order, ∀ call, calls[i]? = some call → calls'[i]? = some call)
    (explains : spec.Explains calls a order b) : spec.Explains calls' a order b := by
  induction order generalizing a with
  | nil => exact explains
  | cons i order ih =>
    obtain ⟨call, known, returned, rest⟩ := explains
    exact ⟨call, same i List.mem_cons_self call known, returned,
      ih (fun j ordered => same j (List.mem_cons_of_mem _ ordered)) rest⟩

theorem Explains.append {call : ObjectCall τ Op Res} (explains : spec.Explains calls a order b)
    (known : calls[i]? = some call) (returned : call.state = .inr (spec.apply call.op b).2) :
    spec.Explains calls a (order ++ [i]) (spec.apply call.op b).1 := by
  induction order generalizing a with
  | nil =>
    obtain rfl := explains
    exact ⟨call, known, returned, rfl⟩
  | cons j order ih =>
    obtain ⟨first, knownFirst, returnedFirst, rest⟩ := explains
    exact ⟨first, knownFirst, returnedFirst, ih rest⟩

end SequentialSpec

namespace ConcurrentObject

variable {κ : Type u} {τ : Type v} {Op : Type w} {Res : Type x} {ι : Type y} {σ : Type z}
  (object : ConcurrentObject κ τ Op Res ι)

/-- Any number of calls, at their steps. -/
def pool : ThreadPool κ (ObjectCall τ Op Res) Op ι where
  spawn op := ⟨op, .inl (object.start op)⟩
  move _ choice shared call :=
    match call.state with
    | .inl state =>
      let moved := object.step choice call.op shared state
      some (moved.1, { call with state := moved.2 })
    | .inr _ => none

/-- The calls that have returned, in an order that explains them. -/
structure Linearization (spec : SequentialSpec σ Op Res) (first : σ) (shared : κ)
    (events : List (PoolEvent Op ι)) (s : PoolState κ (ObjectCall τ Op Res)) (order : List Nat)
    (last : σ) : Prop where
  nodup : order.Nodup
  complete : ∀ i call res, s.threads[i]? = some call → call.state = .inr res → i ∈ order
  explains : spec.Explains s.threads first order last
  realTime : ∀ pre post before, events = pre ++ post →
    object.pool.machine.run (ThreadPool.start shared) pre = some before →
    ∀ i call res, before.threads[i]? = some call → call.state = .inr res → i ∈ order ∧
      ∀ j, before.threads.length ≤ j → j ∈ order → order.idxOf i < order.idxOf j

/-- Some order explains the run, and what the object holds in the end. -/
def Linearizable (spec : SequentialSpec σ Op Res) (holds : κ → σ → Prop) (first : σ) (shared : κ)
    (events : List (PoolEvent Op ι)) : Prop :=
  ∀ s, object.pool.machine.run (ThreadPool.start shared) events = some s →
    ∃ order last, Linearization object spec first shared events s order last ∧ holds s.shared last

/-- A condition on the state that a call under way takes a step from. -/
def Guarded (G : κ → Op → τ → Prop) (s : PoolState κ (ObjectCall τ Op Res)) : PoolEvent Op ι → Prop
  | .call _ => True
  | .act i _ => ∀ call ∈ s.threads[i]?, ∀ state ∈ call.state.getLeft?, G s.shared call.op state

instance {G : κ → Op → τ → Prop} [∀ shared op state, Decidable (G shared op state)]
    {s : PoolState κ (ObjectCall τ Op Res)} : DecidablePred (Guarded G s : PoolEvent Op ι → Prop)
  | .call _ => isTrue trivial
  | .act i _ => inferInstanceAs (Decidable (∀ call ∈ s.threads[i]?, _))

/-- The steps before the last of a call leave what the object holds, and the last does what
the specification says. -/
structure Atomic (spec : SequentialSpec σ Op Res) (holds : κ → σ → Prop)
    (G : κ → Op → τ → Prop) : Prop where
  goesOn : ∀ choice op shared state a shared' state', holds shared a → G shared op state →
    object.step choice op shared state = (shared', .inl state') → holds shared' a
  returns : ∀ choice op shared state a shared' res, holds shared a → G shared op state →
    object.step choice op shared state = (shared', .inr res) →
      res = (spec.apply op a).2 ∧ holds shared' (spec.apply op a).1

variable {object} {spec : SequentialSpec σ Op Res} {holds : κ → σ → Prop}
  {G : κ → Op → τ → Prop} {first last : σ} {shared : κ} {events : List (PoolEvent Op ι)}
  {s s' : PoolState κ (ObjectCall τ Op Res)} {event : PoolEvent Op ι} {order : List Nat}

theorem move_cases {i : Nat} {choice : ι} {call call' : ObjectCall τ Op Res} {shared' : κ}
    (moved : object.pool.move i choice shared call = some (shared', call')) :
    ∃ state, call.state = .inl state ∧ call'.op = call.op ∧
      object.step choice call.op shared state = (shared', call'.state) := by
  change (match call.state with
    | .inl state => some ((object.step choice call.op shared state).1,
        { call with state := (object.step choice call.op shared state).2 })
    | .inr _ => none) = _ at moved
  split at moved
  · next state underWay =>
    cases moved
    exact ⟨state, underWay, rfl, rfl⟩
  · cases moved

theorem eq_or_of_concat_eq_append {α : Type*} {as pre post : List α} {a : α}
    (split : as ++ [a] = pre ++ post) : pre = as ++ [a] ∨ ∃ post', as = pre ++ post' := by
  rcases List.eq_nil_or_concat post with rfl | ⟨post, last, rfl⟩
  · exact .inl (by rw [split, List.append_nil])
  · rw [List.concat_eq_append, ← List.append_assoc] at split
    exact .inr ⟨post, (List.append_inj' split rfl).1⟩

theorem eq_or_known_of_append {α : Type*} {as : List α} {a b : α} {i : Nat}
    (known : (as ++ [a])[i]? = some b) : as[i]? = some b ∨ b = a := by
  rcases Nat.lt_or_ge i as.length with inRange | beyond
  · rw [List.getElem?_append_left inRange] at known
    exact .inl known
  · rw [List.getElem?_append_right beyond] at known
    exact .inr (List.mem_singleton.mp (List.mem_of_getElem? known))

theorem Linearization.lt_length (lin : Linearization object spec first shared events s order last)
    {i : Nat} (ordered : i ∈ order) : i < s.threads.length := by
  obtain ⟨call, -, known, -⟩ := lin.explains.returned ordered
  exact (List.getElem?_eq_some_iff.mp known).1

theorem Linearization.same (lin : Linearization object spec first shared events s order last)
    (run : object.pool.machine.run (ThreadPool.start shared) (events ++ [event]) = some s')
    (kept : ∀ i ∈ order, ∀ call, s.threads[i]? = some call → s'.threads[i]? = some call)
    (more : s.threads.length ≤ s'.threads.length)
    (returned : ∀ i call res, s'.threads[i]? = some call → call.state = .inr res → i ∈ order) :
    Linearization object spec first shared (events ++ [event]) s' order last where
  nodup := lin.nodup
  complete := returned
  explains := lin.explains.mono kept
  realTime pre post before split ran i call res known done := by
    rcases eq_or_of_concat_eq_append split with rfl | ⟨post', rfl⟩
    · obtain rfl := Option.some.inj (run.symm.trans ran)
      refine ⟨returned i call res known done, fun j later ordered => ?_⟩
      exact absurd (Nat.lt_of_lt_of_le (lin.lt_length ordered) more) (Nat.not_lt.mpr later)
    · exact lin.realTime pre post' before rfl ran i call res known done

theorem Linearization.snoc (lin : Linearization object spec first shared events s order last)
    (run : object.pool.machine.run (ThreadPool.start shared) (events ++ [event]) = some s')
    {i : Nat} {before call : ObjectCall τ Op Res} {state : τ}
    (underWay : s.threads[i]? = some before) (notDone : before.state = .inl state)
    (length : s'.threads.length = s.threads.length)
    (others : ∀ j, j ≠ i → s'.threads[j]? = s.threads[j]?) (known : s'.threads[i]? = some call)
    (result : call.state = .inr (spec.apply call.op last).2) :
    Linearization object spec first shared (events ++ [event]) s' (order ++ [i])
      (spec.apply call.op last).1 := by
  have inRange : i < s.threads.length := (List.getElem?_eq_some_iff.mp underWay).1
  have fresh : i ∉ order := by
    intro ordered
    obtain ⟨other, res, known', done⟩ := lin.explains.returned ordered
    obtain rfl := Option.some.inj (underWay.symm.trans known')
    cases notDone.symm.trans done
  have kept : ∀ j ∈ order, ∀ other, s.threads[j]? = some other → s'.threads[j]? = some other := by
    intro j ordered other known'
    rwa [others j fun same => fresh (same ▸ ordered)]
  have complete : ∀ j other res, s'.threads[j]? = some other → other.state = .inr res →
      j ∈ order ++ [i] := by
    intro j other res known' done
    by_cases same : j = i
    · exact List.mem_append_right _ (List.mem_singleton.mpr same)
    · rw [others j same] at known'
      exact List.mem_append_left _ (lin.complete j other res known' done)
  refine ⟨?_, complete, (lin.explains.mono kept).append known result, ?_⟩
  · exact List.nodup_append.mpr ⟨lin.nodup, List.pairwise_singleton _ _,
      fun j ordered k last same => fresh (List.mem_singleton.mp last ▸ same ▸ ordered)⟩
  · intro pre post u split ran j other res known' done
    rcases eq_or_of_concat_eq_append split with rfl | ⟨post', rfl⟩
    · obtain rfl := Option.some.inj (run.symm.trans ran)
      refine ⟨complete j other res known' done, fun k later ordered => ?_⟩
      rw [length] at later
      rcases List.mem_append.mp ordered with old | new
      · exact absurd (lin.lt_length old) (Nat.not_lt.mpr later)
      · rw [List.mem_singleton.mp new] at later
        exact absurd inRange (Nat.not_lt.mpr later)
    · obtain ⟨old, earlier⟩ := lin.realTime pre post' u rfl ran j other res known' done
      refine ⟨List.mem_append_left _ old, fun k later ordered => ?_⟩
      rw [List.idxOf_append_of_mem old]
      rcases List.mem_append.mp ordered with ordered | new
      · rw [List.idxOf_append_of_mem ordered]
        exact earlier k later ordered
      · rw [List.mem_singleton.mp new, List.idxOf_append_of_notMem fresh]
        exact Nat.lt_add_right _ (List.idxOf_lt_length_of_mem old)

theorem Linearization.start :
    Linearization object spec first shared [] (ThreadPool.start shared) [] first where
  nodup := List.nodup_nil
  complete i call res known := by cases known
  explains := rfl
  realTime pre post before split ran i call res known := by
    obtain ⟨rfl, rfl⟩ := List.append_eq_nil_iff.mp split.symm
    cases ran
    cases known

theorem Atomic.linearizable (atomic : Atomic object spec holds G) (start : holds shared first)
    (meets : object.pool.machine.Meets (Guarded G) (ThreadPool.start shared) events) :
    Linearizable object spec holds first shared events := by
  intro s run
  -- The order grows by the call that returns in a step, if one does.
  suffices full : object.pool.machine.run (ThreadPool.start shared) events = some s ∧
      ∃ order last, Linearization object spec first shared events s order last ∧
        holds s.shared last from full.2
  refine Machine.trace_invariant_of_meets (J := fun events s =>
    object.pool.machine.run (ThreadPool.start shared) events = some s ∧ ∃ order last,
      Linearization object spec first shared events s order last ∧ holds s.shared last)
    ?_ ⟨rfl, [], first, .start, start⟩ meets run
  rintro events s event s' ⟨ran, order, last, lin, held⟩ guarded hstep
  have run : object.pool.machine.run (ThreadPool.start shared) (events ++ [event]) = some s' :=
    Machine.run_append_eq_some.mpr ⟨s, ran, by rwa [Machine.run_singleton]⟩
  refine ⟨run, ?_⟩
  obtain ⟨op, rfl, rfl⟩ | ⟨i, choice, call, shared', call', rfl, known, moved, rfl⟩ :=
    ThreadPool.step_cases hstep
  · refine ⟨order, last, lin.same run (fun i ordered call known => ?_) ?_
      (fun i call res known done => ?_), held⟩
    · rwa [List.getElem?_append_left (lin.lt_length ordered)]
    · rw [List.length_append]
      exact Nat.le_add_right _ _
    · rcases eq_or_known_of_append known with known | rfl
      · exact lin.complete i call res known done
      · cases done
  · obtain ⟨state, underWay, same, took⟩ := move_cases moved
    have guard := guarded call known state (Sum.getLeft?_eq_some_iff.mpr underWay)
    have inRange : i < s.threads.length := (List.getElem?_eq_some_iff.mp known).1
    have now : (s.threads.set i call')[i]? = some call' := List.getElem?_set_self inRange
    have others : ∀ j, j ≠ i → (s.threads.set i call')[j]? = s.threads[j]? := fun j other =>
      List.getElem?_set_ne (Ne.symm other)
    cases result : call'.state with
    | inl state' =>
      rw [result] at took
      refine ⟨order, last, lin.same run (fun j ordered other known' => ?_) ?_
        (fun j other res known' done => ?_),
        atomic.goesOn choice call.op s.shared state last shared' state' held guard took⟩
      · obtain ⟨before, res, known'', done⟩ := lin.explains.returned ordered
        rwa [others j]
        rintro rfl
        obtain rfl := Option.some.inj (known.symm.trans known'')
        cases underWay.symm.trans done
      · exact le_of_eq List.length_set.symm
      · have apart : j ≠ i := by
          rintro rfl
          obtain rfl := Option.some.inj (now.symm.trans known')
          cases result.symm.trans done
        exact lin.complete j other res ((others j apart).symm.trans known') done
    | inr res =>
      rw [result] at took
      obtain ⟨rfl, held'⟩ :=
        atomic.returns choice call.op s.shared state last shared' res held guard took
      rw [← same] at result held'
      have after := lin.snoc run known underWay List.length_set others now result
      exact ⟨order ++ [i], _, after, held'⟩

end ConcurrentObject
