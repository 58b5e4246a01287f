import Mathlib.Data.List.Basic
import Rankuno.Foundation.Machine

/-!
# Threads that share a state under one lock

A program is a list of sections, each a list of instructions that run while the
lock is held; between two sections any other thread may run. An instruction can
raise, a fault can stop a thread between any two instructions, and both release
the lock. A crash drops every thread and keeps the shared state.

The rule is rely and guarantee for this one lock. Every instruction moves the
shared state along a preorder. A thread outside its sections is described by
`Later`, which that preorder keeps, and a thread inside one by `Inside`, which
nobody else can disturb.
-/

universe u v w x

/-- What the instructions do; `none` is an exception. A program starts with the
variables `vars` and runs its sections in order. -/
structure LockedProgram (σ : Type u) (ν : Type v) (ι : Type w) (π : Type x) where
  exec : ι → σ → ν → Option (σ × ν)
  vars : ν
  sections : π → List (List ι)

/-- A thread's variables, what is left of the section it is in, and the
sections after that. -/
structure LockedThread (ν : Type v) (ι : Type w) where
  vars : ν
  current : Option (List ι)
  later : List (List ι)

/-- The shared state, the thread that holds the lock, and the threads by number. -/
structure LockedState (σ : Type u) (ν : Type v) (ι : Type w) where
  shared : σ
  holder : Option Nat
  threads : List (LockedThread ν ι)

inductive LockedEvent (π : Type x) where
  | call (program : π)
  | enter (thread : Nat)
  | advance (thread : Nat)
  | leave (thread : Nat)
  | fault (thread : Nat)
  | crash

namespace LockedState

variable {σ : Type u} {ν : Type v} {ι : Type w}

def start (s : σ) : LockedState σ ν ι := ⟨s, none, []⟩

/-- Stop a thread for good, and release the lock if it holds it. -/
def stop (s : LockedState σ ν ι) (i : Nat) (t : LockedThread ν ι) : LockedState σ ν ι where
  shared := s.shared
  holder := if s.holder = some i then none else s.holder
  threads := s.threads.set i { t with current := none, later := [] }

end LockedState

namespace LockedProgram

variable {σ : Type u} {ν : Type v} {ι : Type w} {π : Type x} (P : LockedProgram σ ν ι π)

/-- Every interleaving of the threads at their instructions. -/
def machine : Machine (LockedState σ ν ι) (LockedEvent π) where
  step s
    | .call program =>
      some { s with threads := s.threads ++ [⟨P.vars, none, P.sections program⟩] }
    | .enter i =>
      s.threads[i]?.bind fun t =>
        match s.holder, t.current, t.later with
        | none, none, sec :: later =>
          some ⟨s.shared, some i, s.threads.set i ⟨t.vars, some sec, later⟩⟩
        | _, _, _ => none
    | .advance i =>
      s.threads[i]?.bind fun t =>
        match t.current with
        | some (instr :: rest) =>
          match P.exec instr s.shared t.vars with
          | some (shared, vars) =>
            some ⟨shared, s.holder, s.threads.set i ⟨vars, some rest, t.later⟩⟩
          | none => some (s.stop i t)
        | _ => none
    | .leave i =>
      s.threads[i]?.bind fun t =>
        match t.current with
        | some [] => some ⟨s.shared, none, s.threads.set i ⟨t.vars, none, t.later⟩⟩
        | _ => none
    | .fault i => s.threads[i]?.map fun t => s.stop i t
    | .crash => some (.start s.shared)

/-- An invariant of the shared state, and how the shared state may move. -/
structure Rule (σ : Type u) where
  inv : σ → Prop
  rely : σ → σ → Prop
  refl : ∀ s, rely s s
  trans : ∀ {s t u}, rely s t → rely t u → rely s u

variable {P} {R : Rule σ}

/-- From this point of a section, each instruction keeps the invariant and moves
the shared state as allowed, and `Q` holds at the section's end. -/
def Inside (P : LockedProgram σ ν ι π) (R : Rule σ) (Q : σ → ν → Prop) : List ι → σ → ν → Prop
  | [], s, vars => Q s vars
  | instr :: rest, s, vars =>
    ∀ s' vars', P.exec instr s vars = some (s', vars') →
      R.inv s' ∧ R.rely s s' ∧ Inside P R Q rest s' vars'

/-- Outside a section: whatever the other threads do meanwhile, the sections
that follow are safe from their first instruction on. -/
def Later (P : LockedProgram σ ν ι π) (R : Rule σ) : List (List ι) → σ → ν → Prop
  | [], _, _ => True
  | sec :: later, s, vars =>
    ∀ s', R.rely s s' → R.inv s' → Inside P R (Later P R later) sec s' vars

/-- The obligation of the rule: every program is safe from any allowed state. -/
def Sound (P : LockedProgram σ ν ι π) (R : Rule σ) : Prop :=
  ∀ program s, R.inv s → Later P R (P.sections program) s P.vars

/-- What the rule knows of one thread. -/
structure ThreadSafe (P : LockedProgram σ ν ι π) (R : Rule σ) (s : LockedState σ ν ι)
    (i : Nat) (t : LockedThread ν ι) : Prop where
  inside : ∀ rest, t.current = some rest →
    s.holder = some i ∧ Inside P R (Later P R t.later) rest s.shared t.vars
  outside : t.current = none → Later P R t.later s.shared t.vars

/-- The invariant of the whole system. -/
structure Safe (P : LockedProgram σ ν ι π) (R : Rule σ) (s : LockedState σ ν ι) : Prop where
  inv : R.inv s.shared
  threads : ∀ i t, s.threads[i]? = some t → ThreadSafe P R s i t

variable {s s' : LockedState σ ν ι} {i : Nat} {event : LockedEvent π}

theorem Later.of_rely {later : List (List ι)} {s s' : σ} {vars : ν}
    (h : Later P R later s vars) (hs : R.rely s s') : Later P R later s' vars := by
  cases later with
  | nil => trivial
  | cons sec later => exact fun s'' hs'' => h s'' (R.trans hs hs'')

variable {shared : σ}

theorem Safe.start (inv : R.inv shared) :
    Safe P R (.start shared : LockedState σ ν ι) :=
  ⟨inv, fun j u hu => by simp [LockedState.start] at hu⟩

theorem Safe.set (h : Safe P R s) {holder : Option Nat}
    {t' : LockedThread ν ι} (inv : R.inv shared) (moved : R.rely s.shared shared)
    (undisturbed : ∀ j, j ≠ i → s.holder = some j → holder = some j ∧ shared = s.shared)
    (safe : ThreadSafe P R ⟨shared, holder, s.threads.set i t'⟩ i t') :
    Safe P R ⟨shared, holder, s.threads.set i t'⟩ := by
  refine ⟨inv, fun j u hu => ?_⟩
  rw [List.getElem?_set] at hu
  by_cases same : i = j
  · subst same
    simp only [if_true] at hu
    split at hu
    · cases hu
      exact safe
    · cases hu
  · rw [if_neg same] at hu
    obtain ⟨inside, outside⟩ := h.threads j u hu
    refine ⟨fun rest hrest => ?_, fun hnone => (outside hnone).of_rely moved⟩
    obtain ⟨hholder, hinside⟩ := inside rest hrest
    obtain ⟨kept, rfl⟩ := undisturbed j (Ne.symm same) hholder
    exact ⟨kept, hinside⟩

theorem Safe.stop (h : Safe P R s) (i : Nat) (t : LockedThread ν ι) : Safe P R (s.stop i t) := by
  refine h.set h.inv (R.refl s.shared) ?_ ?_
  · intro j hj hholder
    have other : s.holder ≠ some i := by
      rw [hholder]
      exact fun same => hj (Option.some.inj same)
    exact ⟨by rw [if_neg other, hholder], rfl⟩
  · exact ⟨fun _ hrest => (nomatch hrest), fun _ => trivial⟩

theorem Safe.call (sound : Sound P R) (h : Safe P R s) (program : π) :
    Safe P R { s with threads := s.threads ++ [⟨P.vars, none, P.sections program⟩] } := by
  refine ⟨h.inv, fun j u hu => ?_⟩
  rw [List.getElem?_append] at hu
  split at hu
  · obtain ⟨inside, outside⟩ := h.threads j u hu
    exact ⟨inside, outside⟩
  · next beyond =>
    rw [List.getElem?_singleton] at hu
    split at hu
    · cases hu
      exact ⟨fun _ hrest => (nomatch hrest), fun _ => sound program s.shared h.inv⟩
    · cases hu

theorem Safe.step (sound : Sound P R) (h : Safe P R s) (hstep : P.machine.step s event = some s') :
    Safe P R s' ∧ R.rely s.shared s'.shared := by
  cases event with
  | call program =>
    cases hstep
    exact ⟨h.call sound program, R.refl s.shared⟩
  | enter i =>
    obtain ⟨t, ht, hstep⟩ := Option.bind_eq_some_iff.mp hstep
    split at hstep
    · next sec later hfree hout hlater =>
      cases hstep
      refine ⟨h.set h.inv (R.refl s.shared) ?_ ?_, R.refl s.shared⟩
      · intro j _ hheld
        rw [hfree] at hheld
        cases hheld
      · have outside := (h.threads i t ht).outside hout
        rw [hlater] at outside
        refine ⟨fun rest hrest => ?_, fun hnone => nomatch hnone⟩
        cases hrest
        exact ⟨rfl, outside s.shared (R.refl s.shared) h.inv⟩
    · cases hstep
  | advance i =>
    obtain ⟨t, ht, hstep⟩ := Option.bind_eq_some_iff.mp hstep
    split at hstep
    · next instr rest hcurrent =>
      obtain ⟨hholder, inside⟩ := (h.threads i t ht).inside _ hcurrent
      split at hstep
      · next shared vars hexec =>
        cases hstep
        obtain ⟨inv, moved, inside⟩ := inside shared vars hexec
        refine ⟨h.set inv moved ?_ ?_, moved⟩
        · intro j hj hheld
          rw [hholder] at hheld
          exact absurd (Option.some.inj hheld).symm hj
        · refine ⟨fun rest' hrest => ?_, fun hnone => nomatch hnone⟩
          cases hrest
          exact ⟨hholder, inside⟩
      · cases hstep
        exact ⟨h.stop i t, R.refl s.shared⟩
    · cases hstep
  | leave i =>
    obtain ⟨t, ht, hstep⟩ := Option.bind_eq_some_iff.mp hstep
    split at hstep
    · next hcurrent =>
      obtain ⟨hholder, inside⟩ := (h.threads i t ht).inside _ hcurrent
      cases hstep
      refine ⟨h.set h.inv (R.refl s.shared) ?_ ?_, R.refl s.shared⟩
      · intro j hj hheld
        rw [hholder] at hheld
        exact absurd (Option.some.inj hheld).symm hj
      · exact ⟨fun _ hrest => (nomatch hrest), fun _ => inside⟩
    · cases hstep
  | fault i =>
    obtain ⟨t, -, rfl⟩ := Option.map_eq_some_iff.mp hstep
    exact ⟨h.stop i t, R.refl s.shared⟩
  | crash =>
    cases hstep
    exact ⟨.start h.inv, R.refl s.shared⟩

theorem always_inv (sound : Sound P R) (inv : R.inv shared)
    (events : List (LockedEvent π)) :
    P.machine.Always (fun s => R.inv s.shared) (.start shared) events :=
  Machine.always_of_invariant (I := Safe P R) (fun _ _ _ h hstep => (h.step sound hstep).1)
    (.start inv) fun _ h => h.inv

theorem relates_rely (sound : Sound P R) (inv : R.inv shared)
    (events : List (LockedEvent π)) :
    P.machine.Relates (fun s s' => R.rely s.shared s'.shared) (.start shared) events :=
  Machine.relates_of_invariant (I := Safe P R) (fun s => R.refl s.shared)
    (fun {_ _ _} => R.trans) (fun _ _ _ h hstep => (h.step sound hstep).1)
    (fun _ _ _ h hstep => (h.step sound hstep).2) (.start inv)

/-- A section from its first instruction to its last. -/
def runSection (P : LockedProgram σ ν ι π) : List ι → σ → ν → Option (σ × ν)
  | [], s, vars => some (s, vars)
  | instr :: rest, s, vars =>
    (P.exec instr s vars).bind fun moved => P.runSection rest moved.1 moved.2

end LockedProgram
