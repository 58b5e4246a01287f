import Mathlib.Data.List.MinMax
import Mathlib.Data.List.Perm.Basic

/-!
# The first of the highest rank

`List.argmax` takes the first of the elements that nothing in the list outranks. What the
choice says, its verdict, depends on the order of the list as soon as two elements share
the highest rank and say different things, and on nothing else.
-/

universe u v w

namespace Precedence

variable {α : Type u} {β : Type v} {γ : Type w} [LinearOrder β]

/-- It is listed, and nothing listed outranks it. -/
structure Heads (rank : α → β) (l : List α) (a : α) : Prop where
  mem : a ∈ l
  highest : ∀ b ∈ l, rank b ≤ rank a

/-- Those of the highest rank all have one verdict. -/
def Agree (rank : α → β) (verdict : α → γ) (l : List α) : Prop :=
  ∀ a b, Heads rank l a → Heads rank l b → verdict a = verdict b

variable {rank : α → β} {verdict : α → γ} {p : α → Bool} {l l' : List α} {a : α}

theorem heads_of_argmax (h : l.argmax rank = some a) : Heads rank l a :=
  ⟨List.argmax_mem h, fun _ mem => List.le_of_mem_argmax mem h⟩

variable (rank) in
theorem argmax_isSome (h : l ≠ []) : ∃ a, l.argmax rank = some a := by
  cases taken : l.argmax rank with
  | none => exact absurd (List.argmax_eq_none.mp taken) h
  | some a => exact ⟨a, rfl⟩

theorem Heads.perm (h : Heads rank l a) (moved : l.Perm l') : Heads rank l' a :=
  ⟨moved.mem_iff.mp h.mem, fun b mem => h.highest b (moved.mem_iff.mpr mem)⟩

theorem argmax_cons (highest : ∀ b ∈ l, rank b ≤ rank a) : (a :: l).argmax rank = some a := by
  rw [List.argmax_cons]
  cases rest : l.argmax rank with
  | none => rfl
  | some b => exact if_neg (not_lt.mpr (highest b (List.argmax_mem rest)))

theorem exists_perm_argmax (h : Heads rank (l.filter p) a) :
    ∃ l', l.Perm l' ∧ (l'.filter p).argmax rank = some a := by
  obtain ⟨listed, passes⟩ := List.mem_filter.mp h.mem
  obtain ⟨before, after, rfl⟩ := List.append_of_mem listed
  have moved : (before ++ a :: after).Perm (a :: (before ++ after)) := List.perm_middle
  refine ⟨_, moved, ?_⟩
  rw [List.filter_cons_of_pos passes]
  refine argmax_cons fun b mem => ?_
  refine h.highest b ((moved.filter p).mem_iff.mpr ?_)
  rw [List.filter_cons_of_pos passes]
  exact List.mem_cons_of_mem a mem

/-- **The order decides no verdict exactly where those of the highest rank agree.** -/
theorem forall_perm_iff : (∀ l', l.Perm l' → ((l'.filter p).argmax rank).map verdict =
      ((l.filter p).argmax rank).map verdict) ↔ Agree rank verdict (l.filter p) := by
  constructor
  · intro same a b ha hb
    obtain ⟨first, moved, taken⟩ := exists_perm_argmax ha
    obtain ⟨second, moved', taken'⟩ := exists_perm_argmax hb
    have verdicts := (same first moved).trans (same second moved').symm
    rw [taken, taken'] at verdicts
    exact Option.some.inj verdicts
  · intro agree l' moved
    have filtered := moved.filter p
    cases taken : (l.filter p).argmax rank with
    | none =>
      rw [List.argmax_eq_none] at taken
      rw [taken] at filtered
      rw [filtered.symm.eq_nil]
      rfl
    | some a =>
      have head := heads_of_argmax taken
      have listed : l'.filter p ≠ [] := List.ne_nil_of_mem (filtered.mem_iff.mp head.mem)
      obtain ⟨b, taken'⟩ := argmax_isSome rank listed
      rw [taken']
      exact congrArg some (agree b a ((heads_of_argmax taken').perm filtered.symm) head)

end Precedence
