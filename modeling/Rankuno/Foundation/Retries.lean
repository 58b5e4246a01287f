import Mathlib.Data.List.Basic

/-!
# Retries

Attempts are numbered from zero. One that fails is followed by another as long as its error is
worth it and there are tries left. The last attempt that is made decides.
-/

universe u v

namespace Retries

variable {ε : Type u} {α : Type v}

/-- Attempts from a number on, with some more tries left after the first. -/
def retry (again : ε → Bool) (attempt : Nat → Except ε α) : Nat → Nat → Except ε α
  | 0, number => attempt number
  | left + 1, number =>
    match attempt number with
    | .ok value => .ok value
    | .error error =>
      if again error then retry again attempt left (number + 1) else .error error

/-- An attempt that fails with an error that is worth another. -/
def FailsAgain (again : ε → Bool) (attempt : Nat → Except ε α) (number : Nat) : Prop :=
  ∃ error, attempt number = .error error ∧ again error = true

/-- The attempts that are made, with so many tries after the first. -/
def Made (failsAgain : Nat → Prop) (tries number : Nat) : Prop :=
  number ≤ tries ∧ ∀ earlier < number, failsAgain earlier

/-- The last attempt that is made. -/
def Last (failsAgain : Nat → Prop) (tries number : Nat) : Prop :=
  Made failsAgain tries number ∧ (number = tries ∨ ¬ failsAgain number)

section Order

variable {failsAgain : Nat → Prop} {tries number number' : Nat}

theorem Last.le_of_made (last : Last failsAgain tries number)
    (made : Made failsAgain tries number') : number' ≤ number := by
  obtain ⟨_, rfl | stops⟩ := last
  · exact made.1
  · by_contra more
    exact stops (made.2 number (Nat.lt_of_not_le more))

theorem Last.unique (last : Last failsAgain tries number)
    (last' : Last failsAgain tries number') : number = number' :=
  Nat.le_antisymm (last'.le_of_made last.1) (last.le_of_made last'.1)

end Order

variable {again : ε → Bool} {attempt : Nat → Except ε α} {tries number left : Nat}

theorem not_failsAgain_of_ok {value : α} (tried : attempt number = .ok value) :
    ¬ FailsAgain again attempt number := by
  rintro ⟨error, failed, _⟩
  rw [tried] at failed
  cases failed

theorem retry_spec (before : ∀ earlier < number, FailsAgain again attempt earlier) :
    ∃ last, Last (FailsAgain again attempt) (number + left) last ∧
      retry again attempt left number = attempt last := by
  induction left generalizing number with
  | zero => exact ⟨number, ⟨⟨Nat.le_refl _, before⟩, .inl rfl⟩, rfl⟩
  | succ left ih =>
    have made : Made (FailsAgain again attempt) (number + (left + 1)) number :=
      ⟨Nat.le_add_right _ _, before⟩
    unfold retry
    cases tried : attempt number with
    | ok value => exact ⟨number, ⟨made, .inr (not_failsAgain_of_ok tried)⟩, tried.symm⟩
    | error error =>
      dsimp only
      split
      · next worth =>
        have before' : ∀ earlier < number + 1, FailsAgain again attempt earlier := by
          intro earlier less
          rcases Nat.lt_succ_iff_lt_or_eq.mp less with less | rfl
          · exact before earlier less
          · exact ⟨error, tried, worth⟩
        obtain ⟨last, ends, same⟩ := ih before'
        rw [Nat.add_right_comm] at ends
        exact ⟨last, ends, same⟩
      · next worth =>
        refine ⟨number, ⟨made, .inr ?_⟩, tried.symm⟩
        rintro ⟨error', failed, worth'⟩
        rw [tried] at failed
        cases failed
        exact worth worth'

theorem exists_last (again : ε → Bool) (attempt : Nat → Except ε α) (tries : Nat) :
    ∃ last, Last (FailsAgain again attempt) tries last ∧
      retry again attempt tries 0 = attempt last := by
  have before : ∀ earlier < 0, FailsAgain again attempt earlier :=
    fun _ less => absurd less (Nat.not_lt_zero _)
  obtain ⟨last, ends, same⟩ := retry_spec before
  rw [Nat.zero_add] at ends
  exact ⟨last, ends, same⟩

theorem retry_of_last (last : Last (FailsAgain again attempt) tries number) :
    retry again attempt tries 0 = attempt number := by
  obtain ⟨number', last', same⟩ := exists_last again attempt tries
  rw [same, last.unique last']

end Retries
