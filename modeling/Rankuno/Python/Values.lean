/-!
# Python values the sources share

Times, the built-in `ValueError`, the exception a route answers with, what an
`or` between an optional text and a default yields, and the rule for calls in
sequence that may each raise.
-/

namespace Rankuno

/-- A point in time, in microseconds. -/
abbrev Timestamp := Int

structure ValueError where
  message : String
  deriving DecidableEq

/-- `HTTPException`. The one header a route sets is `Retry-After`. -/
structure HTTPException where
  status : Nat
  detail : String
  retryAfter : Option Int := none
  deriving DecidableEq

/-- `text or default`: an empty text is falsy. -/
def orDefault (text default : String) : String := if text = "" then default else text

theorem bind_eq_ok {ε α β : Type} {x : Except ε α} {f : α → Except ε β} {b : β} :
    x >>= f = .ok b ↔ ∃ a, x = .ok a ∧ f a = .ok b := by
  cases x with
  | error e =>
    constructor
    · intro h
      cases h
    · rintro ⟨a, h, -⟩
      cases h
  | ok a =>
    constructor
    · intro h
      exact ⟨a, rfl, h⟩
    · rintro ⟨a', h, hb⟩
      cases h
      exact hb

end Rankuno
