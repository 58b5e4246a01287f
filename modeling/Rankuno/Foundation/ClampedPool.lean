import Mathlib.Algebra.Order.Group.Defs
import Mathlib.Algebra.Order.Sub.Defs
import Mathlib.Tactic.Abel
import Mathlib.Algebra.Order.Group.Unbundled.Basic

/-!
# Pools with clamped returns

A `ClampedPool` records how much was ever paid in and how much was ever paid
back, and carries the proof that no more was paid back than paid in. Paying
back more than is outstanding pays back what is outstanding, so the outstanding
amount never becomes negative and both totals only grow.
-/

universe u

/-- Two running totals, the second bounded by the first. -/
structure ClampedPool (α : Type u) [AddCommGroup α] [LinearOrder α]
    [IsOrderedAddMonoid α] where
  paidIn : α
  paidBack : α
  paidBack_nonneg : 0 ≤ paidBack
  paidBack_le : paidBack ≤ paidIn

namespace ClampedPool

variable {α : Type u} [AddCommGroup α] [LinearOrder α] [IsOrderedAddMonoid α]
variable {p q : ClampedPool α} {n : α}

/-- What was paid in and has not been paid back. -/
def outstanding (p : ClampedPool α) : α := p.paidIn - p.paidBack

theorem outstanding_nonneg (p : ClampedPool α) : 0 ≤ p.outstanding :=
  sub_nonneg.mpr p.paidBack_le

def empty : ClampedPool α where
  paidIn := 0
  paidBack := 0
  paidBack_nonneg := le_refl 0
  paidBack_le := le_refl 0

def payIn (p : ClampedPool α) (n : α) (hn : 0 ≤ n) : ClampedPool α where
  paidIn := p.paidIn + n
  paidBack := p.paidBack
  paidBack_nonneg := p.paidBack_nonneg
  paidBack_le := le_add_of_le_of_nonneg p.paidBack_le hn

/-- Pay back `n`, or whatever is outstanding when that is less. -/
def payBack (p : ClampedPool α) (n : α) (hn : 0 ≤ n) : ClampedPool α where
  paidIn := p.paidIn
  paidBack := p.paidBack + min n p.outstanding
  paidBack_nonneg :=
    add_nonneg p.paidBack_nonneg (le_min hn p.outstanding_nonneg)
  paidBack_le := by
    calc p.paidBack + min n p.outstanding
        ≤ p.paidBack + p.outstanding := by gcongr; exact min_le_right n p.outstanding
      _ = p.paidIn := by rw [outstanding]; abel

@[simp] theorem outstanding_empty : (empty : ClampedPool α).outstanding = 0 :=
  sub_self 0

@[simp] theorem outstanding_payIn (hn : 0 ≤ n) :
    (p.payIn n hn).outstanding = p.outstanding + n := by
  simp only [outstanding, payIn]
  abel

@[simp] theorem outstanding_payBack (hn : 0 ≤ n) :
    (p.payBack n hn).outstanding = p.outstanding - min n p.outstanding := by
  simp only [outstanding, payBack]
  abel

end ClampedPool
