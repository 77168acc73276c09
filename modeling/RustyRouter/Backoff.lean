import Mathlib.Algebra.Group.Nat.Defs

/-! Delays that double up to a bound. -/
namespace RustyRouter.Backoff

/-- Twice the delay, the bound at most. -/
def next (bound delay : Nat) : Nat := min (delay * 2) bound

/-- The delay after `k` failures in a row. -/
def after (bound first k : Nat) : Nat := min (first * 2 ^ k) bound

variable {bound first k : Nat}

theorem after_zero (h : first ≤ bound) : after bound first 0 = first := by
  rw [after, Nat.pow_zero, Nat.mul_one, Nat.min_eq_left h]

theorem next_after : next bound (after bound first k) = after bound first (k + 1) := by
  have hdouble : first * 2 ^ (k + 1) = first * 2 ^ k * 2 := by rw [Nat.pow_succ, Nat.mul_assoc]
  rw [next, after, after, hdouble]
  omega

end RustyRouter.Backoff
