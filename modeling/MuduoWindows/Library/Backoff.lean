import Mathlib.Tactic

/-! # Delays that double up to a bound

The delay before attempt `k`, and the whole schedule of the first `n` delays.
-/

namespace MuduoWindows.Library

/-- Doubled `k` times, and cut at `bound`. -/
def backoff (start bound k : ℕ) : ℕ := min (start * 2 ^ k) bound

/-- The first `n` delays. -/
def schedule (start bound n : ℕ) : List ℕ := (List.range n).map (backoff start bound)

variable {start bound : ℕ}

theorem backoff_zero (h : start ≤ bound) : backoff start bound 0 = start := by
  unfold backoff
  rw [pow_zero, mul_one, min_eq_left h]

/-- One doubling of the cut delay is the next cut delay. -/
theorem backoff_succ (k : ℕ) :
    backoff start bound (k + 1) = min (backoff start bound k * 2) bound := by
  unfold backoff
  have hdouble : start * 2 ^ (k + 1) = start * 2 ^ k * 2 := by ring
  rw [hdouble]
  omega

theorem backoff_le (k : ℕ) : backoff start bound k ≤ bound := min_le_right _ _

theorem le_backoff (h : start ≤ bound) (k : ℕ) : start ≤ backoff start bound k :=
  le_min (Nat.le_mul_of_pos_right start (Nat.two_pow_pos k)) h

theorem schedule_succ (n : ℕ) :
    schedule start bound (n + 1) = schedule start bound n ++ [backoff start bound n] := by
  unfold schedule
  rw [List.range_succ, List.map_append, List.map_singleton]

end MuduoWindows.Library
