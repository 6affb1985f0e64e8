import Mathlib.Tactic

/-! # What a trace shows after a mark

A trace is the list of what has been seen. `after x` is the part behind the first `x`, empty as
long as there is none: what holds from `x` on is stated about it.
-/

namespace MuduoWindows.Library

variable {α : Type*} [DecidableEq α]

/-- The part of the trace behind the first `x`. -/
def after (x : α) : List α → List α
  | [] => []
  | y :: ys => if y = x then ys else after x ys

variable {x : α} {t u : List α}

theorem after_eq_nil (h : x ∉ t) : after x t = [] := by
  induction t with
  | nil => rfl
  | cons y ys ih =>
    rw [List.mem_cons, not_or] at h
    rw [after, if_neg (Ne.symm h.1), ih h.2]

/-- Once `x` has been seen, the rest grows with the trace. -/
theorem after_append_of_mem (h : x ∈ t) : after x (t ++ u) = after x t ++ u := by
  induction t with
  | nil => exact absurd h List.not_mem_nil
  | cons y ys ih =>
    rw [List.cons_append, after, after]
    split_ifs with hy
    · rfl
    · exact ih ((List.mem_cons.mp h).resolve_left (Ne.symm hy))

theorem after_append_of_not_mem (h : x ∉ t) : after x (t ++ u) = after x u := by
  induction t with
  | nil => rfl
  | cons y ys ih =>
    rw [List.mem_cons, not_or] at h
    rw [List.cons_append, after, if_neg (Ne.symm h.1), ih h.2]

end MuduoWindows.Library
