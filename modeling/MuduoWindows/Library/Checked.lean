import Mathlib.Tactic

/-! # Programs that check their assumptions

A checked program returns a value or stops with a fault. `require` is the assertion statement:
it stops the program where the asserted condition is false and does nothing where it holds.
-/

namespace MuduoWindows.Library

variable {φ α β : Type}

/-- The assertion statement: continue exactly when `p` holds. -/
def require (p : Prop) [Decidable p] (fault : φ) : Except φ Unit :=
  if p then .ok () else .error fault

@[simp] theorem pure_eq_ok (a : α) : (pure a : Except φ α) = .ok a := rfl

@[simp] theorem ok_bind (a : α) (k : α → Except φ β) : (Except.ok a >>= k) = k a := rfl

@[simp] theorem error_bind (f : φ) (k : α → Except φ β) :
    ((Except.error f : Except φ α) >>= k) = .error f := rfl

/-- A sequence succeeds exactly when its first part does and the rest succeeds from there. -/
theorem bind_eq_ok {x : Except φ α} {k : α → Except φ β} {b : β} :
    (x >>= k) = .ok b ↔ ∃ a, x = .ok a ∧ k a = .ok b := by
  cases x with
  | error f => simp
  | ok a => simp

section Require
variable {p : Prop} [Decidable p] {fault : φ}

theorem require_true (h : p) : require p fault = .ok () := if_pos h

theorem require_false (h : ¬ p) : require p fault = .error fault := if_neg h

theorem require_bind (h : p) (k : Unit → Except φ β) : (require p fault >>= k) = k () := by
  rw [require_true h, ok_bind]

@[simp] theorem require_bind_eq_ok {k : Unit → Except φ β} {b : β} :
    (require p fault >>= k) = .ok b ↔ p ∧ k () = .ok b := by
  by_cases h : p
  · rw [require_bind h]
    exact (and_iff_right h).symm
  · rw [require_false h, error_bind]
    simp [h]

end Require
end MuduoWindows.Library
