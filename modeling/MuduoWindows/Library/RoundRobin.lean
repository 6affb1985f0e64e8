import Mathlib.Data.Int.CardIntervalMod
import Mathlib.Tactic

/-! # Taking turns

The members of a list take turns, from the first one on and from the beginning again behind the
last one. After any number of turns each has had its share.
-/

namespace MuduoWindows.Library

variable {α : Type*}

/-- Whose turn it is after `k` turns; `d` stands in for an empty list. -/
def turn (xs : List α) (d : α) (k : ℕ) : α := xs[k % xs.length]?.getD d

/-- The first `k` turns. -/
def turns (xs : List α) (d : α) (k : ℕ) : List α := (List.range k).map (turn xs d)

variable {xs : List α} {d : α} {k : ℕ}

@[simp] theorem turns_length : (turns xs d k).length = k := by
  rw [turns, List.length_map, List.length_range]

theorem turns_succ : turns xs d (k + 1) = turns xs d k ++ [turn xs d k] := by
  rw [turns, List.range_succ, List.map_append]
  rfl

@[simp] theorem turn_nil : turn [] d k = d := rfl

theorem turn_eq (hk : k % xs.length < xs.length) : turn xs d k = xs[k % xs.length] := by
  rw [turn, List.getElem?_eq_getElem hk]
  rfl

/-- The position is one further, or the first one again. -/
theorem next_position {n : ℕ} (hn : 0 < n) (k : ℕ) :
    (if n ≤ k % n + 1 then 0 else k % n + 1) = (k + 1) % n := by
  have hlt := Nat.mod_lt k hn
  rw [Nat.add_mod k 1 n]
  split_ifs with h
  · have heq : k % n + 1 = n := by omega
    obtain rfl | hone := Nat.eq_or_lt_of_le (Nat.succ_le_of_lt hn)
    · exact (Nat.mod_one _).symm
    · rw [Nat.mod_eq_of_lt hone, heq, Nat.mod_self]
  · rw [Nat.mod_eq_of_lt (show 1 < n by omega), Nat.mod_eq_of_lt (not_le.mp h)]

/-- Each member has had all full rounds, and one turn more if it has had one in the last round. -/
theorem count_turns [DecidableEq α] (hnodup : xs.Nodup) {i : ℕ} (hi : i < xs.length) :
    (turns xs d k).count xs[i] = k / xs.length + if i < k % xs.length then 1 else 0 := by
  have hpos : 0 < xs.length := Nat.zero_lt_of_lt hi
  have hturn : ∀ j, turn xs d j = xs[i] ↔ j ≡ i [MOD xs.length] := by
    intro j
    rw [turn_eq (Nat.mod_lt j hpos), hnodup.getElem_inj_iff, Nat.ModEq,
      Nat.mod_eq_of_lt hi]
  have hcount : (turns xs d k).count xs[i] = k.count (· ≡ i [MOD xs.length]) := by
    rw [turns, List.count, List.countP_map, Nat.count]
    refine List.countP_congr fun j _ => ?_
    rw [Function.comp_apply, beq_iff_eq, decide_eq_true_iff]
    exact hturn j
  rw [hcount, Nat.count_modEq_card k hpos, Nat.mod_eq_of_lt hi]

end MuduoWindows.Library
