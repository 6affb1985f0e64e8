import MuduoWindows.Library.Numeral

/-! # The order of numerals

Numerals of one width, over symbols in their order, are ordered as the numbers are.
-/

namespace MuduoWindows.Library

/-- Behind texts of one length nothing changes their order. -/
theorem append_lt_append {α : Type*} [LT α] {x y : List α} (h : x < y)
    (hlength : x.length = y.length) (u v : List α) : x ++ u < y ++ v := by
  induction x generalizing y with
  | nil =>
    obtain rfl := List.length_eq_zero_iff.mp hlength.symm
    exact absurd h (List.not_lt_nil [])
  | cons a x ih =>
    cases y with
    | nil => exact absurd h (List.not_lt_nil _)
    | cons b y =>
      obtain hab | ⟨rfl, hxy⟩ := List.cons_lt_cons_iff.mp h
      · exact List.cons_lt_cons_iff.mpr (.inl hab)
      · exact List.cons_lt_cons_iff.mpr (.inr ⟨rfl, ih hxy (Nat.succ.inj hlength)⟩)

namespace Numerals
variable {α : Type*} (s : Numerals α)

/-- The last digit of a padded numeral stands behind the others. -/
theorem padded_succ {width : ℕ} (hwidth : 0 < width) (n : ℕ) :
    s.padded (width + 1) n = s.padded width (n / s.base) ++ [s.digit (s.last n)] := by
  obtain hn | hn := lt_or_ge n s.base
  · have hzero : s.last 0 = ⟨0, s.base_pos⟩ := Fin.ext (Nat.zero_mod _)
    rw [padded, padded, Nat.div_eq_of_lt hn, s.numeral_of_lt hn, s.numeral_of_lt s.base_pos, hzero,
      List.length_singleton, List.length_singleton, Nat.add_sub_cancel, ← List.replicate_succ',
      Nat.sub_add_cancel hwidth]
  · rw [padded, padded, s.numeral_of_le hn, List.length_append, List.length_singleton,
      Nat.add_sub_add_right, List.append_assoc]

theorem padded_fits {width n : ℕ} (hn : n < s.base ^ (width + 1)) :
    (s.padded (width + 1) n).length = width + 1 := by
  rw [padded_length]
  exact max_eq_left (s.numeral_length_le hn)

/-- Padded to a width in which they fit, smaller numbers have earlier numerals. -/
theorem padded_lt [LT α] (hdigit : ∀ d e : Fin s.base, d < e → s.digit d < s.digit e)
    {width m n : ℕ} (h : m < n) (hn : n < s.base ^ (width + 1)) :
    s.padded (width + 1) m < s.padded (width + 1) n := by
  have hlast : ∀ {m n : ℕ}, m % s.base < n % s.base →
      [s.digit (s.last m)] < [s.digit (s.last n)] := fun hmod =>
    List.cons_lt_cons_iff.mpr (.inl (hdigit _ _ hmod))
  induction width generalizing m n with
  | zero =>
    rw [zero_add, pow_one] at hn
    have hm := h.trans hn
    rw [padded, padded, s.numeral_of_lt hn, s.numeral_of_lt hm]
    refine hlast ?_
    rwa [Nat.mod_eq_of_lt hm, Nat.mod_eq_of_lt hn]
  | succ width ih =>
    have hrest : n / s.base < s.base ^ (width + 1) :=
      Nat.div_lt_of_lt_mul (by rwa [← pow_succ'])
    rw [s.padded_succ width.succ_pos, s.padded_succ width.succ_pos]
    obtain heq | hlt := (Nat.div_le_div_right h.le : m / s.base ≤ n / s.base).eq_or_lt
    · have hmod : m % s.base < n % s.base := by
        have hm := Nat.div_add_mod m s.base
        have hn' := Nat.div_add_mod n s.base
        rw [heq] at hm
        omega
      rw [heq]
      exact List.append_left_lt (hlast hmod)
    · refine append_lt_append (ih hlt hrest) ?_ _ _
      rw [s.padded_fits hrest, s.padded_fits (hlt.trans hrest)]

end Numerals
end MuduoWindows.Library
