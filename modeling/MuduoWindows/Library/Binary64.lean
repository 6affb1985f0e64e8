import Mathlib.Tactic
import Mathlib.Data.Int.Log

/-! # Rounding to binary64

A finite result of an operation on doubles is the exact one rounded to a multiple of the unit in
its last place, to the nearest one and to the even one in the middle. Overflow is left out.
-/

namespace MuduoWindows.Library.Binary64

/-- The nearest integer, in the middle of two the even one. -/
def nearestEven (x : ℚ) : ℤ :=
  if x - ⌊x⌋ < 1 / 2 then ⌊x⌋
  else if 1 / 2 < x - ⌊x⌋ then ⌊x⌋ + 1
  else if Even ⌊x⌋ then ⌊x⌋ else ⌊x⌋ + 1

/-- The exponent of the last of 53 binary digits; subnormal numbers have fewer. -/
def exponent (x : ℚ) : ℤ := max (Int.log 2 |x| - 52) (-1074)

/-- The unit in the last place. -/
def ulp (x : ℚ) : ℚ := 2 ^ exponent x

def round (x : ℚ) : ℚ := nearestEven (x / ulp x) * ulp x

theorem nearestEven_cases (x : ℚ) :
    nearestEven x = ⌊x⌋ ∧ x - ⌊x⌋ ≤ 1 / 2 ∨ nearestEven x = ⌊x⌋ + 1 ∧ 1 / 2 ≤ x - ⌊x⌋ := by
  unfold nearestEven
  split_ifs with hlt hgt heven
  · exact .inl ⟨rfl, hlt.le⟩
  · exact .inr ⟨rfl, hgt.le⟩
  · exact .inl ⟨rfl, not_lt.mp hgt⟩
  · exact .inr ⟨rfl, not_lt.mp hlt⟩

theorem abs_nearestEven_sub_le (x : ℚ) : |(nearestEven x : ℚ) - x| ≤ 1 / 2 := by
  have hle := Int.floor_le x
  have hlt := Int.lt_floor_add_one x
  rcases nearestEven_cases x with ⟨heq, hx⟩ | ⟨heq, hx⟩
  · rw [heq, abs_le]
    constructor <;> linarith
  · rw [heq, abs_le]
    push_cast
    constructor <;> linarith

theorem le_nearestEven {x : ℚ} {n : ℤ} (h : n ≤ x) : n ≤ nearestEven x := by
  have hfloor := Int.le_floor.mpr h
  rcases nearestEven_cases x with ⟨heq, -⟩ | ⟨heq, -⟩ <;> rw [heq] <;> omega

theorem ulp_pos (x : ℚ) : 0 < ulp x := zpow_pos (by norm_num) _

theorem abs_round_sub_le (x : ℚ) : |round x - x| ≤ ulp x / 2 := by
  have hpos := ulp_pos x
  have hsplit : round x - x = (nearestEven (x / ulp x) - x / ulp x) * ulp x := by
    unfold round
    field_simp
  rw [hsplit, abs_mul, abs_of_pos hpos]
  have hnear := abs_nearestEven_sub_le (x / ulp x)
  calc |(nearestEven (x / ulp x) : ℚ) - x / ulp x| * ulp x
      ≤ 1 / 2 * ulp x := mul_le_mul_of_nonneg_right hnear hpos.le
    _ = ulp x / 2 := by ring

theorem round_nonneg {x : ℚ} (hx : 0 ≤ x) : 0 ≤ round x := by
  have hpos := ulp_pos x
  have hnear : 0 ≤ nearestEven (x / ulp x) :=
    le_nearestEven (by exact_mod_cast div_nonneg hx hpos.le)
  exact mul_nonneg (by exact_mod_cast hnear) hpos.le

/-- Numbers of at most `k` binary digits before the point. -/
theorem exponent_le {x : ℚ} {k : ℤ} (hk : 0 < k) (hx : |x| < 2 ^ k) :
    exponent x ≤ k - 53 := by
  refine max_le ?_ (by omega)
  rcases eq_or_ne x 0 with rfl | hne
  · rw [abs_zero, Int.log_zero_right]
    omega
  · have hlog := (Int.lt_zpow_iff_log_lt one_lt_two (abs_pos.mpr hne)).mp
      (by exact_mod_cast hx : |x| < ((2 : ℕ) : ℚ) ^ k)
    omega

theorem ulp_le {x : ℚ} {k : ℤ} (hk : 0 < k) (hx : |x| < 2 ^ k) : ulp x ≤ 2 ^ (k - 53) :=
  zpow_le_zpow_right₀ one_le_two (exponent_le hk hx)

/-- Below 2⁵³ every integer is a multiple of the unit in the last place. -/
theorem exists_mul_ulp {x : ℚ} (hx : |x| < 2 ^ (53 : ℤ)) (n : ℤ) :
    ∃ m : ℤ, (n : ℚ) = m * ulp x := by
  obtain ⟨k, hk⟩ := Int.eq_ofNat_of_zero_le
    (show 0 ≤ -exponent x by have := exponent_le (by norm_num) hx; omega)
  refine ⟨n * 2 ^ k, ?_⟩
  have hpow : (2 : ℚ) ^ k * ulp x = 1 := by
    unfold ulp
    rw [← zpow_natCast, ← zpow_add₀ two_ne_zero, ← hk]
    norm_num
  push_cast
  rw [mul_assoc, hpow, mul_one]

theorem le_round {x : ℚ} (hx : |x| < 2 ^ (53 : ℤ)) {n : ℤ} (h : n ≤ x) : n ≤ round x := by
  obtain ⟨m, hm⟩ := exists_mul_ulp hx n
  have hpos := ulp_pos x
  have hle : (m : ℚ) ≤ x / ulp x := by
    rw [le_div_iff₀ hpos, ← hm]
    exact h
  have hnear : (m : ℚ) ≤ nearestEven (x / ulp x) := by exact_mod_cast le_nearestEven hle
  unfold round
  rw [hm]
  exact mul_le_mul_of_nonneg_right hnear hpos.le

theorem round_intCast {n : ℤ} (h : |(n : ℚ)| < 2 ^ (53 : ℤ)) : round n = n := by
  obtain ⟨m, hm⟩ := exists_mul_ulp h n
  have hdiv : (n : ℚ) / ulp n = m := (div_eq_iff (ulp_pos n).ne').mpr hm
  have hnear : nearestEven (m : ℚ) = m := by
    unfold nearestEven
    rw [Int.floor_intCast, sub_self, if_pos (by norm_num)]
  unfold round
  rw [hdiv, hnear, ← hm]

/-- Rounding does not reach the next integer from further away than half a unit. -/
theorem floor_round {x : ℚ} (hx : |x| < 2 ^ (53 : ℤ)) (hfar : x + ulp x / 2 < ⌊x⌋ + 1) :
    ⌊round x⌋ = ⌊x⌋ := by
  have herr := (abs_le.mp (abs_round_sub_le x)).2
  refine Int.floor_eq_iff.mpr ⟨le_round hx (Int.floor_le x), ?_⟩
  linarith

end MuduoWindows.Library.Binary64
