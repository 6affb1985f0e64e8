import MuduoWindows.Library.Binary64
import Mathlib.Algebra.Order.Round

/-! # Rounding to nearest

Roundings to a nearest integer, and numbers rounded half up to a number of significant decimal
digits.
-/

namespace MuduoWindows.Library

/-- A rounding to a nearest integer. In the middle of two it may give either. -/
structure Nearest where
  toInt : ℚ → ℤ
  near (x : ℚ) : |(toInt x : ℚ) - x| ≤ 1 / 2

namespace Nearest

def even : Nearest := ⟨Binary64.nearestEven, Binary64.abs_nearestEven_sub_le⟩

variable (r : Nearest) {x : ℚ} {n : ℤ}

theorem le_toInt (h : n - 1 / 2 < x) : n ≤ r.toInt x := by
  have hnear := (abs_le.mp (r.near x)).1
  have hlt : ((n - 1 : ℤ) : ℚ) < r.toInt x := by
    push_cast
    linarith
  have hint : n - 1 < r.toInt x := by exact_mod_cast hlt
  omega

theorem toInt_le (h : x < n + 1 / 2) : r.toInt x ≤ n := by
  have hnear := (abs_le.mp (r.near x)).2
  have hlt : (r.toInt x : ℚ) < (n + 1 : ℤ) := by
    push_cast
    linarith
  have hint : r.toInt x < n + 1 := by exact_mod_cast hlt
  omega

theorem toInt_eq (hlow : n - 1 / 2 < x) (hhigh : x < n + 1 / 2) : r.toInt x = n :=
  le_antisymm (r.toInt_le hhigh) (r.le_toInt hlow)

/-- An integer moved by one half is not in the middle of two multiples of an even number: it is
rounded like the integer itself, half up. -/
theorem toInt_add_half {s : ℤ} {g : ℕ} (hg : 0 < g) (heven : Even g) :
    r.toInt ((s + 1 / 2) / g) = round ((s : ℚ) / g) := by
  obtain ⟨h, rfl⟩ := heven
  have hpos : (0 : ℚ) < (h + h : ℕ) := by exact_mod_cast hg
  have hle := Int.floor_le ((s : ℚ) / (h + h : ℕ) + 1 / 2)
  have hlt := Int.lt_floor_add_one ((s : ℚ) / (h + h : ℕ) + 1 / 2)
  rw [← round_eq] at hle hlt
  generalize round ((s : ℚ) / (h + h : ℕ)) = m at hle hlt ⊢
  rw [← sub_le_iff_le_add, le_div_iff₀ hpos] at hle
  rw [← lt_sub_iff_add_lt, div_lt_iff₀ hpos] at hlt
  push_cast at hle hlt hpos ⊢
  have hnext : s + h + 1 ≤ (m + 1) * (h + h) := by
    have hint : s + h < (m + 1) * (h + h) := by
      have hcast : ((s + h : ℤ) : ℚ) < ((m + 1) * (h + h) : ℤ) := by
        push_cast
        linarith
      exact_mod_cast hcast
    omega
  have hnext' : (s : ℚ) + h + 1 ≤ (m + 1) * (h + h) := by exact_mod_cast hnext
  apply r.toInt_eq
  · rw [lt_div_iff₀ hpos]
    linarith
  · rw [div_lt_iff₀ hpos]
    linarith

end Nearest

/-- The number rounded half up to `k` significant decimal digits. -/
def significant (k : ℕ) (x : ℚ) : ℚ :=
  let unit : ℚ := 10 ^ (Int.log 10 |x| + 1 - k)
  round (x / unit) * unit

theorem significant_of_log {k : ℕ} {e : ℤ} {x : ℚ} (hlow : 10 ^ (k + e) ≤ x)
    (hhigh : x < 10 ^ (k + e + 1)) :
    significant (k + 1) x = round (x / 10 ^ e) * 10 ^ e := by
  have hpos : 0 < x := lt_of_lt_of_le (zpow_pos (by norm_num) _) hlow
  have hlog : Int.log 10 |x| = k + e := by
    rw [abs_of_pos hpos]
    have hle := (Int.zpow_le_iff_le_log (b := 10) (by decide) hpos).mp (by exact_mod_cast hlow)
    have hlt := (Int.lt_zpow_iff_log_lt (b := 10) (by decide) hpos).mp (by exact_mod_cast hhigh)
    omega
  unfold significant
  dsimp only
  rw [hlog]
  have hexp : (k : ℤ) + e + 1 - (k + 1 : ℕ) = e := by
    push_cast
    ring
  rw [hexp]

/-- Numbers that round to a power of ten from below have one digit more behind the rounding. -/
theorem significant_eq {k : ℕ} {e : ℤ} {x : ℚ} (hlow : (10 ^ k - 1 / 20) * 10 ^ e ≤ x)
    (hhigh : x < 10 ^ (k + 1) * 10 ^ e) :
    significant (k + 1) x = round (x / 10 ^ e) * 10 ^ e := by
  have hunit : (0 : ℚ) < 10 ^ e := zpow_pos (by norm_num) _
  have hone : (1 : ℚ) ≤ 10 ^ k := one_le_pow₀ (by norm_num)
  have hpow : (10 : ℚ) ^ (k + e) = 10 ^ k * 10 ^ e := by
    rw [zpow_add₀ (by norm_num), zpow_natCast]
  have hnext : (10 : ℚ) ^ (k + e + 1) = 10 ^ (k + 1) * 10 ^ e := by
    rw [zpow_add_one₀ (by norm_num), hpow]
    ring
  obtain hle | hlt := le_or_gt (10 ^ k * 10 ^ e) x
  · exact significant_of_log (hpow ▸ hle) (hnext ▸ hhigh)
  · -- The digit before the rounding is a nine, and the rounding carries into the next place.
    have htenth : (10 : ℚ) ^ (e - 1) = 10 ^ e / 10 := zpow_sub_one₀ (by norm_num) _
    have hshift : (10 : ℚ) ^ (k + (e - 1)) = 10 ^ k * (10 ^ e / 10) := by
      rw [zpow_add₀ (by norm_num), zpow_natCast, htenth]
    have hround : round (x / 10 ^ e) = (10 ^ k : ℤ) := by
      rw [round_eq, Int.floor_eq_iff]
      push_cast
      rw [← sub_le_iff_le_add, ← lt_sub_iff_add_lt, le_div_iff₀ hunit, div_lt_iff₀ hunit]
      constructor <;> nlinarith
    have hcarry : round (x / 10 ^ (e - 1)) = (10 ^ (k + 1) : ℤ) := by
      rw [round_eq, Int.floor_eq_iff, htenth]
      push_cast
      rw [← sub_le_iff_le_add, ← lt_sub_iff_add_lt, le_div_iff₀ (by linarith),
        div_lt_iff₀ (by linarith), pow_succ]
      constructor <;> nlinarith
    rw [significant_of_log (e := e - 1), hround, hcarry, htenth]
    · push_cast
      ring
    · rw [hshift]
      nlinarith
    · rw [show (k : ℤ) + (e - 1) + 1 = k + e by ring, hpow]
      exact hlt

end MuduoWindows.Library
