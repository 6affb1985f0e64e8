import Mathlib.Tactic

/-! # base/stringPiece.h -/

namespace MuduoWindows.Base

/-- The bytes of a text of ASCII characters. -/
def ascii (s : String) : List UInt8 := s.toList.map fun c => UInt8.ofNat c.toNat

/-- The bytes that can be read from `ptr_` on, and `length_`, which is an `int`. -/
structure StringPiece where
  data : List UInt8
  length : ℤ

namespace StringPiece

def size (s : StringPiece) : ℤ := s.length

@[simp] theorem size_mk (data : List UInt8) (length : ℤ) :
    (⟨data, length⟩ : StringPiece).size = length := rfl

/-- `static_cast<int>` of a `size_t`. -/
def toInt (n : ℕ) : ℤ := (n : ℤ).bmod (2 ^ 32)

/-- The conversion of an `int` to `size_t`. -/
def toSize (x : ℤ) : ℕ := (x % 2 ^ 64).toNat

theorem toInt_of_lt {n : ℕ} (h : n < 2 ^ 31) : toInt n = n := by
  unfold toInt
  rw [Int.bmod_def]
  omega

theorem toInt_le (n : ℕ) : toInt n ≤ n := by
  unfold toInt
  rw [Int.bmod_def]
  omega

theorem toSize_natCast {n : ℕ} (h : n < 2 ^ 64) : toSize n = n := by
  unfold toSize
  omega

theorem toSize_toInt_of_le {n : ℕ} (h : 2 ^ 31 ≤ n) :
    toSize (toInt n) < n ∧ toSize (toInt n) < 2 ^ 31 ∨
      2 ^ 64 - 2 ^ 31 ≤ toSize (toInt n) ∧ toSize (toInt n) < 2 ^ 64 := by
  unfold toSize toInt
  rw [Int.bmod_def]
  omega

end StringPiece
end MuduoWindows.Base
