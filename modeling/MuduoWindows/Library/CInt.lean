import Mathlib.Tactic

/-! # Arithmetic of `int`

A computation with `int` has a value as long as no intermediate result overflows; afterwards the
language says nothing about it. Division truncates towards zero.
-/

namespace MuduoWindows.Library

abbrev CInt.InRange (x : ℤ) : Prop := -2 ^ 31 ≤ x ∧ x < 2 ^ 31

@[ext]
structure CInt where
  value : Option ℤ
  inRange : ∀ x ∈ value, CInt.InRange x
  deriving DecidableEq

namespace CInt

/-- The result of a computation that has overflowed. -/
def undefined : CInt := ⟨none, by simp⟩

/-- An exact result as an `int`. -/
def ofInt (x : ℤ) : CInt := if h : InRange x then ⟨some x, by simpa using h⟩ else undefined

instance (n : ℕ) : OfNat CInt n := ⟨ofInt n⟩

/-- An operation whose exact result is `f`. -/
def lift (f : ℤ → ℤ → ℤ) (a b : CInt) : CInt :=
  ((a.value.bind fun x => b.value.map fun y => f x y).map ofInt).getD undefined

instance : Add CInt := ⟨lift (· + ·)⟩
instance : Sub CInt := ⟨lift (· - ·)⟩
instance : Mul CInt := ⟨lift (· * ·)⟩
instance : Div CInt := ⟨fun a b => if b.value = some 0 then undefined else lift Int.tdiv a b⟩

/-- The conversion of a wider integer keeps the low 32 bits. -/
def cast (x : ℤ) : CInt := ofInt (x.bmod (2 ^ 32))

/-- The conversion to `unsigned`. -/
def toUnsigned (a : CInt) : Option ℕ := a.value.map fun x => (x % 2 ^ 32).toNat

instance : LT CInt := ⟨fun a b => ∃ x ∈ a.value, ∃ y ∈ b.value, x < y⟩

instance (a b : CInt) : Decidable (a < b) :=
  inferInstanceAs (Decidable (∃ x ∈ a.value, ∃ y ∈ b.value, x < y))

variable {x y : ℤ}

@[simp] theorem ofInt_value (hx : InRange x) : (ofInt x).value = some x := by
  rw [ofInt, dif_pos hx]

theorem eq_ofInt {a : CInt} (h : a.value = some x) : a = ofInt x :=
  CInt.ext (by rw [h, ofInt_value (a.inRange x h)])

theorem lift_ofInt (f : ℤ → ℤ → ℤ) (hx : InRange x) (hy : InRange y) :
    lift f (ofInt x) (ofInt y) = ofInt (f x y) := by
  unfold lift
  rw [ofInt_value hx, Option.bind_some, ofInt_value hy]
  rfl

@[simp] theorem ofNat_eq (n : ℕ) : (OfNat.ofNat n : CInt) = ofInt n := rfl

@[simp] theorem ofInt_add (hx : InRange x) (hy : InRange y) : ofInt x + ofInt y = ofInt (x + y) :=
  lift_ofInt _ hx hy

@[simp] theorem ofInt_sub (hx : InRange x) (hy : InRange y) : ofInt x - ofInt y = ofInt (x - y) :=
  lift_ofInt _ hx hy

@[simp] theorem ofInt_mul (hx : InRange x) (hy : InRange y) : ofInt x * ofInt y = ofInt (x * y) :=
  lift_ofInt _ hx hy

/-- A quotient of numbers that are not negative is rounded down. -/
@[simp] theorem ofInt_div (hx : InRange x) (hx0 : 0 ≤ x) (hy : InRange y) (hy0 : 0 < y) :
    ofInt x / ofInt y = ofInt (x / y) := by
  have hne : (ofInt y).value ≠ some 0 := by
    rw [ofInt_value hy]
    exact fun h => hy0.ne' (Option.some.inj h)
  rw [← Int.tdiv_eq_ediv_of_nonneg hx0]
  exact (if_neg hne).trans (lift_ofInt _ hx hy)

theorem cast_eq (hx : InRange x) : cast x = ofInt x := by
  unfold cast
  rw [Int.bmod_eq_of_le_mul_two (by omega) (by omega)]

theorem toUnsigned_ofInt (hx : InRange x) (hx0 : 0 ≤ x) : (ofInt x).toUnsigned = some x.toNat := by
  have hmod : x % 2 ^ 32 = x := Int.emod_eq_of_lt hx0 (by omega)
  unfold toUnsigned
  rw [ofInt_value hx, Option.map_some, hmod]

theorem ofInt_lt (hx : InRange x) (hy : InRange y) : ofInt x < ofInt y ↔ x < y := by
  change (∃ u ∈ (ofInt x).value, ∃ v ∈ (ofInt y).value, u < v) ↔ _
  rw [ofInt_value hx, ofInt_value hy]
  simp

theorem ofInt_neg_iff (hx : InRange x) : ofInt x < 0 ↔ x < 0 := by
  rw [ofNat_eq, ofInt_lt hx (by decide), Nat.cast_zero]

end CInt
end MuduoWindows.Library
