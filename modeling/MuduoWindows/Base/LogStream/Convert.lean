import MuduoWindows.Library.Numeral
import MuduoWindows.Library.Window
import MuduoWindows.Base.StringPiece
import MuduoWindows.Net.Fault

/-! # base/logStream.cpp: convert and convertHex

Both write digits from the least significant one on, and reverse them in place. The area they write
to is an array and a position in it; a write behind the array is a fault.
-/

namespace MuduoWindows.Base
open Library Net

structure IntegerType where
  signed : Bool
  width : ℕ
  deriving DecidableEq

namespace IntegerType

def InRange (T : IntegerType) (x : ℤ) : Prop :=
  if T.signed then -2 ^ (T.width - 1) ≤ x ∧ x < 2 ^ (T.width - 1) else 0 ≤ x ∧ x < 2 ^ T.width

instance (T : IntegerType) (x : ℤ) : Decidable (T.InRange x) := by
  unfold InRange
  infer_instance

/-- A value of the type. -/
structure Value (T : IntegerType) where
  toInt : ℤ
  inRange : T.InRange toInt
  deriving DecidableEq

def short : IntegerType := ⟨true, 16⟩
def unsignedShort : IntegerType := ⟨false, 16⟩
def int : IntegerType := ⟨true, 32⟩
def unsignedInt : IntegerType := ⟨false, 32⟩
def long : IntegerType := ⟨true, 32⟩
def unsignedLong : IntegerType := ⟨false, 32⟩
def longLong : IntegerType := ⟨true, 64⟩
def unsignedLongLong : IntegerType := ⟨false, 64⟩
def uintptr : IntegerType := ⟨false, 64⟩

variable {T : IntegerType}

theorem Value.natAbs_lt (i : T.Value) (hT : T.width ≤ 64) : i.toInt.natAbs < 2 ^ 64 := by
  have h := i.inRange
  unfold InRange at h
  split_ifs at h
  · have hle : (2 : ℤ) ^ (T.width - 1) ≤ 2 ^ 63 := pow_le_pow_right₀ (by decide) (by omega)
    omega
  · have hle : (2 : ℤ) ^ T.width ≤ 2 ^ 64 := pow_le_pow_right₀ (by decide) hT
    omega

theorem InRange.between {x y : ℤ} (h : T.InRange x) (hy : 0 ≤ y ∧ y ≤ x ∨ x ≤ y ∧ y ≤ 0) :
    T.InRange y := by
  unfold InRange at h ⊢
  split_ifs at h ⊢
  · have hpos : (0 : ℤ) < 2 ^ (T.width - 1) := by positivity
    omega
  · have hpos : (0 : ℤ) < 2 ^ T.width := by positivity
    omega

theorem tdiv_between (x : ℤ) (radix : ℕ) :
    0 ≤ x.tdiv radix ∧ x.tdiv radix ≤ x ∨ x ≤ x.tdiv radix ∧ x.tdiv radix ≤ 0 := by
  have habs : (x.tdiv radix).natAbs ≤ x.natAbs :=
    (Int.natAbs_tdiv x radix).trans_le (Nat.div_le_self _ _)
  obtain hx | hx := le_total 0 x
  · have hq : 0 ≤ x.tdiv radix := Int.tdiv_nonneg hx (Int.natCast_nonneg _)
    exact .inl ⟨hq, by omega⟩
  · have hq : 0 ≤ (-x).tdiv radix := Int.tdiv_nonneg (by omega) (Int.natCast_nonneg _)
    rw [Int.neg_tdiv] at hq
    exact .inr ⟨by omega, by omega⟩

/-- `i / radix`, truncated towards zero, is again a value of the type. -/
def Value.div (i : T.Value) (radix : ℕ) : T.Value :=
  ⟨i.toInt.tdiv radix, i.inRange.between (tdiv_between _ _)⟩

@[simp] theorem Value.div_natAbs (i : T.Value) (radix : ℕ) :
    (i.div radix).toInt.natAbs = i.toInt.natAbs / radix := Int.natAbs_tdiv _ _

/-- The conversion to a wider type of the same sign. -/
def Value.widen {T' : IntegerType} (i : T.Value)
    (h : T.signed = T'.signed ∧ T.width ≤ T'.width) : T'.Value :=
  ⟨i.toInt, by
    have hi := i.inRange
    unfold InRange at hi ⊢
    rw [← h.1]
    split_ifs at hi ⊢
    · have hle : (2 : ℤ) ^ (T.width - 1) ≤ 2 ^ (T'.width - 1) :=
        pow_le_pow_right₀ (by decide) (by omega)
      omega
    · have hle : (2 : ℤ) ^ T.width ≤ 2 ^ T'.width := pow_le_pow_right₀ (by decide) h.2
      omega⟩

end IntegerType

/-- The character at an index of a constant array. -/
def charAt (array : List UInt8) (text : String) (k : ℤ) : Result UInt8 :=
  if 0 ≤ k then
    match array[k.toNat]? with
    | some c => pure c
    | none => .error (.outOfBounds text)
  else .error (.outOfBounds text)

def digits : List UInt8 := ascii "9876543210123456789" ++ [0]

/-- `zero[lsd]`, where `zero` points into the middle of `digits`. -/
def zero (lsd : ℤ) : Result UInt8 := charAt digits "digits" (9 + lsd)

def digitsHex : List UInt8 := ascii "0123456789ABCDEF" ++ [0]

/-- `*p = c` in an array. -/
def put (cells : List UInt8) (p : ℕ) (c : UInt8) : Result (List UInt8) :=
  if p < cells.length then pure (store cells p [c]) else .error (.outOfBounds "data_")

/-- The loop of `convert` and `convertHex`. The remainders are less than `radix` in absolute value,
so they are `int` too. -/
def writeDigits {T : IntegerType} {radix : ℕ} (hradix : 1 < radix) (symbol : ℤ → Result UInt8)
    (cells : List UInt8) (p : ℕ) (i : T.Value) : Result (List UInt8 × ℕ) := do
  let lsd := i.toInt.tmod radix
  let c ← symbol lsd
  let cells ← put cells p c
  if (i.div radix).toInt ≠ 0 then writeDigits hradix symbol cells (p + 1) (i.div radix)
  else pure (cells, p + 1)
termination_by i.toInt.natAbs
decreasing_by
  next hne =>
    rw [IntegerType.Value.div_natAbs]
    refine Nat.div_lt_self ?_ hradix
    by_contra hzero
    refine hne (Int.natAbs_eq_zero.mp ?_)
    rw [IntegerType.Value.div_natAbs, Nat.eq_zero_of_not_pos hzero, Nat.zero_div]

/-- `std::reverse(buf, p)` -/
def reverse (cells : List UInt8) (buf p : ℕ) : List UInt8 :=
  store cells buf (window cells buf p).reverse

/-- The digits are followed by the sign; then all is turned around. -/
def convert {T : IntegerType} (cells : List UInt8) (buf : ℕ) (value : T.Value) :
    Result (ℕ × List UInt8) := do
  let (cells, p) ← writeDigits (by decide : 1 < 10) zero cells buf value
  let (cells, p) ← if value.toInt < 0 then do
      let cells ← put cells p 45
      pure (cells, p + 1)
    else pure (cells, p)
  let cells ← put cells p 0
  pure (p - buf, reverse cells buf p)

def convertHex (cells : List UInt8) (buf : ℕ) (value : IntegerType.uintptr.Value) :
    Result (ℕ × List UInt8) := do
  let (cells, p) ← writeDigits (by decide : 1 < 16) (charAt digitsHex "digitsHex") cells buf value
  let cells ← put cells p 0
  pure (p - buf, reverse cells buf p)

def decimal : Numerals UInt8 where
  symbols := ascii "0123456789"
  nodup := by decide
  one_lt := by decide

def hexadecimal : Numerals UInt8 where
  symbols := ascii "0123456789ABCDEF"
  nodup := by decide
  one_lt := by decide

theorem put_eq {cells : List UInt8} {p : ℕ} (h : p < cells.length) (c : UInt8) :
    put cells p c = .ok (store cells p [c]) := if_pos h

/-- The table around zero has a digit for each remainder of a truncated division. -/
theorem zero_eq (x : ℤ) : zero (x.tmod 10) = .ok (decimal.digit (decimal.last x.natAbs)) := by
  have hall : ∀ d : Fin 10, zero (d.val : ℤ) = .ok (decimal.digit d) ∧
      zero (-(d.val : ℤ)) = .ok (decimal.digit d) := by decide
  obtain ⟨hpos, hneg⟩ := hall (decimal.last x.natAbs)
  have habs : (x.tmod 10).natAbs = x.natAbs % 10 := Int.natAbs_tmod x 10
  obtain heq | heq := Int.natAbs_eq (x.tmod 10)
  · rw [heq, habs]
    exact hpos
  · rw [heq, habs]
    exact hneg

theorem digitsHex_eq {x : ℤ} (hx : 0 ≤ x) : charAt digitsHex "digitsHex" (x.tmod 16) =
    .ok (hexadecimal.digit (hexadecimal.last x.natAbs)) := by
  have hall : ∀ d : Fin 16, charAt digitsHex "digitsHex" (d.val : ℤ) =
      .ok (hexadecimal.digit d) := by decide
  have heq : x.tmod 16 = ((x.natAbs % 16 : ℕ) : ℤ) := by
    rw [Int.tmod_eq_emod_of_nonneg hx]
    omega
  rw [heq]
  exact hall (hexadecimal.last x.natAbs)

theorem writeDigits_eq {T : IntegerType} (s : Numerals UInt8) {symbol : ℤ → Result UInt8}
    (hsymbol : ∀ x : T.Value, symbol (x.toInt.tmod s.base) =
      .ok (s.digit (s.last x.toInt.natAbs)))
    {cells : List UInt8} {p : ℕ} (i : T.Value)
    (hroom : p + (s.numeral i.toInt.natAbs).length ≤ cells.length) :
    writeDigits s.one_lt_base symbol cells p i =
      .ok (store cells p (s.numeral i.toInt.natAbs).reverse,
        p + (s.numeral i.toInt.natAbs).length) := by
  induction hn : i.toInt.natAbs using s.digits_induction generalizing i cells p with
  | hone n h =>
    have hstop : ¬ (i.div s.base).toInt ≠ 0 := by
      rw [not_not, ← Int.natAbs_eq_zero, IntegerType.Value.div_natAbs, hn]
      exact Nat.div_eq_of_lt h
    rw [hn, s.numeral_of_lt h] at hroom
    rw [writeDigits, hsymbol, ok_bind, put_eq hroom, ok_bind, if_neg hstop, hn,
      s.numeral_of_lt h, pure_eq_ok]
    rfl
  | hmore n h ih =>
    have hmore : (i.div s.base).toInt ≠ 0 := by
      rw [← Int.natAbs_ne_zero, IntegerType.Value.div_natAbs, hn]
      exact (Nat.div_pos h s.base_pos).ne'
    rw [hn, s.numeral_of_le h, List.length_append, List.length_singleton] at hroom
    have hp : p < cells.length := by omega
    have hlength : (store cells p [s.digit (s.last n)]).length = cells.length := store_length hp
    have hrest : (i.div s.base).toInt.natAbs = n / s.base := by
      rw [IntegerType.Value.div_natAbs, hn]
    have hfit : p + 1 + (s.numeral (i.div s.base).toInt.natAbs).length ≤
        (store cells p [s.digit (s.last n)]).length := by
      rw [hrest, hlength]
      omega
    have hloop := ih (i.div s.base) hfit hrest
    have hstore : store (store cells p [s.digit (s.last n)]) (p + 1)
        (s.numeral (n / s.base)).reverse = store cells p (s.numeral n).reverse := by
      rw [s.numeral_of_le h, List.reverse_append]
      exact store_store_append hp
    rw [writeDigits, hsymbol, ok_bind, put_eq hp, ok_bind, if_pos hmore, hn, hloop, hstore,
      s.numeral_of_le h, List.length_append, List.length_singleton, Nat.add_assoc p 1,
      Nat.add_comm 1]

theorem reverse_eq {cells text : List UInt8} {buf : ℕ}
    (hroom : buf + text.length < cells.length) :
    (do
      let cells ← put (store cells buf text.reverse) (buf + text.length) 0
      pure (buf + text.length - buf, reverse cells buf (buf + text.length)) :
        Result (ℕ × List UInt8)) =
      .ok (text.length, store cells buf (text ++ [0])) := by
  have hrev : text.reverse.length = text.length := List.length_reverse
  have hlength : (store cells buf text.reverse).length = cells.length := store_length (by omega)
  have hbehind : store (store cells buf text.reverse) (buf + text.reverse.length) [0] =
      store cells buf (text.reverse ++ [0]) := store_store_append (by omega)
  have hwindow : window (store (store cells buf text.reverse) (buf + text.length) [0]) buf
      (buf + text.length) = text.reverse := by
    rw [window_store_before le_rfl (by omega), ← hrev, window_store_self (by omega)]
  rw [hrev] at hbehind
  rw [put_eq (by omega), ok_bind, pure_eq_ok, Nat.add_sub_cancel_left]
  unfold reverse
  rw [hwindow, List.reverse_reverse, hbehind, store_store_prefix hrev.symm]
  rw [List.length_append, hrev]
  exact hroom

/-- The numeral of the absolute value, behind a sign if the value is negative. -/
def integerText (x : ℤ) : List UInt8 :=
  if x < 0 then 45 :: decimal.numeral x.natAbs else decimal.numeral x.natAbs

theorem convert_eq {T : IntegerType} {cells : List UInt8} {buf : ℕ} (value : T.Value)
    (hroom : buf + (integerText value.toInt).length < cells.length) :
    convert cells buf value = .ok ((integerText value.toInt).length,
      store cells buf (integerText value.toInt ++ [0])) := by
  have hloop : buf + (decimal.numeral value.toInt.natAbs).length ≤ cells.length →
      writeDigits (by decide : 1 < 10) zero cells buf value =
        .ok (store cells buf (decimal.numeral value.toInt.natAbs).reverse,
          buf + (decimal.numeral value.toInt.natAbs).length) :=
    writeDigits_eq decimal (fun x => zero_eq x.toInt) value
  have hturn := reverse_eq hroom
  unfold convert
  unfold integerText at hroom hturn ⊢
  generalize decimal.numeral value.toInt.natAbs = text at *
  split_ifs at * with hneg
  · rw [List.length_cons] at hroom
    have hrev : text.reverse.length = text.length := List.length_reverse
    have hlength : (store cells buf text.reverse).length = cells.length :=
      store_length (by omega)
    have hsign : store (store cells buf text.reverse) (buf + text.length) [45] =
        store cells buf (45 :: text).reverse := by
      rw [← hrev, store_store_append (by omega), List.reverse_cons]
    rw [hloop (by omega), ok_bind]
    dsimp only
    rw [put_eq (by omega), ok_bind, pure_eq_ok, ok_bind, hsign]
    exact hturn
  · rw [hloop hroom.le, ok_bind]
    dsimp only
    rw [pure_eq_ok, ok_bind]
    exact hturn

theorem convertHex_eq {cells : List UInt8} {buf : ℕ} (value : IntegerType.uintptr.Value)
    (hroom : buf + (hexadecimal.numeral value.toInt.natAbs).length < cells.length) :
    convertHex cells buf value = .ok ((hexadecimal.numeral value.toInt.natAbs).length,
      store cells buf (hexadecimal.numeral value.toInt.natAbs ++ [0])) := by
  have hloop : writeDigits (by decide : 1 < 16) (charAt digitsHex "digitsHex") cells buf value =
      .ok (store cells buf (hexadecimal.numeral value.toInt.natAbs).reverse,
        buf + (hexadecimal.numeral value.toInt.natAbs).length) :=
    writeDigits_eq hexadecimal
      (fun x : IntegerType.uintptr.Value => digitsHex_eq x.inRange.1) value hroom.le
  unfold convertHex
  rw [hloop, ok_bind]
  exact reverse_eq hroom

def parseInteger (text : List UInt8) : Option ℤ :=
  if text.head? = some 45 then (decimal.parse text.tail).map fun n : ℕ => -(n : ℤ)
  else (decimal.parse text).map fun n : ℕ => (n : ℤ)

/-- The text of a number: a minus sign exactly for a negative one, then a numeral. -/
structure Canonical (text : List UInt8) (x : ℤ) : Prop where
  parse : parseInteger text = some x
  digits : ∃ ds, text = (if x < 0 then [45] else []) ++ ds ∧ decimal.IsNumeral ds x.natAbs

theorem decimal_head_ne (n : ℕ) : (decimal.numeral n).head? ≠ some 45 := by
  intro h
  have hmem := decimal.mem_numeral (List.mem_of_head? h)
  exact absurd hmem (by decide)

theorem integerText_canonical (x : ℤ) : Canonical (integerText x) x := by
  have hnumeral := decimal.numeral_isNumeral x.natAbs
  unfold integerText
  split_ifs with hneg
  · refine ⟨?_, _, by rw [if_pos hneg]; rfl, hnumeral⟩
    have hsign : (45 :: decimal.numeral x.natAbs).head? = some 45 := rfl
    rw [parseInteger, if_pos hsign, List.tail_cons, hnumeral.parse, Option.map_some]
    exact congrArg some (by omega)
  · refine ⟨?_, _, by rw [if_neg hneg]; rfl, hnumeral⟩
    rw [parseInteger, if_neg (decimal_head_ne _), hnumeral.parse, Option.map_some]
    exact congrArg some (by omega)

theorem integerText_injective : Function.Injective integerText := by
  intro x y h
  have hx := (integerText_canonical x).parse
  rw [h, (integerText_canonical y).parse] at hx
  exact (Option.some.inj hx).symm

variable {T : IntegerType}

theorem integerText_length (value : T.Value) (hT : T.width ≤ 64) :
    (integerText value.toInt).length ≤ 21 := by
  have hlt := value.natAbs_lt hT
  have hdigits : (decimal.numeral value.toInt.natAbs).length ≤ 19 + 1 :=
    decimal.numeral_length_le (hlt.trans_le (by decide))
  unfold integerText
  split_ifs
  · exact Nat.succ_le_succ hdigits
  · omega

theorem hexadecimal_length (value : IntegerType.uintptr.Value) :
    (hexadecimal.numeral value.toInt.natAbs).length ≤ 16 :=
  hexadecimal.numeral_length_le (k := 15) ((value.natAbs_lt le_rfl).trans_le (by decide))

/-- An `int` in the formats `"%4d"` and `"%02d"`: at least `width` characters. -/
def padded (fill : UInt8) (width : ℕ) (x : ℤ) : List UInt8 :=
  if fill = 48 ∧ x < 0 then
    45 :: List.replicate (width - (integerText x).length) 48 ++ (integerText x).tail
  else List.replicate (width - (integerText x).length) fill ++ integerText x

theorem padded_length {fill : UInt8} {width : ℕ} {x : ℤ} (hx : 0 ≤ x)
    (hfit : (integerText x).length ≤ width) : (padded fill width x).length = width := by
  unfold padded
  rw [if_neg fun h => absurd h.2 (not_lt.mpr hx), List.length_append, List.length_replicate]
  omega

theorem integerText_length_le {k : ℕ} {x : ℤ} (hx : 0 ≤ x) (hlt : x < 10 ^ (k + 1)) :
    (integerText x).length ≤ k + 1 := by
  unfold integerText
  rw [if_neg (not_lt.mpr hx)]
  refine decimal.numeral_length_le ?_
  change x.natAbs < 10 ^ (k + 1)
  zify
  rwa [abs_of_nonneg hx]

theorem padded_eq {width : ℕ} {x : ℤ} (hx : 0 ≤ x) : padded 48 width x =
    List.replicate (width - (integerText x).length) 48 ++ decimal.numeral x.toNat := by
  unfold padded integerText
  rw [if_neg fun h => absurd h.2 (not_lt.mpr hx), if_neg (not_lt.mpr hx), ← Int.toNat_of_nonneg hx,
    Int.natAbs_natCast, Int.toNat_natCast]

theorem mem_padded {width : ℕ} {x : ℤ} (hx : 0 ≤ x) {c : UInt8} (hc : c ∈ padded 48 width x) :
    c ∈ decimal.symbols := by
  rw [padded_eq hx] at hc
  obtain hc | hc := List.mem_append.mp hc
  · obtain rfl := List.eq_of_mem_replicate hc
    decide
  · exact decimal.mem_numeral hc

theorem padded_injective {width : ℕ} {x y : ℤ} (hx : 0 ≤ x) (hy : 0 ≤ y)
    (h : padded 48 width x = padded 48 width y) : x = y := by
  have hvalue : ∀ {z : ℤ}, 0 ≤ z → decimal.value (padded 48 width z) = some z.toNat := by
    intro z hz
    rw [padded_eq hz]
    exact (decimal.value_zeros _ _).trans (decimal.value_numeral _)
  have heq := hvalue hx
  rw [h, hvalue hy] at heq
  have hnat := Option.some.inj heq
  omega

end MuduoWindows.Base
