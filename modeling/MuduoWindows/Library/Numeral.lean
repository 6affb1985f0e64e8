import Mathlib.Data.List.TakeWhile
import Mathlib.Tactic

/-! # Positional numerals

Numerals over any symbols, the most significant digit first, and the numbers they denote.
-/

namespace MuduoWindows.Library

/-- The symbols of the digits from zero on. Their number is the base. -/
structure Numerals (α : Type*) where
  symbols : List α
  nodup : symbols.Nodup
  one_lt : 1 < symbols.length

namespace Numerals
variable {α : Type*} (s : Numerals α)

def base : ℕ := s.symbols.length

theorem one_lt_base : 1 < s.base := s.one_lt

theorem base_pos : 0 < s.base := Nat.lt_of_succ_lt s.one_lt

def digit (d : Fin s.base) : α := s.symbols.get d

/-- The last digit of a number. -/
def last (n : ℕ) : Fin s.base := ⟨n % s.base, Nat.mod_lt n s.base_pos⟩

/-- The numeral of a number, without leading zeros. -/
def numeral (n : ℕ) : List α :=
  if n < s.base then [s.digit (s.last n)]
  else numeral (n / s.base) ++ [s.digit (s.last n)]
termination_by n
decreasing_by
  have hpos := s.base_pos
  exact Nat.div_lt_self (by omega) s.one_lt

theorem numeral_of_lt {n : ℕ} (h : n < s.base) : s.numeral n = [s.digit (s.last n)] := by
  rw [numeral, if_pos h]

theorem numeral_of_le {n : ℕ} (h : s.base ≤ n) :
    s.numeral n = s.numeral (n / s.base) ++ [s.digit (s.last n)] := by
  rw [numeral, if_neg (not_lt.mpr h)]

/-- What holds of numbers with one digit, and of a number when it holds of its other digits. -/
theorem digits_induction {P : ℕ → Prop} (hone : ∀ n, n < s.base → P n)
    (hmore : ∀ n, s.base ≤ n → P (n / s.base) → P n) (n : ℕ) : P n := by
  induction n using Nat.strong_induction_on with
  | _ n ih =>
    by_cases h : n < s.base
    · exact hone n h
    · have hpos := s.base_pos
      exact hmore n (not_lt.mp h) (ih _ (Nat.div_lt_self (by omega) s.one_lt))

theorem numeral_ne_nil (n : ℕ) : s.numeral n ≠ [] := by
  rw [numeral]
  split_ifs <;> simp

theorem mem_numeral {n : ℕ} {c : α} : c ∈ s.numeral n → c ∈ s.symbols := by
  induction n using s.digits_induction with
  | hone n h =>
    rw [s.numeral_of_lt h]
    intro hc
    obtain rfl := List.mem_singleton.mp hc
    exact List.get_mem _ _
  | hmore n h ih =>
    rw [s.numeral_of_le h]
    intro hc
    obtain hc | hc := List.mem_append.mp hc
    · exact ih hc
    · obtain rfl := List.mem_singleton.mp hc
      exact List.get_mem _ _

/-- The numeral of a number that is not zero does not begin with the symbol of zero. -/
theorem numeral_head {n : ℕ} (hn : 0 < n) :
    (s.numeral n).head? ≠ some (s.digit ⟨0, s.base_pos⟩) := by
  induction n using s.digits_induction with
  | hone n h =>
    rw [s.numeral_of_lt h, List.head?_singleton]
    intro heq
    have hzero := Fin.val_eq_of_eq (s.nodup.injective_get (Option.some.inj heq))
    exact hn.ne' ((Nat.mod_eq_of_lt h).symm.trans hzero)
  | hmore n h ih =>
    rw [s.numeral_of_le h, List.head?_append_of_ne_nil _ (s.numeral_ne_nil _)]
    exact ih (Nat.div_pos h s.base_pos)

/-- Only the numeral of zero begins with the symbol of zero. -/
theorem numeral_leading {n : ℕ} (h : (s.numeral n).head? = some (s.digit ⟨0, s.base_pos⟩)) :
    s.numeral n = [s.digit ⟨0, s.base_pos⟩] := by
  obtain rfl | hpos := n.eq_zero_or_pos
  · rw [s.numeral_of_lt s.base_pos]
    exact congrArg (fun d => [s.digit d]) (Fin.ext (Nat.zero_mod _))
  · exact absurd h (s.numeral_head hpos)

theorem numeral_length_le {n k : ℕ} (h : n < s.base ^ (k + 1)) :
    (s.numeral n).length ≤ k + 1 := by
  induction n using s.digits_induction generalizing k with
  | hone n hn =>
    rw [s.numeral_of_lt hn]
    exact Nat.le_add_left 1 k
  | hmore n hn ih =>
    cases k with
    | zero =>
      rw [zero_add, pow_one] at h
      exact absurd hn (not_le.mpr h)
    | succ k =>
      have hrest : n / s.base < s.base ^ (k + 1) := Nat.div_lt_of_lt_mul (by rwa [← pow_succ'])
      rw [s.numeral_of_le hn, List.length_append]
      exact Nat.succ_le_succ (ih hrest)

/-- A number is below the power that has one digit more. -/
theorem lt_pow_length (n : ℕ) : n < s.base ^ (s.numeral n).length := by
  induction n using s.digits_induction with
  | hone n hn => rwa [s.numeral_of_lt hn, List.length_singleton, pow_one]
  | hmore n hn ih =>
    rw [s.numeral_of_le hn, List.length_append, List.length_singleton, pow_succ]
    exact (Nat.div_lt_iff_lt_mul s.base_pos).mp ih

theorem numeral_length_mono {m n : ℕ} (h : m ≤ n) :
    (s.numeral m).length ≤ (s.numeral n).length := by
  obtain ⟨k, hk⟩ := Nat.exists_eq_add_one_of_ne_zero
    (List.length_pos_of_ne_nil (s.numeral_ne_nil n)).ne'
  have hlt := s.lt_pow_length n
  rw [hk] at hlt ⊢
  exact s.numeral_length_le (h.trans_lt hlt)

/-- The first digits of a numeral are the numeral of the quotient. -/
theorem numeral_take {n k : ℕ} (hk : 0 < k) (hle : k ≤ (s.numeral n).length) :
    (s.numeral n).take k = s.numeral (n / s.base ^ ((s.numeral n).length - k)) := by
  induction n using s.digits_induction with
  | hone n hn =>
    have hone : k = 1 := by
      rw [s.numeral_of_lt hn, List.length_singleton] at hle
      omega
    rw [List.take_of_length_le (by rw [s.numeral_of_lt hn, hone, List.length_singleton]),
      Nat.sub_eq_zero_of_le (by rw [s.numeral_of_lt hn, hone, List.length_singleton]), pow_zero,
      Nat.div_one]
  | hmore n hn ih =>
    have hlength : (s.numeral n).length = (s.numeral (n / s.base)).length + 1 := by
      rw [s.numeral_of_le hn, List.length_append, List.length_singleton]
    obtain hall | hfront := Nat.eq_or_lt_of_le hle
    · rw [List.take_of_length_le hall.ge, hall, Nat.sub_self, pow_zero, Nat.div_one]
    · have hrest : k ≤ (s.numeral (n / s.base)).length := by omega
      have hpow : (s.numeral n).length - k = (s.numeral (n / s.base)).length - k + 1 := by omega
      rw [hpow, pow_succ', ← Nat.div_div_eq_div_mul, ← ih hrest, s.numeral_of_le hn,
        List.take_append_of_le_length hrest]

section Parse
variable [DecidableEq α]

def digitOf (c : α) : Option ℕ := if c ∈ s.symbols then some (s.symbols.idxOf c) else none

/-- The number a sequence of digits denotes. -/
def value (text : List α) : Option ℕ :=
  text.foldlM (fun v c => (s.digitOf c).map (v * s.base + ·)) 0

def parse (text : List α) : Option ℕ := if text = [] then none else s.value text

theorem digitOf_digit (d : Fin s.base) : s.digitOf (s.digit d) = some d.val := by
  have hmem : s.digit d ∈ s.symbols := List.get_mem _ _
  unfold digitOf
  rw [if_pos hmem]
  exact congrArg some (s.nodup.idxOf_getElem d d.isLt)

theorem value_concat (text : List α) (d : Fin s.base) :
    s.value (text ++ [s.digit d]) = (s.value text).map (· * s.base + d) := by
  unfold value
  rw [List.foldlM_append]
  cases List.foldlM (fun v c => (s.digitOf c).map (v * s.base + ·)) 0 text with
  | none => rfl
  | some v =>
    change ((s.digitOf (s.digit d)).map (v * s.base + ·)).bind _ = _
    rw [digitOf_digit]
    rfl

theorem value_numeral (n : ℕ) : s.value (s.numeral n) = some n := by
  induction n using s.digits_induction with
  | hone n h =>
    rw [s.numeral_of_lt h, ← List.nil_append [_], value_concat]
    have hvalue : 0 * s.base + n % s.base = n := by
      rw [Nat.zero_mul, Nat.zero_add, Nat.mod_eq_of_lt h]
    exact congrArg some hvalue
  | hmore n h ih =>
    rw [s.numeral_of_le h, value_concat, ih]
    exact congrArg some (Nat.div_add_mod' n s.base)

theorem value_zeros (k : ℕ) (text : List α) :
    s.value (List.replicate k (s.digit ⟨0, s.base_pos⟩) ++ text) = s.value text := by
  induction k with
  | zero => rfl
  | succ k ih =>
    rw [List.replicate_succ, List.cons_append]
    unfold value at ih ⊢
    rw [List.foldlM_cons, digitOf_digit, ← ih]
    change List.foldlM _ (0 * s.base + 0) _ = _
    rw [Nat.zero_mul]

@[simp] theorem parse_numeral (n : ℕ) : s.parse (s.numeral n) = some n := by
  rw [parse, if_neg (s.numeral_ne_nil n), value_numeral]

/-- A text of digits that denotes `n` and has no leading zeros. -/
structure IsNumeral (text : List α) (n : ℕ) : Prop where
  parse : s.parse text = some n
  symbols : ∀ c ∈ text, c ∈ s.symbols
  leading : text.head? = some (s.digit ⟨0, s.base_pos⟩) → text = [s.digit ⟨0, s.base_pos⟩]

theorem numeral_isNumeral (n : ℕ) : s.IsNumeral (s.numeral n) n :=
  ⟨s.parse_numeral n, fun _ => s.mem_numeral, s.numeral_leading⟩

theorem numeral_injective : Function.Injective s.numeral := by
  intro m n h
  have hm := s.parse_numeral m
  rw [h, s.parse_numeral n] at hm
  exact (Option.some.inj hm).symm

end Parse

/-- The numeral of a number, with zeros in front up to a width. -/
def padded (width n : ℕ) : List α :=
  List.replicate (width - (s.numeral n).length) (s.digit ⟨0, s.base_pos⟩) ++ s.numeral n

/-- The number `n / base ^ p` with `p` digits behind the point and at least one before it. -/
def fixedPoint (point : α) (p n : ℕ) : List α :=
  let digits := s.padded (p + 1) n
  if p = 0 then digits
  else digits.take (digits.length - p) ++ point :: digits.drop (digits.length - p)

theorem padded_length (width n : ℕ) :
    (s.padded width n).length = max width (s.numeral n).length := by
  rw [padded, List.length_append, List.length_replicate]
  omega

theorem mem_padded {width n : ℕ} {c : α} (hc : c ∈ s.padded width n) : c ∈ s.symbols := by
  obtain hc | hc := List.mem_append.mp hc
  · rw [List.eq_of_mem_replicate hc]
    exact List.get_mem _ _
  · exact s.mem_numeral hc

theorem fixedPoint_length_le (point : α) {p n k : ℕ} (hk : p ≤ k) (hn : n < s.base ^ (k + 1)) :
    (s.fixedPoint point p n).length ≤ k + 1 + (if p = 0 then 0 else 1) := by
  have hnumeral := s.numeral_length_le hn
  have hdigits : (s.padded (p + 1) n).length ≤ k + 1 := by
    rw [padded_length]
    omega
  unfold fixedPoint
  dsimp only
  split_ifs
  · exact hdigits
  · rw [List.length_append, List.length_cons, List.length_take, List.length_drop]
    omega

section Read
variable [DecidableEq α]

/-- The number that a text with a point denotes, and how many digits stand behind the point. -/
def readFixed (point : α) (text : List α) : Option (ℚ × ℕ) :=
  let whole := text.takeWhile (· ≠ point)
  let behind := (text.dropWhile (· ≠ point)).tail
  (s.parse (whole ++ behind)).map fun n => ((n : ℚ) / s.base ^ behind.length, behind.length)

theorem parse_padded {width : ℕ} (hwidth : 0 < width) (n : ℕ) :
    s.parse (s.padded width n) = some n := by
  have hne : s.padded width n ≠ [] := by
    rw [← List.length_pos_iff, padded_length]
    omega
  rw [parse, if_neg hne, padded, value_zeros, value_numeral]

theorem readFixed_fixedPoint {point : α} (hpoint : point ∉ s.symbols) (p n : ℕ) :
    s.readFixed point (s.fixedPoint point p n) = some ((n : ℚ) / s.base ^ p, p) := by
  have hparse := s.parse_padded p.succ_pos n
  have hlength := s.padded_length (p + 1) n
  have hdigit : ∀ c ∈ s.padded (p + 1) n, decide (c ≠ point) = true := by
    intro c hc
    refine decide_eq_true fun heq => hpoint ?_
    exact heq ▸ s.mem_padded hc
  unfold readFixed fixedPoint
  dsimp only
  generalize s.padded (p + 1) n = digits at *
  split_ifs with hp
  · rw [List.takeWhile_eq_self_iff.mpr hdigit, List.dropWhile_eq_nil_iff.mpr hdigit, hp,
      List.tail_nil, List.append_nil, hparse]
    rfl
  · have hfront : ∀ c ∈ digits.take (digits.length - p), decide (c ≠ point) = true :=
      fun c hc => hdigit c (List.mem_of_mem_take hc)
    have hbehind : (digits.drop (digits.length - p)).length = p := by
      rw [List.length_drop]
      omega
    rw [List.takeWhile_append_of_pos hfront, List.dropWhile_append_of_pos hfront,
      List.takeWhile_cons_of_neg (by simp), List.dropWhile_cons_of_neg (by simp), List.append_nil,
      List.tail_cons, List.take_append_drop, hparse, hbehind]
    rfl

end Read
end Numerals
end MuduoWindows.Library
