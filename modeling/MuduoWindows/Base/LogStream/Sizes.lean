import MuduoWindows.Base.LogStream.Convert
import MuduoWindows.Library.Rounding

/-! # base/logStream.cpp: formatSI and formatIEC

The arithmetic of `double` is exact here. `snprintf` rounds to a nearest decimal number, in the
middle of two to either.
-/

namespace MuduoWindows.Base
open Library

variable (r : Nearest)

/-- The format `"%.pf"`. -/
def fixed (p : ℕ) (x : ℚ) : List UInt8 :=
  (if x < 0 then ascii "-" else []) ++ decimal.fixedPoint 46 p (r.toInt (x * 10 ^ p)).natAbs

def formatSI (s : ℤ) : List UInt8 :=
  let n : ℚ := s + 0.5
  if s < 1000 then integerText s
  else if s < 9995 then fixed r 2 (n / 1e3) ++ ascii "k"
  else if s < 99950 then fixed r 1 (n / 1e3) ++ ascii "k"
  else if s < 999500 then fixed r 0 (n / 1e3) ++ ascii "k"
  else if s < 9995000 then fixed r 2 (n / 1e6) ++ ascii "M"
  else if s < 99950000 then fixed r 1 (n / 1e6) ++ ascii "M"
  else if s < 999500000 then fixed r 0 (n / 1e6) ++ ascii "M"
  else if s < 9995000000 then fixed r 2 (n / 1e9) ++ ascii "G"
  else if s < 99950000000 then fixed r 1 (n / 1e9) ++ ascii "G"
  else if s < 999500000000 then fixed r 0 (n / 1e9) ++ ascii "G"
  else if s < 9995000000000 then fixed r 2 (n / 1e12) ++ ascii "T"
  else if s < 99950000000000 then fixed r 1 (n / 1e12) ++ ascii "T"
  else if s < 999500000000000 then fixed r 0 (n / 1e12) ++ ascii "T"
  else if s < 9995000000000000 then fixed r 2 (n / 1e15) ++ ascii "P"
  else if s < 99950000000000000 then fixed r 1 (n / 1e15) ++ ascii "P"
  else if s < 999500000000000000 then fixed r 0 (n / 1e15) ++ ascii "P"
  else fixed r 2 (n / 1e18) ++ ascii "E"

def formatIEC (s : ℤ) : List UInt8 :=
  let n : ℚ := s
  let Ki : ℚ := 1024.0
  let Mi := Ki * 1024.0
  let Gi := Mi * 1024.0
  let Ti := Gi * 1024.0
  let Pi := Ti * 1024.0
  let Ei := Pi * 1024.0
  if n < Ki then integerText s
  else if n < Ki * 9.995 then fixed r 2 (n / Ki) ++ ascii "Ki"
  else if n < Ki * 99.95 then fixed r 1 (n / Ki) ++ ascii "Ki"
  else if n < Ki * 1023.5 then fixed r 0 (n / Ki) ++ ascii "Ki"
  else if n < Mi * 9.995 then fixed r 2 (n / Mi) ++ ascii "Mi"
  else if n < Mi * 99.95 then fixed r 1 (n / Mi) ++ ascii "Mi"
  else if n < Mi * 1023.5 then fixed r 0 (n / Mi) ++ ascii "Mi"
  else if n < Gi * 9.995 then fixed r 2 (n / Gi) ++ ascii "Gi"
  else if n < Gi * 99.95 then fixed r 1 (n / Gi) ++ ascii "Gi"
  else if n < Gi * 1023.5 then fixed r 0 (n / Gi) ++ ascii "Gi"
  else if n < Ti * 9.995 then fixed r 2 (n / Ti) ++ ascii "Ti"
  else if n < Ti * 99.95 then fixed r 1 (n / Ti) ++ ascii "Ti"
  else if n < Ti * 1023.5 then fixed r 0 (n / Ti) ++ ascii "Ti"
  else if n < Pi * 9.995 then fixed r 2 (n / Pi) ++ ascii "Pi"
  else if n < Pi * 99.95 then fixed r 1 (n / Pi) ++ ascii "Pi"
  else if n < Pi * 1023.5 then fixed r 0 (n / Pi) ++ ascii "Pi"
  else if n < Ei * 9.995 then fixed r 2 (n / Ei) ++ ascii "Ei"
  else fixed r 1 (n / Ei) ++ ascii "Ei"

def siUnits : List (List UInt8 × ℕ) :=
  [(ascii "k", 10 ^ 3), (ascii "M", 10 ^ 6), (ascii "G", 10 ^ 9), (ascii "T", 10 ^ 12),
    (ascii "P", 10 ^ 15), (ascii "E", 10 ^ 18)]

def iecUnits : List (List UInt8 × ℕ) :=
  [(ascii "Ki", 2 ^ 10), (ascii "Mi", 2 ^ 20), (ascii "Gi", 2 ^ 30), (ascii "Ti", 2 ^ 40),
    (ascii "Pi", 2 ^ 50), (ascii "Ei", 2 ^ 60)]

/-- A text is a mantissa `q` with `places` digits behind the point, and a unit. -/
def Shows (units : List (List UInt8 × ℕ)) (text : List UInt8) (q : ℚ) (places unit : ℕ) : Prop :=
  ∃ mantissa symbol, (symbol, unit) ∈ units ∧ text = mantissa ++ symbol ∧
    decimal.readFixed 46 mantissa = some (q, places)

/-- The number is shown with its three first digits, in a unit that leaves one to three before the
point. -/
def ReadableSI (s : ℤ) (text : List UInt8) : Prop :=
  text.length ≤ 5 ∧ ∃ q places unit, Shows siUnits text q places unit ∧ 1 ≤ q ∧ q ≤ 999 ∧
    q * unit = significant 3 s

/-- The number is shown up to half a unit of the last digit, in a unit that leaves one to four
digits before the point. -/
def ReadableIEC (s : ℤ) (text : List UInt8) : Prop :=
  text.length ≤ 6 ∧ ∃ q places unit, Shows iecUnits text q places unit ∧ 1 ≤ q ∧ q ≤ 1023 ∧
    |q - s / unit| ≤ 1 / 2 / 10 ^ places

variable {r} {s : ℤ} {x : ℚ} {p unit : ℕ} {symbol : List UInt8}

theorem fixed_eq (top : ℕ) (hlow : 199 / 2 < x * 10 ^ p) (hhigh : x * 10 ^ p < top + 1 / 2) :
    ∃ m : ℕ, 100 ≤ m ∧ m ≤ top ∧ r.toInt (x * 10 ^ p) = m ∧
      fixed r p x = decimal.fixedPoint 46 p m := by
  have hle : 100 ≤ r.toInt (x * 10 ^ p) := r.le_toInt (by push_cast; linarith)
  have hge : r.toInt (x * 10 ^ p) ≤ top := r.toInt_le hhigh
  have hx : ¬ x < 0 := by
    intro hneg
    have hpos : (0 : ℚ) < 10 ^ p := by positivity
    nlinarith
  refine ⟨(r.toInt (x * 10 ^ p)).natAbs, by omega, by omega, by omega, ?_⟩
  rw [fixed, if_neg hx, List.nil_append]

theorem shows_fixedPoint {units : List (List UInt8 × ℕ)} (hunit : (symbol, unit) ∈ units)
    (m : ℕ) : Shows units (decimal.fixedPoint 46 p m ++ symbol) (m / 10 ^ p) p unit := by
  have hread := decimal.readFixed_fixedPoint (show (46 : UInt8) ∉ decimal.symbols by decide) p m
  exact ⟨_, _, hunit, rfl, hread⟩

theorem mem_siUnits_length (hunit : (symbol, unit) ∈ siUnits) : symbol.length = 1 :=
  (show ∀ u ∈ siUnits, u.1.length = 1 by decide) _ hunit

theorem mem_iecUnits_length (hunit : (symbol, unit) ∈ iecUnits) : symbol.length = 2 :=
  (show ∀ u ∈ iecUnits, u.1.length = 2 by decide) _ hunit

theorem fixedPoint_length {m : ℕ} (hp : p ≤ 2) (hm : m < 1000) :
    (decimal.fixedPoint 46 p m).length ≤ 4 := by
  have hlength := decimal.fixedPoint_length_le 46 (k := 2) hp hm
  split_ifs at hlength <;> omega

theorem mantissa_bounds {m top : ℕ} (hp : p ≤ 2) (hlow : 100 ≤ m) (hhigh : m ≤ top) :
    1 ≤ (m : ℚ) / 10 ^ p ∧ (m : ℚ) / 10 ^ p ≤ top := by
  have hone : (1 : ℚ) ≤ 10 ^ p := one_le_pow₀ (by norm_num)
  have hpow : (10 : ℚ) ^ p ≤ 10 ^ 2 := pow_le_pow_right₀ (by norm_num) hp
  have hlow' : (100 : ℚ) ≤ m := by exact_mod_cast hlow
  have hhigh' : (m : ℚ) ≤ top := by exact_mod_cast hhigh
  rw [le_div_iff₀ (by linarith), div_le_iff₀ (by linarith)]
  constructor <;> nlinarith

/-- A branch of `formatSI` prints multiples of `10 ^ (e - p)`. The number is rounded to a hundred of
them at least, and to fewer than a thousand. -/
theorem fixed_readableSI (e : ℕ) (hp : p ≤ 2) (hpe : p < e) (hunit : (symbol, 10 ^ e) ∈ siUnits)
    (hlow : 1999 * 10 ^ (e - p) ≤ 20 * s) (hhigh : 2 * s < 1999 * 10 ^ (e - p))
    (hx : x = (s + 1 / 2) / 10 ^ e) : ReadableSI s (fixed r p x ++ symbol) := by
  have hg : (0 : ℚ) < 10 ^ (e - p) := by positivity
  have hpow : (10 : ℚ) ^ e = 10 ^ (e - p) * 10 ^ p := by
    rw [← pow_add, Nat.sub_add_cancel hpe.le]
  have hscaled : x * 10 ^ p = (s + 1 / 2) / (10 ^ (e - p) : ℕ) := by
    rw [hx, hpow]
    push_cast
    field_simp
  have heven : Even (10 ^ (e - p)) := (by decide : Even 10).pow_of_ne_zero (by omega)
  have hround := r.toInt_add_half (s := s) (by positivity) heven
  have hlow' : (1999 : ℚ) * 10 ^ (e - p) ≤ 20 * s := by exact_mod_cast hlow
  -- The bound is an integer, so half a unit more does not reach it.
  have hnext : 2 * s + 2 ≤ 1999 * 10 ^ (e - p) := by
    obtain ⟨h, hh⟩ := heven
    have hint : (10 : ℤ) ^ (e - p) = h + h := by exact_mod_cast hh
    omega
  have hnext' : 2 * (s : ℚ) + 2 ≤ 1999 * 10 ^ (e - p) := by exact_mod_cast hnext
  obtain ⟨m, hm, hmtop, hint, heq⟩ := fixed_eq (r := r) (p := p) (x := x) 999
    (by rw [hscaled]; push_cast; rw [lt_div_iff₀ hg]; linarith)
    (by rw [hscaled]; push_cast; rw [div_lt_iff₀ hg]; linarith)
  have hvalue : significant 3 s = m * 10 ^ (e - p) := by
    have hsig := significant_eq (k := 2) (e := (e - p : ℕ)) (x := s)
      (by rw [zpow_natCast]; norm_num1; linarith) (by rw [zpow_natCast]; norm_num1; linarith)
    rw [hscaled, hround] at hint
    rw [hsig, zpow_natCast, ← Int.cast_natCast m, ← hint]
    push_cast
    rfl
  obtain ⟨hone, htop⟩ := mantissa_bounds hp hm hmtop
  rw [heq]
  refine ⟨?_, _, _, _, shows_fixedPoint hunit m, hone, htop, ?_⟩
  · rw [List.length_append, mem_siUnits_length hunit]
    exact Nat.succ_le_succ (fixedPoint_length hp (by omega))
  · rw [hvalue]
    push_cast
    rw [hpow]
    field_simp

/-- A branch of `formatIEC`. The mantissa has three digits, or four if no point is printed. -/
theorem fixed_readableIEC (e top : ℕ) (hp : p ≤ 2) (htop : top ≤ 999 ∨ p = 0 ∧ top ≤ 1023)
    (hunit : (symbol, 2 ^ e) ∈ iecUnits) (hlow : 199 * 2 ^ e < 2 * (s * 10 ^ p : ℚ))
    (hhigh : 2 * (s * 10 ^ p : ℚ) < (2 * top + 1) * 2 ^ e) (hx : x = s / 2 ^ e) :
    ReadableIEC s (fixed r p x ++ symbol) := by
  have hunit' : (0 : ℚ) < 2 ^ e := by positivity
  have hscaled : x * 10 ^ p = s * 10 ^ p / 2 ^ e := by
    rw [hx]
    ring
  obtain ⟨m, hm, hmtop, hint, heq⟩ := fixed_eq (r := r) (p := p) (x := x) top
    (by rw [hscaled, lt_div_iff₀ hunit']; linarith)
    (by rw [hscaled, div_lt_iff₀ hunit']; linarith)
  obtain ⟨hone, hle⟩ := mantissa_bounds hp hm (show m ≤ 1023 by omega)
  rw [heq]
  refine ⟨?_, _, _, _, shows_fixedPoint hunit m, hone, by exact_mod_cast hle, ?_⟩
  · rw [List.length_append, mem_iecUnits_length hunit]
    refine Nat.add_le_add_right ?_ 2
    obtain htop | ⟨rfl, htop⟩ := htop
    · exact fixedPoint_length hp (by omega)
    · exact decimal.fixedPoint_length_le 46 (k := 3) (by decide)
        (show m < 10 ^ 4 by omega)
  · have hpow : (0 : ℚ) < 10 ^ p := by positivity
    have hnear := r.near (x * 10 ^ p)
    have hdiff : (m : ℚ) / 10 ^ p - s / (2 ^ e : ℕ) = ((m : ℤ) - x * 10 ^ p) / 10 ^ p := by
      rw [hx]
      push_cast
      field_simp
    rw [hdiff, abs_div, abs_of_pos hpow, ← hint]
    exact div_le_div_of_nonneg_right hnear hpow.le

theorem unit_readableSI (j : ℕ) {a b c : ℤ} {rest : List UInt8}
    (hunit : (symbol, 10 ^ (j + 3)) ∈ siUnits) (ha : 2 * a = 1999 * 10 ^ (j + 1))
    (hb : b = 10 * a) (hc : c = 10 * b) (hx : x = (s + 1 / 2) / 10 ^ (j + 3))
    (hlow : 1999 * 10 ^ (j + 1) ≤ 20 * s) (hrest : c ≤ s → ReadableSI s rest) :
    ReadableSI s (if s < a then fixed r 2 x ++ symbol else if s < b then fixed r 1 x ++ symbol
      else if s < c then fixed r 0 x ++ symbol else rest) := by
  have hone : (10 : ℤ) ^ (j + 3 - 2) = 10 ^ (j + 1) := rfl
  have htwo : (10 : ℤ) ^ (j + 3 - 1) = 10 * 10 ^ (j + 1) := pow_succ' 10 (j + 1)
  have hthree : (10 : ℤ) ^ (j + 3 - 0) = 10 * (10 * 10 ^ (j + 1)) := by
    rw [← pow_succ', ← pow_succ']
    rfl
  refine iteInduction (fun _ => ?_) fun _ => iteInduction (fun _ => ?_) fun _ =>
    iteInduction (fun _ => ?_) fun h => hrest (not_lt.mp h)
  · exact fixed_readableSI _ (by decide) (by omega) hunit (by omega) (by omega) hx
  · exact fixed_readableSI _ (by decide) (by omega) hunit (by omega) (by omega) hx
  · exact fixed_readableSI _ (by decide) (by omega) hunit (by omega) (by omega) hx

theorem formatSI_readable (hs : 1000 ≤ s) (hmax : s < 2 ^ 63) : ReadableSI s (formatSI r s) := by
  unfold formatSI
  refine iteInduction (fun h => absurd hs (not_le.mpr h)) fun _ => ?_
  refine unit_readableSI 0 (by decide) rfl rfl rfl (by norm_num) (by omega) fun _ => ?_
  refine unit_readableSI 3 (by decide) rfl rfl rfl (by norm_num) (by omega) fun _ => ?_
  refine unit_readableSI 6 (by decide) rfl rfl rfl (by norm_num) (by omega) fun _ => ?_
  refine unit_readableSI 9 (by decide) rfl rfl rfl (by norm_num) (by omega) fun _ => ?_
  refine unit_readableSI 12 (by decide) rfl rfl rfl (by norm_num) (by omega) fun _ => ?_
  exact fixed_readableSI 18 (by decide) (by decide) (by decide) (by omega) (by omega)
    (by norm_num)

theorem unit_readableIEC (e : ℕ) {u : ℚ} {rest : List UInt8} (hunit : (symbol, 2 ^ e) ∈ iecUnits)
    (hu : u = 2 ^ e) (hlow : u * 0.9995 ≤ s) (hrest : u * 1023.5 ≤ s → ReadableIEC s rest) :
    ReadableIEC s (if (s : ℚ) < u * 9.995 then fixed r 2 (s / u) ++ symbol
      else if (s : ℚ) < u * 99.95 then fixed r 1 (s / u) ++ symbol
      else if (s : ℚ) < u * 1023.5 then fixed r 0 (s / u) ++ symbol else rest) := by
  have hpos : (0 : ℚ) < 2 ^ e := by positivity
  subst hu
  norm_num1 at hlow hrest ⊢
  refine iteInduction (fun _ => ?_) fun _ => iteInduction (fun _ => ?_) fun _ =>
    iteInduction (fun _ => ?_) fun h => hrest (not_lt.mp h)
  · exact fixed_readableIEC e 999 le_rfl (.inl le_rfl) hunit (by linarith)
      (by push_cast; linarith) rfl
  · exact fixed_readableIEC e 999 (by decide) (.inl le_rfl) hunit (by linarith)
      (by push_cast; linarith) rfl
  · exact fixed_readableIEC e 1023 (by decide) (.inr ⟨rfl, le_rfl⟩) hunit (by linarith)
      (by push_cast; linarith) rfl

theorem formatIEC_readable (hs : 1024 ≤ s) (hmax : s < 2 ^ 63) :
    ReadableIEC s (formatIEC r s) := by
  have hs' : (1024 : ℚ) ≤ s := by exact_mod_cast hs
  have hmax' : (s : ℚ) < 2 ^ 63 := by exact_mod_cast hmax
  unfold formatIEC
  refine iteInduction (fun h => absurd h (by norm_num1; linarith)) fun _ => ?_
  refine unit_readableIEC 10 (by decide) (by norm_num) (by norm_num1; linarith) fun h => ?_
  refine unit_readableIEC 20 (by decide) (by norm_num) (by linarith) fun h => ?_
  refine unit_readableIEC 30 (by decide) (by norm_num) (by linarith) fun h => ?_
  refine unit_readableIEC 40 (by decide) (by norm_num) (by linarith) fun h => ?_
  refine unit_readableIEC 50 (by decide) (by norm_num) (by linarith) fun h => ?_
  norm_num1 at h ⊢
  refine iteInduction (fun _ => ?_) fun h => absurd hmax' (by linarith)
  exact fixed_readableIEC 60 999 le_rfl (.inl le_rfl) (by decide) (by linarith)
    (by push_cast; linarith) (by norm_num)

theorem formatSI_small (hs : 0 ≤ s) (hlt : s < 1000) : (formatSI r s).length ≤ 3 := by
  rw [formatSI, if_pos hlt]
  exact integerText_length_le hs hlt

theorem formatIEC_small (hs : 0 ≤ s) (hlt : s < 1024) : (formatIEC r s).length ≤ 4 := by
  have hlt' : (s : ℚ) < 1024.0 := by
    norm_num1
    exact_mod_cast hlt
  rw [formatIEC, if_pos hlt']
  exact integerText_length_le hs (hlt.trans (by decide))

/-- For every size: both texts are short, and from the first unit on they show the size, to three
significant digits or up to half a unit of the last digit. -/
theorem sizes_readable (hs : 0 ≤ s) (hmax : s < 2 ^ 63) :
    ((formatSI r s).length ≤ 5 ∧ (1000 ≤ s → ReadableSI s (formatSI r s))) ∧
      (formatIEC r s).length ≤ 6 ∧ (1024 ≤ s → ReadableIEC s (formatIEC r s)) := by
  refine ⟨⟨?_, fun h => formatSI_readable h hmax⟩, ?_, fun h => formatIEC_readable h hmax⟩
  · obtain hlt | hle := lt_or_ge s 1000
    · exact (formatSI_small hs hlt).trans (by decide)
    · exact (formatSI_readable hle hmax).1
  · obtain hlt | hle := lt_or_ge s 1024
    · exact (formatIEC_small hs hlt).trans (by decide)
    · exact (formatIEC_readable hle hmax).1

/-- Halfway between two texts the larger one is printed. -/
theorem sizes_readable_halfway : ∃ q places unit,
    Shows siUnits (formatSI .even 10050) q places unit ∧ q * unit = 10100 := by
  obtain ⟨⟨-, hreadable⟩, -⟩ := sizes_readable (r := .even) (s := 10050) (by decide) (by decide)
  obtain ⟨-, q, places, unit, hshows, -, -, hvalue⟩ := hreadable (by decide)
  refine ⟨q, places, unit, hshows, hvalue.trans ?_⟩
  have hsig := significant_eq (k := 2) (e := 2) (x := (10050 : ℤ)) (by norm_num) (by norm_num)
  have hround : round (((10050 : ℤ) : ℚ) / 10 ^ (2 : ℤ)) = 101 := by
    rw [round_eq, Int.floor_eq_iff]
    norm_num
  rw [hsig, hround]
  norm_num

end MuduoWindows.Base
