import MuduoWindows.Base.LogStream.Convert
import MuduoWindows.Base.TimeZone

/-! # base/logFile.cpp: the names of log files

A name contains the second in which the file was opened. `gmtime` goes on where `gmtime_s` of the C
library fails, before 1970 and after the year 3000.
-/

namespace MuduoWindows.Base
open Library Gregorian

/-- The date of a Julian day number. -/
def dateOfDay (j : ℤ) : Date :=
  let a := j + 32044
  let b := (4 * a + 3) / 146097
  let c := a - b * 146097 / 4
  let d := (4 * c + 3) / 1461
  let e := c - 1461 * d / 4
  Date.ofMarch (100 * b + d - 4800) e

def gmtime (t : ℤ) : Moment :=
  momentOf (dateOfDay (t / kSecondsPerDay + 2440588)) (t % kSecondsPerDay)

/-- The format `".%Y%m%d-%H%M%S."`. -/
def strftime (tm : Moment) : List UInt8 :=
  ascii "." ++ integerText tm.date.year ++ padded 48 2 tm.date.month ++ padded 48 2 tm.date.day ++
    ascii "-" ++ padded 48 2 tm.hour ++ padded 48 2 tm.minute ++ padded 48 2 tm.second ++ ascii "."

/-- `hostname` is what `ProcessInfo::hostname()` gives in this call. -/
def getLogFileName (basename hostname : List UInt8) (pid now : ℤ) : List UInt8 :=
  basename ++ strftime (gmtime now) ++ hostname ++ ascii "." ++ integerText pid ++ ascii ".log"

variable {j t t' : ℤ}

theorem dateOfDay_valid (hj : -32044 ≤ j) :
    (dateOfDay j).Valid ∧ dayNumber (dateOfDay j) = j := by
  have h := parts_of_day (show 0 ≤ j + 32044 by omega) rfl rfl rfl rfl
  have hnumber := h.dayNumber
  rw [add_sub_cancel_right] at hnumber
  exact ⟨Date.valid_ofMarch h.inYear, hnumber⟩

theorem dateOfDay_year (hj : 2440588 ≤ j) : 0 ≤ (dateOfDay j).year := by
  have h := parts_of_day (show 0 ≤ j + 32044 by omega) rfl rfl rfl rfl
  have hday := h.day
  unfold dateOfDay Date.ofMarch
  dsimp only
  omega

theorem gmtime_valid (ht : 0 ≤ t) :
    (gmtime t).Valid ∧ 0 ≤ (gmtime t).date.year ∧ secondsSinceEpoch (gmtime t) = t := by
  have hk : kSecondsPerDay = 86400 := rfl
  have hday : 2440588 ≤ t / kSecondsPerDay + 2440588 := by
    rw [hk]
    omega
  obtain ⟨hdate, hnumber⟩ := dateOfDay_valid (j := t / kSecondsPerDay + 2440588) (by omega)
  have hmod := Int.emod_nonneg t (show kSecondsPerDay ≠ 0 by decide)
  have hlt := Int.emod_lt_of_pos t (show 0 < kSecondsPerDay by decide)
  refine ⟨momentOf_valid hdate hmod hlt, dateOfDay_year hday, ?_⟩
  unfold gmtime secondsSinceEpoch
  rw [secondOfDay_momentOf]
  unfold momentOf
  dsimp only
  rw [hnumber, hk]
  omega

theorem append_cons_inj {c : UInt8} {d d' x x' : List UInt8} (hd : c ∉ d) (hd' : c ∉ d')
    (h : d ++ c :: x = d' ++ c :: x') : d = d' ∧ x = x' := by
  induction d generalizing d' with
  | nil =>
    cases d' with
    | nil => exact ⟨rfl, (List.cons.inj h).2⟩
    | cons a d' => exact absurd ((List.cons.inj h).1 ▸ List.mem_cons_self) hd'
  | cons a d ih =>
    cases d' with
    | nil => exact absurd ((List.cons.inj h).1 ▸ List.mem_cons_self) hd
    | cons a' d' =>
      obtain ⟨rfl, hrest⟩ := List.cons.inj h
      obtain ⟨rfl, rfl⟩ :=
        ih (mt (List.mem_cons_of_mem a) hd) (mt (List.mem_cons_of_mem a) hd') hrest
      exact ⟨rfl, rfl⟩

theorem two_digits {x : ℤ} (hx : 0 ≤ x) (hlt : x < 100) : (padded 48 2 x).length = 2 :=
  padded_length hx (integerText_length_le hx hlt)

theorem two_digits_inj {x y : ℤ} (hx : 0 ≤ x ∧ x < 100) (hy : 0 ≤ y ∧ y < 100)
    {s s' : List UInt8} (h : padded 48 2 x ++ s = padded 48 2 y ++ s') : x = y ∧ s = s' := by
  have hlength := (two_digits hx.1 hx.2).trans (two_digits hy.1 hy.2).symm
  obtain ⟨hfield, hrest⟩ := List.append_inj h hlength
  exact ⟨padded_injective hx.1 hy.1 hfield, hrest⟩

theorem separator_notMem {m : Moment} (hm : m.Valid) (hyear : 0 ≤ m.date.year) :
    45 ∉ integerText m.date.year ++ (padded 48 2 m.date.month ++ padded 48 2 m.date.day) := by
  have hmonth := hm.date.month
  have hday := hm.date.day
  have hno : (45 : UInt8) ∉ decimal.symbols := by decide
  intro hmem
  refine hno ?_
  obtain hmem | hmem := List.mem_append.mp hmem
  · unfold integerText at hmem
    rw [if_neg (not_lt.mpr hyear)] at hmem
    exact decimal.mem_numeral hmem
  · obtain hmem | hmem := List.mem_append.mp hmem
    · exact mem_padded (by omega) hmem
    · exact mem_padded (by omega) hmem

theorem strftime_inj {m n : Moment} (hm : m.Valid) (hn : n.Valid) (hmy : 0 ≤ m.date.year)
    (hny : 0 ≤ n.date.year) {x y : List UInt8} (h : strftime m ++ x = strftime n ++ y) : m = n := by
  have hmonth := hm.date.month
  have hmonth' := hn.date.month
  have hday := hm.date.day
  have hday' := hn.date.day
  have hdays := Date.daysOfMonth_pos m.date.year m.date.month
  have hdays' := Date.daysOfMonth_pos n.date.year n.date.month
  have hsm := separator_notMem hm hmy
  have hsn := separator_notMem hn hny
  obtain ⟨-, hh, hmi, hs⟩ := hm
  obtain ⟨-, hh', hmi', hs'⟩ := hn
  obtain ⟨⟨year, month, day⟩, hour, minute, second⟩ := m
  obtain ⟨⟨year', month', day'⟩, hour', minute', second'⟩ := n
  dsimp only at *
  unfold strftime at h
  simp only [List.append_assoc] at h
  have hcut : (integerText year ++ (padded 48 2 month ++ padded 48 2 day)) ++ 45 ::
        (padded 48 2 hour ++ (padded 48 2 minute ++ (padded 48 2 second ++ (ascii "." ++ x)))) =
      (integerText year' ++ (padded 48 2 month' ++ padded 48 2 day')) ++ 45 ::
        (padded 48 2 hour' ++ (padded 48 2 minute' ++
          (padded 48 2 second' ++ (ascii "." ++ y)))) := by
    rw [List.append_assoc, List.append_assoc, List.append_assoc, List.append_assoc]
    exact List.append_cancel_left h
  obtain ⟨hdate, htime⟩ := append_cons_inj hsm hsn hcut
  have htwo : (padded 48 2 month ++ padded 48 2 day).length =
      (padded 48 2 month' ++ padded 48 2 day').length := by
    rw [List.length_append, List.length_append, two_digits (by omega) (by omega),
      two_digits (by omega) (by omega), two_digits (by omega) (by omega),
      two_digits (by omega) (by omega)]
  obtain ⟨hyear, hmd⟩ := List.append_inj' hdate htwo
  obtain rfl := integerText_injective hyear
  obtain ⟨rfl, hd⟩ := two_digits_inj (by omega) (by omega) hmd
  obtain rfl := padded_injective (by omega) (by omega) hd
  obtain ⟨rfl, hms⟩ := two_digits_inj (by omega) (by omega) htime
  obtain ⟨rfl, hseconds⟩ := two_digits_inj (by omega) (by omega) hms
  obtain ⟨rfl, -⟩ := two_digits_inj (by omega) (by omega) hseconds
  rfl

/-- Whatever the name of the host is, a name tells the second in which it was made. -/
theorem getLogFileName_inj {basename host host' : List UInt8} {pid : ℤ} (ht : 0 ≤ t) (ht' : 0 ≤ t')
    (h : getLogFileName basename host pid t = getLogFileName basename host' pid t') : t = t' := by
  obtain ⟨hv, hyear, hsecond⟩ := gmtime_valid ht
  obtain ⟨hv', hyear', hsecond'⟩ := gmtime_valid ht'
  unfold getLogFileName at h
  simp only [List.append_assoc] at h
  have heq := strftime_inj hv hv' hyear hyear' (List.append_cancel_left h)
  rw [← hsecond, heq, hsecond']

end MuduoWindows.Base
