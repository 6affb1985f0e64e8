import MuduoWindows.Library.CInt
import MuduoWindows.Library.Gregorian

/-! # base/Date.cpp: Julian day numbers

Both functions count years from 1 March, so that a leap day is the last day of its year: a day is
the day `e` of the year `d` of a century `b` since 1 March of the year -4800, and in a year the
month `m` begins with the day `(153 * m + 2) / 5`.
-/

namespace MuduoWindows.Base
open Library

/-- `Date::YearMonthDay`; the other fields are not set. -/
structure YearMonthDay where
  year : CInt
  month : CInt
  day : CInt

def YearMonthDay.ofDate (date : Gregorian.Date) : YearMonthDay :=
  ⟨.ofInt date.year, .ofInt date.month, .ofInt date.day⟩

def YearMonthDay.date (ymd : YearMonthDay) : Option Gregorian.Date := do
  let year ← ymd.year.value
  let month ← ymd.month.value
  let day ← ymd.day.value
  return ⟨year, month, day⟩

def getJulianDayNumber (year month day : CInt) : CInt :=
  let a := (14 - month) / 12
  let y := year + 4800 - a
  let m := month + 12 * a - 3
  day + (153 * m + 2) / 5 + y * 365 + y / 4 - y / 100 + y / 400 - 32045

def getYearMonthDay (julianDayNumber : CInt) : YearMonthDay :=
  let a := julianDayNumber + 32044
  let b := (4 * a + 3) / 146097
  let c := a - (b * 146097) / 4
  let d := (4 * c + 3) / 1461
  let e := c - (1461 * d) / 4
  let m := (5 * e + 2) / 153
  { day := e - ((153 * m + 2) / 5) + 1
    month := m + 3 - 12 * (m / 10)
    year := b * 100 + d - 4800 + (m / 10) }

/-- The day `e` of the year `d` of the century `b` is the day `a`. -/
structure Parts (a b d e : ℤ) : Prop where
  century : 0 ≤ b
  year : 0 ≤ d ∧ d ≤ 99
  day : 0 ≤ e ∧ e ≤ 365
  leap : e = 365 → d % 4 = 3 ∧ (d = 99 → b % 4 = 3)
  sum : a = 36524 * b + b / 4 + 365 * d + d / 4 + e

theorem century_days (b : ℤ) : b * 146097 / 4 = 36524 * b + b / 4 := by omega

theorem year_days (d : ℤ) : 1461 * d / 4 = 365 * d + d / 4 := by omega

variable {a b c d e m : ℤ}

theorem parts_of_day (ha : 0 ≤ a) (hb : b = (4 * a + 3) / 146097) (hc : c = a - b * 146097 / 4)
    (hd : d = (4 * c + 3) / 1461) (he : e = c - 1461 * d / 4) : Parts a b d e := by
  rw [century_days] at hc
  rw [year_days] at he
  have hc0 : 0 ≤ c ∧ c ≤ 36524 ∧ (c = 36524 → b % 4 = 3) := by omega
  refine ⟨by omega, by omega, by omega, fun hlast => ⟨by omega, fun _ => hc0.2.2 (by omega)⟩, ?_⟩
  omega

theorem Parts.unique (h : Parts a b d e) : (4 * a + 3) / 146097 = b ∧
    (4 * (a - b * 146097 / 4) + 3) / 1461 = d ∧
    a - b * 146097 / 4 - 1461 * d / 4 = e := by
  obtain ⟨hb, hd, he, hleap, ha⟩ := h
  rw [century_days, year_days]
  have hc : a - (36524 * b + b / 4) = 365 * d + d / 4 + e := by omega
  refine ⟨?_, by rw [hc]; omega, by omega⟩
  by_cases hlast : e = 365
  · obtain ⟨h4, h99⟩ := hleap hlast
    by_cases hd99 : d = 99
    · have := h99 hd99
      omega
    · omega
  · omega

open Gregorian.Date

theorem Parts.inYear (h : Parts a b d e) : InYear (100 * b + d - 4800) e := by
  refine ⟨h.day.1, h.day.2, fun hlast => ?_⟩
  have hd := h.year
  obtain ⟨h4, h99⟩ := h.leap hlast
  unfold Gregorian.IsLeap
  obtain rfl | hd99 := eq_or_ne d 99
  · have hb := h99 rfl
    omega
  · omega

/-- The Julian day number of a date, an unbounded number: 1 March of the year 0 has 1721120. -/
def dayNumber (date : Gregorian.Date) : ℤ := date.toDays + 1721120

/-- The day numbers for which `getYearMonthDay` has a result. -/
abbrev Convertible (j : ℤ) : Prop := -32044 ≤ j ∧ j ≤ 536838867

variable {date date' : Gregorian.Date} {j : ℤ}

theorem Parts.dayNumber (h : Parts a b d e) :
    dayNumber (ofMarch (100 * b + d - 4800) e) = a - 32044 := by
  have hd := h.year
  have ha := h.sum
  unfold Base.dayNumber toDays daysBefore
  rw [marchYear_ofMarch h.inYear, marchDay_ofMarch h.inYear]
  omega

theorem dayNumber_lt (h : date < date') (hd : date.Valid) (hd' : date'.Valid) :
    dayNumber date < dayNumber date' :=
  Int.add_lt_add_right (toDays_lt h hd hd') _

theorem dayNumber_le (h : date ≤ date') (hd : date.Valid) (hd' : date'.Valid) :
    dayNumber date ≤ dayNumber date' := by
  obtain rfl | hlt := h.eq_or_lt
  · exact le_rfl
  · exact (dayNumber_lt hlt hd hd').le

theorem dayNumber_injective (hd : date.Valid) (hd' : date'.Valid)
    (h : dayNumber date = dayNumber date') : date = date' :=
  toDays_injective hd hd' (add_right_cancel h)

theorem dayNumber_next (hd : date.Valid) : dayNumber date.next = dayNumber date + 1 := by
  unfold dayNumber
  rw [toDays_next hd]
  ring

theorem marchYear_bounds (h : date.Valid) (hj : Convertible (dayNumber date)) :
    -4800 ≤ date.marchYear ∧ date.marchYear ≤ 1465110 := by
  have h0 := h.inYear.first
  have hend := h.inYear.lt_succ
  unfold dayNumber toDays at hj
  constructor
  · by_contra hlt
    have hle := daysBefore_mono (show date.marchYear + 1 ≤ -4800 by omega)
    have hstart : daysBefore (-4800) = -1753164 := rfl
    omega
  · unfold daysBefore at hj
    omega

theorem year_bounds (h : date.Valid) (hj : Convertible (dayNumber date)) :
    -4800 ≤ date.year ∧ date.year ≤ 1465111 := by
  have hyear := marchYear_bounds h hj
  have hmonth := h.month
  unfold marchYear at hyear
  omega

theorem getYearMonthDay_parts (h : Parts a b d e) (ha : a < 2 ^ 29) :
    getYearMonthDay (.ofInt (a - 32044)) = .ofDate (ofMarch (100 * b + d - 4800) e) := by
  obtain ⟨hb, hd, he⟩ := h.unique
  obtain ⟨hb0, hd0, he0, -, hsum⟩ := h
  have hb1 := century_days b
  have hd1 := year_days d
  generalize hc : a - b * 146097 / 4 = c at hd he
  generalize hm : (5 * e + 2) / 153 = m
  have ea : CInt.ofInt (a - 32044) + 32044 = .ofInt a := by
    simp (disch := omega)
  have eb : (4 * CInt.ofInt a + 3) / 146097 = .ofInt b := by
    rw [← hb]
    simp (disch := omega)
  have ec : CInt.ofInt a - CInt.ofInt b * 146097 / 4 = .ofInt c := by
    rw [← hc]
    simp (disch := omega)
  have ed : (4 * CInt.ofInt c + 3) / 1461 = .ofInt d := by
    rw [← hd]
    simp (disch := omega)
  have ee : CInt.ofInt c - 1461 * CInt.ofInt d / 4 = .ofInt e := by
    rw [← he]
    simp (disch := omega)
  have em : (5 * CInt.ofInt e + 2) / 153 = .ofInt m := by
    rw [← hm]
    simp (disch := omega)
  unfold getYearMonthDay ofMarch YearMonthDay.ofDate
  dsimp only
  rw [ea, eb, ec, ed, ee, em, hm, YearMonthDay.mk.injEq]
  refine ⟨?_, ?_, ?_⟩
  · have hyear : 100 * b + d - 4800 + m / 10 = b * 100 + d - 4800 + m / 10 := by ring
    rw [hyear]
    simp (disch := omega)
  · simp (disch := omega)
  · simp (disch := omega)

/-- Every day number is that of a date, the one that `getYearMonthDay` returns. -/
theorem exists_date (hj : Convertible j) : ∃ date : Gregorian.Date, date.Valid ∧
    dayNumber date = j ∧ getYearMonthDay (.ofInt j) = .ofDate date := by
  have h := parts_of_day (show 0 ≤ j + 32044 by omega) rfl rfl rfl rfl
  have hparts := getYearMonthDay_parts h (by omega)
  have hnumber := h.dayNumber
  rw [add_sub_cancel_right] at hparts hnumber
  exact ⟨_, valid_ofMarch h.inYear, hnumber, hparts⟩

theorem getYearMonthDay_dayNumber (h : date.Valid) (hj : Convertible (dayNumber date)) :
    getYearMonthDay (.ofInt (dayNumber date)) = .ofDate date := by
  obtain ⟨date', hvalid, hnumber, heq⟩ := exists_date hj
  rw [heq, dayNumber_injective hvalid h hnumber]

theorem getJulianDayNumber_ofInt (h : date.Valid) (hj : Convertible (dayNumber date)) :
    getJulianDayNumber (.ofInt date.year) (.ofInt date.month) (.ofInt date.day) =
      .ofInt (dayNumber date) := by
  have hyear := marchYear_bounds h hj
  have hmonth := h.month
  have hday := h.day
  have hdays := daysOfMonth_pos date.year date.month
  unfold dayNumber toDays daysBefore marchDay marchMonth at *
  unfold marchYear at *
  generalize hk : (14 - date.month) / 12 = k at *
  have ek : (14 - CInt.ofInt date.month) / 12 = .ofInt k := by
    rw [← hk]
    simp (disch := omega)
  have ey : CInt.ofInt date.year + 4800 - .ofInt k = .ofInt (date.year - k + 4800) := by
    have hcomm : date.year - k + 4800 = date.year + 4800 - k := by ring
    rw [hcomm]
    simp (disch := omega)
  have em : CInt.ofInt date.month + 12 * .ofInt k - 3 = .ofInt (date.month + 12 * k - 3) := by
    simp (disch := omega)
  unfold getJulianDayNumber
  dsimp only
  rw [ek, ey, em]
  simp (disch := omega)
  have h4 : (date.year - k + 4800) / 4 = (date.year - k) / 4 + 1200 := by omega
  have h100 : (date.year - k + 4800) / 100 = (date.year - k) / 100 + 48 := by omega
  have h400 : (date.year - k + 4800) / 400 = (date.year - k) / 400 + 12 := by omega
  rw [h4, h100, h400]
  congr 1
  ring

theorem YearMonthDay.date_ofDate (h : date.Valid) (hj : Convertible (dayNumber date)) :
    (ofDate date).date = some date := by
  have hyear := year_bounds h hj
  have hmonth := h.month
  have hday := h.day
  have hdays := daysOfMonth_pos date.year date.month
  unfold YearMonthDay.date ofDate
  dsimp only
  rw [CInt.ofInt_value (by omega), CInt.ofInt_value (by omega), CInt.ofInt_value (by omega)]
  rfl

/-- Both functions convert without an overflow, each is the inverse of the other, and the next
number is the next day. -/
theorem julianDay_calendar :
    (∀ j : ℤ, -32044 ≤ j → j ≤ 536838867 → ∃ date : Gregorian.Date, date.Valid ∧
      (getYearMonthDay (.ofInt j)).date = some date ∧
      (getJulianDayNumber (.ofInt date.year) (.ofInt date.month) (.ofInt date.day)).value =
        some j ∧
      (j + 1 ≤ 536838867 → (getYearMonthDay (.ofInt (j + 1))).date = some date.next)) ∧
    (∀ date last : Gregorian.Date, date.Valid →
      (getYearMonthDay (.ofInt 536838867)).date = some last → ⟨-4800, 3, 1⟩ ≤ date → date ≤ last →
      (getYearMonthDay (getJulianDayNumber (.ofInt date.year) (.ofInt date.month)
        (.ofInt date.day))).date = some date) := by
  constructor
  · intro j hlo hhi
    obtain ⟨date, hvalid, rfl, heq⟩ := exists_date ⟨hlo, hhi⟩
    refine ⟨date, hvalid, ?_, ?_, fun hnext => ?_⟩
    · rw [heq, YearMonthDay.date_ofDate hvalid ⟨hlo, hhi⟩]
    · rw [getJulianDayNumber_ofInt hvalid ⟨hlo, hhi⟩, CInt.ofInt_value (by omega)]
    · rw [← dayNumber_next hvalid] at hnext ⊢
      have hj : Convertible (dayNumber date.next) :=
        ⟨by rw [dayNumber_next hvalid]; omega, hnext⟩
      rw [getYearMonthDay_dayNumber hvalid.next hj, YearMonthDay.date_ofDate hvalid.next hj]
  · intro date last hvalid hlast hfirst hle
    obtain ⟨date', hvalid', hnumber, heq⟩ := exists_date (show Convertible 536838867 by omega)
    rw [heq, YearMonthDay.date_ofDate hvalid' (by omega)] at hlast
    obtain rfl := Option.some.inj hlast
    have hlo := dayNumber_le hfirst (by decide) hvalid
    have hhi := dayNumber_le hle hvalid hvalid'
    have hstart : dayNumber ⟨-4800, 3, 1⟩ = -32044 := rfl
    have hj : Convertible (dayNumber date) := by omega
    rw [getJulianDayNumber_ofInt hvalid hj, getYearMonthDay_dayNumber hvalid hj,
      YearMonthDay.date_ofDate hvalid hj]

/-- The leap day of a century, and the last date. -/
theorem julianDay_calendar_leap :
    (∃ date : Gregorian.Date, date.Valid ∧
      (getYearMonthDay (.ofInt 2451604)).date = some date ∧
      (getJulianDayNumber (.ofInt date.year) (.ofInt date.month) (.ofInt date.day)).value =
        some 2451604 ∧
      ((2451604 : ℤ) + 1 ≤ 536838867 →
        (getYearMonthDay (.ofInt (2451604 + 1))).date = some date.next)) ∧
    (getYearMonthDay (.ofInt 2451604)).date = some ⟨2000, 2, 29⟩ ∧
    (getYearMonthDay (getJulianDayNumber (.ofInt 1465102) (.ofInt 10) (.ofInt 18))).date =
      some ⟨1465102, 10, 18⟩ :=
  ⟨julianDay_calendar.1 2451604 (by decide) (by decide), by decide,
    julianDay_calendar.2 ⟨1465102, 10, 18⟩ ⟨1465102, 10, 18⟩ (by decide) (by decide)
      (by rw [← not_lt, Gregorian.Date.lt_iff]; decide) le_rfl⟩

end MuduoWindows.Base
