import Mathlib.Tactic
import Mathlib.Data.Prod.Lex

/-! # The proleptic Gregorian calendar

Years are counted as astronomers do, with a year 0. Dates are ordered by their fields, and every
valid date has a next one. The days since 1 March of the year 0 number the valid dates in their
order, without a gap: a year that begins on 1 March has its leap day at its end.
-/

namespace MuduoWindows.Library.Gregorian

structure Date where
  year : ℤ
  month : ℤ
  day : ℤ
  deriving DecidableEq

def IsLeap (year : ℤ) : Prop := year % 4 = 0 ∧ (year % 100 ≠ 0 ∨ year % 400 = 0)

instance (year : ℤ) : Decidable (IsLeap year) := inferInstanceAs (Decidable (_ ∧ (_ ∨ _)))

def daysOfMonth (year month : ℤ) : ℤ :=
  if month = 2 then if IsLeap year then 29 else 28
  else if month = 4 ∨ month = 6 ∨ month = 9 ∨ month = 11 then 30
  else 31

namespace Date

structure Valid (d : Date) : Prop where
  month : 1 ≤ d.month ∧ d.month ≤ 12
  day : 1 ≤ d.day ∧ d.day ≤ daysOfMonth d.year d.month

instance (d : Date) : Decidable d.Valid :=
  decidable_of_iff ((1 ≤ d.month ∧ d.month ≤ 12) ∧ 1 ≤ d.day ∧ d.day ≤ daysOfMonth d.year d.month)
    ⟨fun h => ⟨h.1, h.2⟩, fun h => ⟨h.month, h.day⟩⟩

/-- The next day. -/
def next (d : Date) : Date :=
  if d.day < daysOfMonth d.year d.month then { d with day := d.day + 1 }
  else if d.month < 12 then { d with month := d.month + 1, day := 1 }
  else { year := d.year + 1, month := 1, day := 1 }

/-- The fields in their order. -/
def toProd (d : Date) : ℤ ×ₗ ℤ ×ₗ ℤ := toLex (d.year, toLex (d.month, d.day))

theorem toProd_injective : Function.Injective toProd := by
  rintro ⟨y, m, d⟩ ⟨y', m', d'⟩ h
  obtain ⟨rfl, h⟩ := Prod.mk.inj (toLex.injective h)
  obtain ⟨rfl, rfl⟩ := Prod.mk.inj (toLex.injective h)
  rfl

instance : LinearOrder Date := LinearOrder.lift' toProd toProd_injective

theorem lt_iff {d e : Date} : d < e ↔ d.year < e.year ∨
    d.year = e.year ∧ (d.month < e.month ∨ d.month = e.month ∧ d.day < e.day) := by
  change toProd d < toProd e ↔ _
  unfold toProd
  rw [Prod.Lex.toLex_lt_toLex, Prod.Lex.toLex_lt_toLex]

theorem daysOfMonth_pos (year month : ℤ) : 28 ≤ daysOfMonth year month ∧
    daysOfMonth year month ≤ 31 := by
  unfold daysOfMonth
  split_ifs <;> omega

theorem Valid.next {d : Date} (h : d.Valid) : d.next.Valid := by
  have hm := h.month
  have hd := h.day
  unfold Date.next
  split_ifs with hday hmonth
  · exact ⟨hm, by dsimp only; omega⟩
  · have hdays := daysOfMonth_pos d.year (d.month + 1)
    exact ⟨by dsimp only; omega, by dsimp only; omega⟩
  · have hdays := daysOfMonth_pos (d.year + 1) 1
    exact ⟨by dsimp only; omega, by dsimp only; omega⟩

/-- The year that began on the last 1 March. -/
def marchYear (d : Date) : ℤ := d.year - (14 - d.month) / 12

/-- The months since March. -/
def marchMonth (d : Date) : ℤ := d.month + 12 * ((14 - d.month) / 12) - 3

/-- The days since 1 March. -/
def marchDay (d : Date) : ℤ := d.day - 1 + (153 * d.marchMonth + 2) / 5

/-- The date of a day of a year that begins on 1 March. -/
def ofMarch (year day : ℤ) : Date :=
  let m := (5 * day + 2) / 153
  { year := year + m / 10
    month := m + 3 - 12 * (m / 10)
    day := day - (153 * m + 2) / 5 + 1 }

/-- The day is in the year from 1 March. -/
structure InYear (year day : ℤ) : Prop where
  first : 0 ≤ day
  last : day ≤ 365
  leap : day = 365 → IsLeap (year + 1)

variable {d d' : Date} {year day : ℤ}

theorem InYear.month_le (h : InYear year day) :
    0 ≤ (5 * day + 2) / 153 ∧ (5 * day + 2) / 153 ≤ 11 := by
  have h0 := h.first
  have h1 := h.last
  omega

theorem valid_ofMarch (h : InYear year day) : (ofMarch year day).Valid := by
  have h0 := h.first
  have hm := h.month_le
  unfold ofMarch
  refine ⟨by dsimp only; omega, ?_⟩
  dsimp only
  refine ⟨by omega, ?_⟩
  obtain hlast | hlast := eq_or_ne day 365
  · have hleap := h.leap hlast
    subst hlast
    simp [daysOfMonth, hleap]
  · have h1 := h.last
    unfold daysOfMonth
    split_ifs <;> omega

theorem marchYear_ofMarch (h : InYear year day) : (ofMarch year day).marchYear = year := by
  have hm := h.month_le
  unfold ofMarch marchYear
  dsimp only
  omega

theorem marchDay_ofMarch (h : InYear year day) : (ofMarch year day).marchDay = day := by
  have hm := h.month_le
  unfold ofMarch marchDay marchMonth
  dsimp only
  omega

theorem Valid.inYear (h : d.Valid) : InYear d.marchYear d.marchDay := by
  have hm := h.month
  have hd := h.day
  have hdays := daysOfMonth_pos d.year d.month
  unfold marchYear marchDay marchMonth
  by_cases hfeb : d.month = 2
  · have hend : d.day = 29 → IsLeap d.year := by
      intro h29
      by_contra hleap
      simp only [daysOfMonth, if_pos hfeb, if_neg hleap] at hd
      omega
    rw [hfeb] at hdays ⊢
    refine ⟨by omega, ?_, fun hlast => ?_⟩
    · unfold daysOfMonth at hd
      split_ifs at hd <;> omega
    · have hleap := hend (by omega)
      norm_num
      exact hleap
  · exact ⟨by omega, by omega, by omega⟩

/-- The days from 1 March of the year 0 to 1 March of the year. -/
def daysBefore (year : ℤ) : ℤ := 365 * year + year / 4 - year / 100 + year / 400

/-- The days since 1 March of the year 0. -/
def toDays (d : Date) : ℤ := daysBefore d.marchYear + d.marchDay

theorem InYear.lt_succ (h : InYear year day) : daysBefore year + day < daysBefore (year + 1) := by
  obtain ⟨h0, h1, hleap⟩ := h
  unfold IsLeap at hleap
  unfold daysBefore
  omega

theorem daysBefore_mono : Monotone daysBefore := by
  intro year year' h
  unfold daysBefore
  omega

/-- All months but February have the days of the step to the next. -/
theorem monthStart_succ (hd : d.Valid) (hfeb : d.month ≠ 2) :
    (153 * d.marchMonth + 2) / 5 + daysOfMonth d.year d.month
      = (153 * (d.marchMonth + 1) + 2) / 5 := by
  obtain ⟨h1, h12⟩ := hd.month
  unfold marchMonth daysOfMonth
  generalize d.month = month at *
  rw [if_neg hfeb]
  interval_cases month <;> simp_all

theorem march_lt (h : d < d') (hd : d.Valid) (hd' : d'.Valid) :
    d.marchYear < d'.marchYear ∨ d.marchYear = d'.marchYear ∧ d.marchDay < d'.marchDay := by
  have hm := hd.month
  have hm' := hd'.month
  have hmonth : d.marchYear < d'.marchYear ∨ d.marchYear = d'.marchYear ∧
      (d.marchMonth < d'.marchMonth ∨ d.marchMonth = d'.marchMonth ∧ d.day < d'.day) := by
    rw [lt_iff] at h
    unfold marchYear marchMonth
    omega
  obtain hyear | ⟨hyear, hlt | ⟨heq, hlt⟩⟩ := hmonth
  · exact .inl hyear
  · have hfeb : d.month ≠ 2 := by
      unfold marchMonth at hlt
      omega
    have hsucc := monthStart_succ hd hfeb
    have hday := hd.day
    have hday' := hd'.day
    unfold marchDay
    exact .inr ⟨hyear, by omega⟩
  · refine .inr ⟨hyear, ?_⟩
    unfold marchDay
    rw [heq]
    omega

theorem toDays_lt (h : d < d') (hd : d.Valid) (hd' : d'.Valid) : d.toDays < d'.toDays := by
  have hend := hd.inYear.lt_succ
  have hstart := hd'.inYear.first
  unfold toDays
  obtain hyear | ⟨hyear, hday⟩ := march_lt h hd hd'
  · have hle := daysBefore_mono (Int.add_one_le_iff.mpr hyear)
    omega
  · rw [hyear]
    omega

theorem toDays_injective (hd : d.Valid) (hd' : d'.Valid) (h : d.toDays = d'.toDays) : d = d' := by
  obtain hlt | heq | hlt := lt_trichotomy d d'
  · exact absurd h (toDays_lt hlt hd hd').ne
  · exact heq
  · exact absurd h (toDays_lt hlt hd' hd).ne'

/-- The last day of February is the last of its year. -/
theorem toDays_last (hd : d.Valid) (hfeb : d.month = 2)
    (hlast : daysOfMonth d.year d.month ≤ d.day) :
    d.toDays + 1 = daysBefore d.year := by
  have hday := hd.day
  unfold toDays marchYear marchDay marchMonth daysBefore
  rw [hfeb] at *
  unfold daysOfMonth IsLeap at *
  split_ifs at * <;> omega

theorem toDays_first (hd : d.Valid) (hfeb : d.month ≠ 2)
    (hlast : daysOfMonth d.year d.month ≤ d.day) (hfirst : d'.day = 1)
    (hyear : d'.marchYear = d.marchYear) (hmonth : d'.marchMonth = d.marchMonth + 1) :
    d'.toDays = d.toDays + 1 := by
  have hday := hd.day
  have hsucc := monthStart_succ hd hfeb
  unfold toDays marchDay
  rw [hfirst, hyear, hmonth]
  omega

theorem toDays_next (hd : d.Valid) : d.next.toDays = d.toDays + 1 := by
  have hm := hd.month
  unfold next
  split_ifs with hlast hdec
  · change daysBefore d.marchYear + (d.day + 1 - 1 + (153 * d.marchMonth + 2) / 5) = _
    unfold toDays marchDay
    omega
  · obtain hfeb | hfeb := eq_or_ne d.month 2
    · rw [toDays_last hd hfeb (not_lt.mp hlast), hfeb]
      simp [toDays, marchYear, marchDay, marchMonth]
    · refine toDays_first hd hfeb (not_lt.mp hlast) rfl ?_ ?_
      · unfold marchYear
        dsimp only
        omega
      · unfold marchMonth
        dsimp only
        omega
  · refine toDays_first hd (by omega) (not_lt.mp hlast) rfl ?_ ?_
    · unfold marchYear
      dsimp only
      omega
    · unfold marchMonth
      dsimp only
      omega

end Date

/-- A second of a day. -/
structure Moment where
  date : Date
  hour : ℤ
  minute : ℤ
  second : ℤ
  deriving DecidableEq

namespace Moment

structure Valid (m : Moment) : Prop where
  date : m.date.Valid
  hour : 0 ≤ m.hour ∧ m.hour ≤ 23
  minute : 0 ≤ m.minute ∧ m.minute ≤ 59
  second : 0 ≤ m.second ∧ m.second ≤ 59

/-- The seconds since midnight. -/
def secondOfDay (m : Moment) : ℤ := m.hour * 3600 + m.minute * 60 + m.second

/-- The fields in their order. -/
def toProd (m : Moment) : Date ×ₗ ℤ ×ₗ ℤ ×ₗ ℤ :=
  toLex (m.date, toLex (m.hour, toLex (m.minute, m.second)))

theorem toProd_injective : Function.Injective toProd := by
  rintro ⟨d, h, m, s⟩ ⟨d', h', m', s'⟩ heq
  obtain ⟨rfl, heq⟩ := Prod.mk.inj (toLex.injective heq)
  obtain ⟨rfl, heq⟩ := Prod.mk.inj (toLex.injective heq)
  obtain ⟨rfl, rfl⟩ := Prod.mk.inj (toLex.injective heq)
  rfl

instance : LinearOrder Moment := LinearOrder.lift' toProd toProd_injective

theorem lt_iff {m n : Moment} : m < n ↔ m.date < n.date ∨ m.date = n.date ∧
    (m.hour < n.hour ∨ m.hour = n.hour ∧
      (m.minute < n.minute ∨ m.minute = n.minute ∧ m.second < n.second)) := by
  change toProd m < toProd n ↔ _
  unfold toProd
  rw [Prod.Lex.toLex_lt_toLex, Prod.Lex.toLex_lt_toLex, Prod.Lex.toLex_lt_toLex]

theorem Valid.secondOfDay {m : Moment} (h : m.Valid) :
    0 ≤ m.secondOfDay ∧ m.secondOfDay < 86400 := by
  obtain ⟨-, hh, hm, hs⟩ := h
  unfold Moment.secondOfDay
  omega

/-- A later moment is on a later day, or a later second of the day. -/
theorem date_lt_or_second_lt {m n : Moment} (h : m < n) (hm : m.Valid) (hn : n.Valid) :
    m.date < n.date ∨ m.date = n.date ∧ m.secondOfDay < n.secondOfDay := by
  obtain hdate | ⟨hdate, htime⟩ := lt_iff.mp h
  · exact .inl hdate
  · obtain ⟨-, hh, hmin, hs⟩ := hm
    obtain ⟨-, hh', hmin', hs'⟩ := hn
    refine .inr ⟨hdate, ?_⟩
    unfold secondOfDay
    omega

end Moment
end MuduoWindows.Library.Gregorian
