import MuduoWindows.Base.Date

/-! # base/timezone.cpp: UTC

A `DateTime` is converted to the seconds since 1970 and back by way of its Julian day number.
-/

namespace MuduoWindows.Base
open Library

def kSecondsPerDay : ℤ := 24 * 60 * 60

def kJulianDayOf1970_01_01 : CInt := getJulianDayNumber 1970 1 1

structure DateTime where
  year : CInt := 0
  month : CInt := 0
  day : CInt := 0
  hour : CInt := 0
  minute : CInt := 0
  second : CInt := 0
  deriving DecidableEq

def fillHMS (seconds : ℕ) (dt : DateTime) : DateTime :=
  let minutes := seconds / 60
  { dt with
    second := .ofInt (seconds % 60 : ℕ)
    minute := .ofInt (minutes % 60 : ℕ)
    hour := .ofInt (minutes / 60 : ℕ) }

/-- The argument is an `int64_t`, which can be divided without an overflow. -/
def BreakTime (t : ℤ) : Option DateTime := do
  let seconds := CInt.cast (t.tmod kSecondsPerDay)
  let days := CInt.cast (t.tdiv kSecondsPerDay)
  -- The division rounds towards zero.
  let negative := seconds < 0
  let seconds := if negative then seconds + .ofInt kSecondsPerDay else seconds
  let days := if negative then days - 1 else days
  let dt := fillHMS (← seconds.toUnsigned) {}
  let ymd := getYearMonthDay (days + kJulianDayOf1970_01_01)
  return { dt with year := ymd.year, month := ymd.month, day := ymd.day }

def toUtcTime (secondsSinceEpoch : ℤ) : Option DateTime := BreakTime secondsSinceEpoch

/-- The last line computes with `int64_t`. -/
def fromUtcTime (dt : DateTime) : Option ℤ := do
  let julianDayNumber := getJulianDayNumber dt.year dt.month dt.day
  let secondsInDay ← (dt.hour * 3600 + dt.minute * 60 + dt.second).value
  let days ← (julianDayNumber - kJulianDayOf1970_01_01).value
  return days * kSecondsPerDay + secondsInDay

open Gregorian

def DateTime.ofMoment (m : Moment) : DateTime :=
  { year := .ofInt m.date.year
    month := .ofInt m.date.month
    day := .ofInt m.date.day
    hour := .ofInt m.hour
    minute := .ofInt m.minute
    second := .ofInt m.second }

def DateTime.moment (dt : DateTime) : Option Moment := do
  let year ← dt.year.value
  let month ← dt.month.value
  let day ← dt.day.value
  let hour ← dt.hour.value
  let minute ← dt.minute.value
  let second ← dt.second.value
  return ⟨⟨year, month, day⟩, hour, minute, second⟩

variable {m n : Moment} {t : ℤ}

theorem kJulianDayOf1970_01_01_eq : kJulianDayOf1970_01_01 = .ofInt 2440588 := by decide

def secondsSinceEpoch (m : Moment) : ℤ :=
  (dayNumber m.date - 2440588) * kSecondsPerDay + m.secondOfDay

theorem fromUtcTime_ofMoment (h : m.Valid) (hj : Convertible (dayNumber m.date)) :
    fromUtcTime (.ofMoment m) = some (secondsSinceEpoch m) := by
  obtain ⟨hd, hh, hm, hs⟩ := h
  have htime : CInt.ofInt m.hour * 3600 + CInt.ofInt m.minute * 60 + .ofInt m.second =
      .ofInt m.secondOfDay := by
    unfold Moment.secondOfDay
    simp (disch := omega)
  have hdays : CInt.ofInt (dayNumber m.date) - .ofInt 2440588 =
      .ofInt (dayNumber m.date - 2440588) := by
    simp (disch := omega)
  unfold fromUtcTime DateTime.ofMoment
  dsimp only
  rw [getJulianDayNumber_ofInt hd hj, kJulianDayOf1970_01_01_eq, htime, hdays]
  unfold Moment.secondOfDay at *
  rw [CInt.ofInt_value (by omega), CInt.ofInt_value (by omega)]
  rfl

theorem fromUtcTime_inRange {dt : DateTime} (h : fromUtcTime dt = some t) :
    -2 ^ 63 ≤ t ∧ t < 2 ^ 63 := by
  unfold fromUtcTime at h
  obtain ⟨seconds, hs, h⟩ := Option.bind_eq_some_iff.mp h
  obtain ⟨days, hd, h⟩ := Option.bind_eq_some_iff.mp h
  have hseconds := CInt.inRange _ _ hs
  have hdays := CInt.inRange _ _ hd
  obtain rfl := Option.some.inj h
  unfold kSecondsPerDay
  omega

theorem secondsSinceEpoch_lt (h : m < n) (hm : m.Valid) (hn : n.Valid) :
    secondsSinceEpoch m < secondsSinceEpoch n := by
  have hsm := hm.secondOfDay
  have hsn := hn.secondOfDay
  unfold secondsSinceEpoch kSecondsPerDay
  obtain hdate | ⟨hdate, htime⟩ := Moment.date_lt_or_second_lt h hm hn
  · have hday := dayNumber_lt hdate hm.date hn.date
    omega
  · rw [hdate]
    omega

/-- The quotient and the remainder, corrected for a negative remainder, are rounded down. -/
theorem corrected_eq (hlo : -2 ^ 31 < t / kSecondsPerDay) (hhi : t / kSecondsPerDay < 2 ^ 31) :
    let seconds := CInt.cast (t.tmod kSecondsPerDay)
    let days := CInt.cast (t.tdiv kSecondsPerDay)
    (if seconds < 0 then seconds + .ofInt kSecondsPerDay else seconds) =
        .ofInt (t % kSecondsPerDay) ∧
      (if seconds < 0 then days - 1 else days) = .ofInt (t / kSecondsPerDay) := by
  intro seconds days
  have hsign : Int.sign 86400 = 1 := rfl
  have hround : t.tmod 86400 = t % 86400 ∧ t.tdiv 86400 = t / 86400 ∨
      t.tmod 86400 = t % 86400 - 86400 ∧ t.tdiv 86400 = t / 86400 + 1 ∧ 0 < t % 86400 ∧ t < 0 := by
    rw [Int.tmod_eq_emod, Int.tdiv_eq_ediv, hsign]
    split_ifs with hexact
    · exact .inl ⟨by omega, by omega⟩
    · exact .inr ⟨rfl, rfl, by omega⟩
  have hk : kSecondsPerDay = 86400 := rfl
  unfold seconds days
  rw [hk] at hlo hhi ⊢
  obtain ⟨hs, hd⟩ | ⟨hs, hd, hpos, hneg⟩ := hround
  · have hnot : ¬CInt.ofInt (t % 86400) < 0 := by
      rw [CInt.ofInt_neg_iff (by omega)]
      omega
    rw [hs, hd, CInt.cast_eq (by omega), CInt.cast_eq (by omega), if_neg hnot, if_neg hnot]
    exact ⟨rfl, rfl⟩
  · have hlt : CInt.ofInt (t % 86400 - 86400) < 0 := by
      rw [CInt.ofInt_neg_iff (by omega)]
      omega
    rw [hs, hd, CInt.cast_eq (by omega), CInt.cast_eq (by omega), if_pos hlt, if_pos hlt,
      CInt.ofNat_eq, Nat.cast_one, CInt.ofInt_add (by omega) (by omega),
      CInt.ofInt_sub (by omega) (by omega), Int.sub_add_cancel, Int.add_sub_cancel]
    exact ⟨rfl, rfl⟩

def momentOf (date : Gregorian.Date) (second : ℤ) : Moment :=
  { date, hour := second / 3600, minute := second / 60 % 60, second := second % 60 }

theorem fillHMS_eq {seconds : ℤ} (h : 0 ≤ seconds) (date : Gregorian.Date) :
    { fillHMS seconds.toNat {} with
      year := .ofInt date.year, month := .ofInt date.month, day := .ofInt date.day } =
      DateTime.ofMoment (momentOf date seconds) := by
  obtain ⟨n, rfl⟩ := Int.eq_ofNat_of_zero_le h
  have hhour : ((n / 60 / 60 : ℕ) : ℤ) = n / 3600 := by omega
  unfold fillHMS DateTime.ofMoment momentOf
  dsimp only
  rw [Int.toNat_natCast, hhour]
  rfl

theorem BreakTime_eq {date : Gregorian.Date} (h : date.Valid) (hj : Convertible (dayNumber date))
    (ht : t / kSecondsPerDay + 2440588 = dayNumber date) :
    BreakTime t = some (.ofMoment (momentOf date (t % kSecondsPerDay))) := by
  have hpos : 0 < kSecondsPerDay := by decide
  have hseconds := Int.emod_nonneg t hpos.ne'
  have hlt := Int.emod_lt_of_pos t hpos
  have hk : kSecondsPerDay = 86400 := rfl
  obtain ⟨hs, hd⟩ := corrected_eq (t := t) (by omega) (by omega)
  unfold BreakTime
  dsimp only
  rw [hs, hd, CInt.toUnsigned_ofInt (by omega) hseconds, kJulianDayOf1970_01_01_eq,
    CInt.ofInt_add (by omega) (by omega), ht, getYearMonthDay_dayNumber h hj]
  exact congrArg some (fillHMS_eq hseconds date)

theorem momentOf_valid {date : Gregorian.Date} (h : date.Valid) {seconds : ℤ} (h0 : 0 ≤ seconds)
    (hlt : seconds < 86400) : (momentOf date seconds).Valid := by
  unfold momentOf
  exact ⟨h, by dsimp only; omega, by dsimp only; omega, by dsimp only; omega⟩

theorem secondOfDay_momentOf (date : Gregorian.Date) (seconds : ℤ) :
    (momentOf date seconds).secondOfDay = seconds := by
  unfold momentOf Moment.secondOfDay
  dsimp only
  omega

theorem momentOf_secondOfDay (h : m.Valid) : momentOf m.date m.secondOfDay = m := by
  obtain ⟨-, hh, hm, hs⟩ := h
  obtain ⟨date, hour, minute, second⟩ := m
  unfold momentOf Moment.secondOfDay
  dsimp only at *
  rw [Moment.mk.injEq]
  exact ⟨rfl, by omega, by omega, by omega⟩

theorem DateTime.moment_ofMoment (h : m.Valid) (hj : Convertible (dayNumber m.date)) :
    (ofMoment m).moment = some m := by
  obtain ⟨hd, hh, hm, hs⟩ := h
  have hyear := year_bounds hd hj
  have hmonth := hd.month
  have hday := hd.day
  have hdays := Date.daysOfMonth_pos m.date.year m.date.month
  unfold DateTime.moment ofMoment
  dsimp only
  rw [CInt.ofInt_value (by omega), CInt.ofInt_value (by omega), CInt.ofInt_value (by omega),
    CInt.ofInt_value (by omega), CInt.ofInt_value (by omega), CInt.ofInt_value (by omega)]
  rfl

theorem DateTime.eq_ofMoment {dt : DateTime} (h : dt.moment = some m) : dt = ofMoment m := by
  unfold DateTime.moment at h
  obtain ⟨year, hyear, h⟩ := Option.bind_eq_some_iff.mp h
  obtain ⟨month, hmonth, h⟩ := Option.bind_eq_some_iff.mp h
  obtain ⟨day, hday, h⟩ := Option.bind_eq_some_iff.mp h
  obtain ⟨hour, hhour, h⟩ := Option.bind_eq_some_iff.mp h
  obtain ⟨minute, hminute, h⟩ := Option.bind_eq_some_iff.mp h
  obtain ⟨second, hsecond, h⟩ := Option.bind_eq_some_iff.mp h
  obtain rfl := Option.some.inj h
  obtain ⟨y, mo, d, h, mi, s⟩ := dt
  unfold ofMoment
  rw [mk.injEq]
  exact ⟨CInt.eq_ofInt hyear, CInt.eq_ofInt hmonth, CInt.eq_ofInt hday, CInt.eq_ofInt hhour,
    CInt.eq_ofInt hminute, CInt.eq_ofInt hsecond⟩

theorem toUtcTime_secondsSinceEpoch (h : m.Valid) (hj : Convertible (dayNumber m.date)) :
    toUtcTime (secondsSinceEpoch m) = some (.ofMoment m) := by
  have hk : kSecondsPerDay = 86400 := rfl
  have hseconds := h.secondOfDay
  have hdiv : secondsSinceEpoch m / kSecondsPerDay + 2440588 = dayNumber m.date := by
    unfold secondsSinceEpoch
    rw [hk]
    omega
  have hmod : secondsSinceEpoch m % kSecondsPerDay = m.secondOfDay := by
    unfold secondsSinceEpoch
    rw [hk]
    omega
  unfold toUtcTime
  rw [BreakTime_eq h.date hj hdiv, hmod, momentOf_secondOfDay h]

/-- Every second of the days of `getYearMonthDay` is a valid moment, which is converted back, and
the other way round; later moments have more seconds. -/
theorem utcTime_roundTrip :
    (∀ t : ℤ, -32044 ≤ t / 86400 + 2440588 → t / 86400 + 2440588 ≤ 536838867 →
      ∃ dt m, toUtcTime t = some dt ∧ dt.moment = some m ∧ m.Valid ∧ fromUtcTime dt = some t) ∧
    (∀ dt m, dt.moment = some m → m.Valid → Convertible (dayNumber m.date) →
      ∃ t, fromUtcTime dt = some t ∧ toUtcTime t = some dt) ∧
    ∀ dt m dt' m', dt.moment = some m → m.Valid → Convertible (dayNumber m.date) →
      dt'.moment = some m' → m'.Valid → Convertible (dayNumber m'.date) → m < m' →
      ∃ t t', fromUtcTime dt = some t ∧ fromUtcTime dt' = some t' ∧ t < t' := by
  refine ⟨fun t hlo hhi => ?_, fun dt m hdt hm hj => ?_,
    fun dt m dt' m' hdt hm hj hdt' hm' hj' h => ?_⟩
  · obtain ⟨date, hdate, hnumber, -⟩ := exists_date ⟨hlo, hhi⟩
    have hvalid := momentOf_valid hdate (Int.emod_nonneg t (show (86400 : ℤ) ≠ 0 by decide))
      (Int.emod_lt_of_pos t (by decide))
    have hj : Convertible (dayNumber date) := by omega
    refine ⟨_, _, BreakTime_eq hdate hj hnumber.symm, DateTime.moment_ofMoment hvalid hj, hvalid,
      ?_⟩
    change fromUtcTime (.ofMoment (momentOf date (t % 86400))) = some t
    rw [fromUtcTime_ofMoment hvalid hj]
    unfold secondsSinceEpoch
    rw [secondOfDay_momentOf]
    change some ((dayNumber date - 2440588) * 86400 + t % 86400) = some t
    rw [hnumber]
    congr 1
    omega
  · obtain rfl := DateTime.eq_ofMoment hdt
    exact ⟨_, fromUtcTime_ofMoment hm hj, toUtcTime_secondsSinceEpoch hm hj⟩
  · obtain rfl := DateTime.eq_ofMoment hdt
    obtain rfl := DateTime.eq_ofMoment hdt'
    exact ⟨_, _, fromUtcTime_ofMoment hm hj, fromUtcTime_ofMoment hm' hj',
      secondsSinceEpoch_lt h hm hm'⟩

/-- The last second before 1970, and the first after it. -/
theorem utcTime_roundTrip_epoch :
    (∃ dt m, toUtcTime (-1) = some dt ∧ dt.moment = some m ∧ m.Valid ∧ fromUtcTime dt = some (-1)) ∧
    (∃ t, fromUtcTime (.ofMoment ⟨⟨1970, 1, 1⟩, 0, 0, 0⟩) = some t ∧
      toUtcTime t = some (.ofMoment ⟨⟨1970, 1, 1⟩, 0, 0, 0⟩)) ∧
    ∃ t t', fromUtcTime (.ofMoment ⟨⟨1969, 12, 31⟩, 23, 59, 59⟩) = some t ∧
      fromUtcTime (.ofMoment ⟨⟨1970, 1, 1⟩, 0, 0, 0⟩) = some t' ∧ t < t' :=
  have hlast : Moment.Valid ⟨⟨1969, 12, 31⟩, 23, 59, 59⟩ :=
    ⟨by decide, by decide, by decide, by decide⟩
  have hfirst : Moment.Valid ⟨⟨1970, 1, 1⟩, 0, 0, 0⟩ := ⟨by decide, by decide, by decide, by decide⟩
  ⟨utcTime_roundTrip.1 (-1) (by decide) (by decide),
    utcTime_roundTrip.2.1 _ _ rfl hfirst (by decide),
    utcTime_roundTrip.2.2 _ _ _ _ rfl hlast (by decide) rfl hfirst (by decide)
      (by rw [Moment.lt_iff, Date.lt_iff]; decide)⟩

end MuduoWindows.Base
