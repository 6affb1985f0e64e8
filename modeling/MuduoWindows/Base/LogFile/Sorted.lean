import MuduoWindows.Library.NumeralOrder
import MuduoWindows.Base.LogFile

/-! # base/logFile.cpp: the order of the names

Sorted as texts, the names of the files of a log stand in the order in which the files were opened,
as long as the years have four digits.
-/

namespace MuduoWindows.Base
open Library Gregorian

theorem decimal_digit_lt (d e : Fin decimal.base) (h : d < e) :
    decimal.digit d < decimal.digit e := by
  revert d e
  decide

theorem padded_decimal {width : ℕ} {x : ℤ} (hx : 0 ≤ x) :
    padded 48 width x = decimal.padded width x.toNat := by
  obtain ⟨n, rfl⟩ := Int.eq_ofNat_of_zero_le hx
  rw [padded_eq hx]
  rfl

theorem toNat_lt_pow {k : ℕ} {x : ℤ} (hx : 0 ≤ x) (hlt : x < 10 ^ (k + 1)) :
    x.toNat < decimal.base ^ (k + 1) := by
  change x.toNat < 10 ^ (k + 1)
  zify
  rwa [Int.toNat_of_nonneg hx]

/-- Fields of one width are compared first, and what follows them if they are equal. -/
theorem field_lt {k : ℕ} {x y : ℤ} {u v : List UInt8} (hx : 0 ≤ x) (hy : y < 10 ^ (k + 1))
    (h : x < y ∨ x = y ∧ u < v) : padded 48 (k + 1) x ++ u < padded 48 (k + 1) y ++ v := by
  obtain hlt | ⟨rfl, hrest⟩ := h
  · have hy0 := hx.trans hlt.le
    have hyfits := toNat_lt_pow hy0 hy
    have hxfits := toNat_lt_pow hx (hlt.trans hy)
    rw [padded_decimal hx, padded_decimal hy0]
    apply append_lt_append
    · apply decimal.padded_lt decimal_digit_lt _ hyfits
      exact (Int.toNat_lt_toNat (hx.trans_lt hlt)).mpr hlt
    · rw [decimal.padded_fits hxfits, decimal.padded_fits hyfits]
  · exact List.append_left_lt hrest

theorem integerText_year {year : ℤ} (hyear : 1000 ≤ year) :
    integerText year = padded 48 4 year := by
  have hlength : 3 < (integerText year).length := by
    have htext : integerText year = decimal.numeral year.natAbs := if_neg (by omega)
    have hlt := decimal.lt_pow_length year.natAbs
    rw [htext]
    by_contra hshort
    have hpow := Nat.pow_le_pow_right decimal.base_pos (not_lt.mp hshort)
    have hthousand : decimal.base ^ 3 = 1000 := rfl
    omega
  unfold padded
  rw [if_neg (by omega), Nat.sub_eq_zero_of_le hlength, List.replicate_zero, List.nil_append]

variable {m n : Moment}

theorem fields_of_lt (h : m < n) : m.date.year < n.date.year ∨ m.date.year = n.date.year ∧
    (m.date.month < n.date.month ∨ m.date.month = n.date.month ∧
      (m.date.day < n.date.day ∨ m.date.day = n.date.day ∧
        (m.hour < n.hour ∨ m.hour = n.hour ∧
          (m.minute < n.minute ∨ m.minute = n.minute ∧ m.second < n.second)))) := by
  obtain hdate | ⟨hdate, htime⟩ := Moment.lt_iff.mp h
  · obtain hyear | ⟨hyear, hmonth | ⟨hmonth, hday⟩⟩ := Date.lt_iff.mp hdate
    · exact .inl hyear
    · exact .inr ⟨hyear, .inl hmonth⟩
    · exact .inr ⟨hyear, .inr ⟨hmonth, .inl hday⟩⟩
  · rw [hdate]
    exact .inr ⟨rfl, .inr ⟨rfl, .inr ⟨rfl, htime⟩⟩⟩

theorem strftime_lt (hm : m.Valid) (hn : n.Valid) (hmy : 1000 ≤ m.date.year)
    (hny : n.date.year < 10000) (h : m < n) (x y : List UInt8) :
    strftime m ++ x < strftime n ++ y := by
  have hfields := fields_of_lt h
  have hny' : 1000 ≤ n.date.year := by
    obtain hyear | ⟨hyear, -⟩ := hfields <;> omega
  have hmonth := hm.date.month
  have hmonth' := hn.date.month
  have hday := hm.date.day
  have hday' := hn.date.day
  have hdays' := Date.daysOfMonth_pos n.date.year n.date.month
  obtain ⟨-, hh, hmi, hs⟩ := hm
  obtain ⟨-, hh', hmi', hs'⟩ := hn
  unfold strftime
  rw [integerText_year hmy, integerText_year hny']
  simp only [List.append_assoc]
  apply List.append_left_lt
  refine field_lt (by omega) hny (hfields.imp_right (And.imp_right fun hfields => ?_))
  refine field_lt (by omega) (by omega) (hfields.imp_right (And.imp_right fun hfields => ?_))
  refine field_lt (by omega) (by omega) (hfields.imp_right (And.imp_right fun hfields => ?_))
  apply List.append_left_lt
  refine field_lt hh.1 (by omega) (hfields.imp_right (And.imp_right fun hfields => ?_))
  refine field_lt hmi.1 (by omega) (hfields.imp_right (And.imp_right fun hfields => ?_))
  exact field_lt hs.1 (by omega) (.inl hfields)

variable {t t' : ℤ}

theorem gmtime_lt (ht : 0 ≤ t) (h : t < t') : gmtime t < gmtime t' := by
  obtain ⟨hv, -, hsecond⟩ := gmtime_valid ht
  obtain ⟨hv', -, hsecond'⟩ := gmtime_valid (ht.trans h.le)
  by_contra hge
  obtain hlt | heq := (not_lt.mp hge).lt_or_eq
  · have hback := secondsSinceEpoch_lt hlt hv' hv
    omega
  · rw [heq] at hsecond'
    omega

theorem gmtime_year (ht : 0 ≤ t) : 1970 ≤ (gmtime t).date.year := by
  have hepoch : (gmtime 0).date.year = 1970 := by decide
  obtain rfl | hpos := ht.eq_or_lt
  · exact hepoch.ge
  · have hfields := fields_of_lt (gmtime_lt le_rfl hpos)
    rw [hepoch] at hfields
    obtain hyear | ⟨hyear, -⟩ := hfields
    · exact hyear.le
    · exact hyear.le

theorem getLogFileName_lt {basename : List UInt8} {pid : ℤ} (ht : 0 ≤ t) (h : t < t')
    (hyear : (gmtime t').date.year < 10000) (hostname hostname' : List UInt8) :
    getLogFileName basename hostname pid t < getLogFileName basename hostname' pid t' := by
  obtain ⟨hv, -, -⟩ := gmtime_valid ht
  obtain ⟨hv', -, -⟩ := gmtime_valid (ht.trans h.le)
  have hmy := gmtime_year ht
  unfold getLogFileName
  simp only [List.append_assoc]
  apply List.append_left_lt
  exact strftime_lt hv hv' (by omega) hyear (gmtime_lt ht h) _ _

namespace LogFile

/-- The names are sorted, and each is that of a second up to the last roll. -/
structure Sorted (c : Config) (s : LogFile) : Prop where
  lastRoll : 0 ≤ s.lastRoll
  stamped : ∀ name ∈ s.logFilenames, ∃ hostname t, 0 ≤ t ∧ t ≤ s.lastRoll ∧
    name = getLogFileName c.basename hostname c.pid t
  sorted : s.logFilenames.Pairwise (· < ·)

/-- The clock shows years of four digits during a call. -/
def FourDigits (e : Append) : Prop :=
  (gmtime e.first).date.year < 10000 ∧ (gmtime e.second).date.year < 10000

instance (e : Append) : Decidable (FourDigits e) := inferInstanceAs (Decidable (_ ∧ _))

variable {c : Config} {disk₀ : List UInt8 → List UInt8} {s s' : LogFile} {f : AppendFile}
  {e : Append} {hostname : List UInt8} {now : ℤ} {es : List Append}

theorem Sorted.congr (h : Sorted c s) (hlast : s'.lastRoll = s.lastRoll)
    (hnames : s'.logFilenames = s.logFilenames) : Sorted c s' := by
  obtain ⟨hpos, hstamped, hsorted⟩ := h
  rw [← hlast] at hpos hstamped
  rw [← hnames] at hstamped hsorted
  exact ⟨hpos, hstamped, hsorted⟩

theorem Sorted.rollFile (h : Sorted c s) (hyear : (gmtime now).date.year < 10000) :
    Sorted c (s.rollFile c hostname now).2 := by
  obtain ⟨-, heq⟩ | ⟨hnow, heq⟩ := rollFile_cases c s hostname now
  · rwa [heq]
  · rw [heq]
    refine ⟨h.lastRoll.trans hnow.le, fun name hname => ?_, ?_⟩
    · obtain hold | hnew := List.mem_append.mp hname
      · obtain ⟨hostname', t, ht, hle, hstamp⟩ := h.stamped name hold
        exact ⟨hostname', t, ht, hle.trans hnow.le, hstamp⟩
      · exact ⟨hostname, now, h.lastRoll.trans hnow.le, le_rfl, List.mem_singleton.mp hnew⟩
    · refine List.pairwise_append.mpr ⟨h.sorted, List.pairwise_singleton _ _, ?_⟩
      intro name hold name' hnew
      obtain ⟨hostname', t, ht, hle, rfl⟩ := h.stamped name hold
      obtain rfl := List.mem_singleton.mp hnew
      exact getLogFileName_lt ht (hle.trans_lt hnow) hyear _ _

theorem sorted_create (hyear : (gmtime now).date.year < 10000) :
    Sorted c (create c disk₀ hostname now) :=
  Sorted.rollFile ⟨le_rfl, nofun, .nil⟩ hyear

theorem Sorted.append (h : Sorted c s) (hfile : s.file = some f)
    (he : (writeLoop e.logline 0 e.accepted).1 = e.logline.length) (hyears : FourDigits e)
    (hs' : s.appendUnlocked c e = .ok s') : Sorted c s' := by
  have hwrite : Sorted c (s.write f e) := h.congr rfl rfl
  obtain ⟨-, heq⟩ | ⟨-, ⟨-, -, heq⟩ | ⟨-, -, flush, heq⟩ | ⟨-, heq⟩⟩ :=
    append_cases (c := c) hfile he <;> obtain rfl := Except.ok.inj (heq.symm.trans hs')
  · exact hwrite.rollFile hyears.1
  · exact Sorted.rollFile (s := { s.write f e with count := 0 }) (h.congr rfl rfl) hyears.2
  · exact h.congr rfl rfl
  · exact h.congr rfl rfl

theorem run_sorted (hnow : 0 < now) (hyear : (gmtime now).date.year < 10000)
    (h : (logFile c).Run (fun _ e => FourDigits e) (create c disk₀ hostname now) es s) :
    (∃ olds f cur, Whole c disk₀ (es.map Append.logline) s olds f cur) ∧ Sorted c s := by
  refine h.invariant_trace (fun es s => (∃ olds f cur,
    Whole c disk₀ (es.map Append.logline) s olds f cur) ∧ Sorted c s)
    ⟨run_whole hnow .nil, sorted_create hyear⟩ fun es t e u ht he hyears hu => ?_
  obtain ⟨⟨olds, f, cur, hw⟩, hsorted⟩ := ht
  obtain ⟨u', hu', hw'⟩ := hw.step he
  obtain rfl := Except.ok.inj (hu'.symm.trans hu)
  rw [List.map_append]
  exact ⟨hw', hsorted.append hw.file he hyears hu⟩

theorem Whole.parts {lines cur : List (List UInt8)} {olds : List (List UInt8 × List (List UInt8))}
    (h : Whole c disk₀ lines s olds f cur) :
    ∃ parts : List (List UInt8 × List (List UInt8)), parts.map Prod.fst = s.logFilenames ∧
      (∀ p ∈ parts, s.disk p.1 = disk₀ p.1 ++ p.2.flatten) ∧
      (parts.map Prod.snd).flatten = lines := by
  refine ⟨olds ++ [(f.filename, cur)], ?_, fun p hp => ?_, ?_⟩
  · simp [h.names]
  · obtain hold | hnew := List.mem_append.mp hp
    · exact h.complete p hold
    · obtain rfl := List.mem_singleton.mp hnew
      exact h.current
  · simp [← h.lines_eq]

/-- Whatever the clock does in years of four digits: whoever sorts the names of the files by their
text has what was appended in the order of the calls. -/
theorem sorted_names_give_log (hnow : 0 < now) (hyear : (gmtime now).date.year < 10000)
    (h : (logFile c).Run (fun _ e => FourDigits e) (create c disk₀ hostname now) es s)
    {names : List (List UInt8)} (hperm : names.Perm s.logFilenames)
    (hsorted : names.Pairwise (· ≤ ·)) :
    names.Pairwise (· < ·) ∧
      ∃ parts : List (List UInt8 × List (List UInt8)), parts.map Prod.fst = names ∧
        (∀ p ∈ parts, s.disk p.1 = disk₀ p.1 ++ p.2.flatten) ∧
        (parts.map Prod.snd).flatten = es.map Append.logline := by
  obtain ⟨⟨olds, f, cur, hw⟩, hs⟩ := run_sorted hnow hyear h
  obtain rfl : names = s.logFilenames :=
    hperm.eq_of_pairwise' hsorted (hs.sorted.imp List.le_of_lt)
  exact ⟨hs.sorted, hw.parts⟩

/-- A log of two files, whose names are sorted. -/
theorem sorted_names_give_log_two : ∃ (s : LogFile) (parts : List (List UInt8 × List (List UInt8))),
    parts.map Prod.fst = s.logFilenames.mergeSort (fun a b => decide (a ≤ b)) ∧
      (∀ p ∈ parts, s.disk p.1 = p.2.flatten) ∧
      (parts.map Prod.snd).flatten = [ascii "abc", ascii "d"] := by
  let c : Config := ⟨ascii "test.log", 2, 3, 1024, 7⟩
  let e : Append := ⟨ascii "abc", [1, 2], 1700000001, 1700000001, ascii "host"⟩
  let e' : Append := ⟨ascii "d", [1], 1700000002, 1700000002, ascii "host"⟩
  have hnow : (0 : ℤ) < 1700000000 := by decide
  have hyears : FourDigits e ∧ FourDigits e' := by decide
  have he : (writeLoop e.logline 0 e.accepted).1 = e.logline.length := by decide
  have he' : (writeLoop e'.logline 0 e'.accepted).1 = e'.logline.length := by decide
  obtain ⟨f, hf⟩ : ∃ f, Whole c (fun _ => []) [] (create c (fun _ => []) (ascii "host") 1700000000)
      [] f [] := whole_create hnow
  obtain ⟨s, hs, olds, f', cur, hw⟩ := hf.step he
  obtain ⟨s', hs', -⟩ := hw.step he'
  have hrun : (logFile c).Run (fun _ e => FourDigits e)
      (create c (fun _ => []) (ascii "host") 1700000000) [e, e'] s' :=
    (Machine.Run.single (P := fun _ e => FourDigits e) he hyears.1 hs).append
      (Machine.Run.single (P := fun _ e => FourDigits e) he' hyears.2 hs')
  have hsorted : (s'.logFilenames.mergeSort (fun a b => decide (a ≤ b))).Pairwise
      (fun a b => decide (a ≤ b) = true) :=
    List.pairwise_mergeSort (fun a b d => by simpa using List.le_trans)
      (fun a b => by simpa using List.le_total a b) _
  obtain ⟨-, parts, hnames, hdisk, hlines⟩ := sorted_names_give_log hnow (by decide) hrun
    (List.mergeSort_perm _ _) (hsorted.imp of_decide_eq_true)
  exact ⟨s', parts, hnames, hdisk, hlines⟩

end LogFile
end MuduoWindows.Base
