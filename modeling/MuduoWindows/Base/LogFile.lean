import MuduoWindows.Library.Machine
import MuduoWindows.Base.LogFile.FileName
import MuduoWindows.Net.Fault

/-! # base/logFile.cpp: rolling

Lines are appended to the last of a sequence of files. Each append can read the clock twice, and the
clock may show any time. What a file contains includes what its `FILE` still buffers.
-/

namespace MuduoWindows.Base
open Library Net

structure AppendFile where
  filename : List UInt8
  writtenBytes : ℤ

/-- The loop of `AppendFile::append` from `written` on, where each call of `fwrite` accepts a number
of the remaining bytes: how many were written, and which. -/
def writeLoop (logline : List UInt8) (written : ℕ) : List ℕ → ℕ × List UInt8
  | [] => (written, [])
  | n :: ns =>
    if written = logline.length then (written, [])
    else
      let accepted := (logline.drop written).take n
      let (total, bytes) := writeLoop logline (written + accepted.length) ns
      (total, accepted ++ bytes)

theorem writeLoop_eq {logline : List UInt8} {written : ℕ} {ns : List ℕ}
    (hle : written ≤ logline.length)
    (hall : (writeLoop logline written ns).1 = logline.length) :
    writeLoop logline written ns = (logline.length, logline.drop written) := by
  induction ns generalizing written with
  | nil =>
    obtain rfl : written = logline.length := hall
    rw [writeLoop, List.drop_length]
  | cons n ns ih =>
    rw [writeLoop] at hall ⊢
    split_ifs at hall ⊢ with hdone
    · rw [hdone, List.drop_length]
    · have hlength : ((logline.drop written).take n).length ≤ logline.length - written := by
        rw [List.length_take, List.length_drop]
        exact min_le_right _ _
      have hnext : written + ((logline.drop written).take n).length ≤ logline.length := by omega
      dsimp only
      rw [ih hnext hall, ← List.drop_drop]
      exact congrArg (Prod.mk _) (List.prefix_iff_eq_append.mp (List.take_prefix n _))

/-- The constant members, and the id of the process. -/
structure LogFile.Config where
  basename : List UInt8
  rollSize : ℤ
  flushInterval : ℤ
  checkEveryN : ℤ
  pid : ℤ

/-- The other members, and the files by their names. -/
structure LogFile where
  count : ℤ
  startOfPeriod : ℤ
  lastRoll : ℤ
  lastFlush : ℤ
  file : Option AppendFile
  logFilenames : List (List UInt8)
  disk : List UInt8 → List UInt8

namespace LogFile

def kRollPerSeconds : ℤ := 60 * 60 * 24

def startOf (now : ℤ) : ℤ := now.tdiv kRollPerSeconds * kRollPerSeconds

/-- The new file is opened for appending before the old one is closed. -/
def rollFile (c : Config) (s : LogFile) (hostname : List UInt8) (now : ℤ) : Bool × LogFile :=
  let filename := getLogFileName c.basename hostname c.pid now
  let start := startOf now
  if now > s.lastRoll then
    (true, { s with
      lastRoll := now
      lastFlush := now
      startOfPeriod := start
      file := some { filename := filename, writtenBytes := 0 }
      logFilenames := s.logFilenames ++ [filename] })
  else (false, s)

def create (c : Config) (disk : List UInt8 → List UInt8) (hostname : List UInt8) (now : ℤ) :
    LogFile :=
  (rollFile c { count := 0, startOfPeriod := 0, lastRoll := 0, lastFlush := 0, file := none,
                logFilenames := [], disk := disk } hostname now).2

/-- A call of `append`: the line, what `fwrite` accepts, the readings of the clock in their order,
and what `ProcessInfo::hostname()` gives. -/
structure Append where
  logline : List UInt8
  accepted : List ℕ
  first : ℤ
  second : ℤ
  hostname : List UInt8

/-- `file_->append(logline, len)` -/
def write (s : LogFile) (f : AppendFile) (e : Append) : LogFile :=
  let (written, bytes) := writeLoop e.logline 0 e.accepted
  { s with
    file := some { f with writtenBytes := f.writtenBytes + written }
    disk := Function.update s.disk f.filename (s.disk f.filename ++ bytes) }

def appendUnlocked (c : Config) (s : LogFile) (e : Append) : Result LogFile :=
  match s.file with
  | none => .error (.nullPointer "file_")
  | some f =>
    let s := s.write f e
    if f.writtenBytes + (writeLoop e.logline 0 e.accepted).1 > c.rollSize then
      pure (s.rollFile c e.hostname e.first).2
    else
      let count := s.count + 1
      if count ≥ c.checkEveryN then
        let s := { s with count := 0 }
        let now := e.first
        let thisPeriod := startOf now
        if thisPeriod ≠ s.startOfPeriod then pure (s.rollFile c e.hostname e.second).2
        else if now - s.lastFlush > c.flushInterval then pure { s with lastFlush := now }
        else pure s
      else pure { s with count := count }

/-- The calls of `append` in which `fwrite` accepts the whole line. -/
def logFile (c : Config) : Machine LogFile Append Fault where
  enabled _ e := (writeLoop e.logline 0 e.accepted).1 = e.logline.length
  step s e := s.appendUnlocked c e

def held (disk₀ : List UInt8 → List UInt8) (s : LogFile) : ℤ :=
  match s.file with
  | some f => (s.disk f.filename).length - (disk₀ f.filename).length
  | none => 0

variable {c : Config} {disk₀ : List UInt8 → List UInt8} {s s' : LogFile} {f : AppendFile}
  {e : Append}

theorem write_eq (he : (writeLoop e.logline 0 e.accepted).1 = e.logline.length) :
    s.write f e = { s with
      file := some { f with writtenBytes := f.writtenBytes + e.logline.length }
      disk := Function.update s.disk f.filename (s.disk f.filename ++ e.logline) } := by
  unfold write
  rw [writeLoop_eq (Nat.zero_le _) he, List.drop_zero]

theorem rollFile_cases (c : Config) (s : LogFile) (hostname : List UInt8) (now : ℤ) :
    now ≤ s.lastRoll ∧ (s.rollFile c hostname now).2 = s ∨
    s.lastRoll < now ∧ (s.rollFile c hostname now).2 =
      { s with
        lastRoll := now
        lastFlush := now
        startOfPeriod := startOf now
        file := some ⟨getLogFileName c.basename hostname c.pid now, 0⟩
        logFilenames := s.logFilenames ++ [getLogFileName c.basename hostname c.pid now] } := by
  unfold rollFile
  dsimp only
  split_ifs with h
  · exact .inr ⟨h, rfl⟩
  · exact .inl ⟨not_lt.mp h, rfl⟩

theorem append_cases (hfile : s.file = some f)
    (he : (writeLoop e.logline 0 e.accepted).1 = e.logline.length) :
    (c.rollSize < f.writtenBytes + e.logline.length ∧
      s.appendUnlocked c e = .ok ((s.write f e).rollFile c e.hostname e.first).2) ∨
    f.writtenBytes + e.logline.length ≤ c.rollSize ∧
      ((c.checkEveryN ≤ s.count + 1 ∧ startOf e.first ≠ s.startOfPeriod ∧ s.appendUnlocked c e =
          .ok (LogFile.rollFile c { s.write f e with count := 0 } e.hostname e.second).2) ∨
        (c.checkEveryN ≤ s.count + 1 ∧ startOf e.first = s.startOfPeriod ∧
          ∃ flush, s.appendUnlocked c e =
            .ok { s.write f e with count := 0, lastFlush := flush }) ∨
        s.count + 1 < c.checkEveryN ∧
          s.appendUnlocked c e = .ok { s.write f e with count := s.count + 1 }) := by
  have hcount : (s.write f e).count = s.count := rfl
  have hperiod : (s.write f e).startOfPeriod = s.startOfPeriod := rfl
  unfold appendUnlocked
  rw [hfile]
  dsimp only
  rw [he, hcount, hperiod]
  split_ifs with hsize hcheck hday hflush
  · exact .inl ⟨hsize, rfl⟩
  · exact .inr ⟨not_lt.mp hsize, .inl ⟨hcheck, hday, rfl⟩⟩
  · exact .inr ⟨not_lt.mp hsize, .inr (.inl ⟨hcheck, not_not.mp hday, _, rfl⟩)⟩
  · exact .inr ⟨not_lt.mp hsize, .inr (.inl ⟨hcheck, not_not.mp hday, _, rfl⟩)⟩
  · exact .inr ⟨not_lt.mp hsize, .inr (.inr ⟨not_le.mp hcheck, rfl⟩)⟩

/-- The files `olds` are complete with their lines; `f` is the current file with the lines `cur`. -/
structure Whole (c : Config) (disk₀ : List UInt8 → List UInt8) (lines : List (List UInt8))
    (s : LogFile) (olds : List (List UInt8 × List (List UInt8))) (f : AppendFile)
    (cur : List (List UInt8)) : Prop where
  file : s.file = some f
  names : s.logFilenames = olds.map Prod.fst ++ [f.filename]
  nodup : s.logFilenames.Nodup
  stamped : ∀ name ∈ s.logFilenames, ∃ hostname t, 0 < t ∧ t ≤ s.lastRoll ∧
    name = getLogFileName c.basename hostname c.pid t
  complete : ∀ p ∈ olds, s.disk p.1 = disk₀ p.1 ++ p.2.flatten
  current : s.disk f.filename = disk₀ f.filename ++ cur.flatten
  written : f.writtenBytes = cur.flatten.length
  others : ∀ name ∉ s.logFilenames, s.disk name = disk₀ name
  lines_eq : (olds.map Prod.snd).flatten ++ cur = lines

variable {lines cur : List (List UInt8)} {olds : List (List UInt8 × List (List UInt8))}

theorem Whole.counted (h : Whole c disk₀ lines s olds f cur) (count flush : ℤ) :
    Whole c disk₀ lines { s with count := count, lastFlush := flush } olds f cur :=
  ⟨h.file, h.names, h.nodup, h.stamped, h.complete, h.current, h.written, h.others, h.lines_eq⟩

theorem Whole.mem_names (h : Whole c disk₀ lines s olds f cur) : f.filename ∈ s.logFilenames := by
  rw [h.names]
  exact List.mem_append_right _ List.mem_cons_self

theorem Whole.write (h : Whole c disk₀ lines s olds f cur)
    (he : (writeLoop e.logline 0 e.accepted).1 = e.logline.length) :
    Whole c disk₀ (lines ++ [e.logline]) (s.write f e) olds
      { f with writtenBytes := f.writtenBytes + e.logline.length } (cur ++ [e.logline]) := by
  have hnodup := h.nodup
  rw [h.names] at hnodup
  have hmem := h.mem_names
  have hdisk : ∀ name, name ≠ f.filename → Function.update s.disk f.filename
      (s.disk f.filename ++ e.logline) name = s.disk name :=
    fun _ hne => Function.update_of_ne hne _ _
  rw [write_eq he]
  refine ⟨rfl, h.names, h.nodup, h.stamped, fun p hp => ?_, ?_, ?_, fun name hname => ?_, ?_⟩
  · have hne : p.1 ≠ f.filename :=
      (List.nodup_append.mp hnodup).2.2 _ (List.mem_map_of_mem hp) _ List.mem_cons_self
    exact (hdisk _ hne).trans (h.complete p hp)
  · dsimp only
    rw [Function.update_self, h.current, List.flatten_append, List.flatten_singleton,
      List.append_assoc]
  · dsimp only
    rw [h.written, List.flatten_append, List.flatten_singleton, List.length_append, Nat.cast_add]
  · have hne : name ≠ f.filename := by
      rintro rfl
      exact hname hmem
    exact (hdisk _ hne).trans (h.others name hname)
  · rw [← List.append_assoc, h.lines_eq]

theorem Whole.fresh (h : Whole c disk₀ lines s olds f cur) {now : ℤ} (hnow : s.lastRoll < now)
    (hostname : List UInt8) : 0 < now ∧
      getLogFileName c.basename hostname c.pid now ∉ s.logFilenames := by
  obtain ⟨_, t, ht, hle, -⟩ := h.stamped _ h.mem_names
  refine ⟨by omega, fun hmem => ?_⟩
  obtain ⟨hostname', t', ht', hle', hname⟩ := h.stamped _ hmem
  have heq := getLogFileName_inj (by omega) ht'.le hname
  omega

theorem Whole.rolled (h : Whole c disk₀ lines s olds f cur) {now : ℤ} (hnow : s.lastRoll < now)
    (hostname : List UInt8) :
    Whole c disk₀ lines
      { s with
        lastRoll := now
        lastFlush := now
        startOfPeriod := startOf now
        file := some ⟨getLogFileName c.basename hostname c.pid now, 0⟩
        logFilenames := s.logFilenames ++ [getLogFileName c.basename hostname c.pid now] }
      (olds ++ [(f.filename, cur)]) ⟨getLogFileName c.basename hostname c.pid now, 0⟩ [] := by
  obtain ⟨hpos, hfresh⟩ := h.fresh hnow hostname
  refine ⟨rfl, ?_, ?_, fun name hname => ?_, fun p hp => ?_, ?_, rfl, fun name hname => ?_, ?_⟩
  · rw [h.names, List.map_append]
    rfl
  · refine List.nodup_append.mpr ⟨h.nodup, List.nodup_singleton _, fun a ha b hb => ?_⟩
    rw [List.mem_singleton.mp hb]
    rintro rfl
    exact hfresh ha
  · obtain hold | hnew := List.mem_append.mp hname
    · obtain ⟨hostname', t, ht, hle, heq⟩ := h.stamped name hold
      exact ⟨hostname', t, ht, hle.trans hnow.le, heq⟩
    · exact ⟨hostname, now, hpos, le_rfl, List.mem_singleton.mp hnew⟩
  · obtain hold | hnew := List.mem_append.mp hp
    · exact h.complete p hold
    · obtain rfl := List.mem_singleton.mp hnew
      exact h.current
  · rw [List.flatten_nil, List.append_nil]
    exact h.others _ hfresh
  · exact h.others name fun hmem => hname (List.mem_append_left _ hmem)
  · rw [List.map_append, List.flatten_append, ← h.lines_eq, List.append_nil]
    simp

theorem Whole.rollFile (h : Whole c disk₀ lines s olds f cur) (hostname : List UInt8) (now : ℤ) :
    ∃ olds f cur, Whole c disk₀ lines (s.rollFile c hostname now).2 olds f cur := by
  obtain ⟨-, heq⟩ | ⟨hnow, heq⟩ := rollFile_cases c s hostname now
  · rw [heq]
    exact ⟨olds, f, cur, h⟩
  · rw [heq]
    exact ⟨_, _, _, h.rolled hnow hostname⟩

theorem Whole.step (h : Whole c disk₀ lines s olds f cur) (he : (logFile c).enabled s e) :
    ∃ s', (logFile c).step s e = .ok s' ∧
      ∃ olds f cur, Whole c disk₀ (lines ++ [e.logline]) s' olds f cur := by
  have hw := h.write he
  obtain ⟨-, heq⟩ | ⟨-, ⟨-, -, heq⟩ | ⟨-, -, flush, heq⟩ | ⟨-, heq⟩⟩ :=
    append_cases (c := c) h.file he
  · exact ⟨_, heq, hw.rollFile _ _⟩
  · exact ⟨_, heq, (hw.counted 0 (s.write f e).lastFlush).rollFile _ _⟩
  · exact ⟨_, heq, _, _, _, hw.counted 0 flush⟩
  · exact ⟨_, heq, _, _, _, hw.counted (s.count + 1) (s.write f e).lastFlush⟩

theorem whole_create {hostname : List UInt8} {now : ℤ} (hnow : 0 < now) :
    ∃ f, Whole c disk₀ [] (create c disk₀ hostname now) [] f [] := by
  obtain ⟨hle, -⟩ | ⟨-, heq⟩ := rollFile_cases c
    { count := 0, startOfPeriod := 0, lastRoll := 0, lastFlush := 0, file := none,
      logFilenames := [], disk := disk₀ } hostname now
  · exact absurd hnow (not_lt.mpr hle)
  · unfold create
    rw [heq]
    refine ⟨_, rfl, rfl, List.nodup_singleton _, fun name hname => ?_, nofun, ?_, rfl,
      fun name _ => rfl, rfl⟩
    · exact ⟨hostname, now, hnow, le_rfl, List.mem_singleton.mp hname⟩
    · exact (List.append_nil _).symm

variable {hostname : List UInt8} {now : ℤ} {es es' : List Append}

theorem run_whole (hnow : 0 < now)
    (h : (logFile c).Run Machine.Any (create c disk₀ hostname now) es s) :
    ∃ olds f cur, Whole c disk₀ (es.map Append.logline) s olds f cur := by
  refine h.invariant_trace (fun es s => ∃ olds f cur,
    Whole c disk₀ (es.map Append.logline) s olds f cur) ?_ fun es t e u ht he _ hu => ?_
  · obtain ⟨f, hf⟩ : ∃ f, Whole c disk₀ [] (create c disk₀ hostname now) [] f [] :=
      whole_create hnow
    exact ⟨[], f, [], hf⟩
  · obtain ⟨olds, f, cur, ht⟩ := ht
    obtain ⟨u', hu', hwhole⟩ := ht.step he
    obtain rfl := Except.ok.inj (hu'.symm.trans hu)
    rwa [List.map_append]

theorem Whole.held_eq (h : Whole c disk₀ lines s olds f cur) : held disk₀ s = f.writtenBytes := by
  unfold held
  rw [h.file, h.written]
  dsimp only
  rw [h.current, List.length_append, Nat.cast_add, add_sub_cancel_left]

theorem rollFile_file (hfile : s.file = some f) :
    ∃ f', (s.rollFile c hostname now).2.file = some f' ∧
      (f'.writtenBytes = 0 ∨ now ≤ s.lastRoll ∧ f' = f) := by
  obtain ⟨hle, heq⟩ | ⟨-, heq⟩ := rollFile_cases c s hostname now
  · rw [heq]
    exact ⟨f, hfile, .inr ⟨hle, rfl⟩⟩
  · rw [heq]
    exact ⟨_, rfl, .inl rfl⟩

/-- After an append the current file keeps to its limit, unless the roll was refused. -/
theorem append_size (hfile : s.file = some f)
    (he : (writeLoop e.logline 0 e.accepted).1 = e.logline.length) {s' : LogFile}
    (hs' : s.appendUnlocked c e = .ok s') : ∃ f', s'.file = some f' ∧
      (f'.writtenBytes ≤ max c.rollSize 0 ∨ e.first ≤ s.lastRoll) := by
  have hwritten : (s.write f e).file =
      some { f with writtenBytes := f.writtenBytes + e.logline.length } := by rw [write_eq he]
  have hlast : (s.write f e).lastRoll = s.lastRoll := rfl
  obtain ⟨-, heq⟩ | ⟨hsize, ⟨-, -, heq⟩ | ⟨-, -, flush, heq⟩ | ⟨-, heq⟩⟩ :=
    append_cases (c := c) hfile he
  · obtain rfl := Except.ok.inj (heq.symm.trans hs')
    obtain ⟨f', hf', hzero | ⟨hle, -⟩⟩ := rollFile_file (c := c) hwritten
    · exact ⟨f', hf', .inl (hzero.trans_le (le_max_right _ _))⟩
    · exact ⟨f', hf', .inr hle⟩
  · obtain rfl := Except.ok.inj (heq.symm.trans hs')
    obtain ⟨f', hf', hzero | ⟨-, rfl⟩⟩ :=
      rollFile_file (c := c) (s := { s.write f e with count := 0 }) hwritten
    · exact ⟨f', hf', .inl (hzero.trans_le (le_max_right _ _))⟩
    · exact ⟨_, hf', .inl (hsize.trans (le_max_left _ _))⟩
  · obtain rfl := Except.ok.inj (heq.symm.trans hs')
    exact ⟨_, hwritten, .inl (hsize.trans (le_max_left _ _))⟩
  · obtain rfl := Except.ok.inj (heq.symm.trans hs')
    exact ⟨_, hwritten, .inl (hsize.trans (le_max_left _ _))⟩

/-- The counter stands below the number of appends at which the day is checked. -/
def Counted (c : Config) (s : LogFile) : Prop := 0 ≤ s.count ∧ s.count < max c.checkEveryN 1

theorem rollFile_count : (s.rollFile c hostname now).2.count = s.count := by
  obtain ⟨-, heq⟩ | ⟨-, heq⟩ := rollFile_cases c s hostname now <;> rw [heq]

theorem Counted.append (h : Counted c s) (hfile : s.file = some f)
    (he : (writeLoop e.logline 0 e.accepted).1 = e.logline.length) {s' : LogFile}
    (hs' : s.appendUnlocked c e = .ok s') : Counted c s' := by
  have hcount : (s.write f e).count = s.count := rfl
  unfold Counted at h ⊢
  obtain ⟨-, heq⟩ | ⟨-, ⟨-, -, heq⟩ | ⟨-, -, flush, heq⟩ | ⟨hlt, heq⟩⟩ :=
    append_cases (c := c) hfile he
  · obtain rfl := Except.ok.inj (heq.symm.trans hs')
    rwa [rollFile_count, hcount]
  · obtain rfl := Except.ok.inj (heq.symm.trans hs')
    rw [rollFile_count]
    dsimp only
    omega
  · obtain rfl := Except.ok.inj (heq.symm.trans hs')
    dsimp only
    omega
  · obtain rfl := Except.ok.inj (heq.symm.trans hs')
    dsimp only
    omega

theorem run_counted (hnow : 0 < now)
    (h : (logFile c).Run Machine.Any (create c disk₀ hostname now) es s) : Counted c s := by
  have hfresh : Counted c (create c disk₀ hostname now) := by
    unfold Counted create
    rw [rollFile_count]
    exact ⟨le_rfl, lt_max_of_lt_right one_pos⟩
  refine (h.invariant_trace (fun es s => (∃ olds f cur,
    Whole c disk₀ (es.map Append.logline) s olds f cur) ∧ Counted c s)
    ⟨run_whole hnow .nil, hfresh⟩ fun es t e u ht he _ hu => ?_).2
  obtain ⟨⟨olds, f, cur, ht⟩, htc⟩ := ht
  obtain ⟨u', hu', hwhole⟩ := ht.step he
  obtain rfl := Except.ok.inj (hu'.symm.trans hu)
  rw [List.map_append]
  exact ⟨hwhole, htc.append ht.file he hu'⟩

/-- An append whose readings of the clock are of another day, after the last roll. -/
def Late (s : LogFile) (e : Append) : Prop :=
  (startOf e.first ≠ s.startOfPeriod ∧ s.lastRoll < e.first) ∧
    startOf e.second ≠ s.startOfPeriod ∧ s.lastRoll < e.second

theorem rollFile_names_lt (hnow : s.lastRoll < now) :
    s.logFilenames.length < (s.rollFile c hostname now).2.logFilenames.length := by
  obtain ⟨hle, -⟩ | ⟨-, heq⟩ := rollFile_cases c s hostname now
  · exact absurd hnow (not_lt.mpr hle)
  · rw [heq, List.length_append]
    exact Nat.lt_succ_self _

theorem rollFile_names_le :
    s.logFilenames.length ≤ (s.rollFile c hostname now).2.logFilenames.length := by
  obtain ⟨-, heq⟩ | ⟨hnow, -⟩ := rollFile_cases c s hostname now
  · rw [heq]
  · exact (rollFile_names_lt hnow).le

theorem append_names_le (hfile : s.file = some f)
    (he : (writeLoop e.logline 0 e.accepted).1 = e.logline.length) {s' : LogFile}
    (hs' : s.appendUnlocked c e = .ok s') : s.logFilenames.length ≤ s'.logFilenames.length := by
  obtain ⟨-, heq⟩ | ⟨-, ⟨-, -, heq⟩ | ⟨-, -, flush, heq⟩ | ⟨-, heq⟩⟩ :=
    append_cases (c := c) hfile he
  · obtain rfl := Except.ok.inj (heq.symm.trans hs')
    exact rollFile_names_le (s := s.write f e)
  · obtain rfl := Except.ok.inj (heq.symm.trans hs')
    exact rollFile_names_le (s := { s.write f e with count := 0 })
  · obtain rfl := Except.ok.inj (heq.symm.trans hs')
    exact le_rfl
  · obtain rfl := Except.ok.inj (heq.symm.trans hs')
    exact le_rfl

theorem late_append (hfile : s.file = some f)
    (he : (writeLoop e.logline 0 e.accepted).1 = e.logline.length) (hlate : Late s e)
    {s' : LogFile} (hs' : s.appendUnlocked c e = .ok s') :
    s.logFilenames.length < s'.logFilenames.length ∨
      s'.count = s.count + 1 ∧ s'.startOfPeriod = s.startOfPeriod ∧ s'.lastRoll = s.lastRoll ∧
        s'.logFilenames = s.logFilenames := by
  obtain ⟨⟨hfirst, hafter⟩, -, hafter'⟩ := hlate
  obtain ⟨-, heq⟩ | ⟨-, ⟨-, -, heq⟩ | ⟨-, hday, -⟩ | ⟨-, heq⟩⟩ := append_cases (c := c) hfile he
  · obtain rfl := Except.ok.inj (heq.symm.trans hs')
    exact .inl (rollFile_names_lt (s := s.write f e) hafter)
  · obtain rfl := Except.ok.inj (heq.symm.trans hs')
    exact .inl (rollFile_names_lt (s := { s.write f e with count := 0 }) hafter')
  · exact absurd hday hfirst
  · obtain rfl := Except.ok.inj (heq.symm.trans hs')
    exact .inr ⟨rfl, rfl, rfl, rfl⟩

theorem late_rolls (hwhole : ∃ olds f cur, Whole c disk₀ lines s olds f cur) (hcount : Counted c s)
    (h : (logFile c).Run Machine.Any s es s') (hlate : ∀ e ∈ es, Late s e)
    (hmany : max c.checkEveryN 1 ≤ es.length) :
    s.logFilenames.length < s'.logFilenames.length := by
  have hrun := h.of_forall_mem hlate
  obtain ⟨-, hcounted, hrolled | ⟨heq, -⟩⟩ := hrun.invariant_trace (fun es u =>
    (∃ lines olds f cur, Whole c disk₀ lines u olds f cur) ∧ Counted c u ∧
      (s.logFilenames.length < u.logFilenames.length ∨
        u.count = s.count + es.length ∧ u.startOfPeriod = s.startOfPeriod ∧
          u.lastRoll = s.lastRoll ∧ u.logFilenames = s.logFilenames))
    ⟨⟨lines, hwhole⟩, hcount, .inr ⟨(add_zero _).symm, rfl, rfl, rfl⟩⟩
    (by
      rintro es t e u ⟨⟨lines, olds, f, cur, ht⟩, htc, hcase⟩ he hlate hu
      obtain ⟨u', hu', hu''⟩ := ht.step he
      obtain rfl := Except.ok.inj (hu'.symm.trans hu)
      refine ⟨⟨_, hu''⟩, htc.append ht.file he hu', ?_⟩
      obtain hrolled | ⟨hn, hperiod, hlast, hnames⟩ := hcase
      · exact .inl (hrolled.trans_le (append_names_le ht.file he hu'))
      · have hlate' : Late t e := by
          unfold Late at hlate ⊢
          rwa [hperiod, hlast]
        obtain hrolls | ⟨hn', hperiod', hlast', hnames'⟩ := late_append ht.file he hlate' hu'
        · exact .inl (hnames ▸ hrolls)
        · refine .inr ⟨?_, hperiod'.trans hperiod, hlast'.trans hlast, hnames'.trans hnames⟩
          rw [hn', hn, List.length_append, List.length_singleton, Nat.cast_add, add_assoc]
          rfl)
  · exact hrolled
  · have hlow := hcount.1
    have hhigh := hcounted.2
    omega

/-- Whatever the clock shows after a positive first reading: the files hold the appended lines in
order, each line in one of them; their names differ; the current file keeps to the limit unless its
roll was refused; and on another day it is rolled in time. -/
theorem rolling_keeps_lines (hnow : 0 < now)
    (h : (logFile c).Run Machine.Any (create c disk₀ hostname now) es s) :
    (∃ parts : List (List UInt8 × List (List UInt8)), parts.map Prod.fst = s.logFilenames ∧
      (∀ p ∈ parts, s.disk p.1 = disk₀ p.1 ++ p.2.flatten) ∧
      (parts.map Prod.snd).flatten = es.map Append.logline) ∧
    s.logFilenames.Nodup ∧
    (∀ e, (logFile c).enabled s e → ∃ s', (logFile c).step s e = .ok s' ∧
      (held disk₀ s' ≤ max c.rollSize 0 ∨ e.first ≤ s.lastRoll)) ∧
    ∀ es' s', (logFile c).Run Machine.Any s es' s' → (∀ e ∈ es', Late s e) →
      max c.checkEveryN 1 ≤ es'.length → s.logFilenames.length < s'.logFilenames.length := by
  obtain ⟨olds, f, cur, hw⟩ := run_whole hnow h
  refine ⟨⟨olds ++ [(f.filename, cur)], ?_, fun p hp => ?_, ?_⟩, hw.nodup, fun e he => ?_,
    fun es' s' hrun hlate hmany => late_rolls ⟨olds, f, cur, hw⟩ ?_ hrun hlate hmany⟩
  · rw [List.map_append, hw.names]
    rfl
  · obtain hold | hnew := List.mem_append.mp hp
    · exact hw.complete p hold
    · obtain rfl := List.mem_singleton.mp hnew
      exact hw.current
  · rw [List.map_append, List.flatten_append, ← hw.lines_eq]
    simp
  · obtain ⟨s', hs', olds', f', cur', hw'⟩ := hw.step he
    obtain ⟨f'', hf'', hsize⟩ := append_size hw.file he hs'
    obtain rfl := Option.some.inj (hw'.file.symm.trans hf'')
    exact ⟨s', hs', hw'.held_eq ▸ hsize⟩
  · exact run_counted hnow h

/-- A line for which `fwrite` has to be called twice. -/
theorem rolling_keeps_lines_one : ∃ (s : LogFile) (parts : List (List UInt8 × List (List UInt8))),
    parts.map Prod.fst = s.logFilenames ∧ (∀ p ∈ parts, s.disk p.1 = p.2.flatten) ∧
      (parts.map Prod.snd).flatten = [ascii "abc"] ∧ s.logFilenames.Nodup := by
  let c : Config := ⟨ascii "test.log", 2, 3, 1024, 7⟩
  let e : Append := ⟨ascii "abc", [1, 2], 1700000001, 1700000001, ascii "host"⟩
  have hnow : (0 : ℤ) < 1700000000 := by decide
  have he : (writeLoop e.logline 0 e.accepted).1 = e.logline.length := by decide
  obtain ⟨f, hf⟩ : ∃ f, Whole c (fun _ => []) [] (create c (fun _ => []) (ascii "host") 1700000000)
      [] f [] := whole_create hnow
  obtain ⟨s, hs, -⟩ := hf.step he
  obtain ⟨⟨parts, hnames, hdisk, hlines⟩, hnodup, -⟩ :=
    rolling_keeps_lines hnow (Machine.Run.single he trivial hs)
  exact ⟨s, parts, hnames, hdisk, hlines, hnodup⟩

/-- With a negative limit even an empty file is too large, and with a count of zero no append is
needed to reach it. -/
theorem rolling_limits : (¬ ∀ (c : Config) (disk₀ : List UInt8 → List UInt8)
      (hostname : List UInt8) (now : ℤ) (es : List Append) (s : LogFile), 0 < now →
      (logFile c).Run Machine.Any (create c disk₀ hostname now) es s →
      ∀ e, (logFile c).enabled s e → ∃ s', (logFile c).step s e = .ok s' ∧
        (held disk₀ s' ≤ c.rollSize ∨ e.first ≤ s.lastRoll)) ∧
    ¬ ∀ (c : Config) (disk₀ : List UInt8 → List UInt8) (hostname : List UInt8) (now : ℤ)
      (es : List Append) (s : LogFile), 0 < now →
      (logFile c).Run Machine.Any (create c disk₀ hostname now) es s →
      ∀ es' s', (logFile c).Run Machine.Any s es' s' → (∀ e ∈ es', Late s e) →
        c.checkEveryN ≤ es'.length → s.logFilenames.length < s'.logFilenames.length := by
  constructor
  · intro hall
    let c : Config := ⟨[], -1, 3, 1024, 7⟩
    let e : Append := ⟨[65], [1], 2, 2, []⟩
    have he : (writeLoop e.logline 0 e.accepted).1 = e.logline.length := by decide
    obtain ⟨f, hf⟩ : ∃ f, Whole c (fun _ => []) [] (create c (fun _ => []) [] 1) [] f [] :=
      whole_create one_pos
    obtain ⟨s', hs', hlimit⟩ := hall c (fun _ => []) [] 1 [] _ one_pos .nil e he
    obtain ⟨s'', hs'', olds, f', cur, hw⟩ := hf.step he
    obtain rfl := Except.ok.inj (hs'.symm.trans hs'')
    rw [hw.held_eq, hw.written] at hlimit
    obtain hsize | hclock := hlimit
    · have hneg : c.rollSize = -1 := rfl
      omega
    · exact absurd hclock (by decide)
  · intro hall
    exact lt_irrefl _ (hall ⟨[], 1, 3, 0, 7⟩ (fun _ => []) [] 1 [] _ one_pos .nil [] _ .nil
      (fun e he => absurd he List.not_mem_nil) le_rfl)

end LogFile
end MuduoWindows.Base
