import MuduoWindows.Base.LogStream.Operators
import MuduoWindows.Base.TimeZone

/-! # base/logging.cpp

A logger writes a header when it is constructed, and a suffix with the place in the source and the
end of the line when it is destroyed. Its stream silently drops what does not fit.
-/

namespace MuduoWindows.Base
open Library Net LogStream

/-- The variables of a thread: the text of the last second that it logged in, and its own id. A
string is given by the characters before its terminator. -/
structure LogThread where
  t_time : List UInt8
  t_lastSecond : ℤ
  t_cachedTid : ℤ
  t_tidString : List UInt8

def t_tidStringLength : ℕ := 6

/-- `CurrentThread::tid()`, where `id` is the id of the thread. -/
def LogThread.tid (t : LogThread) (id : ℤ) : LogThread :=
  if t.t_cachedTid = 0 then { t with t_cachedTid := id, t_tidString := padded 32 6 id } else t

inductive LogLevel where
  | ETRACE
  | EDEBUG
  | EINFO
  | EWARN
  | EERROR
  | EFATAL
  deriving DecidableEq

def LogLevelName : LogLevel → List UInt8
  | .ETRACE => ascii "TRACE "
  | .EDEBUG => ascii "DEBUG "
  | .EINFO => ascii "INFO  "
  | .EWARN => ascii "WARN  "
  | .EERROR => ascii "ERROR "
  | .EFATAL => ascii "FATAL "

/-- A string with the length that is known for it. -/
structure T where
  str : List UInt8
  len : ℕ
  strlen : str.length = len

def T.create (str : List UInt8) (len : ℕ) : Result T :=
  if h : str.length = len then pure ⟨str, len, h⟩
  else .error (.assertion "strlen(str) == len_")

theorem T.create_eq {str : List UInt8} {len : ℕ} (h : str.length = len) :
    T.create str len = .ok ⟨str, len, h⟩ := dif_pos h

/-- The name behind the last slash; its size is stored in an `int`. -/
structure SourceFile where
  data : List UInt8

namespace SourceFile

def size (file : SourceFile) : ℤ := StringPiece.toInt file.data.length

def ofPath (path : List UInt8) : SourceFile :=
  ⟨(path.reverse.takeWhile (· ≠ 47)).reverse⟩

end SourceFile

def outT (s : LogStream) (v : T) : Result LogStream := s.appendInt v.str (StringPiece.toInt v.len)

def outSourceFile (s : LogStream) (v : SourceFile) : Result LogStream := s.appendInt v.data v.size

structure Logger where
  stream : LogStream
  level : LogLevel
  line : IntegerType.int.Value
  basename : SourceFile

namespace Logger

def kMicroSecondsPerSecond : ℤ := 1000 * 1000

/-- What the time of a second is printed as. A field that overflows has no value. -/
def timeText (seconds : ℤ) : Result (List UInt8) :=
  match do
    let dt ← toUtcTime seconds
    let year ← dt.year.value
    let month ← dt.month.value
    let day ← dt.day.value
    let hour ← dt.hour.value
    let minute ← dt.minute.value
    let second ← dt.second.value
    some (padded 32 4 year ++ padded 48 2 month ++ padded 48 2 day ++ ascii " " ++
      padded 48 2 hour ++ ascii ":" ++ padded 48 2 minute ++ ascii ":" ++ padded 48 2 second) with
  | some text => pure (text.take 63)
  | none => .error (.undefined "toUtcTime")

/-- The text of a second is kept until the next second. -/
def formatSecond (t : LogThread) (seconds : ℤ) : Result LogThread :=
  if seconds ≠ t.t_lastSecond then do
    let text ← timeText seconds
    pure { t with t_lastSecond := seconds, t_time := text }
  else pure t

def formatTime (t : LogThread) (s : LogStream) (microSecondsSinceEpoch : ℤ) :
    Result (LogThread × LogStream) := do
  let seconds := microSecondsSinceEpoch.tdiv kMicroSecondsPerSecond
  let microseconds := microSecondsSinceEpoch.tmod kMicroSecondsPerSecond
  let t ← formatSecond t seconds
  let us ← Fmt.create (ascii "." ++ padded 48 6 microseconds ++ ascii "Z ")
  assert (us.text.length = 9) "us.length() == 9"
  let time ← T.create t.t_time 17
  let fraction ← T.create us.text 9
  let s ← outT s time
  let s ← outT s fraction
  pure (t, s)

/-- What a constructor finds: the clock, the id of the thread, the text of the saved `errno`, and
the array of the stream, which is not initialized. -/
structure Surroundings where
  now : ℤ
  id : ℤ
  strerror_tl : List UInt8
  data : List UInt8
  size_eq : data.length = kSmallBuffer

/-- The text of a saved `errno`, if there is one. -/
def outErrno (s : LogStream) (strerror_tl : List UInt8) (savedErrno : IntegerType.int.Value) :
    Result LogStream :=
  if savedErrno.toInt ≠ 0 then do
    let s ← s.out (.cstring (some strerror_tl))
    let s ← s.out (.cstring (some (ascii " (errno=")))
    let s ← s.out (.int savedErrno)
    s.out (.cstring (some (ascii ") ")))
  else pure s

/-- The constructor of `Logger::Impl`. -/
def impl (e : Surroundings) (t : LogThread) (level : LogLevel)
    (savedErrno : IntegerType.int.Value) (file : SourceFile) (line : IntegerType.int.Value) :
    Result (LogThread × Logger) := do
  let (t, s) ← formatTime t (LogStream.create e.data) e.now
  let t := t.tid e.id
  let tid ← T.create t.t_tidString t_tidStringLength
  let s ← outT s tid
  let s ← s.out (.cstring (some (ascii " ")))
  let name ← T.create (LogLevelName level) 6
  let s ← outT s name
  let s ← outErrno s e.strerror_tl savedErrno
  pure (t, { stream := s, level := level, line := line, basename := file })

/-- The four constructors, but for the place in the source. -/
inductive Init where
  | plain
  | level (level : LogLevel)
  | func (level : LogLevel) (func : List UInt8)
  | sys (toAbort : Bool) (errno : IntegerType.int.Value)

def noErrno : IntegerType.int.Value := ⟨0, by decide⟩

def create (e : Surroundings) (t : LogThread) (file : SourceFile) (line : IntegerType.int.Value) :
    Init → Result (LogThread × Logger)
  | .plain => impl e t .EINFO noErrno file line
  | .level level => impl e t level noErrno file line
  | .func level func => do
    let (t, l) ← impl e t level noErrno file line
    let s ← l.stream.out (.cstring (some func))
    let s ← s.out (.char 32)
    pure (t, { l with stream := s })
  | .sys toAbort errno => impl e t (if toAbort then .EFATAL else .EERROR) errno file line

/-- `stream() << a₁ << a₂ …` -/
def out (l : Logger) (args : List Arg) : Result Logger := do
  let s ← args.foldlM LogStream.out l.stream
  pure { l with stream := s }

def finish (l : Logger) : Result Logger := do
  let s ← l.stream.out (.cstring (some (ascii " - ")))
  let s ← outSourceFile s l.basename
  let s ← s.out (.char 58)
  let s ← s.out (.int l.line)
  let s ← s.out (.char 10)
  pure { l with stream := s }

/-- What the destructor hands to `g_output`, and whether it aborts the process. -/
structure Record where
  output : List UInt8
  aborts : Bool

def destroy (l : Logger) : Result Record := do
  let l ← l.finish
  pure { output := l.stream.text, aborts := decide (l.level = .EFATAL) }

theorem toInt_inRange (n : ℕ) : IntegerType.int.InRange (StringPiece.toInt n) := by
  have hlow : -2 ^ 31 ≤ StringPiece.toInt n := Int.le_bmod (by decide)
  have hhigh : StringPiece.toInt n < 2 ^ 31 := Int.bmod_lt (by decide)
  exact ⟨hlow, hhigh⟩

variable {s s' : LogStream} {l : Logger} {t t' : LogThread}

theorem outT_holds (h : s.Valid) (v : T) :
    Holds (outT s v) ((Chunk.ofInt v.str (StringPiece.toInt v.len)).put s.text) :=
  appendInt_holds h (toInt_inRange _) ((StringPiece.toInt_le _).trans_eq (by rw [v.strlen]))

theorem outT_valid (h : s.Valid) {v : T} (hs' : outT s v = .ok s') : s'.Valid :=
  ((outT_holds h v).of_ok hs').1

theorem outSourceFile_holds (h : s.Valid) (v : SourceFile) :
    Holds (outSourceFile s v) ((Chunk.ofInt v.data v.size).put s.text) :=
  appendInt_holds h (toInt_inRange _) (StringPiece.toInt_le _)

theorem out_valid (h : s.Valid) {a : Arg} (hs' : s.out a = .ok s') (ha : a.accepts) : s'.Valid :=
  ((out_holds h ha).of_ok hs').1

theorem formatTime_valid (h : s.Valid) {now : ℤ} (hs' : formatTime t s now = .ok (t', s')) :
    s'.Valid := by
  obtain ⟨_, -, hs'⟩ := bind_eq_ok.mp hs'
  obtain ⟨us, -, hs'⟩ := bind_eq_ok.mp hs'
  obtain ⟨-, hs'⟩ := require_bind_eq_ok.mp hs'
  obtain ⟨time, -, hs'⟩ := bind_eq_ok.mp hs'
  obtain ⟨fraction, -, hs'⟩ := bind_eq_ok.mp hs'
  obtain ⟨s₁, hs₁, hs'⟩ := bind_eq_ok.mp hs'
  obtain ⟨s₂, hs₂, hs'⟩ := bind_eq_ok.mp hs'
  obtain ⟨-, rfl⟩ := Prod.mk.inj (Except.ok.inj hs')
  exact outT_valid (outT_valid h hs₁) hs₂

theorem outErrno_valid (h : s.Valid) {text : List UInt8} {errno : IntegerType.int.Value}
    (hs' : outErrno s text errno = .ok s') : s'.Valid := by
  unfold outErrno at hs'
  split_ifs at hs'
  · obtain ⟨s₁, hs₁, hs'⟩ := bind_eq_ok.mp hs'
    obtain ⟨s₂, hs₂, hs'⟩ := bind_eq_ok.mp hs'
    obtain ⟨s₃, hs₃, hs'⟩ := bind_eq_ok.mp hs'
    have hv := out_valid (out_valid (out_valid h hs₁ trivial) hs₂ trivial) hs₃ trivial
    exact out_valid hv hs' trivial
  · obtain rfl := Except.ok.inj hs'
    exact h

theorem impl_valid {e : Surroundings} {level : LogLevel} {errno line : IntegerType.int.Value}
    {file : SourceFile} (h : impl e t level errno file line = .ok (t', l)) :
    l.stream.Valid ∧ l.basename = file ∧ l.line = line := by
  obtain ⟨⟨t₁, s₁⟩, hs₁, h⟩ := bind_eq_ok.mp h
  obtain ⟨tid, -, h⟩ := bind_eq_ok.mp h
  obtain ⟨s₂, hs₂, h⟩ := bind_eq_ok.mp h
  obtain ⟨s₃, hs₃, h⟩ := bind_eq_ok.mp h
  obtain ⟨name, -, h⟩ := bind_eq_ok.mp h
  obtain ⟨s₄, hs₄, h⟩ := bind_eq_ok.mp h
  obtain ⟨s₅, hs₅, h⟩ := bind_eq_ok.mp h
  obtain ⟨-, rfl⟩ := Prod.mk.inj (Except.ok.inj h)
  have hv := outT_valid (formatTime_valid (create_valid e.size_eq) hs₁) hs₂
  exact ⟨outErrno_valid (outT_valid (out_valid hv hs₃ trivial) hs₄) hs₅, rfl, rfl⟩

theorem created_valid {e : Surroundings} {file : SourceFile} {line : IntegerType.int.Value}
    {init : Init} (h : create e t file line init = .ok (t', l)) :
    l.stream.Valid ∧ l.basename = file ∧ l.line = line := by
  cases init with
  | plain | level | sys => exact impl_valid h
  | func level func =>
    obtain ⟨⟨t₁, l₁⟩, hl₁, h⟩ := bind_eq_ok.mp h
    obtain ⟨s₁, hs₁, h⟩ := bind_eq_ok.mp h
    obtain ⟨s₂, hs₂, h⟩ := bind_eq_ok.mp h
    obtain ⟨-, rfl⟩ := Prod.mk.inj (Except.ok.inj h)
    obtain ⟨hv, hfile, hline⟩ := impl_valid hl₁
    exact ⟨out_valid (out_valid hv hs₁ trivial) hs₂ trivial, hfile, hline⟩

theorem outAll_valid {args : List Arg} (h : s.Valid) (ha : ∀ a ∈ args, a.accepts) :
    ∃ s', args.foldlM LogStream.out s = .ok s' ∧ s'.Valid := by
  induction args generalizing s with
  | nil => exact ⟨s, rfl, h⟩
  | cons a args ih =>
    obtain ⟨s₁, hs₁, hv, -⟩ := out_holds h (ha a List.mem_cons_self)
    obtain ⟨s₂, hs₂, hv₂⟩ := ih hv fun b hb => ha b (List.mem_cons_of_mem a hb)
    refine ⟨s₂, ?_, hv₂⟩
    rw [List.foldlM_cons, hs₁]
    exact hs₂

def suffix (file : SourceFile) (line : ℤ) : List UInt8 :=
  ascii " - " ++ file.data ++ [58] ++ integerText line ++ [10]

/-- What `finish` makes of a text, field by field. -/
def finished (file : SourceFile) (line : ℤ) (text : List UInt8) : List UInt8 :=
  let text := Chunk.put (.piece (ascii " - ")) text
  let text := (Chunk.ofInt file.data file.size).put text
  let text := Chunk.put (.piece [58]) text
  let text := Chunk.put (.number (integerText line)) text
  Chunk.put (.piece [10]) text

theorem finished_full (file : SourceFile) (line : ℤ) {text : List UInt8}
    (h : text.length + 1 = kSmallBuffer) : finished file line text = text := by
  unfold finished
  simp only [Chunk.put_full _ h]

theorem destroy_holds (h : l.stream.Valid) : l.destroy =
    .ok ⟨finished l.basename l.line.toInt l.stream.text, decide (l.level = .EFATAL)⟩ := by
  obtain ⟨s₁, hs₁, hv₁, ht₁⟩ := out_holds h (a := .cstring (some (ascii " - "))) trivial
  obtain ⟨s₂, hs₂, hv₂, ht₂⟩ := outSourceFile_holds hv₁ l.basename
  obtain ⟨s₃, hs₃, hv₃, ht₃⟩ := out_holds hv₂ (a := .char 58) trivial
  obtain ⟨s₄, hs₄, hv₄, ht₄⟩ := out_holds hv₃ (a := .int l.line) trivial
  obtain ⟨s₅, hs₅, -, ht₅⟩ := out_holds hv₄ (a := .char 10) trivial
  unfold destroy finish
  rw [hs₁, ok_bind, hs₂, ok_bind, hs₃, ok_bind, hs₄, ok_bind, hs₅, ok_bind, pure_eq_ok, ok_bind]
  have htext : s₅.text = finished l.basename l.line.toInt l.stream.text := by
    rw [ht₅, ht₄, ht₃, ht₂, ht₁]
    rfl
  rw [← htext]
  rfl

theorem integerText_ne_nil (x : ℤ) : integerText x ≠ [] := by
  unfold integerText
  split_ifs
  · exact List.cons_ne_nil _ _
  · exact decimal.numeral_ne_nil _

/-- Without room for any line number behind the file name, something of the suffix is missing. -/
theorem le_of_finished {file : SourceFile} {line : IntegerType.int.Value} {text : List UInt8}
    (heq : finished file line.toInt text = text ++ suffix file line.toInt) :
    text.length + file.data.length + 52 ≤ kSmallBuffer := by
  have hdash : (ascii " - ").length = 3 := by decide
  have hline := integerText_length line (by decide)
  have hne := integerText_ne_nil line.toInt
  have hlength := congrArg List.length heq
  unfold finished suffix at hlength
  dsimp only at hlength
  generalize hd : ascii " - " = dash at *
  generalize integerText line.toInt = number at *
  simp only [List.length_append, List.length_singleton] at hlength
  have h₁ := Chunk.put_length_le (.piece dash) text
  generalize Chunk.put (.piece dash) text = text₁ at *
  have h₂ := Chunk.put_length_le (Chunk.ofInt file.data file.size) text₁
  have hfile := Chunk.ofInt_text_length file.data file.size
  generalize Chunk.put (Chunk.ofInt file.data file.size) text₁ = text₂ at *
  have h₃ := Chunk.put_length_le (.piece [58]) text₂
  generalize Chunk.put (.piece [58]) text₂ = text₃ at *
  have h₅ := Chunk.put_length_le (.piece [10]) (Chunk.put (.number number) text₃)
  obtain hkept | happended := Chunk.put_cases (.number number) text₃
  · have hpos := List.length_pos_iff.mpr hne
    rw [hkept] at h₅ hlength
    simp only [Chunk.text, List.length_singleton] at h₁ h₃ h₅
    omega
  · have hfit := Chunk.le_of_put_number hne happended
    rw [happended] at h₅ hlength
    simp only [Chunk.text, List.length_singleton, List.length_append] at h₁ h₃ h₅ hlength
    unfold kMaxNumericSize at hfit
    omega

theorem finished_of_le {file : SourceFile} {line : IntegerType.int.Value} {text : List UInt8}
    (hfit : text.length + file.data.length + 52 ≤ kSmallBuffer) :
    finished file line.toInt text = text ++ suffix file line.toInt := by
  have hdash : (ascii " - ").length = 3 := by decide
  have hline := integerText_length line (by decide)
  have hsize : file.size = file.data.length :=
    StringPiece.toInt_of_lt (by unfold kSmallBuffer at hfit; omega)
  unfold finished suffix
  dsimp only
  generalize hd : ascii " - " = dash at *
  generalize integerText line.toInt = number at *
  have h₁ : Chunk.put (.piece dash) text = text ++ dash := Chunk.put_piece_of_lt (by omega)
  have h₂ : Chunk.put (.piece file.data) (text ++ dash) = text ++ dash ++ file.data :=
    Chunk.put_piece_of_lt (by rw [List.length_append]; omega)
  have h₃ : Chunk.put (.piece [58]) (text ++ dash ++ file.data) =
      text ++ dash ++ file.data ++ [58] :=
    Chunk.put_piece_of_lt (by simp only [List.length_append, List.length_singleton]; omega)
  have h₄ : Chunk.put (.number number) (text ++ dash ++ file.data ++ [58]) =
      text ++ dash ++ file.data ++ [58] ++ number := by
    refine Chunk.put_number_of_le ?_
    simp only [List.length_append, List.length_singleton]
    unfold kMaxNumericSize
    omega
  have h₅ : Chunk.put (.piece [10]) (text ++ dash ++ file.data ++ [58] ++ number) =
      text ++ dash ++ file.data ++ [58] ++ number ++ [10] :=
    Chunk.put_piece_of_lt (by simp only [List.length_append, List.length_singleton]; omega)
  rw [hsize, Chunk.ofInt_natCast, h₁, h₂, h₃, h₄, h₅]
  simp only [List.append_assoc]

/-- The suffix is complete exactly if any line number would fit behind the file name. -/
theorem finished_eq_iff (file : SourceFile) (line : IntegerType.int.Value) (text : List UInt8) :
    finished file line.toInt text = text ++ suffix file line.toInt ↔
      text.length + file.data.length + 52 ≤ kSmallBuffer :=
  ⟨le_of_finished, finished_of_le⟩

/-- The record of a logger has its suffix and ends the line exactly if what was logged left room for
the file name, any line number and the rest. -/
theorem record_terminated_iff {e : Surroundings} {file : SourceFile}
    {line : IntegerType.int.Value} {init : Init} (h : create e t file line init = .ok (t', l))
    {args : List Arg} (hargs : ∀ a ∈ args, a.accepts) :
    ∃ l' r, l.out args = .ok l' ∧ l'.destroy = .ok r ∧
      ((r.output = l'.stream.text ++ suffix file line.toInt ∧ r.output.getLast? = some 10) ↔
        l'.stream.text.length + file.data.length + 52 ≤ kSmallBuffer) := by
  obtain ⟨hv, rfl, rfl⟩ := created_valid h
  obtain ⟨s', hs', hv'⟩ := outAll_valid hv hargs
  refine ⟨{ l with stream := s' }, _, ?_, destroy_holds hv', ?_⟩
  · unfold out
    rw [hs', ok_bind, pure_eq_ok]
  · dsimp only
    rw [← finished_eq_iff]
    constructor
    · rintro ⟨heq, -⟩
      exact heq
    · intro heq
      refine ⟨heq, ?_⟩
      rw [heq, suffix, ← List.append_assoc]
      exact List.getLast?_concat

theorem outT_length (h : s.Valid) (v : T) :
    ∃ s', outT s v = .ok s' ∧ s'.Valid ∧ s'.text.length ≤ s.text.length + v.len := by
  obtain ⟨s', hs', hv, htext⟩ := outT_holds h v
  have hput := Chunk.put_length_le (Chunk.ofInt v.str (StringPiece.toInt v.len)) s.text
  have hpiece := Chunk.ofInt_text_length v.str (StringPiece.toInt v.len)
  rw [← htext] at hput
  rw [v.strlen] at hpiece
  exact ⟨s', hs', hv, by omega⟩

theorem formatTime_cached {now : ℤ} (h : s.Valid)
    (hsecond : now.tdiv kMicroSecondsPerSecond = t.t_lastSecond)
    (hmicro : now.tmod kMicroSecondsPerSecond = 0) (htime : t.t_time.length = 17) :
    ∃ s', formatTime t s now = .ok (t, s') ∧ s'.Valid ∧
      s'.text.length ≤ s.text.length + 17 + 9 := by
  have hzero : (integerText 0).length ≤ 6 := by
    unfold integerText
    rw [if_neg (lt_irrefl _), decimal.numeral_of_lt (by decide)]
    decide
  have hus : (ascii "." ++ padded 48 6 0 ++ ascii "Z ").length = 9 := by
    rw [List.length_append, List.length_append, padded_length le_rfl hzero]
    rfl
  have hkept : formatSecond t t.t_lastSecond = .ok t := if_neg (not_not.mpr rfl)
  obtain ⟨s₁, hs₁, hv₁, hlen₁⟩ := outT_length h ⟨t.t_time, 17, htime⟩
  obtain ⟨s₂, hs₂, hv₂, hlen₂⟩ := outT_length hv₁ ⟨_, 9, hus⟩
  refine ⟨s₂, ?_, hv₂, hlen₂.trans (Nat.add_le_add_right hlen₁ 9)⟩
  unfold formatTime
  dsimp only
  rw [hsecond, hmicro, hkept, ok_bind, Fmt.create_eq (hus.trans_lt (by decide)), ok_bind,
    require_bind hus, T.create_eq htime, ok_bind, T.create_eq hus, ok_bind, hs₁, ok_bind, hs₂,
    ok_bind, pure_eq_ok]

/-- A header is written then, if the id of the thread has the length that is expected. -/
theorem impl_cached {e : Surroundings} {level : LogLevel} {file : SourceFile}
    {line : IntegerType.int.Value} (hsecond : e.now.tdiv kMicroSecondsPerSecond = t.t_lastSecond)
    (hmicro : e.now.tmod kMicroSecondsPerSecond = 0) (htime : t.t_time.length = 17)
    (hcached : t.t_cachedTid ≠ 0) (htid : t.t_tidString.length = t_tidStringLength) :
    ∃ l, impl e t level noErrno file line = .ok (t, l) ∧ l.stream.text.length ≤ 39 := by
  have hname : (LogLevelName level).length = 6 := by cases level <;> rfl
  obtain ⟨s₂, hs₂, hv₂, hlen₂⟩ :=
    formatTime_cached (create_valid e.size_eq) hsecond hmicro htime
  obtain ⟨s₃, hs₃, hv₃, hlen₃⟩ := outT_length hv₂ ⟨t.t_tidString, t_tidStringLength, htid⟩
  obtain ⟨s₄, hs₄, hv₄, htext₄⟩ := out_holds hv₃ (a := .cstring (some (ascii " "))) trivial
  obtain ⟨s₅, hs₅, -, hlen₅⟩ := outT_length hv₄ ⟨LogLevelName level, 6, hname⟩
  have hthread : t.tid e.id = t := if_neg hcached
  have herrno : outErrno s₅ e.strerror_tl noErrno = .ok s₅ := if_neg (not_not.mpr rfl)
  refine ⟨⟨s₅, level, line, file⟩, ?_, ?_⟩
  · unfold impl
    rw [hs₂, ok_bind]
    dsimp only
    rw [hthread, T.create_eq htid, ok_bind, hs₃, ok_bind, hs₄, ok_bind, T.create_eq hname, ok_bind,
      hs₅, ok_bind, herrno, ok_bind, pure_eq_ok]
  · have hput := Chunk.put_length_le (Arg.chunk s₃.text (.cstring (some (ascii " ")))) s₃.text
    have hspace : (Arg.chunk s₃.text (.cstring (some (ascii " ")))).text.length = 1 := rfl
    rw [← htext₄, hspace] at hput
    rw [create_text, List.length_nil] at hlen₂
    unfold t_tidStringLength at hlen₃
    dsimp only at hlen₃ hlen₅ ⊢
    omega

theorem exists_logger (file : SourceFile) (line : IntegerType.int.Value) :
    ∃ (e : Surroundings) (t : LogThread) (l : Logger),
      create e t file line (.level .EWARN) = .ok (t, l) ∧ l.stream.text.length ≤ 39 := by
  obtain ⟨e, he⟩ : ∃ e : Surroundings, e.now = 1700000000000000 :=
    ⟨⟨1700000000000000, 4242, [], List.replicate _ 0, List.length_replicate⟩, rfl⟩
  let t : LogThread := ⟨ascii "20231114 22:13:20", 1700000000, 4242, ascii "  4242"⟩
  have hsecond : e.now.tdiv kMicroSecondsPerSecond = t.t_lastSecond := by
    rw [he]
    decide
  have hmicro : e.now.tmod kMicroSecondsPerSecond = 0 := by
    rw [he]
    decide
  obtain ⟨l, hl, hlength⟩ : ∃ l, impl e t .EWARN noErrno file line = .ok (t, l) ∧
      l.stream.text.length ≤ 39 :=
    impl_cached hsecond hmicro (by decide) (by decide) (by decide)
  exact ⟨e, t, l, hl, hlength⟩

theorem record_terminated_warning : ∃ (l : Logger) (r : Record), l.destroy = .ok r ∧
    r.output = l.stream.text ++ suffix ⟨ascii "test.cpp"⟩ 0 ∧ r.output.getLast? = some 10 := by
  obtain ⟨e, t, l, hl, hlength⟩ := exists_logger ⟨ascii "test.cpp"⟩ noErrno
  obtain ⟨l', r, hout, hr, hiff⟩ :=
    record_terminated_iff hl (fun a (ha : a ∈ []) => absurd ha List.not_mem_nil)
  obtain rfl := Except.ok.inj hout
  have hfile : (ascii "test.cpp").length = 8 := by decide
  obtain ⟨houtput, hlast⟩ := hiff.mpr (by
    dsimp only
    rw [hfile]
    unfold kSmallBuffer
    omega)
  exact ⟨_, r, hr, houtput, hlast⟩

/-- A message that leaves no room: the record ends with the message. -/
theorem record_unterminated : ¬ ∀ (e : Surroundings) (t t' : LogThread) (l l' : Logger)
    (file : SourceFile) (line : IntegerType.int.Value) (init : Init) (args : List Arg) (r : Record),
    create e t file line init = .ok (t', l) → (∀ a ∈ args, a.accepts) → l.out args = .ok l' →
    l'.destroy = .ok r → suffix file line.toInt <:+ r.output ∧ r.output.getLast? = some 10 := by
  intro hall
  obtain ⟨e, t, l, hl, hlength⟩ := exists_logger ⟨ascii "test.cpp"⟩ noErrno
  have hv := (created_valid hl).1
  obtain ⟨n, hn⟩ : ∃ n, l.stream.text.length + (n + 1) + 1 = kSmallBuffer :=
    ⟨kSmallBuffer - 2 - l.stream.text.length, by unfold kSmallBuffer; omega⟩
  obtain ⟨s, hs, hv', htext⟩ := out_holds hv (a := .string (List.replicate (n + 1) 120)) trivial
  have hlong : (List.replicate (n + 1) (120 : UInt8)).length = n + 1 := List.length_replicate
  have happended : s.text = l.stream.text ++ List.replicate (n + 1) 120 :=
    htext.trans (Chunk.put_piece_of_lt (by omega))
  have hfull : s.text.length + 1 = kSmallBuffer := by
    rw [happended, List.length_append, hlong, hn]
  have hout : l.out [.string (List.replicate (n + 1) 120)] = .ok { l with stream := s } := by
    unfold out
    rw [List.foldlM_cons, hs]
    rfl
  have hargs : ∀ a ∈ [Arg.string (List.replicate (n + 1) 120)], a.accepts := by
    rintro a ha
    obtain rfl := List.mem_singleton.mp ha
    trivial
  have hlast := (hall e t t l _ _ _ _ _ _ hl hargs hout (destroy_holds hv')).2
  dsimp only at hlast
  rw [finished_full _ _ hfull, happended, List.getLast?_append, List.getLast?_replicate,
    if_neg (Nat.succ_ne_zero n), Option.some_or] at hlast
  exact absurd (Option.some.inj hlast) (by decide)

end Logger
end MuduoWindows.Base
