import MuduoWindows.Base.LogStream

/-! # base/asyncLogging.cpp

Any thread calls `append`; the backend runs `threadFunc`. Both hold the mutex for one step at a
time, and the backend leaves it while it waits for the condition, which can end at any moment.
-/

namespace MuduoWindows.Base
open Library Net

abbrev Line := List UInt8

abbrev LogBuffer := FixedBuffer kLargeBuffer

/-- Where the backend is. -/
inductive Backend where
  | outside
  /-- The thread is created and has not called `countDown`. -/
  | starting
  /-- Before the test of `running_`. -/
  | top
  | locking
  | waiting
  /-- The critical section is left with the batch in `buffersToWrite`. -/
  | swapped
  /-- So many buffers of the batch are written. -/
  | writing (written : ℕ)
  | finished
  deriving DecidableEq

/-- `output` is what the `LogFile` has been given; `appended` remembers the lines in the order in
which their calls of `append` held the mutex, and `beforeStop` those before the call of `stop`. -/
structure AsyncLogging where
  running : Bool
  currentBuffer : LogBuffer
  nextBuffer : Option LogBuffer
  buffers : List LogBuffer
  backend : Backend
  newBuffer1 : Option LogBuffer
  newBuffer2 : Option LogBuffer
  buffersToWrite : List LogBuffer
  output : List UInt8
  joined : Bool
  appended : List Line
  beforeStop : Option (List Line)

namespace AsyncLogging

def create : AsyncLogging :=
  { running := false, currentBuffer := .create, nextBuffer := some .create, buffers := []
    backend := .outside, newBuffer1 := none, newBuffer2 := none, buffersToWrite := []
    output := [], joined := false, appended := [], beforeStop := none }

def append (s : AsyncLogging) (logline : Line) : AsyncLogging :=
  let s := { s with appended := s.appended ++ [logline] }
  if s.currentBuffer.avail > logline.length then
    { s with currentBuffer := s.currentBuffer.append logline }
  else
    let s := { s with buffers := s.buffers ++ [s.currentBuffer] }
    match s.nextBuffer with
    | some b => { s with currentBuffer := b.append logline, nextBuffer := none }
    | none => { s with currentBuffer := FixedBuffer.create.append logline }

/-- `threadFunc` up to its loop. -/
def begin (s : AsyncLogging) : Result AsyncLogging := do
  assert (s.running = true) "running_ == true"
  pure { s with
    backend := .top, newBuffer1 := some .create, newBuffer2 := some .create, buffersToWrite := [] }

/-- `b && b->length() == 0` -/
def Empty (b : Option LogBuffer) : Prop := ∃ b' ∈ b, b'.length = 0

instance (b : Option LogBuffer) : Decidable (Empty b) := inferInstanceAs (Decidable (∃ _ ∈ b, _))

/-- The test of the loop, and the assertions behind it. -/
def test (s : AsyncLogging) : Result AsyncLogging :=
  if s.running then do
    assert (Empty s.newBuffer1) "newBuffer1 && newBuffer1->length() == 0"
    assert (Empty s.newBuffer2) "newBuffer2 && newBuffer2->length() == 0"
    assert (s.buffersToWrite = []) "buffersToWrite.empty()"
    pure { s with backend := .locking }
  else pure { s with backend := .finished }

/-- The end of the critical section; `append` needs a `currentBuffer_`. -/
def swap (s : AsyncLogging) : Result AsyncLogging :=
  match s.newBuffer1 with
  | none => .error (.nullPointer "currentBuffer_")
  | some b => do
    let s := { s with
      currentBuffer := b, newBuffer1 := none
      buffersToWrite := s.buffers ++ [s.currentBuffer], buffers := s.buffersToWrite }
    let s := match s.nextBuffer with
      | none => { s with nextBuffer := s.newBuffer2, newBuffer2 := none }
      | some _ => s
    assert (s.buffersToWrite ≠ []) "!buffersToWrite.empty()"
    pure { s with backend := .swapped }

def lock (s : AsyncLogging) : Result AsyncLogging :=
  if s.buffers = [] then pure { s with backend := .waiting } else s.swap

/-- The message about `dropped` buffers, where the time is `now`. -/
def droppedMessage (now : String) (dropped : ℕ) : List UInt8 :=
  (s!"Dropped log messages at {now}, {dropped} larger buffers\n").toUTF8.toList

def check (s : AsyncLogging) (now : String) : AsyncLogging :=
  if s.buffersToWrite.length > 25 then
    { s with
      output := s.output ++ droppedMessage now (s.buffersToWrite.length - 2)
      buffersToWrite := s.buffersToWrite.take 2, backend := .writing 0 }
  else { s with backend := .writing 0 }

/-- A spare buffer is taken from the back of the batch. -/
def refill (spare : Option LogBuffer) (batch : List LogBuffer) :
    Result (Option LogBuffer × List LogBuffer) :=
  match spare with
  | some b => pure (some b, batch)
  | none => do
    assert (batch ≠ []) "!buffersToWrite.empty()"
    pure (batch.getLast?.map .reset, batch.dropLast)

def recycle (s : AsyncLogging) : Result AsyncLogging := do
  let (newBuffer1, batch) ← refill s.newBuffer1 (s.buffersToWrite.take 2)
  let (newBuffer2, _) ← refill s.newBuffer2 batch
  pure { s with
    newBuffer1 := newBuffer1, newBuffer2 := newBuffer2, buffersToWrite := [], backend := .top }

/-- The body of the loop over the batch, for the buffer after the first `written` ones. -/
def write (s : AsyncLogging) (written : ℕ) : Result AsyncLogging :=
  match s.buffersToWrite[written]? with
  | some b => pure { s with output := s.output ++ b.data, backend := .writing (written + 1) }
  | none => s.recycle

inductive Event where
  | append (logline : Line)
  | start
  | begin
  | test
  | lock
  /-- `waitfor` returns, with the mutex. -/
  | wake
  | check (now : String)
  | write
  | stop
  /-- `join` returns. -/
  | join
  deriving DecidableEq

/-- A line is shorter than a buffer; `stop` is called once, after `start` has returned. -/
def machine : Machine AsyncLogging Event Fault where
  enabled s
    | .append logline => logline.length < kLargeBuffer
    | .start => s.backend = .outside
    | .begin => s.backend = .starting
    | .test => s.backend = .top
    | .lock => s.backend = .locking
    | .wake => s.backend = .waiting
    | .check _ => s.backend = .swapped
    | .write => ∃ written, s.backend = .writing written
    | .stop => s.backend ≠ .outside ∧ s.backend ≠ .starting ∧ s.beforeStop = none
    | .join => s.beforeStop ≠ none ∧ s.backend = .finished ∧ s.joined = false
  step s
    | .append logline => pure (s.append logline)
    | .start => pure { s with running := true, backend := .starting }
    | .begin => s.begin
    | .test => s.test
    | .lock => s.lock
    | .wake => s.swap
    | .check now => pure (s.check now)
    | .write =>
      match s.backend with
      | .writing written => s.write written
      | _ => pure s
    | .stop => pure { s with running := false, beforeStop := some s.appended }
    | .join => pure { s with joined := true }

instance (s : AsyncLogging) : ∀ e, Decidable (machine.enabled s e)
  | .append logline => inferInstanceAs (Decidable (logline.length < kLargeBuffer))
  | .start => inferInstanceAs (Decidable (s.backend = .outside))
  | .begin => inferInstanceAs (Decidable (s.backend = .starting))
  | .test => inferInstanceAs (Decidable (s.backend = .top))
  | .lock => inferInstanceAs (Decidable (s.backend = .locking))
  | .wake => inferInstanceAs (Decidable (s.backend = .waiting))
  | .check _ => inferInstanceAs (Decidable (s.backend = .swapped))
  | .write => match hb : s.backend with
    | .writing n => .isTrue ⟨n, hb⟩
    | .outside | .starting | .top | .locking | .waiting | .swapped | .finished =>
      .isFalse fun ⟨n, hn⟩ => by rw [hb] at hn; cases hn
  | .stop => inferInstanceAs (Decidable (_ ∧ _ ∧ s.beforeStop = none))
  | .join => inferInstanceAs (Decidable (s.beforeStop ≠ none ∧ _))

theorem step_write {s : AsyncLogging} {written : ℕ} (h : s.backend = .writing written) :
    machine.step s .write = s.write written := by
  simp only [machine, h]

theorem begin_eq {s t : AsyncLogging} (h : s.begin = .ok t) : s.running = true ∧
    t = { s with
      backend := .top, newBuffer1 := some .create, newBuffer2 := some .create
      buffersToWrite := [] } := by
  obtain ⟨hrunning, h⟩ := require_bind_eq_ok.mp h
  exact ⟨hrunning, (Except.ok.inj h).symm⟩

theorem test_cases {s t : AsyncLogging} (h : s.test = .ok t) :
    (s.running = true ∧ t = { s with backend := .locking }) ∨
    (¬ s.running = true ∧ t = { s with backend := .finished }) := by
  unfold test at h
  split_ifs at h with hrunning
  · obtain ⟨-, h⟩ := require_bind_eq_ok.mp h
    obtain ⟨-, h⟩ := require_bind_eq_ok.mp h
    obtain ⟨-, h⟩ := require_bind_eq_ok.mp h
    exact .inl ⟨hrunning, (Except.ok.inj h).symm⟩
  · exact .inr ⟨hrunning, (Except.ok.inj h).symm⟩

theorem lock_cases {s t : AsyncLogging} (h : s.lock = .ok t) :
    (s.buffers = [] ∧ t = { s with backend := .waiting }) ∨
    (s.buffers ≠ [] ∧ s.swap = .ok t) := by
  unfold lock at h
  split_ifs at h with hempty
  · exact .inl ⟨hempty, (Except.ok.inj h).symm⟩
  · exact .inr ⟨hempty, h⟩

/-- The buffers of the batch that are not written yet. -/
def unwritten (s : AsyncLogging) : List LogBuffer :=
  match s.backend with
  | .writing written => s.buffersToWrite.drop written
  | _ => s.buffersToWrite

end AsyncLogging
end MuduoWindows.Base
