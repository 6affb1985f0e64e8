import MuduoWindows.Library.CondVar
import MuduoWindows.Net.Fault

/-! # base/threadpool.cpp

The pool has been started; any thread calls `run`, one calls `stop`. Tasks run outside the lock, and
may call `run` themselves. A critical section of `run` takes a step for each evaluation of
`isFull`, since the holder of the mutex that `isFull` asserts can be reset without the lock:
`MutexLock::unlock` frees the mutex first. `debug` tells whether the build keeps assertions.
-/

namespace MuduoWindows.Base
open Library Net

/-- base/mutexGuard.h; no holder is `0` there. -/
structure MutexLock (τ : Type) where
  mutex : Option τ
  pid : Option τ

namespace MutexLock
variable {τ : Type}

def assignedHolder (m : MutexLock τ) (t : τ) : MutexLock τ := { m with pid := some t }

def unassignedHolder (m : MutexLock τ) : MutexLock τ := { m with pid := none }

/-- `mutex_.lock()`, also through `getUniqueLock`. -/
def acquire (m : MutexLock τ) (t : τ) : MutexLock τ := { m with mutex := some t }

/-- `mutex_.unlock()`, also at the end of a `uniqueLock`. -/
def release (m : MutexLock τ) : MutexLock τ := { m with mutex := none }

def lock (m : MutexLock τ) (t : τ) : MutexLock τ := (m.acquire t).assignedHolder t

def isLockedByCurrentThread (m : MutexLock τ) (t : τ) : Prop := m.pid = some t

instance [DecidableEq τ] (m : MutexLock τ) (t : τ) : Decidable (m.isLockedByCurrentThread t) :=
  inferInstanceAs (Decidable (_ = _))

end MutexLock

structure Threadpool (τ α : Type) where
  mutex : MutexLock τ
  notEmpty : CondVar τ
  notFull : CondVar τ
  threads : Finset τ
  queue : List α
  maxQueueSize : ℕ
  running : Bool

namespace Threadpool
variable {τ α : Type}

/-- After `start`, with these threads. -/
def start (maxQueueSize : ℕ) (threads : Finset τ) : Threadpool τ α :=
  { mutex := ⟨none, none⟩, notEmpty := .empty, notFull := .empty, threads, queue := []
    maxQueueSize, running := true }

def Full (p : Threadpool τ α) : Prop := 0 < p.maxQueueSize ∧ p.maxQueueSize ≤ p.queue.length

instance (p : Threadpool τ α) : Decidable p.Full := inferInstanceAs (Decidable (_ ∧ _))

variable [DecidableEq τ] (debug : Bool)

/-- `isFull()` on thread `t`. -/
def isFull (p : Threadpool τ α) (t : τ) : Result Bool := do
  if debug then assert (p.mutex.isLockedByCurrentThread t) "mutex_.isLockedByCurrentThread()"
  pure (decide p.Full)

/-- The loop condition of `run`; the call waits if it is true. -/
def test (p : Threadpool τ α) (t : τ) : Result (Threadpool τ α × Bool) := do
  let full ← p.isFull debug t
  if full && p.running then
    pure ({ p with notFull := p.notFull.wait t, mutex := p.mutex.release }, true)
  else pure (p, false)

/-- `run` after its loop, with the thread that the notification selects; it puts its argument
unless the pool is stopped. -/
def push (p : Threadpool τ α) (t : τ) (f : α) (choice : Option τ) :
    Result (Threadpool τ α × Bool) := do
  if p.running then
    if debug then
      let full ← p.isFull debug t
      assert (full = false) "!isFull()"
    pure ({ p with
      queue := p.queue ++ [f]
      notEmpty := p.notEmpty.notify choice
      mutex := p.mutex.unassignedHolder.release }, true)
  else pure ({ p with mutex := p.mutex.unassignedHolder.release }, false)

/-- How a critical section of `take` ends. -/
inductive Taken (α : Type) where
  | waits
  | nothing
  | task (f : α)

/-- The critical section of `take` from its loop on. -/
def take (p : Threadpool τ α) (t : τ) (choice : Option τ) : Threadpool τ α × Taken α :=
  match p.queue with
  | [] => if p.running then ({ p with notEmpty := p.notEmpty.wait t }, .waits) else (p, .nothing)
  | f :: queue =>
    ({ p with
      queue
      notFull := if 0 < p.maxQueueSize then p.notFull.notify choice else p.notFull }, .task f)

/-- The guarded block of `stop` and `mutex_.unlock()`; its caller is still the holder. -/
def stop (p : Threadpool τ α) (t : τ) : Threadpool τ α :=
  { p with
    running := false
    notEmpty := p.notEmpty.notifyAll
    notFull := p.notFull.notifyAll
    mutex := (p.mutex.lock t).release }

end Threadpool

/-- Where a thread is in a call of `run`: at the evaluation of the loop condition, waiting, or
after the loop. -/
inductive Call (α : Type) where
  | idle
  | test (f : α)
  | waits (f : α)
  | push (f : α)
  deriving DecidableEq

/-- Where a thread of the pool is: at the test of `running_`, before or in `take`, waiting there,
in a task, or at its end. -/
inductive Worker (α : Type) where
  | loop
  | take
  | waits
  | task (f : α)
  | finished
  deriving DecidableEq

variable {α : Type}

/-- The thread holds the mutex in `run`. -/
def Call.Holds : Call α → Prop
  | .test _ | .push _ => True
  | .idle | .waits _ => False

def Call.Waits : Call α → Prop
  | .waits _ => True
  | .idle | .test _ | .push _ => False

def Worker.Busy : Worker α → Prop
  | .task _ => True
  | .loop | .take | .waits | .finished => False

instance : ∀ c : Call α, Decidable c.Waits
  | .waits _ => .isTrue trivial
  | .idle | .test _ | .push _ => .isFalse id

instance : ∀ w : Worker α, Decidable w.Busy
  | .task _ => .isTrue trivial
  | .loop | .take | .waits | .finished => .isFalse id

/-- Where the call of `stop` is: before `unassignedHolder` in `mutex_.unlock()`, then joining. -/
inductive Stopping (τ : Type) where
  | no
  | unlocking (t : τ)
  | joining (t : τ)
  | returned
  deriving DecidableEq

/-- A pool with the threads that use it. `puts` and `taken` remember the tasks in the order in which
they were put and taken. -/
structure SharedPool (τ α : Type) where
  pool : Threadpool τ α
  call : τ → Call α
  worker : τ → Worker α
  stopping : Stopping τ
  puts : List α
  taken : List α

namespace SharedPool
variable {τ α : Type} [DecidableEq τ]

def start (maxQueueSize : ℕ) (threads : Finset τ) : SharedPool τ α :=
  { pool := .start maxQueueSize threads, call := fun _ => .idle
    worker := fun t => if t ∈ threads then .loop else .finished
    stopping := .no, puts := [], taken := [] }

inductive Event (τ α : Type) where
  /-- A call of `run` up to its loop. -/
  | run (t : τ) (f : α)
  | test (t : τ) (f : α)
  | push (t : τ) (f : α) (choice : Option τ)
  /-- The thread has the mutex again in `run`. -/
  | resumeRun (t : τ) (f : α)
  /-- A thread wakes up that waits in `run`. -/
  | wakeRun (t : τ)
  | loop (t : τ)
  | take (t : τ) (choice : Option τ)
  | resumeTake (t : τ) (choice : Option τ)
  | wakeTake (t : τ)
  | taskDone (t : τ)
  | stop (t : τ)
  /-- `unassignedHolder` after `stop` has freed the mutex. -/
  | unlocked (t : τ)
  | joined (t : τ)

variable (debug : Bool)

/-- `run` calls its argument at once when the pool has no threads. -/
def run (s : SharedPool τ α) (t : τ) (f : α) : SharedPool τ α :=
  if s.pool.threads = ∅ then s
  else
    { s with
      pool := { s.pool with mutex := (s.pool.mutex.acquire t).assignedHolder t }
      call := Function.update s.call t (.test f) }

def test (s : SharedPool τ α) (t : τ) (f : α) : Result (SharedPool τ α) := do
  let (pool, waits) ← s.pool.test debug t
  pure { s with pool, call := Function.update s.call t (if waits then .waits f else .push f) }

def push (s : SharedPool τ α) (t : τ) (f : α) (choice : Option τ) : Result (SharedPool τ α) := do
  let (pool, put) ← s.pool.push debug t f choice
  pure { s with
    pool
    call := Function.update s.call t .idle
    puts := if put then s.puts ++ [f] else s.puts }

def resumeRun (s : SharedPool τ α) (t : τ) (f : α) : SharedPool τ α :=
  { s with
    pool := { s.pool with notFull := s.pool.notFull.resume t, mutex := s.pool.mutex.acquire t }
    call := Function.update s.call t (.test f) }

/-- The thread goes on in the loop of `runInThread` once `take` has returned. -/
def take (s : SharedPool τ α) (p : Threadpool τ α) (t : τ) (choice : Option τ) :
    SharedPool τ α :=
  let (pool, taken) := p.take t choice
  match taken with
  | .waits => { s with pool, worker := Function.update s.worker t .waits }
  | .nothing => { s with pool, worker := Function.update s.worker t .loop }
  | .task f =>
    { s with pool, worker := Function.update s.worker t (.task f), taken := s.taken ++ [f] }

/-- The thread has the mutex again in `take`. -/
def resumeTake (s : SharedPool τ α) (t : τ) (choice : Option τ) : SharedPool τ α :=
  s.take { s.pool with notEmpty := s.pool.notEmpty.resume t } t choice

/-- The thread can call `run`: it is not in a call already, and runs a task if it belongs to the
pool. -/
def CanCall (s : SharedPool τ α) (t : τ) : Prop :=
  s.call t = .idle ∧ (t ∉ s.pool.threads ∨ (s.worker t).Busy) ∧
    s.stopping ≠ .unlocking t ∧ s.stopping ≠ .joining t

def Free (s : SharedPool τ α) : Prop := s.pool.mutex.mutex = none

/-- `stop` is called once, by a thread outside the pool. -/
def machine : Machine (SharedPool τ α) (Event τ α) Fault where
  enabled s
    | .run t _ => s.CanCall t ∧ s.Free
    | .test t f => s.call t = .test f
    | .push t f choice => s.call t = .push f ∧ s.pool.notEmpty.Selects choice
    | .resumeRun t f => s.call t = .waits f ∧ t ∈ s.pool.notFull.unblocked ∧ s.Free
    | .wakeRun t => t ∈ s.pool.notFull.waiting
    | .loop t => s.worker t = .loop
    | .take t choice => s.worker t = .take ∧ s.Free ∧ s.pool.notFull.Selects choice
    | .resumeTake t choice =>
      s.worker t = .waits ∧ t ∈ s.pool.notEmpty.unblocked ∧ s.Free ∧ s.pool.notFull.Selects choice
    | .wakeTake t => t ∈ s.pool.notEmpty.waiting
    | .taskDone t => (s.worker t).Busy ∧ s.call t = .idle
    | .stop t => s.CanCall t ∧ t ∉ s.pool.threads ∧ s.Free ∧ s.stopping = .no
    | .unlocked t => s.stopping = .unlocking t
    | .joined t => s.stopping = .joining t ∧ ∀ u ∈ s.pool.threads, s.worker u = .finished
  step s
    | .run t f => pure (s.run t f)
    | .test t f => s.test debug t f
    | .push t f choice => s.push debug t f choice
    | .resumeRun t f => pure (s.resumeRun t f)
    | .wakeRun t => pure { s with pool := { s.pool with notFull := s.pool.notFull.wake t } }
    | .loop t => pure { s with
        worker := Function.update s.worker t (if s.pool.running then .take else .finished) }
    | .take t choice => pure (s.take s.pool t choice)
    | .resumeTake t choice => pure (s.resumeTake t choice)
    | .wakeTake t => pure { s with pool := { s.pool with notEmpty := s.pool.notEmpty.wake t } }
    | .taskDone t => pure { s with worker := Function.update s.worker t .loop }
    | .stop t => pure { s with pool := s.pool.stop t, stopping := .unlocking t }
    | .unlocked t => pure { s with
        pool := { s.pool with mutex := s.pool.mutex.unassignedHolder }
        stopping := .joining t }
    | .joined _ => pure { s with stopping := .returned }

section Decidable
variable [DecidableEq α] (s : SharedPool τ α)

instance (t : τ) : Decidable (s.CanCall t) := inferInstanceAs (Decidable (_ ∧ _ ∧ _ ∧ _))

instance : Decidable s.Free := inferInstanceAs (Decidable (_ = _))

instance : ∀ e, Decidable ((machine debug).enabled s e)
  | .run _ _ => inferInstanceAs (Decidable (s.CanCall _ ∧ s.Free))
  | .test _ _ => inferInstanceAs (Decidable (s.call _ = _))
  | .push _ _ _ => inferInstanceAs (Decidable (s.call _ = _ ∧ _))
  | .resumeRun _ _ => inferInstanceAs (Decidable (s.call _ = _ ∧ _ ∈ _ ∧ s.Free))
  | .wakeRun _ | .wakeTake _ => inferInstanceAs (Decidable (_ ∈ _))
  | .loop _ => inferInstanceAs (Decidable (s.worker _ = _))
  | .take _ _ => inferInstanceAs (Decidable (s.worker _ = _ ∧ s.Free ∧ _))
  | .resumeTake _ _ => inferInstanceAs (Decidable (s.worker _ = _ ∧ _ ∈ _ ∧ s.Free ∧ _))
  | .taskDone _ => inferInstanceAs (Decidable ((s.worker _).Busy ∧ s.call _ = _))
  | .stop _ => inferInstanceAs (Decidable (s.CanCall _ ∧ _ ∉ _ ∧ s.Free ∧ s.stopping = _))
  | .unlocked _ => inferInstanceAs (Decidable (s.stopping = _))
  | .joined _ => inferInstanceAs (Decidable (s.stopping = _ ∧ ∀ u ∈ _, _))

end Decidable

variable {debug : Bool} {s u : SharedPool τ α} {t v : τ} {f : α} {choice : Option τ}

theorem isFull_eq {p : Threadpool τ α} (h : debug → p.mutex.pid = some t) :
    p.isFull debug t = .ok (decide p.Full) := by
  cases debug with
  | false => rfl
  | true => exact require_bind (h rfl) _

theorem isFull_holder {p : Threadpool τ α} {full : Bool} (h : p.isFull debug t = .ok full) :
    debug → p.mutex.pid = some t := by
  rintro rfl
  exact (require_bind_eq_ok.mp h).1

/-- What the evaluation of the loop condition leaves. -/
def tested (s : SharedPool τ α) (t : τ) (f : α) : SharedPool τ α :=
  if s.pool.Full ∧ s.pool.running then
    { s with
      pool := { s.pool with notFull := s.pool.notFull.wait t, mutex := s.pool.mutex.release }
      call := Function.update s.call t (.waits f) }
  else { s with call := Function.update s.call t (.push f) }

theorem test_eq (f : α) (h : debug → s.pool.mutex.pid = some t) :
    s.test debug t f = .ok (s.tested t f) := by
  unfold test Threadpool.test tested
  rw [isFull_eq h]
  by_cases hfull : s.pool.Full <;> by_cases hrunning : s.pool.running <;> simp [hfull, hrunning]

theorem test_ok (h : s.test debug t f = .ok u) :
    (debug → s.pool.mutex.pid = some t) ∧ u = s.tested t f := by
  obtain ⟨_, htest, -⟩ := bind_eq_ok.mp h
  obtain ⟨_, hfull, -⟩ := bind_eq_ok.mp htest
  have hholder := isFull_holder hfull
  rw [test_eq f hholder] at h
  exact ⟨hholder, (Except.ok.inj h).symm⟩

/-- What the end of `run` leaves. -/
def pushed (s : SharedPool τ α) (t : τ) (f : α) (choice : Option τ) : SharedPool τ α :=
  if s.pool.running then
    { s with
      pool := { s.pool with
        queue := s.pool.queue ++ [f]
        notEmpty := s.pool.notEmpty.notify choice
        mutex := s.pool.mutex.unassignedHolder.release }
      call := Function.update s.call t .idle
      puts := s.puts ++ [f] }
  else
    { s with
      pool := { s.pool with mutex := s.pool.mutex.unassignedHolder.release }
      call := Function.update s.call t .idle }

theorem push_eq (f : α) (choice : Option τ)
    (h : s.pool.running → debug → s.pool.mutex.pid = some t ∧ ¬ s.pool.Full) :
    s.push debug t f choice = .ok (s.pushed t f choice) := by
  unfold push Threadpool.push pushed
  by_cases hrunning : s.pool.running
  · cases debug with
    | false => simp [hrunning]
    | true =>
      obtain ⟨hholder, hfull⟩ := h hrunning rfl
      simp [hrunning, isFull_eq fun _ => hholder, hfull, require_true]
  · simp [hrunning]

theorem push_ok (h : s.push debug t f choice = .ok u) : u = s.pushed t f choice := by
  have hchecks : s.pool.running → debug → s.pool.mutex.pid = some t ∧ ¬ s.pool.Full := by
    rintro hrunning rfl
    obtain ⟨_, hpush, -⟩ := bind_eq_ok.mp h
    rw [Threadpool.push, if_pos hrunning, if_pos rfl] at hpush
    obtain ⟨full, hisFull, hpush⟩ := bind_eq_ok.mp hpush
    obtain ⟨hfull, -⟩ := require_bind_eq_ok.mp hpush
    have hholder := isFull_holder hisFull rfl
    rw [isFull_eq fun _ => hholder, hfull] at hisFull
    exact ⟨hholder, of_decide_eq_false (Except.ok.inj hisFull)⟩
  rw [push_eq f choice hchecks] at h
  exact (Except.ok.inj h).symm

theorem take_cases (s : SharedPool τ α) (p : Threadpool τ α) (t : τ) (choice : Option τ) :
    (∃ f queue, p.queue = f :: queue ∧ s.take p t choice = { s with
      pool := { p with
        queue
        notFull := if 0 < p.maxQueueSize then p.notFull.notify choice else p.notFull }
      worker := Function.update s.worker t (.task f)
      taken := s.taken ++ [f] }) ∨
    (p.queue = [] ∧ p.running ∧ s.take p t choice = { s with
      pool := { p with notEmpty := p.notEmpty.wait t }
      worker := Function.update s.worker t .waits }) ∨
    (p.queue = [] ∧ ¬ p.running ∧ s.take p t choice = { s with
      pool := p
      worker := Function.update s.worker t .loop }) := by
  unfold take Threadpool.take
  obtain ⟨mutex, notEmpty, notFull, threads, queue, maxQueueSize, running⟩ := p
  cases queue with
  | nil =>
    cases running with
    | false => exact .inr (.inr ⟨rfl, nofun, rfl⟩)
    | true => exact .inr (.inl ⟨rfl, rfl, rfl⟩)
  | cons f queue => exact .inl ⟨f, queue, rfl, rfl⟩

theorem take_frame (s : SharedPool τ α) (p : Threadpool τ α) (t : τ) (choice : Option τ) :
    (s.take p t choice).call = s.call ∧ (s.take p t choice).stopping = s.stopping ∧
      (s.take p t choice).puts = s.puts ∧ (s.take p t choice).pool.mutex = p.mutex ∧
      (s.take p t choice).pool.running = p.running := by
  obtain ⟨_, _, -, heq⟩ | ⟨-, -, heq⟩ | ⟨-, -, heq⟩ := s.take_cases p t choice <;>
    rw [heq] <;> exact ⟨rfl, rfl, rfl, rfl, rfl⟩

end SharedPool
end MuduoWindows.Base
