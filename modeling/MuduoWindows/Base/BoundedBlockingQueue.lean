import MuduoWindows.Library.CondVar
import MuduoWindows.Net.Fault

/-! # base/boundedBlockingQueue.h

Any thread calls `put` or `take`. A call holds the mutex until it returns or waits for a condition;
a waiting call goes on at its loop condition when its thread is unblocked and has the mutex again.
-/

namespace MuduoWindows.Base
open Library Net

structure BoundedBlockingQueue (τ α : Type) where
  notEmpty : CondVar τ
  notFull : CondVar τ
  queue : List α
  maxSize : ℤ

namespace BoundedBlockingQueue
variable {τ α : Type}

def create (maxSize : ℤ) : BoundedBlockingQueue τ α :=
  { notEmpty := .empty, notFull := .empty, queue := [], maxSize }

def full (q : BoundedBlockingQueue τ α) : Prop := (q.queue.length : ℤ) = q.maxSize

instance (q : BoundedBlockingQueue τ α) : Decidable q.full := inferInstanceAs (Decidable (_ = _))

variable [DecidableEq τ]

/-- `put` from its loop on, with the thread that the notification selects; it returns unless it
waits. -/
def put (q : BoundedBlockingQueue τ α) (t : τ) (x : α) (choice : Option τ) :
    Result (BoundedBlockingQueue τ α × Bool) :=
  if q.full then pure ({ q with notFull := q.notFull.wait t }, false)
  else do
    assert (¬ q.full) "!full()"
    let q := { q with queue := q.queue ++ [x] }
    pure ({ q with notEmpty := q.notEmpty.notify choice }, true)

/-- `take` from its loop on; it returns unless it waits. -/
def take (q : BoundedBlockingQueue τ α) (t : τ) (choice : Option τ) :
    BoundedBlockingQueue τ α × Option α :=
  match q.queue with
  | [] => ({ q with notEmpty := q.notEmpty.wait t }, none)
  | x :: queue => ({ q with queue, notFull := q.notFull.notify choice }, some x)

/-- The thread has the mutex again in `put`. -/
def resumePut (q : BoundedBlockingQueue τ α) (t : τ) : BoundedBlockingQueue τ α :=
  { q with notFull := q.notFull.resume t }

/-- The thread has the mutex again in `take`. -/
def resumeTake (q : BoundedBlockingQueue τ α) (t : τ) : BoundedBlockingQueue τ α :=
  { q with notEmpty := q.notEmpty.resume t }

omit [DecidableEq τ] in
def free (q : BoundedBlockingQueue τ α) : ℕ := (q.maxSize - q.queue.length).toNat

/-- The queue is bounded, and no wakeup is lost: items are seen to by consumers, free slots by
producers. -/
structure Inv (q : BoundedBlockingQueue τ α) : Prop where
  size : (q.queue.length : ℤ) ≤ q.maxSize
  items : q.notEmpty.Covers q.queue.length
  slots : q.notFull.Covers q.free

variable {q q' : BoundedBlockingQueue τ α} {t : τ} {x : α} {choice : Option τ}

omit [DecidableEq τ] in
theorem create_inv {maxSize : ℤ} (h : 0 < maxSize) :
    (create maxSize : BoundedBlockingQueue τ α).Inv :=
  ⟨h.le, CondVar.empty_covers _, CondVar.empty_covers _⟩

/-- A call of `put` waits when the queue is full, and puts its argument otherwise. -/
theorem put_eq (q : BoundedBlockingQueue τ α) (t : τ) (x : α) (choice : Option τ) :
    q.put t x choice = .ok (if q.full then ({ q with notFull := q.notFull.wait t }, false)
      else ({ q with queue := q.queue ++ [x], notEmpty := q.notEmpty.notify choice }, true)) := by
  unfold put
  split_ifs with hfull
  · rfl
  · rw [require_bind hfull, pure_eq_ok]

theorem put_inv (hsize : (q.queue.length : ℤ) ≤ q.maxSize)
    (hitems : q.notEmpty.Covers q.queue.length) (hslots : q.notFull.Covers (q.free - 1))
    (hc : q.notEmpty.Selects choice) {done : Bool} (h : q.put t x choice = .ok (q', done)) :
    q'.Inv ∧ q'.maxSize = q.maxSize ∧
      q'.queue = if done then q.queue ++ [x] else q.queue := by
  rw [put_eq, Except.ok.injEq] at h
  split_ifs at h with hfull
  · obtain ⟨rfl, rfl⟩ := Prod.mk.inj h
    refine ⟨⟨hsize, hitems, ?_⟩, rfl, rfl⟩
    have hzero : free { q with notFull := q.notFull.wait t } = 0 := by
      unfold full at hfull
      unfold free
      dsimp only
      omega
    rw [hzero]
    exact CondVar.covers_zero _
  · obtain ⟨rfl, rfl⟩ := Prod.mk.inj h
    have hlength : (q.queue ++ [x]).length = q.queue.length + 1 := List.length_append
    unfold full at hfull
    refine ⟨⟨?_, ?_, ?_⟩, rfl, rfl⟩
    · dsimp only
      omega
    · dsimp only
      rw [hlength]
      exact hitems.notify hc
    · refine hslots.mono ?_
      unfold free
      dsimp only
      omega

theorem take_inv (hsize : (q.queue.length : ℤ) ≤ q.maxSize)
    (hitems : q.notEmpty.Covers (q.queue.length - 1)) (hslots : q.notFull.Covers q.free)
    (hc : q.notFull.Selects choice) :
    (q.take t choice).1.Inv ∧ (q.take t choice).1.maxSize = q.maxSize ∧
      (q.take t choice).2.toList ++ (q.take t choice).1.queue = q.queue := by
  obtain ⟨notEmpty, notFull, queue, maxSize⟩ := q
  cases queue with
  | nil => exact ⟨⟨hsize, CondVar.covers_zero _, hslots⟩, rfl, rfl⟩
  | cons x queue =>
    unfold free at hslots
    dsimp only at hsize hitems hslots
    rw [List.length_cons] at hsize hitems hslots
    refine ⟨⟨?_, hitems, ?_⟩, rfl, rfl⟩
    · change (queue.length : ℤ) ≤ maxSize
      omega
    · refine (hslots.notify hc).mono ?_
      change (maxSize - queue.length).toNat ≤ _
      omega

end BoundedBlockingQueue

/-- A queue with the threads that use it. `arg` holds the arguments of the calls of `put` that
wait; `puts` and `taken` remember the values in the order in which calls have put and taken
them. -/
structure SharedQueue (τ α : Type) where
  queue : BoundedBlockingQueue τ α
  arg : τ → Option α
  puts : List α
  taken : List α

namespace SharedQueue
variable {τ α : Type}

def create (maxSize : ℤ) : SharedQueue τ α :=
  { queue := .create maxSize, arg := fun _ => none, puts := [], taken := [] }

inductive Event (τ α : Type) where
  | put (t : τ) (x : α) (choice : Option τ)
  | resumePut (t : τ) (x : α) (choice : Option τ)
  | take (t : τ) (choice : Option τ)
  | resumeTake (t : τ) (choice : Option τ)
  /-- A thread wakes up that waits in `put`. -/
  | wakePut (t : τ)
  | wakeTake (t : τ)

variable [DecidableEq τ]

def Idle (s : SharedQueue τ α) (t : τ) : Prop :=
  t ∉ s.queue.notFull.threads ∧ t ∉ s.queue.notEmpty.threads

instance (s : SharedQueue τ α) (t : τ) : Decidable (s.Idle t) :=
  inferInstanceAs (Decidable (_ ∧ _))

/-- The critical section of `put` from its loop on. -/
def put (s : SharedQueue τ α) (q : BoundedBlockingQueue τ α) (t : τ) (x : α)
    (choice : Option τ) : Result (SharedQueue τ α) := do
  let (q, done) ← q.put t x choice
  if done then pure { s with queue := q, puts := s.puts ++ [x] }
  else pure { s with queue := q, arg := Function.update s.arg t (some x) }

def take (s : SharedQueue τ α) (q : BoundedBlockingQueue τ α) (t : τ) (choice : Option τ) :
    SharedQueue τ α :=
  let (q, x) := q.take t choice
  { s with queue := q, taken := s.taken ++ x.toList }

def machine : Machine (SharedQueue τ α) (Event τ α) Fault where
  enabled s
    | .put t _ choice => s.Idle t ∧ s.queue.notEmpty.Selects choice
    | .resumePut t x choice =>
      t ∈ s.queue.notFull.unblocked ∧ s.arg t = some x ∧ s.queue.notEmpty.Selects choice
    | .take t choice => s.Idle t ∧ s.queue.notFull.Selects choice
    | .resumeTake t choice => t ∈ s.queue.notEmpty.unblocked ∧ s.queue.notFull.Selects choice
    | .wakePut t => t ∈ s.queue.notFull.waiting
    | .wakeTake t => t ∈ s.queue.notEmpty.waiting
  step s
    | .put t x choice => s.put s.queue t x choice
    | .resumePut t x choice => s.put (s.queue.resumePut t) t x choice
    | .take t choice => pure (s.take s.queue t choice)
    | .resumeTake t choice => pure (s.take (s.queue.resumeTake t) t choice)
    | .wakePut t => pure { s with queue := { s.queue with notFull := s.queue.notFull.wake t } }
    | .wakeTake t => pure { s with queue := { s.queue with notEmpty := s.queue.notEmpty.wake t } }

/-- The values taken are the first of those put, the rest is in the queue. -/
structure Inv (maxSize : ℤ) (s : SharedQueue τ α) : Prop where
  queue : s.queue.Inv
  maxSize : s.queue.maxSize = maxSize
  order : s.taken ++ s.queue.queue = s.puts

variable {s u : SharedQueue τ α} {q : BoundedBlockingQueue τ α} {t : τ} {x : α}
  {choice : Option τ} {maxSize : ℤ}

theorem put_ok (s : SharedQueue τ α) (q : BoundedBlockingQueue τ α) (t : τ) (x : α)
    (choice : Option τ) : ∃ u, s.put q t x choice = .ok u := by
  unfold put
  rw [BoundedBlockingQueue.put_eq, ok_bind]
  split_ifs <;> exact ⟨_, rfl⟩

theorem step_ok (s : SharedQueue τ α) (e : Event τ α) : ∃ u, machine.step s e = .ok u := by
  cases e with
  | put t x choice => exact put_ok s _ t x choice
  | resumePut t x choice => exact put_ok s _ t x choice
  | take t choice => exact ⟨_, rfl⟩
  | resumeTake t choice => exact ⟨_, rfl⟩
  | wakePut t => exact ⟨_, rfl⟩
  | wakeTake t => exact ⟨_, rfl⟩

theorem put_inv (horder : s.taken ++ q.queue = s.puts) (hmax : q.maxSize = maxSize)
    (hsize : (q.queue.length : ℤ) ≤ q.maxSize) (hitems : q.notEmpty.Covers q.queue.length)
    (hslots : q.notFull.Covers (q.free - 1)) (hc : q.notEmpty.Selects choice)
    (h : s.put q t x choice = .ok u) : u.Inv maxSize := by
  obtain ⟨⟨q', done⟩, hput, h⟩ := bind_eq_ok.mp h
  obtain ⟨hinv, hmax', hqueue⟩ := BoundedBlockingQueue.put_inv hsize hitems hslots hc hput
  cases done with
  | true =>
    obtain rfl := Except.ok.inj h
    refine ⟨hinv, hmax'.trans hmax, ?_⟩
    change s.taken ++ q'.queue = s.puts ++ [x]
    rw [hqueue, if_pos rfl, ← List.append_assoc, horder]
  | false =>
    obtain rfl := Except.ok.inj h
    exact ⟨hinv, hmax'.trans hmax, (congrArg _ hqueue).trans horder⟩

theorem take_inv (horder : s.taken ++ q.queue = s.puts) (hmax : q.maxSize = maxSize)
    (hsize : (q.queue.length : ℤ) ≤ q.maxSize) (hitems : q.notEmpty.Covers (q.queue.length - 1))
    (hslots : q.notFull.Covers q.free) (hc : q.notFull.Selects choice) :
    (s.take q t choice).Inv maxSize := by
  obtain ⟨hinv, hmax', hqueue⟩ := BoundedBlockingQueue.take_inv (t := t) hsize hitems hslots hc
  refine ⟨hinv, hmax'.trans hmax, ?_⟩
  change s.taken ++ (q.take t choice).2.toList ++ (q.take t choice).1.queue = s.puts
  rw [List.append_assoc, hqueue, horder]

theorem Inv.step {e : Event τ α} (h : s.Inv maxSize) (he : machine.enabled s e)
    (hu : machine.step s e = .ok u) : u.Inv maxSize := by
  obtain ⟨⟨hsize, hitems, hslots⟩, hmax, horder⟩ := h
  cases e with
  | put t x choice => exact put_inv horder hmax hsize hitems (hslots.mono (Nat.sub_le _ _)) he.2 hu
  | resumePut t x choice =>
    exact put_inv (q := s.queue.resumePut t) horder hmax hsize hitems hslots.resume he.2.2 hu
  | take t choice =>
    obtain rfl := Except.ok.inj hu
    exact take_inv horder hmax hsize (hitems.mono (Nat.sub_le _ _)) hslots he.2
  | resumeTake t choice =>
    obtain rfl := Except.ok.inj hu
    exact take_inv horder hmax hsize hitems.resume hslots he.2
  | wakePut t =>
    obtain rfl := Except.ok.inj hu
    exact ⟨⟨hsize, hitems, hslots.wake⟩, hmax, horder⟩
  | wakeTake t =>
    obtain rfl := Except.ok.inj hu
    exact ⟨⟨hsize, hitems.wake, hslots⟩, hmax, horder⟩

omit [DecidableEq τ] in
theorem create_inv (h : 0 < maxSize) : (create maxSize : SharedQueue τ α).Inv maxSize :=
  ⟨BoundedBlockingQueue.create_inv h, rfl, rfl⟩

/-- For any threads and any order of their steps: the queue is bounded, `put` keeps its assertion,
the values are taken in the order in which they were put, and no thread is left blocked that has
something to do. -/
theorem bounded_fifo (hpos : 0 < maxSize) {es : List (Event τ α)}
    (h : machine.Run Machine.Any (create maxSize) es s) :
    (s.queue.queue.length : ℤ) ≤ maxSize ∧
      (∀ e, machine.enabled s e → ∃ u, machine.step s e = .ok u) ∧
      s.taken ++ s.queue.queue = s.puts ∧
      (s.queue.notEmpty.waiting.Nonempty →
        s.queue.queue.length ≤ s.queue.notEmpty.notified.card) ∧
      (s.queue.notFull.waiting.Nonempty →
        maxSize - s.queue.queue.length ≤ s.queue.notFull.notified.card) := by
  have hinv : s.Inv maxSize := h.invariant (Inv maxSize) (create_inv hpos)
    fun _ _ _ ht he _ hu => ht.step he hu
  obtain ⟨⟨hsize, hitems, hslots⟩, rfl, horder⟩ := hinv
  refine ⟨hsize, fun e _ => step_ok s e, horder, hitems, fun hblocked => ?_⟩
  have hfree := hslots hblocked
  unfold BoundedBlockingQueue.free at hfree
  omega

instance [DecidableEq α] (s : SharedQueue τ α) : ∀ e, Decidable (machine.enabled s e)
  | .put _ _ _ => inferInstanceAs (Decidable (s.Idle _ ∧ _))
  | .resumePut _ _ _ => inferInstanceAs (Decidable (_ ∈ _ ∧ s.arg _ = _ ∧ _))
  | .take _ _ => inferInstanceAs (Decidable (s.Idle _ ∧ _))
  | .resumeTake _ _ => inferInstanceAs (Decidable (_ ∈ _ ∧ _))
  | .wakePut _ => inferInstanceAs (Decidable (_ ∈ _))
  | .wakeTake _ => inferInstanceAs (Decidable (_ ∈ _))

/-- A consumer waits and is notified, but another one overtakes it and takes its item. -/
theorem bounded_fifo_overtaken : ∃ s : SharedQueue (Fin 3) ℕ,
    machine.Run Machine.Any (create 1) [.take 0 none, .put 1 5 (some 0), .put 1 6 none,
      .take 2 (some 1), .resumeTake 0 none] s ∧
    s.queue.notEmpty.waiting = {0} ∧ s.queue.notFull.notified = {1} ∧ s.taken = [5] ∧
    (s.queue.queue.length : ℤ) ≤ 1 ∧
    (∀ e, machine.enabled s e → ∃ u, machine.step s e = .ok u) ∧
    s.taken ++ s.queue.queue = s.puts ∧
    (s.queue.notEmpty.waiting.Nonempty →
      s.queue.queue.length ≤ s.queue.notEmpty.notified.card) ∧
    (s.queue.notFull.waiting.Nonempty →
      (1 : ℤ) - s.queue.queue.length ≤ s.queue.notFull.notified.card) := by
  obtain ⟨s, hs, hp⟩ := Machine.exists_run_of_exec machine Machine.Any
    (create 1 : SharedQueue (Fin 3) ℕ)
    [.take 0 none, .put 1 5 (some 0), .put 1 6 none, .take 2 (some 1), .resumeTake 0 none]
    (fun s => decide (s.queue.notEmpty.waiting = {0} ∧ s.queue.notFull.notified = {1} ∧
      s.taken = [5])) (by decide)
  obtain ⟨hwaiting, hnotified, htaken⟩ := of_decide_eq_true hp
  exact ⟨s, hs, hwaiting, hnotified, htaken, bounded_fifo (by decide) hs⟩

/-- The calls of `put` that wait have their arguments. -/
def HasArgs (s : SharedQueue τ α) : Prop := ∀ t ∈ s.queue.notFull.threads, (s.arg t).isSome

theorem put_hasArgs (h : ∀ t ∈ q.notFull.threads, (s.arg t).isSome)
    (hu : s.put q t x choice = .ok u) : u.HasArgs := by
  unfold put at hu
  rw [BoundedBlockingQueue.put_eq, ok_bind] at hu
  split_ifs at hu
  · obtain rfl := Except.ok.inj hu
    intro v hv
    change (Function.update s.arg t (some x) v).isSome
    obtain rfl | hne := eq_or_ne v t
    · rw [Function.update_self]
      rfl
    · rw [Function.update_of_ne hne]
      exact h v ((CondVar.mem_threads_wait hv).resolve_left hne)
  · obtain rfl := Except.ok.inj hu
    exact h

theorem take_hasArgs (h : ∀ t ∈ q.notFull.threads, (s.arg t).isSome)
    (hc : q.notFull.Selects choice) : (s.take q t choice).HasArgs := by
  obtain ⟨notEmpty, notFull, queue, maxSize⟩ := q
  cases queue with
  | nil => exact h
  | cons x queue => exact fun v hv => h v (CondVar.threads_notify hc hv)

theorem HasArgs.step {e : Event τ α} (h : s.HasArgs) (he : machine.enabled s e)
    (hu : machine.step s e = .ok u) : u.HasArgs := by
  cases e with
  | put t x choice => exact put_hasArgs h hu
  | resumePut t x choice =>
    exact put_hasArgs (q := s.queue.resumePut t)
      (fun v hv => h v (CondVar.threads_resume _ t hv)) hu
  | take t choice =>
    obtain rfl := Except.ok.inj hu
    exact take_hasArgs h he.2
  | resumeTake t choice =>
    obtain rfl := Except.ok.inj hu
    exact take_hasArgs h he.2
  | wakePut t =>
    obtain rfl := Except.ok.inj hu
    exact fun v hv => h v (CondVar.threads_wake he hv)
  | wakeTake t =>
    obtain rfl := Except.ok.inj hu
    exact h

theorem unblocked_runs {es : List (Event τ α)}
    (h : machine.Run Machine.Any (create maxSize) es s) :
    (∀ t ∈ s.queue.notFull.unblocked, ∃ x choice, machine.enabled s (.resumePut t x choice)) ∧
      ∀ t ∈ s.queue.notEmpty.unblocked, ∃ choice, machine.enabled s (.resumeTake t choice) := by
  have hargs : s.HasArgs := h.invariant HasArgs (fun _ ht => absurd ht (Finset.notMem_empty _))
    fun _ _ _ ht he _ hu => ht.step he hu
  constructor
  · intro t ht
    obtain ⟨x, hx⟩ := Option.isSome_iff_exists.mp (hargs t (Finset.mem_union_right _ ht))
    obtain ⟨choice, hc⟩ := s.queue.notEmpty.exists_selects
    exact ⟨x, choice, ht, hx, hc⟩
  · intro t ht
    obtain ⟨choice, hc⟩ := s.queue.notFull.exists_selects
    exact ⟨choice, ht, hc⟩

end SharedQueue
end MuduoWindows.Base
