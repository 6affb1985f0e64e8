import MuduoWindows.Library.Binary64
import MuduoWindows.Library.IndexedHeapOrder
import MuduoWindows.Net.Fault

/-! # net/timer.h, net/timeMinHeap.h and net/timerQueue.cpp

A timer is known by its address. The objects are deleted only with the queue, so no address comes
back. `min_heap_idx` of each timer is kept in the heap's `idx`; a new timer's is whatever the
memory held. Allocation does not fail and the vector of pointers grows as needed.
-/

namespace MuduoWindows.Net
open Library

abbrev TimerPtr := ℕ

/-- A `Timestamp`, in microseconds since the epoch. -/
abbrev Timestamp := ℤ

namespace Timestamp

def invalid : Timestamp := 0
def kMicroSecondsPerSecond : ℚ := 1000 * 1000

/-- Towards zero. -/
def truncate (x : ℚ) : ℤ := x.num.tdiv x.den

/-- `static_cast<int64_t>` of a double. The language leaves open what becomes of one that does not
fit, x64 gives the lowest number. -/
def toInt64 (x : ℚ) : ℤ :=
  if -2 ^ 63 ≤ truncate x ∧ truncate x < 2 ^ 63 then truncate x else -2 ^ 63

/-- `seconds * Timestamp::kMicroSecondsPerSecond`, a double. -/
def microSeconds (seconds : ℚ) : ℚ := Binary64.round (seconds * kMicroSecondsPerSecond)

end Timestamp

/-- The sum is an `int64_t` and wraps. -/
def addTime (timestamp : Timestamp) (seconds : ℚ) : Timestamp :=
  (timestamp + Timestamp.toInt64 (Timestamp.microSeconds seconds)).bmod (2 ^ 64)

structure Timer where
  expiration : Timestamp
  interval : ℚ
  repeats : Bool
  sequence : ℕ
  deriving DecidableEq

namespace Timer

def create (when_ : Timestamp) (interval : ℚ) (sequence : ℕ) : Timer :=
  { expiration := when_, interval := interval, repeats := 0 < interval, sequence := sequence }

def restart (timer : Timer) (now : Timestamp) : Timer :=
  if timer.repeats then { timer with expiration := addTime now timer.interval }
  else { timer with expiration := Timestamp.invalid }

@[simp] theorem restart_repeats (timer : Timer) (now : Timestamp) :
    (timer.restart now).repeats = timer.repeats := by
  unfold restart
  split_ifs <;> rfl

end Timer

/-- The heap, the set of timers to delete with the queue, and the timers at their addresses. -/
structure TimerQueue where
  timeMinHeap : IndexedHeap TimerPtr
  timerSet : Finset TimerPtr
  timer : TimerPtr → Timer
  numCreated : ℕ

namespace TimerQueue

def expiration (q : TimerQueue) (t : TimerPtr) : Timestamp := (q.timer t).expiration

def minHeapTop (q : TimerQueue) : Option TimerPtr := q.timeMinHeap.top

def minHeapPush (q : TimerQueue) (t : TimerPtr) : TimerQueue :=
  { q with timeMinHeap := q.timeMinHeap.push q.expiration t }

/-- The popped timer is not returned: the queue does not look at it. -/
def minHeapPop (q : TimerQueue) : TimerQueue :=
  { q with timeMinHeap := q.timeMinHeap.pop q.expiration }

/-- `s->event[--(s->size)]` on an empty heap is an access far outside the array. -/
def minHeapErase (q : TimerQueue) (t : TimerPtr) : Result TimerQueue :=
  if q.timeMinHeap.idx t ≠ -1 then do
    require (q.timeMinHeap.size ≠ 0) (.outOfBounds "s->event[--(s->size)]")
    let heap := q.timeMinHeap.removeAt q.expiration (q.timeMinHeap.idx t).toNat
    pure { q with timeMinHeap := { heap with idx := Function.update heap.idx t (-1) } }
  else
    pure q

def addTimerInLoop (q : TimerQueue) (t : TimerPtr) : TimerQueue :=
  let q' := q.minHeapPush t
  { q' with timerSet := insert t q'.timerSet }

/-- `new Timer`, at an address never used before. -/
def newTimer (q : TimerQueue) (when_ : Timestamp) (interval : ℚ) : TimerQueue :=
  { q with
    timer := Function.update q.timer q.numCreated (Timer.create when_ interval (q.numCreated + 1))
    numCreated := q.numCreated + 1 }

/-- On the loop thread `runInLoop` calls `addTimerInLoop` at once. -/
def addTimer (q : TimerQueue) (when_ : Timestamp) (interval : ℚ) : TimerQueue :=
  (q.newTimer when_ interval).addTimerInLoop q.numCreated

/-- On the loop thread `cancel` is `cancelInLoop`. -/
def cancelInLoop (q : TimerQueue) (t : TimerPtr) : Result TimerQueue := do
  let q' ← q.minHeapErase t
  pure { q' with timerSet := q'.timerSet.erase t }

/-- The loop test of `expiredProcess`: the top, if it is due. -/
def due (q : TimerQueue) (now : Timestamp) : Option TimerPtr :=
  match q.minHeapTop with
  | none => none
  | some t => if now < q.expiration t then none else some t

/-- The loop body of `expiredProcess` behind the callback of `t`. -/
def afterCallback (q : TimerQueue) (now : Timestamp) (t : TimerPtr) : TimerQueue :=
  let q' := q.minHeapPop
  if (q'.timer t).repeats then
    { q' with timer := Function.update q'.timer t ((q'.timer t).restart now) }.minHeapPush t
  else q'

def Queued (q : TimerQueue) (t : TimerPtr) : Prop := q.timeMinHeap.Mem t

/-- The heap is ordered by expiration, its timers know their positions and have been created. -/
structure Valid (q : TimerQueue) : Prop where
  indexed : q.timeMinHeap.Indexed
  ordered : q.timeMinHeap.Ordered q.expiration
  created : ∀ t, q.Queued t → t < q.numCreated

instance (q : TimerQueue) (t : TimerPtr) : Decidable (q.Queued t) :=
  inferInstanceAs (Decidable (∃ i, i < q.timeMinHeap.size ∧ q.timeMinHeap.event i = t))

/-- `TimerQueue::TimerQueue`; `memory` is what the positions of timers not yet built happen to
be. -/
def create (memory : TimerPtr → ℤ) : TimerQueue :=
  { timeMinHeap := { event := fun _ => 0, size := 0, idx := memory }
    timerSet := ∅
    timer := fun _ => Timer.create Timestamp.invalid 0 0
    numCreated := 0 }

theorem create_valid (memory : TimerPtr → ℤ) : (create memory).Valid := by
  refine ⟨?_, ?_, ?_⟩
  · exact fun i hi => absurd hi (Nat.not_lt_zero i)
  · exact fun i _ hi => absurd hi (Nat.not_lt_zero i)
  · rintro t ⟨i, hi, -⟩
    exact absurd hi (Nat.not_lt_zero i)

variable {q : TimerQueue}

theorem top_eq_some {t : TimerPtr} :
    q.minHeapTop = some t ↔ q.timeMinHeap.size ≠ 0 ∧ q.timeMinHeap.event 0 = t := by
  unfold minHeapTop IndexedHeap.top
  split_ifs with hs <;> simp [hs]

theorem queued_of_top {t : TimerPtr} (h : q.minHeapTop = some t) : q.Queued t := by
  obtain ⟨hs, rfl⟩ := top_eq_some.mp h
  exact ⟨0, by omega, rfl⟩

theorem due_eq_some {now : Timestamp} {t : TimerPtr} :
    q.due now = some t ↔ q.minHeapTop = some t ∧ q.expiration t ≤ now := by
  unfold due
  cases q.minHeapTop with
  | none => simp
  | some u =>
    by_cases hu : now < q.expiration u
    · simp only [hu, if_true, Option.some.injEq]
      constructor
      · simp
      · rintro ⟨rfl, hle⟩
        exact absurd hu hle.not_gt
    · simp only [hu, if_false, Option.some.injEq]
      constructor
      · rintro rfl
        exact ⟨rfl, not_lt.mp hu⟩
      · exact fun h => h.1

theorem Valid.not_due (h : q.Valid) {now : Timestamp} (hd : q.due now = none) {t : TimerPtr}
    (ht : q.Queued t) : now < q.expiration t := by
  obtain ⟨i, hi, rfl⟩ := ht
  have htop : q.minHeapTop = some (q.timeMinHeap.event 0) := top_eq_some.mpr ⟨by omega, rfl⟩
  have h0 : now < q.expiration (q.timeMinHeap.event 0) := by
    by_contra hle
    have hsome := due_eq_some.mpr ⟨htop, not_lt.mp hle⟩
    rw [hd] at hsome
    exact Option.some_ne_none _ hsome.symm
  exact h0.trans_le (h.ordered.first_le hi)

theorem Valid.fresh (h : q.Valid) : ¬ q.Queued q.numCreated :=
  fun hm => (h.created _ hm).false

theorem newTimer_expiration {when_ : Timestamp} {interval : ℚ} {t : TimerPtr}
    (ht : t ≠ q.numCreated) : (q.newTimer when_ interval).timer t = q.timer t := by
  simp [newTimer, ht]

theorem addTimer_spec (h : q.Valid) (when_ : Timestamp) (interval : ℚ) :
    (q.addTimer when_ interval).Valid ∧
      (∀ t, (q.addTimer when_ interval).Queued t ↔ q.Queued t ∨ t = q.numCreated) ∧
      (∀ t, ¬ q.Queued t → t ≠ q.numCreated →
        (q.addTimer when_ interval).timeMinHeap.idx t = q.timeMinHeap.idx t) ∧
      (∀ t, t ≠ q.numCreated → (q.addTimer when_ interval).timer t = q.timer t) := by
  have hord : q.timeMinHeap.Ordered (q.newTimer when_ interval).expiration :=
    h.ordered.congr fun t ht => congrArg Timer.expiration
      (newTimer_expiration (h.created t ht).ne)
  obtain ⟨hidx, hordered, -, hmem, hframe⟩ := IndexedHeap.push_spec h.indexed hord h.fresh
  refine ⟨⟨hidx, hordered, ?_⟩, hmem, hframe, fun t ht => newTimer_expiration ht⟩
  intro t ht
  rcases (hmem t).mp ht with ht | rfl
  · exact (h.created t ht).trans (Nat.lt_succ_self _)
  · exact Nat.lt_succ_self _

theorem cancelInLoop_queued (h : q.Valid) {t : TimerPtr} (ht : q.Queued t) :
    ∃ q', q.cancelInLoop t = .ok q' ∧ q'.Valid ∧ (∀ u, q'.Queued u ↔ q.Queued u ∧ u ≠ t) ∧
      q'.timeMinHeap.idx t = -1 ∧
      (∀ u, ¬ q.Queued u → q'.timeMinHeap.idx u = q.timeMinHeap.idx u) ∧
      q'.timer = q.timer ∧ q'.numCreated = q.numCreated := by
  obtain ⟨i, hi, rfl⟩ := ht
  have hpos := h.indexed i hi
  obtain ⟨hidx, hord, hsize, hmem, hframe, -⟩ := IndexedHeap.removeAt_spec h.indexed h.ordered hi
  let heap := q.timeMinHeap.removeAt q.expiration i
  let q' : TimerQueue :=
    { q with
      timeMinHeap := { heap with idx := Function.update heap.idx (q.timeMinHeap.event i) (-1) }
      timerSet := q.timerSet.erase (q.timeMinHeap.event i) }
  have hqueued : ∀ u, q'.Queued u ↔ q.Queued u ∧ u ≠ q.timeMinHeap.event i := hmem
  have hkept : ∀ u, u ≠ q.timeMinHeap.event i → q'.timeMinHeap.idx u = heap.idx u :=
    fun u hu => Function.update_of_ne hu _ _
  refine ⟨q', ?_, ⟨?_, hord, fun u hu => h.created u ((hqueued u).mp hu).1⟩, hqueued,
    Function.update_self _ _ _, ?_, rfl, rfl⟩
  · unfold cancelInLoop minHeapErase
    rw [if_pos (by rw [hpos]; omega), require_bind (by omega), hpos, Int.toNat_natCast]
    rfl
  · intro j hj
    rw [hkept _ ((hqueued _).mp ⟨j, hj, rfl⟩).2]
    exact hidx j hj
  · intro u hu
    rw [hkept u fun he => hu ⟨i, hi, he.symm⟩]
    exact hframe u hu

theorem cancelInLoop_marked {t : TimerPtr} (ht : q.timeMinHeap.idx t = -1) :
    q.cancelInLoop t = .ok { q with timerSet := q.timerSet.erase t } := by
  unfold cancelInLoop minHeapErase
  rw [if_neg (by rw [ht]; simp)]
  rfl

theorem Valid.pop (h : q.Valid) {t : TimerPtr} (ht : q.minHeapTop = some t) :
    q.minHeapPop.Valid ∧ (∀ u, q.minHeapPop.Queued u ↔ q.Queued u ∧ u ≠ t) ∧
      (∀ u, ¬ q.Queued u → q.minHeapPop.timeMinHeap.idx u = q.timeMinHeap.idx u) ∧
      q.minHeapPop.timeMinHeap.idx t = 0 := by
  obtain ⟨hs, rfl⟩ := top_eq_some.mp ht
  have hheap : q.minHeapPop.timeMinHeap = q.timeMinHeap.removeAt q.expiration 0 :=
    IndexedHeap.pop_eq_removeAt hs
  obtain ⟨hidx, hord, -, hmem, hframe, hstale⟩ :=
    IndexedHeap.removeAt_spec h.indexed h.ordered (Nat.pos_of_ne_zero hs)
  rw [← hheap] at hidx hord hmem hframe hstale
  exact ⟨⟨hidx, hord, fun u hu => h.created u ((hmem u).mp hu).1⟩, hmem, hframe, hstale⟩

theorem afterCallback_oneShot {now : Timestamp} {t : TimerPtr}
    (hr : (q.timer t).repeats = false) : q.afterCallback now t = q.minHeapPop := by
  unfold afterCallback
  exact if_neg (by simp [minHeapPop, hr])

theorem afterCallback_repeating {now : Timestamp} {t : TimerPtr} (hr : (q.timer t).repeats) :
    q.afterCallback now t =
      { q.minHeapPop with
        timer := Function.update q.timer t ((q.timer t).restart now) }.minHeapPush t := by
  unfold afterCallback
  exact if_pos hr

/-- When the timer that ran is on top, the loop body takes it out, and queues it again if it
repeats; a one-shot timer keeps the stored position 0. -/
theorem afterCallback_spec (h : q.Valid) (now : Timestamp) {t : TimerPtr}
    (ht : q.minHeapTop = some t) :
    (q.afterCallback now t).Valid ∧
      (∀ u, (q.afterCallback now t).Queued u ↔ q.Queued u ∧ (u ≠ t ∨ (q.timer t).repeats)) ∧
      (∀ u, ¬ q.Queued u → (q.afterCallback now t).timeMinHeap.idx u = q.timeMinHeap.idx u) ∧
      (∀ u, ((q.afterCallback now t).timer u).repeats = (q.timer u).repeats) ∧
      (q.afterCallback now t).numCreated = q.numCreated := by
  obtain ⟨hv, hmem, hframe, -⟩ := h.pop ht
  cases hr : (q.timer t).repeats with
  | false =>
    rw [afterCallback_oneShot hr]
    exact ⟨hv, fun u => by rw [hmem u]; simp, hframe, fun _ => rfl, rfl⟩
  | true =>
    rw [afterCallback_repeating hr]
    let p : TimerQueue :=
      { q.minHeapPop with timer := Function.update q.timer t ((q.timer t).restart now) }
    change (p.minHeapPush t).Valid ∧ (∀ u, (p.minHeapPush t).Queued u ↔ _) ∧
      (∀ u, _ → (p.minHeapPush t).timeMinHeap.idx u = _) ∧ _
    have hout : ¬ p.Queued t := fun hq => ((hmem t).mp hq).2 rfl
    have hord : p.timeMinHeap.Ordered p.expiration := by
      refine hv.ordered.congr fun u hu => congrArg Timer.expiration ?_
      exact Function.update_of_ne ((hmem u).mp hu).2 _ _
    obtain ⟨hidx, hordered, -, hpush, hpframe⟩ := IndexedHeap.push_spec hv.indexed hord hout
    have hqueued : ∀ u, (p.minHeapPush t).Queued u ↔ q.Queued u := by
      intro u
      refine (hpush u).trans ?_
      by_cases hu : u = t
      · simp [hu, queued_of_top ht]
      · exact (or_iff_left hu).trans ((hmem u).trans (and_iff_left hu))
    refine ⟨⟨hidx, hordered, fun u hu => h.created u ((hqueued u).mp hu)⟩,
      fun u => (hqueued u).trans (by simp), ?_, ?_, rfl⟩
    · intro u hu
      have hut : u ≠ t := fun he => hu (he ▸ queued_of_top ht)
      exact (hpframe u (fun hq => hu ((hmem u).mp hq).1) hut).trans (hframe u hu)
    · intro u
      change (Function.update q.timer t ((q.timer t).restart now) u).repeats = _
      by_cases hu : u = t
      · subst u
        rw [Function.update_self, Timer.restart_repeats]
      · rw [Function.update_of_ne hu]

end TimerQueue
end MuduoWindows.Net
