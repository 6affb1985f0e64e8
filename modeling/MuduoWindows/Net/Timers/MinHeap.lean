import MuduoWindows.Library.Machine
import MuduoWindows.Net.Timers.TimerQueue

/-! # The operations of net/timeMinHeap.h

Any sequence of pushes, pops and erasures, with the objects of the timers outside the heap changing
in between: they are built there, and `Timer::restart` is called there. Positions are counted
without a bound, as the `int` and the `unsigned` of the source do up to 2³¹ timers.
-/

namespace MuduoWindows.Net.TimerQueue
open Library

def timers (q : TimerQueue) : Multiset TimerPtr := q.timeMinHeap.elements

/-- `min_heap_pop` with the timer it returns. -/
def minHeapPopped (q : TimerQueue) : Option TimerPtr × TimerQueue :=
  if q.timeMinHeap.size = 0 then (none, q) else (some (q.timeMinHeap.event 0), q.minHeapPop)

inductive HeapEvent where
  | push (t : TimerPtr)
  | pop
  | erase (t : TimerPtr)
  /-- The object of a timer outside the heap gets a new value. -/
  | assign (t : TimerPtr) (timer : Timer)
  deriving DecidableEq

def heapMachine : Machine TimerQueue HeapEvent Fault where
  enabled q
    | .push t | .assign t _ => ¬ q.Queued t
    | .erase t => q.Queued t
    | .pop => True
  step q
    | .push t => pure (q.minHeapPush t)
    | .pop => pure q.minHeapPopped.2
    | .erase t => q.minHeapErase t
    | .assign t timer => pure { q with timer := Function.update q.timer t timer }

/-- The invariant: the heap is ordered by expiration and its timers know their positions. -/
structure Heaped (q : TimerQueue) : Prop where
  indexed : q.timeMinHeap.Indexed
  ordered : q.timeMinHeap.Ordered q.expiration

variable {q q' : TimerQueue}

theorem Heaped.push (h : q.Heaped) {t : TimerPtr} (ht : ¬ q.Queued t) :
    (q.minHeapPush t).Heaped ∧ (q.minHeapPush t).timers = t ::ₘ q.timers := by
  obtain ⟨hidx, hord, -⟩ := IndexedHeap.push_spec h.indexed h.ordered ht
  exact ⟨⟨hidx, hord⟩, IndexedHeap.push_elements h.indexed h.ordered ht⟩

/-- Popping a heap that is not empty returns a first timer and keeps all others. -/
theorem Heaped.pop (h : q.Heaped) (hs : q.timeMinHeap.size ≠ 0) :
    q.minHeapPopped = (some (q.timeMinHeap.event 0), q.minHeapPop) ∧ q.minHeapPop.Heaped ∧
      (∀ t ∈ q.timers, q.expiration (q.timeMinHeap.event 0) ≤ q.expiration t) ∧
      q.timers = q.timeMinHeap.event 0 ::ₘ q.minHeapPop.timers := by
  have hheap : q.minHeapPop.timeMinHeap = q.timeMinHeap.removeAt q.expiration 0 :=
    IndexedHeap.pop_eq_removeAt hs
  have hpos := Nat.pos_of_ne_zero hs
  obtain ⟨hidx, hord, -⟩ := IndexedHeap.removeAt_spec h.indexed h.ordered hpos
  refine ⟨if_neg hs, ?_, fun t ht => ?_, ?_⟩
  · rw [← hheap] at hidx hord
    exact ⟨hidx, hord⟩
  · obtain ⟨i, hi, rfl⟩ := IndexedHeap.mem_elements.mp ht
    exact h.ordered.first_le hi
  · unfold timers
    rw [hheap]
    exact IndexedHeap.removeAt_elements h.indexed h.ordered hpos

theorem Heaped.erase (h : q.Heaped) {t : TimerPtr} (ht : q.Queued t) :
    ∃ q', q.minHeapErase t = .ok q' ∧ q'.Heaped ∧ q.timers = t ::ₘ q'.timers := by
  obtain ⟨i, hi, rfl⟩ := ht
  have hpos := h.indexed i hi
  obtain ⟨hidx, hord, -, hmem, -⟩ := IndexedHeap.removeAt_spec h.indexed h.ordered hi
  have hout : ∀ j < (q.timeMinHeap.removeAt q.expiration i).size,
      (q.timeMinHeap.removeAt q.expiration i).event j ≠ q.timeMinHeap.event i :=
    fun j hj => ((hmem _).mp ⟨j, hj, rfl⟩).2
  let heap := q.timeMinHeap.removeAt q.expiration i
  let q' : TimerQueue :=
    { q with
      timeMinHeap := { heap with idx := Function.update heap.idx (q.timeMinHeap.event i) (-1) } }
  refine ⟨q', ?_, ⟨fun j hj => ?_, hord⟩,
    IndexedHeap.removeAt_elements h.indexed h.ordered hi⟩
  · unfold minHeapErase
    rw [if_pos (by rw [hpos]; omega), require_bind (by omega), hpos, Int.toNat_natCast]
    rfl
  · change Function.update heap.idx (q.timeMinHeap.event i) (-1) (heap.event j) = j
    rw [Function.update_of_ne (hout j hj)]
    exact hidx j hj

theorem Heaped.assign (h : q.Heaped) {t : TimerPtr} (ht : ¬ q.Queued t) (timer : Timer) :
    Heaped { q with timer := Function.update q.timer t timer } := by
  refine ⟨h.indexed, h.ordered.congr fun u hu => congrArg Timer.expiration ?_⟩
  refine Function.update_of_ne ?_ _ _
  rintro rfl
  exact ht hu

theorem create_heaped (memory : TimerPtr → ℤ) : (create memory).Heaped :=
  ⟨(create_valid memory).indexed, (create_valid memory).ordered⟩

theorem Heaped.step (h : q.Heaped) {e : HeapEvent} (he : heapMachine.enabled q e)
    (hq : heapMachine.step q e = .ok q') : q'.Heaped := by
  cases e with
  | push t => exact Except.ok.inj hq ▸ (h.push he).1
  | pop =>
    obtain rfl := Except.ok.inj hq
    by_cases hs : q.timeMinHeap.size = 0
    · unfold minHeapPopped
      rw [if_pos hs]
      exact h
    · obtain ⟨heq, hpop, -⟩ := h.pop hs
      rw [heq]
      exact hpop
  | erase t =>
    obtain ⟨q₁, hq₁, hheaped, -⟩ := h.erase he
    exact Except.ok.inj (hq₁.symm.trans hq) ▸ hheaped
  | assign t timer => exact Except.ok.inj hq ▸ h.assign he timer

/-- Every heap built from the empty one is ordered and knows the positions of its timers; a push
adds exactly the given timer, a pop takes out and returns one that expires first, and an erasure
takes out exactly the given one. -/
theorem minHeap_correct {memory : TimerPtr → ℤ} {es : List HeapEvent} {q : TimerQueue}
    (h : heapMachine.Run Machine.Any (create memory) es q) :
    (∀ i, 0 < i → i < q.timeMinHeap.size →
      q.expiration (q.timeMinHeap.event ((i - 1) / 2)) ≤ q.expiration (q.timeMinHeap.event i)) ∧
    (∀ i < q.timeMinHeap.size, q.timeMinHeap.idx (q.timeMinHeap.event i) = i) ∧
    (∀ t, ¬ q.Queued t → (q.minHeapPush t).timers = t ::ₘ q.timers) ∧
    (q.timers = 0 → q.minHeapPopped = (none, q)) ∧
    (q.timers ≠ 0 → ∃ t q', q.minHeapPopped = (some t, q') ∧
      (∀ u ∈ q.timers, q.expiration t ≤ q.expiration u) ∧ q.timers = t ::ₘ q'.timers) ∧
    ∀ t, q.Queued t → ∃ q', q.minHeapErase t = .ok q' ∧ q.timers = t ::ₘ q'.timers := by
  have hq : q.Heaped :=
    h.invariant Heaped (create_heaped memory) fun t e u ht he _ hu => ht.step he hu
  have hsize : q.timers = 0 ↔ q.timeMinHeap.size = 0 := by
    rw [← Multiset.card_eq_zero]
    unfold timers IndexedHeap.elements
    rw [Multiset.card_map, Multiset.card_range]
  refine ⟨hq.ordered, hq.indexed, fun t ht => (hq.push ht).2, fun h0 => if_pos (hsize.mp h0),
    fun hne => ?_, fun t ht => ?_⟩
  · obtain ⟨heq, -, hfirst, htimers⟩ := hq.pop (mt hsize.mpr hne)
    exact ⟨_, _, heq, hfirst, htimers⟩
  · obtain ⟨q', hq', -, htimers⟩ := hq.erase ht
    exact ⟨q', hq', htimers⟩

instance (q : TimerQueue) : ∀ e, Decidable (heapMachine.enabled q e)
  | .push t | .assign t _ => inferInstanceAs (Decidable (¬ q.Queued t))
  | .erase t => inferInstanceAs (Decidable (q.Queued t))
  | .pop => .isTrue trivial

/-- Three timers, of which the second one expires first and the first one is erased. -/
theorem minHeap_correct_three : ∃ q, heapMachine.Run Machine.Any (create fun _ => 7)
    [.assign 0 (.create 30 0 1), .push 0, .assign 1 (.create 10 0 2), .push 1,
      .assign 2 (.create 20 1 3), .push 2, .erase 0] q ∧
    ∃ q', q.minHeapPopped = (some 1, q') ∧ q.timers = 1 ::ₘ q'.timers := by
  obtain ⟨q, hq, hp⟩ := Machine.exists_run_of_exec heapMachine Machine.Any (create fun _ => 7)
    [.assign 0 (.create 30 0 1), .push 0, .assign 1 (.create 10 0 2), .push 1,
      .assign 2 (.create 20 1 3), .push 2, .erase 0]
    (fun q => decide (q.minHeapPopped.1 = some 1 ∧ q.timeMinHeap.size = 2)) (by decide +kernel)
  obtain ⟨hfirst, hsize⟩ := of_decide_eq_true hp
  have hne : q.timers ≠ 0 := by
    rw [← Multiset.card_pos, timers, IndexedHeap.elements, Multiset.card_map, Multiset.card_range]
    omega
  obtain ⟨t, q', heq, -, htimers⟩ := (minHeap_correct hq).2.2.2.2.1 hne
  rw [heq] at hfirst
  obtain rfl : t = 1 := Option.some.inj hfirst
  exact ⟨q, hq, q', heq, htimers⟩

end MuduoWindows.Net.TimerQueue
