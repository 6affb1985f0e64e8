import MuduoWindows.Net.Timers.Callbacks

/-! # Cancelling timers that are not queued

`min_heap_erase` recognises a queued timer by its stored position. Runs whose callbacks leave the
queue alone keep the positions exact as long as only repeating timers fire: `min_heap_pop` does
not mark the timer it takes out.
-/

namespace MuduoWindows.Net.TimerRun
open Library

def Quiet (s : TimerRun) : TimerEvent → Prop
  | .addTimer _ _ | .cancel _ => s.phase = .outside
  | _ => True

def Repeating (s : TimerRun) : TimerEvent → Prop
  | .finish _ t => (s.queue.timer t).repeats
  | _ => True

/-- The stored positions are exact: that of a queued timer is its place in the heap, that of any
other timer is -1. -/
structure Marked (q : TimerQueue) : Prop where
  queued : ∀ i < q.timeMinHeap.size, q.timeMinHeap.idx (q.timeMinHeap.event i) = i
  dead : ∀ t < q.numCreated, ¬ q.Queued t → q.timeMinHeap.idx t = -1

/-- The invariant of these runs: the timer that runs stays on top. -/
structure Exact (s : TimerRun) : Prop where
  valid : s.queue.Valid
  dead : ∀ t < s.queue.numCreated, ¬ s.queue.Queued t → s.queue.timeMinHeap.idx t = -1
  running : ∀ now t, s.phase = .calling now t → s.queue.minHeapTop = some t

variable {s : TimerRun}

theorem Exact.marked (h : s.Exact) : Marked s.queue := ⟨h.valid.indexed, h.dead⟩

theorem start_exact (memory : TimerPtr → ℤ) : (start (TimerQueue.create memory)).Exact := by
  refine ⟨TimerQueue.create_valid memory, ?_, ?_⟩
  · exact fun t ht => absurd ht (Nat.not_lt_zero t)
  · intro now t ht
    cases ht

/-- A timer is either taken out of the heap and marked, or it was marked before. -/
theorem Exact.cancelInLoop (h : s.Exact) {t : TimerPtr} (ht : t < s.queue.numCreated) :
    ∃ q, s.queue.cancelInLoop t = .ok q ∧ q.Valid ∧ q.numCreated = s.queue.numCreated ∧
      ∀ u < q.numCreated, ¬ q.Queued u → q.timeMinHeap.idx u = -1 := by
  by_cases hq : s.queue.Queued t
  · obtain ⟨q, hok, hv, hqueued, hmark, hidx, -, hnum⟩ :=
      TimerQueue.cancelInLoop_queued h.valid hq
    refine ⟨q, hok, hv, hnum, fun u hu hdead => ?_⟩
    by_cases hut : u = t
    · rw [hut, hmark]
    · have hold : ¬ s.queue.Queued u := fun hqu => hdead ((hqueued u).mpr ⟨hqu, hut⟩)
      exact (hidx u hold).trans (h.dead u (hu.trans_eq hnum) hold)
  · exact ⟨_, TimerQueue.cancelInLoop_marked (h.dead t ht hq),
      ⟨h.valid.indexed, h.valid.ordered, h.valid.created⟩, rfl, h.dead⟩

theorem Exact.add (h : s.Exact) (hp : s.phase = .outside) (when_ : Timestamp) (interval : ℚ) :
    (s.add when_ interval).Exact := by
  obtain ⟨hv, hqueued, hidx, -⟩ := TimerQueue.addTimer_spec h.valid when_ interval
  refine ⟨hv, ?_, ?_⟩
  · intro t ht hdead
    have hold : ¬ s.queue.Queued t := fun hq => hdead ((hqueued t).mpr (.inl hq))
    have hne : t ≠ s.queue.numCreated := fun he => hdead ((hqueued t).mpr (.inr he))
    have hlt : t < s.queue.numCreated + 1 := ht
    exact (hidx t hold hne).trans (h.dead t (by omega) hold)
  · intro now t ht
    have hcall : s.phase = .calling now t := ht
    rw [hp] at hcall
    cases hcall

theorem Exact.finish (h : s.Exact) {now : Timestamp} {t : TimerPtr}
    (hp : s.phase = .calling now t) (hr : (s.queue.timer t).repeats) : (s.finish now t).Exact := by
  obtain ⟨hv, hqueued, hidx, -, hnum⟩ :=
    TimerQueue.afterCallback_spec h.valid now (h.running now t hp)
  refine ⟨hv, ?_, ?_⟩
  · intro u hu hdead
    have hold : ¬ s.queue.Queued u := fun hq => hdead ((hqueued u).mpr ⟨hq, .inr hr⟩)
    exact (hidx u hold).trans (h.dead u (hu.trans_eq hnum) hold)
  · intro now' u hu
    cases hu

theorem Exact.step (h : s.Exact) {e : TimerEvent} (he : machine.enabled s e) (hquiet : s.Quiet e)
    (hrep : s.Repeating e) : ∃ s', machine.step s e = .ok s' ∧ s'.Exact := by
  cases e with
  | addTimer when_ interval => exact ⟨_, rfl, h.add hquiet when_ interval⟩
  | cancel t =>
    have hp : s.phase = .outside := hquiet
    obtain ⟨q, hq, hv, hnum, hdead⟩ := h.cancelInLoop he.2
    refine ⟨{ s with queue := q, cancelled := insert t s.cancelled }, ?_, hv, hdead, ?_⟩
    · change (s.queue.cancelInLoop t >>= _) = _
      rw [hq, ok_bind, pure_eq_ok]
    · intro now u hu
      rw [show _ = _ from hp] at hu
      cases hu
  | expiredProcess now =>
    refine ⟨_, rfl, h.valid, h.dead, ?_⟩
    intro now' t ht
    cases ht
  | test now =>
    cases hdue : s.queue.due now with
    | none =>
      refine ⟨{ s with phase := .outside }, by simp [machine, hdue], h.valid, h.dead, ?_⟩
      intro now' t ht
      cases ht
    | some t =>
      refine ⟨s.call now t, by simp [machine, hdue], h.valid, h.dead, ?_⟩
      intro now' u hu
      cases hu
      exact (TimerQueue.due_eq_some.mp hdue).1
  | finish now t => exact ⟨_, rfl, h.finish he hrep⟩

theorem Exact.run (h : s.Exact) {es : List TimerEvent} {s' : TimerRun}
    (hrun : machine.Run (fun s e => s.Quiet e ∧ s.Repeating e) s es s') : s'.Exact := by
  refine hrun.invariant Exact h ?_
  rintro u e v hu he ⟨hquiet, hrep⟩ hv
  obtain ⟨w, hw, hexact⟩ := hu.step he hquiet hrep
  obtain rfl := Except.ok.inj (hw.symm.trans hv)
  exact hexact

/-- As long as only repeating timers fire, the positions are exact, cancelling a timer that is
not queued leaves the heap as it is, and no cancel reaches outside the array. -/
theorem cancel_dead {memory : TimerPtr → ℤ} {es : List TimerEvent} {s : TimerRun}
    (h : machine.Run (fun s e => s.Quiet e ∧ s.Repeating e)
      (start (TimerQueue.create memory)) es s) :
    Marked s.queue ∧
      (∀ t < s.queue.numCreated, ¬ s.queue.Queued t →
        ∃ q, s.queue.cancelInLoop t = .ok q ∧ q.timeMinHeap = s.queue.timeMinHeap) ∧
      ∀ t < s.queue.numCreated, ∃ q, s.queue.cancelInLoop t = .ok q := by
  have hexact := (start_exact memory).run h
  refine ⟨hexact.marked, ?_, ?_⟩
  · intro t ht hq
    exact ⟨_, TimerQueue.cancelInLoop_marked (hexact.dead t ht hq), rfl⟩
  · intro t ht
    obtain ⟨q, hq, -⟩ := hexact.cancelInLoop ht
    exact ⟨q, hq⟩

instance (s : TimerRun) : ∀ e, Decidable (s.Quiet e)
  | .addTimer _ _ | .cancel _ => inferInstanceAs (Decidable (s.phase = .outside))
  | .expiredProcess _ | .test _ | .finish _ _ => .isTrue trivial

instance (s : TimerRun) : ∀ e, Decidable (s.Repeating e)
  | .finish _ t => inferInstanceAs (Decidable ((s.queue.timer t).repeats = true))
  | .addTimer _ _ | .cancel _ | .expiredProcess _ | .test _ => .isTrue trivial

/-- A repeating timer fires while another one has been cancelled before. -/
theorem cancel_dead_repeating : ∃ s : TimerRun,
    machine.Run (fun s e => s.Quiet e ∧ s.Repeating e) (start (TimerQueue.create fun _ => 7))
      [.addTimer 5 1, .addTimer 20 0, .cancel 1, .expiredProcess 10, .test 10, .finish 10 0,
        .test 10] s ∧
      ∃ q, s.queue.cancelInLoop 1 = .ok q ∧ q.timeMinHeap = s.queue.timeMinHeap := by
  obtain ⟨s, hs, hp⟩ := Machine.exists_run_of_exec machine
    (fun s e => s.Quiet e ∧ s.Repeating e) (start (TimerQueue.create fun _ => 7))
    [.addTimer 5 1, .addTimer 20 0, .cancel 1, .expiredProcess 10, .test 10, .finish 10 0,
      .test 10] (fun s => decide (1 < s.queue.numCreated ∧ ¬ s.queue.Queued 1))
    (by decide +kernel)
  obtain ⟨hlt, hq⟩ := of_decide_eq_true hp
  exact ⟨s, hs, (cancel_dead hs).2.1 1 hlt hq⟩

/-- Cancelling a one-shot timer that has fired takes another timer out of the heap; with an empty
heap it reaches outside the array. -/
theorem cancel_dead_fired :
    (∃ es s t, machine.Run Quiet (start (TimerQueue.create fun _ => 0)) es s ∧
      t < s.queue.numCreated ∧ ¬ s.queue.Queued t ∧ s.queue.timeMinHeap.idx t ≠ -1 ∧
      ∃ u q, s.queue.Queued u ∧ s.queue.cancelInLoop t = .ok q ∧ ¬ q.Queued u) ∧
    ∃ es s t, machine.Run Quiet (start (TimerQueue.create fun _ => 0)) es s ∧
      t < s.queue.numCreated ∧ ¬ s.queue.Queued t ∧
      s.queue.cancelInLoop t = .error (.outOfBounds "s->event[--(s->size)]") := by
  constructor
  · obtain ⟨s, hs, hp⟩ := Machine.exists_run_of_exec machine Quiet
      (start (TimerQueue.create fun _ => 0))
      [.addTimer 5 0, .addTimer 20 0, .expiredProcess 10, .test 10, .finish 10 0,
        .test 10]
      (fun s => match s.queue.cancelInLoop 0 with
        | .ok q => decide (0 < s.queue.numCreated ∧ ¬ s.queue.Queued 0 ∧
            s.queue.timeMinHeap.idx 0 ≠ -1 ∧ s.queue.Queued 1 ∧ ¬ q.Queued 1)
        | .error _ => false) (by decide +kernel)
    cases hq : s.queue.cancelInLoop 0 with
    | error fault => simp [hq] at hp
    | ok q =>
      rw [hq] at hp
      obtain ⟨hlt, hdead, hidx, hother, hlost⟩ := of_decide_eq_true hp
      exact ⟨_, s, 0, hs, hlt, hdead, hidx, 1, q, hother, hq, hlost⟩
  · obtain ⟨s, hs, hp⟩ := Machine.exists_run_of_exec machine Quiet
      (start (TimerQueue.create fun _ => 0))
      [.addTimer 5 0, .expiredProcess 10, .test 10, .finish 10 0, .test 10]
      (fun s => decide (0 < s.queue.numCreated ∧ ¬ s.queue.Queued 0 ∧
        s.queue.timeMinHeap.idx 0 ≠ -1 ∧ s.queue.timeMinHeap.size = 0)) (by decide +kernel)
    obtain ⟨hlt, hdead, hidx, hsize⟩ := of_decide_eq_true hp
    refine ⟨_, s, 0, hs, hlt, hdead, ?_⟩
    unfold TimerQueue.cancelInLoop TimerQueue.minHeapErase
    rw [if_pos hidx, require_false (by simpa using hsize)]
    rfl

end MuduoWindows.Net.TimerRun
