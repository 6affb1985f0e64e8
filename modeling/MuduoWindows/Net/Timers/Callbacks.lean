import MuduoWindows.Net.Timers.TimerQueue

/-! # Timer callbacks that use the timer queue

A machine on the loop thread: the calls of the user and the loop of `expiredProcess`, cut where a
callback starts and where it returns. In between the callback makes its own calls. The counters
are kept for the statements only: `armed` counts how often a timer entered the heap, `ran` how
often its callback was called, `cancelled` collects the timers whose cancel has executed.
-/

namespace MuduoWindows.Net
open Library

/-- Where the loop thread stands: outside `expiredProcess`, before its loop test, or in the
callback of a timer. -/
inductive Phase where
  | outside
  | head (now : Timestamp)
  | calling (now : Timestamp) (t : TimerPtr)
  deriving DecidableEq

def Phase.running : Phase → Option TimerPtr
  | .calling _ t => some t
  | .outside | .head _ => none

/-- The user's code has the loop thread, so it can call the queue. -/
def Phase.mayCall : Phase → Bool
  | .outside | .calling _ _ => true
  | .head _ => false

structure TimerRun where
  queue : TimerQueue
  phase : Phase
  cancelled : Finset TimerPtr
  armed : TimerPtr → ℕ
  ran : TimerPtr → ℕ

inductive TimerEvent where
  | addTimer (when_ : Timestamp) (interval : ℚ)
  | cancel (t : TimerPtr)
  | expiredProcess (now : Timestamp)
  /-- The loop test: leave the loop or call the callback of the top. -/
  | test (now : Timestamp)
  /-- The callback of `t` returns. -/
  | finish (now : Timestamp) (t : TimerPtr)
  deriving DecidableEq

namespace TimerRun

/-- Outside `expiredProcess`, with every queued timer armed once. -/
def start (q : TimerQueue) : TimerRun :=
  { queue := q, phase := .outside, cancelled := ∅
    armed := fun t => if q.Queued t then 1 else 0
    ran := fun _ => 0 }

/-- Queued, and not because its callback has not returned yet. -/
def Waiting (s : TimerRun) (t : TimerPtr) : Prop := s.queue.Queued t ∧ s.phase.running ≠ some t

instance (s : TimerRun) (t : TimerPtr) : Decidable (s.Waiting t) :=
  inferInstanceAs (Decidable (_ ∧ _))

/-- The loop body behind the callback of `t`, where a repeating timer is armed again. -/
def finish (s : TimerRun) (now : Timestamp) (t : TimerPtr) : TimerRun :=
  { s with
    queue := s.queue.afterCallback now t
    phase := .head now
    armed := if (s.queue.timer t).repeats then Function.update s.armed t (s.armed t + 1)
      else s.armed }

def call (s : TimerRun) (now : Timestamp) (t : TimerPtr) : TimerRun :=
  { s with phase := .calling now t, ran := Function.update s.ran t (s.ran t + 1) }

def add (s : TimerRun) (when_ : Timestamp) (interval : ℚ) : TimerRun :=
  { s with
    queue := s.queue.addTimer when_ interval
    armed := Function.update s.armed s.queue.numCreated (s.armed s.queue.numCreated + 1) }

/-- The calls of the loop's thread, where `addTimer` inserts at once; that of another thread queues
the insertion, with `min_heap_idx` not yet set. `cancel` is given a timer that `addTimer` has
returned. -/
def machine : Machine TimerRun TimerEvent Fault where
  enabled s
    | .addTimer _ _ => s.phase.mayCall
    | .cancel t => s.phase.mayCall ∧ t < s.queue.numCreated
    | .expiredProcess _ => s.phase = .outside
    | .test now => s.phase = .head now
    | .finish now t => s.phase = .calling now t
  step s
    | .addTimer when_ interval => pure (s.add when_ interval)
    | .cancel t => do
      let q ← s.queue.cancelInLoop t
      pure { s with queue := q, cancelled := insert t s.cancelled }
    | .expiredProcess now => pure { s with phase := .head now }
    | .test now =>
      match s.queue.due now with
      | none => pure { s with phase := .outside }
      | some t => pure (s.call now t)
    | .finish now t => pure (s.finish now t)

instance (s : TimerRun) : ∀ e, Decidable (machine.enabled s e)
  | .addTimer _ _ => inferInstanceAs (Decidable (s.phase.mayCall = true))
  | .cancel _ => inferInstanceAs (Decidable (_ ∧ _))
  | .expiredProcess _ => inferInstanceAs (Decidable (s.phase = .outside))
  | .test _ => inferInstanceAs (Decidable (s.phase = .head _))
  | .finish _ _ => inferInstanceAs (Decidable (s.phase = .calling _ _))

/-- Callbacks cancel only timers that are queued or run at the moment. -/
def Live (s : TimerRun) : TimerEvent → Prop
  | .cancel t => s.queue.Queued t ∨ s.phase.running = some t
  | _ => True

/-- When a callback returns, its timer is on top of the heap, or it is a one-shot timer that the
callback has cancelled and the heap is empty. -/
def TopKept (s : TimerRun) : TimerEvent → Prop
  | .finish _ t => s.queue.minHeapTop = some t ∨
      t ∈ s.cancelled ∧ (s.queue.timer t).repeats = false ∧ s.queue.timeMinHeap.size = 0
  | _ => True

/-- Cancelled timers are out of the heap, every other one is called once for each time it was
armed, and when the loop ends no due timer is left. -/
structure Handled (s : TimerRun) : Prop where
  cancelled : ∀ t ∈ s.cancelled, ¬ s.queue.Queued t
  once : ∀ t, t ∉ s.cancelled → s.armed t = s.ran t + if s.Waiting t then 1 else 0
  processed : ∀ now, s.phase = .head now → s.queue.due now = none →
    ∀ t, s.queue.Queued t → now < s.queue.expiration t

/-- The invariant of runs whose callbacks keep their timer on top. -/
structure Sound (s : TimerRun) : Prop where
  valid : s.queue.Valid
  created : ∀ t ∈ s.cancelled, t < s.queue.numCreated
  cancelled : ∀ t ∈ s.cancelled, ¬ s.queue.Queued t
  running : ∀ t, s.phase.running = some t → t < s.queue.numCreated ∧
    (s.queue.Queued t ∨ t ∈ s.cancelled ∧ s.queue.timeMinHeap.idx t = -1)
  once : ∀ t, t ∉ s.cancelled → s.armed t = s.ran t + if s.Waiting t then 1 else 0

theorem Sound.handled {s : TimerRun} (h : s.Sound) : s.Handled :=
  ⟨h.cancelled, h.once, fun _ _ hdue _ ht => h.valid.not_due hdue ht⟩

variable {s : TimerRun}

theorem start_sound {q : TimerQueue} (hq : q.Valid) : (start q).Sound := by
  refine ⟨hq, ?_, ?_, ?_, ?_⟩
  · exact fun t ht => absurd ht (Finset.notMem_empty t)
  · exact fun t ht => absurd ht (Finset.notMem_empty t)
  · exact fun t ht => absurd ht (Option.some_ne_none t).symm
  · intro t _
    simp [start, Waiting, Phase.running]

theorem Sound.add (h : s.Sound) (when_ : Timestamp) (interval : ℚ) :
    (s.add when_ interval).Sound := by
  obtain ⟨hv, hqueued, hidx, -⟩ := TimerQueue.addTimer_spec h.valid when_ interval
  refine ⟨hv, fun t ht => (h.created t ht).trans (Nat.lt_succ_self _), ?_, ?_, ?_⟩
  · intro t ht hq
    rcases (hqueued t).mp hq with hq | rfl
    · exact h.cancelled t ht hq
    · exact (h.created _ ht).false
  · intro t ht
    obtain ⟨hlt, hstate⟩ := h.running t ht
    refine ⟨hlt.trans (Nat.lt_succ_self _), ?_⟩
    by_cases hq : s.queue.Queued t
    · exact .inl ((hqueued t).mpr (.inl hq))
    · have hc := hstate.resolve_left hq
      exact .inr ⟨hc.1, (hidx t hq hlt.ne).trans hc.2⟩
  · intro t ht
    have honce := h.once t ht
    by_cases hn : t = s.queue.numCreated
    · subst t
      have hidle : s.phase.running ≠ some s.queue.numCreated :=
        fun hr => (h.running _ hr).1.false
      have hbefore : ¬ s.Waiting s.queue.numCreated := fun hw => h.valid.fresh hw.1
      have hafter : (s.add when_ interval).Waiting s.queue.numCreated :=
        ⟨(hqueued _).mpr (.inr rfl), hidle⟩
      rw [if_neg hbefore] at honce
      rw [if_pos hafter]
      change Function.update s.armed _ _ s.queue.numCreated = s.ran _ + 1
      rw [Function.update_self, honce]
    · have hw : (s.add when_ interval).Waiting t ↔ s.Waiting t :=
        and_congr_left' ((hqueued t).trans (or_iff_left hn))
      change Function.update s.armed _ _ t = s.ran t + _
      rw [Function.update_of_ne hn, honce]
      simp only [hw]

theorem Sound.cancel (h : s.Sound) {t : TimerPtr}
    (hlive : s.queue.Queued t ∨ s.phase.running = some t) :
    ∃ q, s.queue.cancelInLoop t = .ok q ∧
      Sound { s with queue := q, cancelled := insert t s.cancelled } := by
  by_cases ht : s.queue.Queued t
  · obtain ⟨q, hq, hv, hqueued, hmark, hidx, -, hnum⟩ := TimerQueue.cancelInLoop_queued h.valid ht
    refine ⟨q, hq, hv, ?_, ?_, ?_, ?_⟩
    · intro u hu
      dsimp only
      rw [hnum]
      rcases Finset.mem_insert.mp hu with rfl | hu
      · exact h.valid.created u ht
      · exact h.created u hu
    · intro u hu hq
      rcases Finset.mem_insert.mp hu with rfl | hu
      · exact ((hqueued u).mp hq).2 rfl
      · exact h.cancelled u hu ((hqueued u).mp hq).1
    · intro u hu
      obtain ⟨hlt, hstate⟩ := h.running u hu
      refine ⟨hlt.trans_eq hnum.symm, ?_⟩
      by_cases hut : u = t
      · subst u
        exact .inr ⟨Finset.mem_insert_self _ _, hmark⟩
      · rcases hstate with hqu | ⟨hc, hneg⟩
        · exact .inl ((hqueued u).mpr ⟨hqu, hut⟩)
        · exact .inr ⟨Finset.mem_insert_of_mem hc, (hidx u (h.cancelled u hc)).trans hneg⟩
    · intro u hu
      have hut : u ≠ t := fun he => hu (he ▸ Finset.mem_insert_self _ _)
      have hw : Waiting { s with queue := q, cancelled := insert t s.cancelled } u ↔ s.Waiting u :=
        and_congr_left' ((hqueued u).trans (and_iff_left hut))
      simp only [hw]
      exact h.once u fun hc => hu (Finset.mem_insert_of_mem hc)
  · obtain ⟨hc, hneg⟩ := (h.running t (hlive.resolve_left ht)).2.resolve_left ht
    refine ⟨_, TimerQueue.cancelInLoop_marked hneg, ?_⟩
    rw [Finset.insert_eq_self.mpr hc]
    exact ⟨⟨h.valid.indexed, h.valid.ordered, h.valid.created⟩, h.created, h.cancelled, h.running,
      h.once⟩

theorem Sound.call (h : s.Sound) {now : Timestamp} {t : TimerPtr} (hp : s.phase = .head now)
    (ht : s.queue.due now = some t) : (s.call now t).Sound := by
  have hq := TimerQueue.queued_of_top (TimerQueue.due_eq_some.mp ht).1
  refine ⟨h.valid, h.created, h.cancelled, ?_, ?_⟩
  · intro u hu
    obtain rfl : t = u := Option.some.inj hu
    exact ⟨h.valid.created t hq, .inl hq⟩
  · intro u hu
    have honce := h.once u hu
    have hbefore : s.Waiting u ↔ s.queue.Queued u :=
      and_iff_left (by rw [hp]; exact (Option.some_ne_none u).symm)
    simp only [hbefore] at honce
    change s.armed u = Function.update s.ran t (s.ran t + 1) u + _
    by_cases hut : u = t
    · subst u
      rw [if_neg (fun hw : (s.call now t).Waiting t => hw.2 rfl), Function.update_self, honce,
        if_pos hq]
    · have hafter : (s.call now t).Waiting u ↔ s.queue.Queued u :=
        and_iff_left fun he => hut (Option.some.inj he).symm
      rw [Function.update_of_ne hut, honce]
      simp only [hafter]

theorem Sound.finish (h : s.Sound) {now : Timestamp} {t : TimerPtr}
    (hp : s.phase = .calling now t) (htop : s.queue.minHeapTop = some t) :
    (s.finish now t).Sound := by
  obtain ⟨hv, hqueued, -, -, hnum⟩ := TimerQueue.afterCallback_spec h.valid now htop
  have hq := TimerQueue.queued_of_top htop
  have hnone : ∀ u, (s.finish now t).phase.running ≠ some u :=
    fun u => (Option.some_ne_none u).symm
  refine ⟨hv, fun u hu => (h.created u hu).trans_eq hnum.symm, ?_, ?_, ?_⟩
  · exact fun u hu hqu => h.cancelled u hu ((hqueued u).mp hqu).1
  · exact fun u hu => absurd hu (hnone u)
  · intro u hu
    have honce := h.once u hu
    have hafter : (s.finish now t).Waiting u ↔
        s.queue.Queued u ∧ (u ≠ t ∨ (s.queue.timer t).repeats) :=
      (and_iff_left (hnone u)).trans (hqueued u)
    simp only [hafter]
    change (if _ then Function.update s.armed t (s.armed t + 1) else s.armed) u = s.ran u + _
    by_cases hut : u = t
    · subst u
      have hbefore : ¬ s.Waiting t := fun hw => hw.2 (by rw [hp]; rfl)
      rw [if_neg hbefore] at honce
      cases hr : (s.queue.timer t).repeats with
      | true => simp [hq, honce]
      | false => simp [honce]
    · have hbefore : s.Waiting u ↔ s.queue.Queued u :=
        and_iff_left (by rw [hp]; exact fun he => hut (Option.some.inj he).symm)
      simp only [hbefore] at honce
      have harmed : (if (s.queue.timer t).repeats then
          Function.update s.armed t (s.armed t + 1) else s.armed) u = s.armed u := by
        split_ifs
        · exact Function.update_of_ne hut _ _
        · rfl
      rw [harmed, honce]
      simp [hut]

/-- A one-shot timer that has cancelled itself in an empty heap leaves nothing to take out. -/
theorem Sound.finish_empty (h : s.Sound) {now : Timestamp} {t : TimerPtr}
    (hp : s.phase = .calling now t) (hc : t ∈ s.cancelled)
    (hr : (s.queue.timer t).repeats = false) (hempty : s.queue.timeMinHeap.size = 0) :
    (s.finish now t).Sound := by
  have hqueue : s.queue.afterCallback now t = s.queue := by
    rw [TimerQueue.afterCallback_oneShot hr]
    unfold TimerQueue.minHeapPop IndexedHeap.pop
    rw [if_pos hempty]
  have hnone : ∀ u, (s.finish now t).phase.running ≠ some u :=
    fun u => (Option.some_ne_none u).symm
  have heq : s.finish now t = { s with phase := .head now } := by
    unfold TimerRun.finish
    rw [hqueue, hr]
    rfl
  rw [heq] at hnone ⊢
  refine ⟨h.valid, h.created, h.cancelled, fun u hu => absurd hu (hnone u), ?_⟩
  intro u hu
  have hut : u ≠ t := fun he => hu (he ▸ hc)
  have hw : Waiting { s with phase := .head now } u ↔ s.Waiting u :=
    (and_iff_left (hnone u)).trans
      (and_iff_left (by rw [hp]; exact fun he => hut (Option.some.inj he).symm)).symm
  simp only [hw]
  exact h.once u hu

/-- Every possible step succeeds, keeps the invariant, and calls no cancelled timer. -/
theorem Sound.step (h : s.Sound) {e : TimerEvent} (he : machine.enabled s e) (hlive : s.Live e)
    (htop : s.TopKept e) :
    ∃ s', machine.step s e = .ok s' ∧ s'.Sound ∧ s.cancelled ⊆ s'.cancelled ∧
      ∀ t ∈ s.cancelled, s'.ran t = s.ran t := by
  cases e with
  | addTimer when_ interval => exact ⟨_, rfl, h.add when_ interval, subset_rfl, fun _ _ => rfl⟩
  | cancel t =>
    obtain ⟨q, hq, hs⟩ := h.cancel hlive
    refine ⟨_, ?_, hs, Finset.subset_insert _ _, fun _ _ => rfl⟩
    change (s.queue.cancelInLoop t >>= _) = _
    rw [hq, ok_bind, pure_eq_ok]
  | expiredProcess now =>
    have hp : s.phase = .outside := he
    refine ⟨_, rfl, ⟨h.valid, h.created, h.cancelled, ?_, ?_⟩, subset_rfl, fun _ _ => rfl⟩
    · exact fun u hu => absurd hu (Option.some_ne_none u).symm
    · intro u hu
      have honce := h.once u hu
      simpa [Waiting, Phase.running, hp] using honce
  | test now =>
    have hp : s.phase = .head now := he
    cases hdue : s.queue.due now with
    | none =>
      refine ⟨{ s with phase := .outside }, ?_, ⟨h.valid, h.created, h.cancelled, ?_, ?_⟩,
        subset_rfl, fun _ _ => rfl⟩
      · simp [machine, hdue]
      · exact fun u hu => absurd hu (Option.some_ne_none u).symm
      · intro u hu
        have honce := h.once u hu
        simpa [Waiting, Phase.running, hp] using honce
    | some t =>
      refine ⟨s.call now t, by simp [machine, hdue], h.call hp hdue, subset_rfl, ?_⟩
      intro u hu
      have hq := TimerQueue.queued_of_top (TimerQueue.due_eq_some.mp hdue).1
      have hut : u ≠ t := fun he => h.cancelled t (he ▸ hu) hq
      exact Function.update_of_ne hut _ _
  | finish now t =>
    refine ⟨_, rfl, ?_, subset_rfl, fun _ _ => rfl⟩
    rcases htop with htop | ⟨hc, hr, hempty⟩
    · exact h.finish he htop
    · exact h.finish_empty he hc hr hempty

theorem Sound.run (h : s.Sound) {es : List TimerEvent} {s' : TimerRun}
    (hrun : machine.Run (fun s e => s.Live e ∧ s.TopKept e) s es s') :
    s'.Sound ∧ s.cancelled ⊆ s'.cancelled ∧ ∀ t ∈ s.cancelled, s'.ran t = s.ran t := by
  refine hrun.invariant (fun s' => s'.Sound ∧ s.cancelled ⊆ s'.cancelled ∧
    ∀ t ∈ s.cancelled, s'.ran t = s.ran t) ⟨h, subset_rfl, fun _ _ => rfl⟩ ?_
  rintro u e v ⟨hu, hsub, hran⟩ he ⟨hlive, htop⟩ hv
  obtain ⟨w, hw, hsound, hsub', hran'⟩ := hu.step he hlive htop
  obtain rfl := Except.ok.inj (hw.symm.trans hv)
  exact ⟨hsound, hsub.trans hsub', fun t ht => (hran' t (hsub ht)).trans (hran t ht)⟩

/-- As long as each callback leaves its timer on top, callbacks may add and cancel timers: the
queue serves every timer, no cancelled timer is called again, and no call stops. -/
theorem callbacks_served {q : TimerQueue} (hq : q.Valid) {es : List TimerEvent} {s : TimerRun}
    (h : machine.Run (fun s e => s.Live e ∧ s.TopKept e) (start q) es s) :
    s.Handled ∧
      (∀ t ∈ s.cancelled, ∀ fs s', machine.Run (fun s e => s.Live e ∧ s.TopKept e) s fs s' →
        ¬ s'.queue.Queued t ∧ s'.ran t = s.ran t) ∧
      ∀ e, machine.enabled s e → s.Live e → s.TopKept e → ∃ s', machine.step s e = .ok s' := by
  have hs := ((start_sound hq).run h).1
  refine ⟨hs.handled, ?_, ?_⟩
  · intro t ht fs s' hrun
    obtain ⟨hs', hsub, hran⟩ := hs.run hrun
    exact ⟨hs'.cancelled t (hsub ht), hran t ht⟩
  · intro e he hlive htop
    obtain ⟨s', hs', -⟩ := hs.step he hlive htop
    exact ⟨s', hs'⟩

instance (s : TimerRun) : ∀ e, Decidable (s.Live e)
  | .cancel t => inferInstanceAs (Decidable (s.queue.Queued t ∨ s.phase.running = some t))
  | .addTimer _ _ | .expiredProcess _ | .test _ | .finish _ _ => .isTrue trivial

instance (s : TimerRun) : ∀ e, Decidable (s.TopKept e)
  | .finish _ t => inferInstanceAs (Decidable (s.queue.minHeapTop = some t ∨
      t ∈ s.cancelled ∧ (s.queue.timer t).repeats = false ∧ s.queue.timeMinHeap.size = 0))
  | .addTimer _ _ | .cancel _ | .expiredProcess _ | .test _ => .isTrue trivial

/-- The callback of a due timer adds a later timer and cancels another one. -/
theorem callbacks_served_later : ∃ s : TimerRun,
    machine.Run (fun s e => s.Live e ∧ s.TopKept e) (start (TimerQueue.create fun _ => 0))
      [.addTimer 5 1, .addTimer 30 0, .expiredProcess 10, .test 10, .addTimer 20 0, .cancel 1,
        .finish 10 0] s ∧ s.Handled := by
  obtain ⟨s, hs, -⟩ := Machine.exists_run_of_exec machine (fun s e => s.Live e ∧ s.TopKept e)
    (start (TimerQueue.create fun _ => 0))
    [.addTimer 5 1, .addTimer 30 0, .expiredProcess 10, .test 10, .addTimer 20 0,
      .cancel 1, .finish 10 0] (fun _ => true) (by decide +kernel)
  exact ⟨s, hs, (callbacks_served (TimerQueue.create_valid _) hs).1⟩

/-- A repeating timer that cancels itself is armed again, and a callback that adds a timer due
earlier has that timer taken out in the place of its own. -/
theorem callbacks_unserved :
    (∃ es s t, machine.Run Live (start (TimerQueue.create fun _ => 0)) es s ∧
      t ∈ s.cancelled ∧ s.queue.Queued t) ∧
    ∃ es s t, machine.Run Live (start (TimerQueue.create fun _ => 0)) es s ∧
      t ∉ s.cancelled ∧ s.armed t = 1 ∧ s.ran t = 0 ∧ ¬ s.queue.Queued t := by
  constructor
  · obtain ⟨s, hs, hp⟩ := Machine.exists_run_of_exec machine Live
      (start (TimerQueue.create fun _ => 0))
      [.addTimer 5 1, .expiredProcess 10, .test 10, .cancel 0, .finish 10 0]
      (fun s => decide (0 ∈ s.cancelled ∧ s.queue.Queued 0)) (by decide +kernel)
    exact ⟨_, s, 0, hs, of_decide_eq_true hp⟩
  · obtain ⟨s, hs, hp⟩ := Machine.exists_run_of_exec machine Live
      (start (TimerQueue.create fun _ => 0))
      [.addTimer 8 0, .expiredProcess 10, .test 10, .addTimer 5 0, .finish 10 0]
      (fun s => decide (1 ∉ s.cancelled ∧ s.armed 1 = 1 ∧ s.ran 1 = 0 ∧ ¬ s.queue.Queued 1))
      (by decide +kernel)
    exact ⟨_, s, 1, hs, of_decide_eq_true hp⟩

end TimerRun
end MuduoWindows.Net
