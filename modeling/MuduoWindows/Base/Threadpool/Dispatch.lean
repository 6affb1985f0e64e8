import MuduoWindows.Base.Threadpool.Sections

/-! # Tasks are dispatched in order, and `stop` reaches everyone who waits

Once `running_` is false nobody starts to wait. Each step of a thread of the pool brings it nearer
to its end then, and but for its tasks it needs the mutex only.
-/

namespace MuduoWindows.Base.SharedPool
open Library Net
variable {τ α : Type}

structure Dispatched (maxQueueSize : ℕ) (s : SharedPool τ α) : Prop where
  order : s.taken ++ s.pool.queue = s.puts
  limit : s.pool.maxQueueSize = maxQueueSize
  size : 0 < maxQueueSize → s.pool.queue.length ≤ maxQueueSize
  stopped : s.pool.running = false →
    s.pool.notFull.waiting = ∅ ∧ s.pool.notEmpty.waiting = ∅

variable {s u : SharedPool τ α} {t v : τ} {f : α} {choice : Option τ} {maxQueueSize : ℕ}

theorem Dispatched.frame (h : s.Dispatched maxQueueSize)
    (hlists : u.taken ++ u.pool.queue = s.taken ++ s.pool.queue ∧ u.puts = s.puts)
    (hmax : u.pool.maxQueueSize = s.pool.maxQueueSize)
    (hlength : u.pool.queue.length ≤ s.pool.queue.length)
    (hrunning : u.pool.running = false → s.pool.running = false)
    (hfull : u.pool.notFull.waiting ⊆ s.pool.notFull.waiting)
    (hempty : u.pool.notEmpty.waiting ⊆ s.pool.notEmpty.waiting) : u.Dispatched maxQueueSize := by
  refine ⟨?_, hmax.trans h.limit, fun hpos => hlength.trans (h.size hpos), fun hrun => ?_⟩
  · rw [hlists.1, hlists.2, h.order]
  · obtain ⟨hnotFull, hnotEmpty⟩ := h.stopped (hrunning hrun)
    exact ⟨Finset.subset_empty.mp (hfull.trans hnotFull.subset),
      Finset.subset_empty.mp (hempty.trans hnotEmpty.subset)⟩

variable [DecidableEq τ] {debug : Bool}

theorem start_dispatched {threads : Finset τ} :
    (start maxQueueSize threads : SharedPool τ α).Dispatched maxQueueSize :=
  ⟨rfl, rfl, fun _ => Nat.zero_le _, nofun⟩

theorem Dispatched.tested (h : s.Dispatched maxQueueSize) :
    (s.tested t f).Dispatched maxQueueSize := by
  unfold SharedPool.tested
  split_ifs with hfull
  · exact ⟨h.order, h.limit, h.size, fun hrun =>
      absurd (hfull.2.symm.trans hrun) nofun⟩
  · exact h.frame ⟨rfl, rfl⟩ rfl le_rfl id subset_rfl subset_rfl

theorem Dispatched.pushed (hs : s.Sections) (h : s.Dispatched maxQueueSize)
    (ht : s.call t = .push f) : (s.pushed t f choice).Dispatched maxQueueSize := by
  obtain ⟨horder, hmax, hsize, hstopped⟩ := h
  unfold SharedPool.pushed
  split_ifs with hrunning
  · refine ⟨?_, hmax, fun hpos => ?_, fun hrun => absurd (hrunning.symm.trans hrun) nofun⟩
    · dsimp only
      rw [← List.append_assoc, horder]
    · have hroom := hs.room t f ht hrunning
      unfold Threadpool.Full at hroom
      dsimp only
      rw [List.length_append, List.length_singleton]
      omega
  · exact ⟨horder, hmax, hsize, hstopped⟩

theorem Dispatched.take {p : Threadpool τ α} (h : s.Dispatched maxQueueSize)
    (hqueue : p.queue = s.pool.queue) (hmax : p.maxQueueSize = s.pool.maxQueueSize)
    (hrunning : p.running = s.pool.running) (hfull : p.notFull = s.pool.notFull)
    (hempty : p.notEmpty.waiting = s.pool.notEmpty.waiting) :
    (s.take p t choice).Dispatched maxQueueSize := by
  obtain ⟨f, queue, hcons, heq⟩ | ⟨-, hrun, heq⟩ | ⟨-, -, heq⟩ := s.take_cases p t choice <;>
    rw [heq]
  · have hlist : s.pool.queue = f :: queue := hqueue.symm.trans hcons
    refine h.frame ⟨?_, rfl⟩ hmax ?_ (fun hrun => hrunning ▸ hrun) ?_ hempty.subset
    · change s.taken ++ [f] ++ queue = s.taken ++ s.pool.queue
      rw [hlist, List.append_assoc, List.singleton_append]
    · change queue.length ≤ s.pool.queue.length
      rw [hlist]
      exact Nat.le_succ _
    · rw [← hfull]
      dsimp only
      split_ifs
      · exact CondVar.waiting_notify _ _
      · exact subset_rfl
  · refine ⟨?_, hmax.trans h.limit, ?_, fun hstop => absurd (hrun.symm.trans hstop) nofun⟩
    · exact (congrArg _ hqueue).trans h.order
    · exact hqueue ▸ h.size
  · exact h.frame ⟨congrArg _ hqueue, rfl⟩ hmax (congrArg _ hqueue).le (fun hrun => hrunning ▸ hrun)
      (congrArg _ hfull).subset hempty.subset

theorem Dispatched.step {e : Event τ α} (hs : s.Sections) (h : s.Dispatched maxQueueSize)
    (he : (machine debug).enabled s e) (hu : (machine debug).step s e = .ok u) :
    u.Dispatched maxQueueSize := by
  cases e with
  | run t f =>
    obtain rfl := Except.ok.inj hu
    unfold SharedPool.run
    split_ifs
    · exact h
    · exact h.frame ⟨rfl, rfl⟩ rfl le_rfl id subset_rfl subset_rfl
  | test t f =>
    obtain ⟨-, rfl⟩ := test_ok hu
    exact h.tested
  | push t f choice =>
    obtain rfl := push_ok hu
    exact h.pushed hs he.1
  | take t choice | resumeTake t choice =>
    obtain rfl := Except.ok.inj hu
    exact h.take rfl rfl rfl rfl rfl
  | wakeRun t =>
    obtain rfl := Except.ok.inj hu
    exact h.frame ⟨rfl, rfl⟩ rfl le_rfl id (Finset.erase_subset _ _) subset_rfl
  | wakeTake t =>
    obtain rfl := Except.ok.inj hu
    exact h.frame ⟨rfl, rfl⟩ rfl le_rfl id subset_rfl (Finset.erase_subset _ _)
  | stop t =>
    obtain rfl := Except.ok.inj hu
    exact ⟨h.order, h.limit, h.size, fun _ => ⟨rfl, rfl⟩⟩
  | resumeRun t f | loop t | taskDone t | unlocked t | joined t =>
    obtain rfl := Except.ok.inj hu
    exact h.frame ⟨rfl, rfl⟩ rfl le_rfl id subset_rfl subset_rfl

omit [DecidableEq τ] in
def Event.thread : Event τ α → τ
  | .run t _ | .test t _ | .push t _ _ | .resumeRun t _ | .wakeRun t | .loop t | .take t _
  | .resumeTake t _ | .wakeTake t | .taskDone t | .stop t | .unlocked t | .joined t => t

/-- How many of its own steps can bring a thread of the stopped pool to its end, a task counted
as one. -/
def rank : Worker α → ℕ
  | .take | .waits => 3
  | .task _ => 2
  | .loop => 1
  | .finished => 0

theorem rank_of_busy {w : Worker α} (h : w.Busy) : rank w = 2 := by
  cases w with
  | task f => rfl
  | loop | take | waits | finished => exact absurd h id

/-- A stopped pool puts no task, and no step brings a thread further from its end. -/
structure Later (s u : SharedPool τ α) : Prop where
  stopped : u.pool.running = false
  puts : u.puts = s.puts
  rank : ∀ t, rank (u.worker t) ≤ rank (s.worker t)

omit [DecidableEq τ] in
theorem Later.trans {w : SharedPool τ α} (h : s.Later u) (hw : u.Later w) : s.Later w :=
  ⟨hw.stopped, hw.puts.trans h.puts, fun t => (hw.rank t).trans (h.rank t)⟩

theorem later_of_update {w : Worker α} (hstop : u.pool.running = false) (hputs : u.puts = s.puts)
    (hworker : u.worker = Function.update s.worker t w) (hw : rank w ≤ rank (s.worker t)) :
    s.Later u := by
  refine ⟨hstop, hputs, fun v => ?_⟩
  rw [hworker]
  obtain rfl | hne := eq_or_ne v t
  · rwa [Function.update_self]
  · rw [Function.update_of_ne hne]

theorem take_later {p : Threadpool τ α} (hstop : p.running = false) (ht : rank (s.worker t) = 3) :
    s.Later (s.take p t choice) ∧ rank ((s.take p t choice).worker t) < rank (s.worker t) := by
  have hself : ∀ w, rank (Function.update s.worker t w t) = rank w := fun w =>
    congrArg rank (Function.update_self _ _ _)
  obtain ⟨f, queue, -, heq⟩ | ⟨-, hrun, -⟩ | ⟨-, -, heq⟩ := s.take_cases p t choice
  · rw [heq, ht]
    exact ⟨later_of_update hstop rfl rfl (by rw [ht]; simp [rank]),
      (hself _).trans_lt (by simp [rank])⟩
  · exact absurd (hrun.symm.trans hstop) nofun
  · rw [heq, ht]
    exact ⟨later_of_update hstop rfl rfl (by rw [ht]; simp [rank]),
      (hself _).trans_lt (by simp [rank])⟩

theorem later_of_step {e : Event τ α} (hstop : s.pool.running = false)
    (he : (machine debug).enabled s e) (hu : (machine debug).step s e = .ok u) : s.Later u := by
  cases e with
  | run t f =>
    obtain rfl := Except.ok.inj hu
    unfold SharedPool.run
    split_ifs <;> exact ⟨hstop, rfl, fun _ => le_rfl⟩
  | test t f =>
    obtain ⟨-, rfl⟩ := test_ok hu
    unfold tested
    split_ifs <;> exact ⟨hstop, rfl, fun _ => le_rfl⟩
  | push t f choice =>
    obtain rfl := push_ok hu
    unfold pushed
    rw [if_neg (hstop ▸ Bool.false_ne_true)]
    exact ⟨hstop, rfl, fun _ => le_rfl⟩
  | loop t =>
    obtain rfl := Except.ok.inj hu
    refine later_of_update hstop rfl rfl ?_
    rw [if_neg (hstop ▸ Bool.false_ne_true)]
    exact Nat.zero_le _
  | take t choice =>
    obtain rfl := Except.ok.inj hu
    exact (take_later hstop (congrArg rank he.1)).1
  | resumeTake t choice =>
    obtain rfl := Except.ok.inj hu
    exact (take_later (p := { s.pool with notEmpty := s.pool.notEmpty.resume t }) hstop
      (congrArg rank he.1)).1
  | taskDone t =>
    obtain rfl := Except.ok.inj hu
    refine later_of_update hstop rfl rfl ?_
    rw [rank_of_busy he.1]
    exact Nat.le_succ 1
  | resumeRun t f | wakeRun t | wakeTake t | unlocked t | joined t =>
    obtain rfl := Except.ok.inj hu
    exact ⟨hstop, rfl, fun _ => le_rfl⟩
  | stop t =>
    obtain rfl := Except.ok.inj hu
    exact ⟨rfl, rfl, fun _ => le_rfl⟩

theorem all_unblocked (hw : s.Waiting) (hd : s.Dispatched maxQueueSize)
    (hstop : s.pool.running = false) :
    (∀ t, (s.call t).Waits → t ∈ s.pool.notFull.unblocked) ∧
      ∀ t, s.worker t = .waits → t ∈ s.pool.notEmpty.unblocked := by
  obtain ⟨hfull, hempty⟩ := hd.stopped hstop
  constructor
  · intro t ht
    exact (Finset.mem_union.mp (hw.callers t ht)).resolve_left (hfull ▸ Finset.notMem_empty t)
  · intro t ht
    exact (Finset.mem_union.mp (hw.takers t ht)).resolve_left (hempty ▸ Finset.notMem_empty t)

/-- A thread of a stopped pool that runs no task can go on when the mutex is free. -/
theorem worker_goes_on (hw : s.Waiting) (hd : s.Dispatched maxQueueSize)
    (hstop : s.pool.running = false) (hfree : s.Free) (t : τ) :
    s.worker t = .finished ∨ (s.worker t).Busy ∨ ∃ e u, e.thread = t ∧
      (machine debug).enabled s e ∧ (machine debug).step s e = .ok u ∧
      rank (u.worker t) < rank (s.worker t) := by
  obtain ⟨choice, hchoice⟩ := s.pool.notFull.exists_selects
  cases ht : s.worker t with
  | finished => exact .inl rfl
  | task f => exact .inr (.inl trivial)
  | loop =>
    refine .inr (.inr ⟨.loop t, _, rfl, ht, rfl, ?_⟩)
    dsimp only
    rw [if_neg (hstop ▸ Bool.false_ne_true), Function.update_self]
    exact Nat.zero_lt_one
  | take =>
    refine .inr (.inr ⟨.take t choice, _, rfl, ⟨ht, hfree, hchoice⟩, rfl, ?_⟩)
    exact ht ▸ (take_later hstop (congrArg rank ht)).2
  | waits =>
    refine .inr (.inr ⟨.resumeTake t choice, _, rfl,
      ⟨ht, (all_unblocked hw hd hstop).2 t ht, hfree, hchoice⟩, rfl, ?_⟩)
    exact ht ▸ (take_later (p := { s.pool with notEmpty := s.pool.notEmpty.resume t }) hstop
      (congrArg rank ht)).2

theorem holder_goes_on (hs : s.Sections) (hstop : s.pool.running = false)
    (hv : s.pool.mutex.mutex = some v) : ∃ fs u, (∀ e ∈ fs, e.thread = v) ∧ fs.length ≤ 2 ∧
      (machine false).Run Machine.Any s fs u ∧ u.Free := by
  have hpush : ∀ s : SharedPool τ α, ∀ f, s.call v = .push f → s.pool.running = false →
      ∃ u e, e.thread = v ∧ (machine false).Run Machine.Any s [e] u ∧ u.Free := by
    intro s f hcall hstop
    obtain ⟨choice, hchoice⟩ := s.pool.notEmpty.exists_selects
    refine ⟨s.pushed v f choice, .push v f choice, rfl,
      .single ⟨hcall, hchoice⟩ trivial (push_eq f choice nofun), ?_⟩
    unfold pushed
    split_ifs <;> rfl
  have hholds := (hs.holder v).mpr hv
  cases hcall : s.call v with
  | idle | waits f =>
    rw [hcall] at hholds
    exact hholds.elim
  | push f =>
    obtain ⟨u, e, he, hrun, hfree⟩ := hpush s f hcall hstop
    exact ⟨[e], u, List.forall_mem_singleton.mpr he, by simp, hrun, hfree⟩
  | test f =>
    have htest : (machine false).Run Machine.Any s [.test v f] (s.tested v f) :=
      .single hcall trivial (test_eq f nofun)
    have htested : s.tested v f = { s with call := Function.update s.call v (.push f) } :=
      if_neg fun h => absurd (h.2.symm.trans hstop) nofun
    obtain ⟨u, e, he, hrun, hfree⟩ := hpush (s.tested v f) f
      (by rw [htested]; exact Function.update_self _ _ _) (by rw [htested]; exact hstop)
    have hthread : ∀ e' ∈ [.test v f, e], Event.thread e' = v :=
      List.forall_mem_cons.mpr ⟨rfl, List.forall_mem_singleton.mpr he⟩
    exact ⟨[.test v f] ++ [e], u, hthread, le_rfl, htest.append hrun, hfree⟩

/-- For any threads and any order of their steps: the tasks are taken in the order in which they
were put, into a queue that is bounded; once `stop` has cleared `running_` no task is put, everyone
who waits has been notified, and each thread that runs no task needs only the mutex, whose holder
frees it, for the next of its last steps. -/
theorem tasks_dispatched {threads : Finset τ} {es : List (Event τ α)}
    (h : (machine false).Run Machine.Any (start maxQueueSize threads) es s) :
    s.taken ++ s.pool.queue = s.puts ∧
    (0 < maxQueueSize → s.pool.queue.length ≤ maxQueueSize) ∧
    (s.pool.running = false →
      (∀ fs u, (machine false).Run Machine.Any s fs u → s.Later u) ∧
      (s.pool.notFull.waiting = ∅ ∧ s.pool.notEmpty.waiting = ∅) ∧
      ((∀ t, (s.call t).Waits → t ∈ s.pool.notFull.unblocked) ∧
        ∀ t, s.worker t = .waits → t ∈ s.pool.notEmpty.unblocked) ∧
      (s.Free → ∀ t, s.worker t = .finished ∨ (s.worker t).Busy ∨ ∃ e u, e.thread = t ∧
        (machine false).enabled s e ∧ (machine false).step s e = .ok u ∧
        rank (u.worker t) < rank (s.worker t)) ∧
      ∀ v, s.pool.mutex.mutex = some v → ∃ fs u, (∀ e ∈ fs, e.thread = v) ∧ fs.length ≤ 2 ∧
        (machine false).Run Machine.Any s fs u ∧ u.Free) := by
  obtain ⟨hs, hw, hd⟩ : s.Sections ∧ s.Waiting ∧ s.Dispatched maxQueueSize :=
    h.invariant (fun s => s.Sections ∧ s.Waiting ∧ s.Dispatched maxQueueSize)
      ⟨start_sections, start_waiting, start_dispatched⟩
      fun _ _ _ ⟨hs, hw, hd⟩ he _ hu => ⟨hs.step he hu, hw.step hu, hd.step hs he hu⟩
  refine ⟨hd.order, hd.size, fun hstop => ⟨fun fs u hrun => ?_, hd.stopped hstop,
    all_unblocked hw hd hstop, worker_goes_on hw hd hstop, fun v => holder_goes_on hs hstop⟩⟩
  exact hrun.invariant s.Later ⟨hstop, rfl, fun _ => le_rfl⟩
    fun _ _ _ ht he _ hu => ht.trans (later_of_step ht.stopped he hu)

/-- A producer waits for room when the pool is stopped: its task is not put, and the worker ends
after the task that is left. -/
theorem tasks_dispatched_stopped : ∃ s : SharedPool (Fin 3) ℕ,
    (machine false).Run Machine.Any (start 1 {0}) [.loop 0, .run 1 5, .test 1 5, .push 1 5 none,
      .run 1 6, .test 1 6, .stop 2, .take 0 none, .resumeRun 1 6, .test 1 6, .push 1 6 none,
      .taskDone 0, .loop 0, .unlocked 2, .joined 2] s ∧
    s.puts = [5] ∧ s.taken = [5] ∧ s.worker 0 = .finished ∧
    s.taken ++ s.pool.queue = s.puts ∧
    (0 < 1 → s.pool.queue.length ≤ 1) ∧
    (s.pool.running = false →
      (∀ fs u, (machine false).Run Machine.Any s fs u → s.Later u) ∧
      (s.pool.notFull.waiting = ∅ ∧ s.pool.notEmpty.waiting = ∅) ∧
      ((∀ t, (s.call t).Waits → t ∈ s.pool.notFull.unblocked) ∧
        ∀ t, s.worker t = .waits → t ∈ s.pool.notEmpty.unblocked) ∧
      (s.Free → ∀ t, s.worker t = .finished ∨ (s.worker t).Busy ∨ ∃ e u, e.thread = t ∧
        (machine false).enabled s e ∧ (machine false).step s e = .ok u ∧
        rank (u.worker t) < rank (s.worker t)) ∧
      ∀ v, s.pool.mutex.mutex = some v → ∃ fs u, (∀ e ∈ fs, e.thread = v) ∧ fs.length ≤ 2 ∧
        (machine false).Run Machine.Any s fs u ∧ u.Free) := by
  obtain ⟨s, hs, hp⟩ := Machine.exists_run_of_exec (machine false) Machine.Any
    (start 1 {0} : SharedPool (Fin 3) ℕ)
    [.loop 0, .run 1 5, .test 1 5, .push 1 5 none, .run 1 6, .test 1 6, .stop 2, .take 0 none,
      .resumeRun 1 6, .test 1 6, .push 1 6 none, .taskDone 0, .loop 0, .unlocked 2, .joined 2]
    (fun s => decide (s.puts = [5] ∧ s.taken = [5] ∧ s.worker 0 = .finished)) (by decide)
  obtain ⟨hputs, htaken, hworker⟩ := of_decide_eq_true hp
  exact ⟨s, hs, hputs, htaken, hworker, tasks_dispatched hs⟩

end MuduoWindows.Base.SharedPool
