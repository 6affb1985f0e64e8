import MuduoWindows.Base.Threadpool.Sections

/-! # The holder that `isFull` asserts

`run` sets the holder when it takes the mutex, but not when it has it again after waiting. The
holder is right as long as nobody else sets or resets it in between.
-/

namespace MuduoWindows.Base.SharedPool
open Library Net
variable {τ α : Type}

/-- `run` and `stop` are not entered while a call of `run` waits, and `run` is not entered while
`stop` has freed the mutex and not reset the holder. -/
def Alone (s : SharedPool τ α) : Event τ α → Prop
  | .run _ _ => s.pool.threads ≠ ∅ →
    (∀ v, ¬ (s.call v).Waits) ∧ ∀ v, s.stopping ≠ .unlocking v
  | .stop _ => ∀ v, ¬ (s.call v).Waits
  | _ => True

/-- The holder is the thread whose call of `run` is not finished, or else that of `stop`. -/
structure Tracked (s : SharedPool τ α) : Prop where
  caller : ∀ t, s.call t ≠ .idle →
    s.pool.mutex.pid = some t ∧ ∀ v, s.stopping ≠ .unlocking v
  unlocking : ∀ t, s.stopping = .unlocking t → s.pool.mutex.pid = some t
  idle : (∀ t, s.call t = .idle) → (∀ t, s.stopping ≠ .unlocking t) → s.pool.mutex.pid = none

variable {s u : SharedPool τ α} {t v : τ} {f : α} {choice : Option τ}

theorem Tracked.unique (h : s.Tracked) (ht : s.call t ≠ .idle) (hne : v ≠ t) :
    s.call v = .idle := by
  by_contra hv
  exact hne (Option.some.inj ((h.caller v hv).1.symm.trans (h.caller t ht).1))

theorem Tracked.frame (h : s.Tracked) (hcall : u.call = s.call)
    (hpid : u.pool.mutex.pid = s.pool.mutex.pid)
    (hstopping : ∀ v, u.stopping = .unlocking v ↔ s.stopping = .unlocking v) : u.Tracked := by
  obtain ⟨hcaller, hunlocking, hidle⟩ := h
  constructor
  · rw [hcall, hpid]
    exact fun t ht => ⟨(hcaller t ht).1, fun v hv => (hcaller t ht).2 v ((hstopping v).mp hv)⟩
  · rw [hpid]
    exact fun t ht => hunlocking t ((hstopping t).mp ht)
  · rw [hcall, hpid]
    exact fun hcalls hnot => hidle hcalls fun t ht => hnot t ((hstopping t).mpr ht)

theorem call_eq_idle {c : Call α} (hholds : ¬ c.Holds) (hwaits : ¬ c.Waits) : c = .idle := by
  cases c with
  | idle => rfl
  | test f | push f => exact absurd trivial hholds
  | waits f => exact absurd trivial hwaits

theorem exists_of_waits {c : Call α} (h : c.Waits) : ∃ f, c = .waits f := by
  cases c with
  | waits f => exact ⟨f, rfl⟩
  | idle | test f | push f => exact absurd h id

variable [DecidableEq τ] {debug : Bool}

theorem start_tracked {maxQueueSize : ℕ} {threads : Finset τ} :
    (start maxQueueSize threads : SharedPool τ α).Tracked :=
  ⟨fun _ h => absurd rfl h, nofun, fun _ _ => rfl⟩

theorem tracked_of_update {c : Call α} (hothers : ∀ v, v ≠ t → s.call v = .idle)
    (hstopping : ∀ v, u.stopping ≠ .unlocking v) (hcall : u.call = Function.update s.call t c)
    (hpid : c ≠ .idle ∧ u.pool.mutex.pid = some t ∨ c = .idle ∧ u.pool.mutex.pid = none) :
    u.Tracked := by
  have ht : u.call t = c := by rw [hcall, Function.update_self]
  constructor
  · intro v hv
    obtain rfl | hne := eq_or_ne v t
    · refine ⟨?_, hstopping⟩
      rw [ht] at hv
      exact (hpid.resolve_right fun hc => hv hc.1).2
    · rw [hcall, Function.update_of_ne hne] at hv
      exact absurd (hothers v hne) hv
  · exact fun v hv => absurd hv (hstopping v)
  · intro hidle _
    exact (hpid.resolve_left fun hc => hc.1 (ht.symm.trans (hidle t))).2

theorem Tracked.step {e : Event τ α} (hs : s.Sections) (h : s.Tracked)
    (he : (machine debug).enabled s e) (hp : s.Alone e) (hu : (machine debug).step s e = .ok u) :
    u.Tracked := by
  cases e with
  | run t f =>
    obtain rfl := Except.ok.inj hu
    unfold SharedPool.run
    split_ifs with hthreads
    · exact h
    · obtain ⟨hwaits, hstopping⟩ := hp hthreads
      exact tracked_of_update (fun v _ => call_eq_idle (hs.free he.2 v) (hwaits v)) hstopping rfl
        (.inl ⟨nofun, rfl⟩)
  | test t f =>
    obtain ⟨-, rfl⟩ := test_ok hu
    have hne : s.call t ≠ .idle := by rw [show s.call t = _ from he]; nofun
    obtain ⟨hpid, hstopping⟩ := h.caller t hne
    have hothers := fun v hv => h.unique (v := v) hne hv
    unfold tested
    split_ifs <;> exact tracked_of_update hothers hstopping rfl (.inl ⟨nofun, hpid⟩)
  | push t f choice =>
    obtain rfl := push_ok hu
    have hne : s.call t ≠ .idle := by rw [he.1]; nofun
    obtain ⟨-, hstopping⟩ := h.caller t hne
    have hothers := fun v hv => h.unique (v := v) hne hv
    unfold pushed
    split_ifs <;> exact tracked_of_update hothers hstopping rfl (.inr ⟨rfl, rfl⟩)
  | resumeRun t f =>
    obtain rfl := Except.ok.inj hu
    have hne : s.call t ≠ .idle := by rw [he.1]; nofun
    obtain ⟨hpid, hstopping⟩ := h.caller t hne
    exact tracked_of_update (fun v hv => h.unique hne hv) hstopping rfl (.inl ⟨nofun, hpid⟩)
  | take t choice | resumeTake t choice =>
    obtain rfl := Except.ok.inj hu
    obtain ⟨hcall, hstopping, -, hmutex, -⟩ := s.take_frame _ t choice
    exact h.frame hcall (congrArg _ hmutex) fun _ => Eq.congr hstopping rfl
  | stop t =>
    obtain rfl := Except.ok.inj hu
    have hidle : ∀ v, s.call v = .idle := fun v => call_eq_idle (hs.free he.2.2.1 v) (hp v)
    exact ⟨fun v hv => absurd (hidle v) hv, fun v hv => congrArg some (Stopping.unlocking.inj hv),
      fun _ hv => absurd rfl (hv t)⟩
  | unlocked t =>
    obtain rfl := Except.ok.inj hu
    refine ⟨fun v hv => absurd he ((h.caller v hv).2 t), nofun, fun _ _ => rfl⟩
  | joined t =>
    obtain rfl := Except.ok.inj hu
    exact h.frame rfl rfl fun v => ⟨nofun, fun hv => absurd (he.1.symm.trans hv) nofun⟩
  | wakeRun t | loop t | wakeTake t | taskDone t =>
    obtain rfl := Except.ok.inj hu
    exact h.frame rfl rfl fun _ => Iff.rfl

/-- In runs where nobody enters `run` or `stop` at a bad time, whoever evaluates `isFull` holds the
mutex and is its holder, no assertion fails, and with no call of `run` under way there is a holder
only between the two halves of `mutex_.unlock()` in `stop`. -/
theorem holder_tracked {maxQueueSize : ℕ} {threads : Finset τ} {es : List (Event τ α)}
    (h : (machine true).Run Alone (start maxQueueSize threads) es s) :
    (∀ t f, s.call t = .test f ∨ s.call t = .push f →
      s.pool.mutex.mutex = some t ∧ s.pool.mutex.pid = some t) ∧
    (∀ e, (machine true).enabled s e → ∃ u, (machine true).step s e = .ok u) ∧
    ((∀ t, s.call t = .idle) →
      (s.pool.mutex.pid = none ↔ ∀ t, s.stopping ≠ .unlocking t)) := by
  obtain ⟨hs, ht⟩ : s.Sections ∧ s.Tracked :=
    h.invariant (fun s => s.Sections ∧ s.Tracked) ⟨start_sections, start_tracked⟩
      fun _ _ _ ht he hp hu => ⟨ht.1.step he hu, ht.2.step ht.1 he hp hu⟩
  have hin : ∀ t f, s.call t = .test f ∨ s.call t = .push f →
      s.pool.mutex.mutex = some t ∧ s.pool.mutex.pid = some t := by
    rintro t f (hcall | hcall)
    all_goals
      refine ⟨(hs.holder t).mp (hcall ▸ trivial), (ht.caller t ?_).1⟩
      rw [hcall]
      nofun
  refine ⟨hin, fun e he => ?_, fun hidle => ⟨fun hpid v hv => ?_, ht.idle hidle⟩⟩
  · cases e with
    | test t f => exact ⟨_, test_eq f fun _ => (hin t f (.inl he)).2⟩
    | push t f choice =>
      exact ⟨_, push_eq f choice fun hrun _ => ⟨(hin t f (.inr he.1)).2, hs.room t f he.1 hrun⟩⟩
    | run t f | resumeRun t f | wakeRun t | loop t | take t choice | resumeTake t choice
    | wakeTake t | taskDone t | stop t | unlocked t | joined t => exact ⟨_, rfl⟩
  · exact Option.some_ne_none v ((ht.unlocking v hv).symm.trans hpid)

instance [Fintype τ] (s : SharedPool τ α) : ∀ e, Decidable (s.Alone e)
  | .run _ _ => inferInstanceAs (Decidable (_ ≠ _ → (∀ v, ¬ (s.call v).Waits) ∧
      ∀ v, s.stopping ≠ .unlocking v))
  | .stop _ => inferInstanceAs (Decidable (∀ v, ¬ (s.call v).Waits))
  | .test _ _ | .push _ _ _ | .resumeRun _ _ | .wakeRun _ | .loop _ | .take _ _ | .resumeTake _ _
  | .wakeTake _ | .taskDone _ | .unlocked _ | .joined _ => .isTrue trivial

/-- One producer fills a queue of one and waits, goes on when its task is taken, and the pool is
stopped. -/
theorem holder_tracked_one : ∃ s : SharedPool (Fin 3) ℕ,
    (machine true).Run Alone (start 1 {0})
      [.run 1 5, .test 1 5, .push 1 5 none, .run 1 6, .test 1 6, .loop 0, .take 0 (some 1),
        .resumeRun 1 6, .test 1 6, .push 1 6 none, .stop 2] s ∧
    s.puts = [5, 6] ∧ s.pool.mutex.pid = some 2 ∧
    (∀ t f, s.call t = .test f ∨ s.call t = .push f →
      s.pool.mutex.mutex = some t ∧ s.pool.mutex.pid = some t) ∧
    (∀ e, (machine true).enabled s e → ∃ u, (machine true).step s e = .ok u) ∧
    ((∀ t, s.call t = .idle) →
      (s.pool.mutex.pid = none ↔ ∀ t, s.stopping ≠ .unlocking t)) := by
  obtain ⟨s, hs, hp⟩ := Machine.exists_run_of_exec (machine true) Alone
    (start 1 {0} : SharedPool (Fin 3) ℕ)
    [.run 1 5, .test 1 5, .push 1 5 none, .run 1 6, .test 1 6, .loop 0, .take 0 (some 1),
      .resumeRun 1 6, .test 1 6, .push 1 6 none, .stop 2]
    (fun s => decide (s.puts = [5, 6] ∧ s.pool.mutex.pid = some 2)) (by decide)
  obtain ⟨hputs, hpid⟩ := of_decide_eq_true hp
  exact ⟨s, hs, hputs, hpid, holder_tracked hs⟩

/-- A second producer runs into the full queue and waits as well; the first one goes on and finds
the second one as the holder. -/
theorem holder_overwritten : ∃ s : SharedPool (Fin 3) ℕ,
    (machine true).Run Machine.Any (start 1 {0}) [.run 1 5, .test 1 5, .push 1 5 none, .run 1 6,
      .test 1 6, .run 2 7, .test 2 7, .loop 0, .take 0 (some 1), .resumeRun 1 6] s ∧
    (machine true).enabled s (.test 1 6) ∧
    (machine true).step s (.test 1 6) =
      .error (.assertion "mutex_.isLockedByCurrentThread()") :=
  Machine.exists_fault_of_exec (machine true) Machine.Any
    (start 1 {0} : SharedPool (Fin 3) ℕ)
    [.run 1 5, .test 1 5, .push 1 5 none, .run 1 6, .test 1 6, .run 2 7, .test 2 7, .loop 0,
      .take 0 (some 1), .resumeRun 1 6]
    (.test 1 6) (.assertion "mutex_.isLockedByCurrentThread()") (by decide)

theorem test_fails (f : α) (h : s.pool.mutex.pid ≠ some t) :
    s.test true t f = .error (.assertion "mutex_.isLockedByCurrentThread()") := by
  have hisFull : s.pool.isFull true t =
      .error (.assertion "mutex_.isLockedByCurrentThread()") := by
    have hholder : ¬ s.pool.mutex.isLockedByCurrentThread t := h
    change (require _ _ >>= _) = _
    rw [require_false hholder, error_bind]
  unfold test Threadpool.test
  rw [hisFull, error_bind, error_bind]

/-- The assertion fails in a run that goes on from this state. -/
def Fails (s : SharedPool τ α) : Prop :=
  ∃ fs v e, (machine true).Run Machine.Any s fs v ∧ (machine true).enabled v e ∧
    (machine true).step v e = .error (.assertion "mutex_.isLockedByCurrentThread()")

theorem fails_of_test (hcall : s.call t = .test f) (hpid : s.pool.mutex.pid ≠ some t) : s.Fails :=
  ⟨[], s, .test t f, .nil, hcall, test_fails f hpid⟩

theorem Fails.of_step (e : Event τ α) (he : (machine true).enabled s e)
    (hu : (machine true).step s e = .ok u) (h : u.Fails) : s.Fails := by
  obtain ⟨fs, v, e', hrun, he', hstep⟩ := h
  exact ⟨e :: fs, v, e', .cons he trivial hu hrun, he', hstep⟩

theorem unblocked_fails (hcall : s.call v = .waits f) (hv : v ∈ s.pool.notFull.unblocked)
    (hfree : s.Free) (hpid : s.pool.mutex.pid ≠ some v) : s.Fails :=
  .of_step (.resumeRun v f) ⟨hcall, hv, hfree⟩ rfl
    (fails_of_test (f := f) (Function.update_self _ _ _) hpid)

/-- A call that waits fails when it goes on, unless its thread is still the holder. -/
theorem waiting_fails (hcall : s.call v = .waits f) (hv : v ∈ s.pool.notFull.threads)
    (hfree : s.Free) (hpid : s.pool.mutex.pid ≠ some v) : s.Fails := by
  obtain hblocked | hv := Finset.mem_union.mp hv
  · refine .of_step (.wakeRun v) hblocked rfl (unblocked_fails hcall ?_ hfree hpid)
    exact Finset.mem_union_right _ (Finset.mem_insert_self _ _)
  · exact unblocked_fails hcall hv hfree hpid

theorem overtaken_fails {g : α} (hs : s.Sections) (hcall : s.call t = .test f)
    (hpid : s.pool.mutex.pid = some t) (hwaits : s.call v = .waits g)
    (hv : v ∈ s.pool.notFull.threads) : s.Fails := by
  have hne : v ≠ t := by
    rintro rfl
    exact absurd (hwaits.symm.trans hcall) nofun
  refine .of_step (.test t f) hcall (test_eq f fun _ => hpid) ?_
  have hroom := (hs.tested hcall).room t
  unfold tested at hroom ⊢
  split_ifs at hroom ⊢ with hfull
  · refine waiting_fails ((Function.update_of_ne hne _ _).trans hwaits)
      (CondVar.subset_threads_wait _ _ (Finset.mem_insert_of_mem hv)) rfl fun h => ?_
    exact hne (Option.some.inj (hpid.symm.trans h)).symm
  · obtain ⟨choice, hchoice⟩ := s.pool.notEmpty.exists_selects
    have hpush : Function.update s.call t (.push f) t = .push f := Function.update_self _ _ _
    refine .of_step (.push t f choice) ⟨hpush, hchoice⟩
      (push_eq f choice fun hrunning _ => ⟨hpid, hroom f hpush hrunning⟩) ?_
    have hlast : ∀ c, Function.update (Function.update s.call t (.push f)) t c v = .waits g :=
      fun c => by rw [Function.update_of_ne hne, Function.update_of_ne hne, hwaits]
    unfold pushed
    split_ifs <;> exact waiting_fails (hlast _) hv rfl nofun

theorem entered_fails {P : SharedPool τ α → Event τ α → Prop} {maxQueueSize : ℕ}
    {threads : Finset τ} {es : List (Event τ α)} {e : Event τ α}
    (h : (machine true).Run P (start maxQueueSize threads) es s)
    (he : (machine true).enabled s e) (hp : ¬ s.Alone e) : s.Fails := by
  obtain ⟨hs, hw⟩ : s.Sections ∧ s.Waiting :=
    h.invariant (fun s => s.Sections ∧ s.Waiting) ⟨start_sections, start_waiting⟩
      fun _ _ _ ht he _ hu => ⟨ht.1.step he hu, ht.2.step hu⟩
  cases e with
  | run t f =>
    obtain ⟨hthreads, hp⟩ := Classical.not_imp.mp hp
    refine .of_step (.run t f) he (congrArg Except.ok (if_neg hthreads)) ?_
    have hrun : (machine true).step s (.run t f) = .ok _ := congrArg Except.ok (if_neg hthreads)
    have hs' := hs.step he hrun
    by_cases hwaits : ∀ v, ¬ (s.call v).Waits
    · obtain ⟨v, hv⟩ := not_forall_not.mp fun h => hp ⟨hwaits, h⟩
      refine .of_step (.unlocked v) hv rfl (fails_of_test (t := t) (f := f) ?_ nofun)
      exact Function.update_self _ _ _
    · obtain ⟨v, hv⟩ := not_forall_not.mp hwaits
      obtain ⟨g, hg⟩ := exists_of_waits hv
      have hne : v ≠ t := by
        rintro rfl
        exact absurd (hg.symm.trans he.1.1) nofun
      exact overtaken_fails hs' (Function.update_self _ _ _) rfl
        ((Function.update_of_ne hne _ _).trans hg) (hw.callers v hv)
  | stop t =>
    obtain ⟨v, hv⟩ := not_forall_not.mp hp
    obtain ⟨g, hg⟩ := exists_of_waits hv
    have hne : v ≠ t := by
      rintro rfl
      exact absurd (hg.symm.trans he.1.1) nofun
    refine .of_step (.stop t) he rfl (waiting_fails hg ?_ rfl fun h => ?_)
    · exact (CondVar.threads_notifyAll _).ge (hw.callers v hv)
    · exact hne (Option.some.inj h).symm
  | test t f | push t f choice | resumeRun t f | wakeRun t | loop t | take t choice
  | resumeTake t choice | wakeTake t | taskDone t | unlocked t | joined t => exact absurd trivial hp

end MuduoWindows.Base.SharedPool
