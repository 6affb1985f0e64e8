import MuduoWindows.Base.Threadpool

/-! # The critical sections of `run` exclude each other

Whoever waits in `run` or `take` is inside its condition variable.
-/

namespace MuduoWindows.Base.SharedPool
open Library Net
variable {τ α : Type}

/-- The mutex is held by the call of `run` that is in its critical section, and there is room in the
queue once it has left its loop. -/
structure Sections (s : SharedPool τ α) : Prop where
  holder : ∀ t, (s.call t).Holds ↔ s.pool.mutex.mutex = some t
  room : ∀ t f, s.call t = .push f → s.pool.running → ¬ s.pool.Full

variable {s u : SharedPool τ α} {t v : τ} {f : α} {choice : Option τ}

theorem Sections.free (h : s.Sections) (hfree : s.Free) (t : τ) : ¬ (s.call t).Holds := fun ht =>
  Option.some_ne_none t (((h.holder t).mp ht).symm.trans hfree)

theorem Sections.unique (h : s.Sections) (ht : (s.call t).Holds) (hne : v ≠ t) :
    ¬ (s.call v).Holds := fun hv =>
  hne (Option.some.inj (((h.holder v).mp hv).symm.trans ((h.holder t).mp ht)))

/-- A step that changes no call and no holder keeps the invariant if it leaves the room. -/
theorem Sections.frame (h : s.Sections) (hcall : u.call = s.call)
    (hmutex : u.pool.mutex.mutex = s.pool.mutex.mutex)
    (hroom : u.pool.running → s.pool.running ∧ (u.pool.Full → s.pool.Full)) : u.Sections := by
  constructor
  · intro t
    rw [hcall, hmutex]
    exact h.holder t
  · intro t f ht hrunning hfull
    rw [hcall] at ht
    obtain ⟨hrun, hback⟩ := hroom hrunning
    exact h.room t f ht hrun (hback hfull)

variable [DecidableEq τ] {debug : Bool}

theorem start_sections {maxQueueSize : ℕ} {threads : Finset τ} :
    (start maxQueueSize threads : SharedPool τ α).Sections :=
  ⟨fun _ => ⟨False.elim, nofun⟩, nofun⟩

theorem sections_of_update {c : Call α} (hothers : ∀ v, v ≠ t → ¬ (s.call v).Holds)
    (hcall : u.call = Function.update s.call t c)
    (hmutex : c.Holds ∧ u.pool.mutex.mutex = some t ∨ ¬ c.Holds ∧ u.pool.mutex.mutex = none)
    (hroom : ∀ f, c = .push f → u.pool.running → ¬ u.pool.Full) : u.Sections := by
  have hv : ∀ v, v ≠ t → u.call v = s.call v := by
    intro v hne
    rw [hcall, Function.update_of_ne hne]
  have ht : u.call t = c := by rw [hcall, Function.update_self]
  constructor
  · intro v
    obtain rfl | hne := eq_or_ne v t
    · rw [ht]
      obtain ⟨hc, hmutex⟩ | ⟨hc, hmutex⟩ := hmutex <;> simp [hc, hmutex]
    · rw [hv v hne, iff_false_left (hothers v hne)]
      obtain ⟨-, hmutex⟩ | ⟨-, hmutex⟩ := hmutex <;> simp [hmutex, hne.symm]
  · intro v f hpush
    obtain rfl | hne := eq_or_ne v t
    · exact hroom f (ht.symm.trans hpush)
    · rw [hv v hne] at hpush
      exact absurd (hpush ▸ trivial) (hothers v hne)

theorem Sections.tested (h : s.Sections) (ht : s.call t = .test f) : (s.tested t f).Sections := by
  have hholds : (s.call t).Holds := ht ▸ trivial
  have hothers := fun v hne => h.unique (v := v) hholds hne
  unfold SharedPool.tested
  split_ifs with hfull
  · exact sections_of_update hothers rfl (.inr ⟨id, rfl⟩) nofun
  · refine sections_of_update hothers rfl (.inl ⟨trivial, (h.holder t).mp hholds⟩) ?_
    exact fun _ _ hrunning hf => hfull ⟨hf, hrunning⟩

theorem Sections.pushed (h : s.Sections) (ht : s.call t = .push f) :
    (s.pushed t f choice).Sections := by
  have hothers := fun v hne => h.unique (t := t) (v := v) (ht ▸ trivial) hne
  unfold SharedPool.pushed
  split_ifs <;> exact sections_of_update hothers rfl (.inr ⟨id, rfl⟩) nofun

theorem Sections.take {p : Threadpool τ α} (h : s.Sections) (hmutex : p.mutex = s.pool.mutex)
    (hqueue : p.queue = s.pool.queue) (hmax : p.maxQueueSize = s.pool.maxQueueSize)
    (hrunning : p.running = s.pool.running) : (s.take p t choice).Sections := by
  obtain ⟨f, queue, hcons, heq⟩ | ⟨-, -, heq⟩ | ⟨-, -, heq⟩ := s.take_cases p t choice
  all_goals
    rw [heq]
    refine h.frame rfl (congrArg _ hmutex) fun hrun => ⟨hrunning ▸ hrun, ?_⟩
    unfold Threadpool.Full
    dsimp only
    rw [← hmax, ← hqueue]
  · rw [hcons]
    exact fun hfull => ⟨hfull.1, hfull.2.trans (Nat.le_succ _)⟩
  · exact id
  · exact id

theorem Sections.step {e : Event τ α} (h : s.Sections) (he : (machine debug).enabled s e)
    (hu : (machine debug).step s e = .ok u) : u.Sections := by
  cases e with
  | run t f =>
    obtain rfl := Except.ok.inj hu
    unfold SharedPool.run
    split_ifs
    · exact h
    · exact sections_of_update (fun v _ => h.free he.2 v) rfl (.inl ⟨trivial, rfl⟩) nofun
  | test t f =>
    obtain ⟨-, rfl⟩ := test_ok hu
    exact h.tested he
  | push t f choice =>
    obtain rfl := push_ok hu
    exact h.pushed he.1
  | resumeRun t f =>
    obtain rfl := Except.ok.inj hu
    exact sections_of_update (fun v _ => h.free he.2.2 v) rfl (.inl ⟨trivial, rfl⟩) nofun
  | take t choice =>
    obtain rfl := Except.ok.inj hu
    exact h.take rfl rfl rfl rfl
  | resumeTake t choice =>
    obtain rfl := Except.ok.inj hu
    exact h.take rfl rfl rfl rfl
  | stop t =>
    obtain rfl := Except.ok.inj hu
    exact h.frame rfl he.2.2.1.symm nofun
  | wakeRun t | loop t | wakeTake t | taskDone t | unlocked t | joined t =>
    obtain rfl := Except.ok.inj hu
    exact h.frame rfl rfl fun hrun => ⟨hrun, id⟩

omit [DecidableEq τ] in
structure Waiting (s : SharedPool τ α) : Prop where
  callers : ∀ t, (s.call t).Waits → t ∈ s.pool.notFull.threads
  takers : ∀ t, s.worker t = .waits → t ∈ s.pool.notEmpty.threads

theorem start_waiting {maxQueueSize : ℕ} {threads : Finset τ} :
    (start maxQueueSize threads : SharedPool τ α).Waiting := by
  refine ⟨fun _ => False.elim, fun t ht => ?_⟩
  change (if t ∈ threads then Worker.loop else .finished) = .waits at ht
  split_ifs at ht

theorem Waiting.frame (h : s.Waiting) (hcall : ∀ v, (u.call v).Waits → (s.call v).Waits)
    (hworker : ∀ v, u.worker v = .waits → s.worker v = .waits)
    (hfull : s.pool.notFull.threads ⊆ u.pool.notFull.threads)
    (hempty : s.pool.notEmpty.threads ⊆ u.pool.notEmpty.threads) : u.Waiting :=
  ⟨fun v hv => hfull (h.callers v (hcall v hv)), fun v hv => hempty (h.takers v (hworker v hv))⟩

theorem waits_of_update {c : Call α} (hc : ¬ c.Waits)
    (h : (Function.update s.call t c v).Waits) : v ≠ t ∧ (s.call v).Waits := by
  obtain rfl | hne := eq_or_ne v t
  · rw [Function.update_self] at h
    exact absurd h hc
  · rw [Function.update_of_ne hne] at h
    exact ⟨hne, h⟩

theorem worker_waits_of_update {w : Worker α} (h : Function.update s.worker t w v = .waits)
    (hw : w ≠ .waits) : v ≠ t ∧ s.worker v = .waits := by
  obtain rfl | hne := eq_or_ne v t
  · rw [Function.update_self] at h
    exact absurd h hw
  · rw [Function.update_of_ne hne] at h
    exact ⟨hne, h⟩

theorem Waiting.tested (h : s.Waiting) : (s.tested t f).Waiting := by
  unfold SharedPool.tested
  split_ifs
  · refine ⟨fun v hv => CondVar.subset_threads_wait _ t (Finset.mem_insert.mpr ?_), h.takers⟩
    obtain rfl | hne := eq_or_ne v t
    · exact .inl rfl
    · dsimp only at hv
      rw [Function.update_of_ne hne] at hv
      exact .inr (h.callers v hv)
  · exact h.frame (fun v hv => (waits_of_update id hv).2) (fun _ => id) subset_rfl subset_rfl

theorem Waiting.pushed (h : s.Waiting) : (s.pushed t f choice).Waiting := by
  unfold SharedPool.pushed
  split_ifs
  · exact h.frame (fun v hv => (waits_of_update id hv).2) (fun _ => id) subset_rfl
      (CondVar.subset_threads_notify _ _)
  · exact h.frame (fun v hv => (waits_of_update id hv).2) (fun _ => id) subset_rfl subset_rfl

theorem take_waiting {p : Threadpool τ α}
    (hcallers : ∀ v, (s.call v).Waits → v ∈ p.notFull.threads)
    (htakers : ∀ v, v ≠ t → s.worker v = .waits → v ∈ p.notEmpty.threads) :
    (s.take p t choice).Waiting := by
  obtain ⟨f, queue, -, heq⟩ | ⟨-, -, heq⟩ | ⟨-, -, heq⟩ := s.take_cases p t choice <;> rw [heq]
  · constructor
    · intro v hv
      dsimp only
      split_ifs
      · exact CondVar.subset_threads_notify _ _ (hcallers v hv)
      · exact hcallers v hv
    · intro v hv
      obtain ⟨hne, hv⟩ := worker_waits_of_update hv nofun
      exact htakers v hne hv
  · refine ⟨hcallers, fun v hv => CondVar.subset_threads_wait _ t (Finset.mem_insert.mpr ?_)⟩
    obtain rfl | hne := eq_or_ne v t
    · exact .inl rfl
    · dsimp only at hv
      rw [Function.update_of_ne hne] at hv
      exact .inr (htakers v hne hv)
  · refine ⟨hcallers, fun v hv => ?_⟩
    obtain ⟨hne, hv⟩ := worker_waits_of_update hv nofun
    exact htakers v hne hv

theorem Waiting.step {e : Event τ α} (h : s.Waiting) (hu : (machine debug).step s e = .ok u) :
    u.Waiting := by
  cases e with
  | run t f =>
    obtain rfl := Except.ok.inj hu
    unfold SharedPool.run
    split_ifs
    · exact h
    · exact h.frame (fun v hv => (waits_of_update id hv).2) (fun _ => id) subset_rfl subset_rfl
  | test t f =>
    obtain ⟨-, rfl⟩ := test_ok hu
    exact h.tested
  | push t f choice =>
    obtain rfl := push_ok hu
    exact h.pushed
  | resumeRun t f =>
    obtain rfl := Except.ok.inj hu
    refine ⟨fun v hv => ?_, h.takers⟩
    obtain ⟨hne, hv⟩ := waits_of_update id hv
    exact CondVar.mem_threads_resume (h.callers v hv) hne
  | take t choice =>
    obtain rfl := Except.ok.inj hu
    exact take_waiting h.callers fun v _ => h.takers v
  | resumeTake t choice =>
    obtain rfl := Except.ok.inj hu
    exact take_waiting h.callers fun v hne hv => CondVar.mem_threads_resume (h.takers v hv) hne
  | wakeRun t =>
    obtain rfl := Except.ok.inj hu
    exact h.frame (fun _ => id) (fun _ => id) (CondVar.subset_threads_wake _ _) subset_rfl
  | wakeTake t =>
    obtain rfl := Except.ok.inj hu
    exact h.frame (fun _ => id) (fun _ => id) subset_rfl (CondVar.subset_threads_wake _ _)
  | stop t =>
    obtain rfl := Except.ok.inj hu
    exact h.frame (fun _ => id) (fun _ => id) (CondVar.threads_notifyAll _).ge
      (CondVar.threads_notifyAll _).ge
  | loop t =>
    obtain rfl := Except.ok.inj hu
    refine h.frame (fun _ => id) (fun v hv => (worker_waits_of_update hv ?_).2) subset_rfl
      subset_rfl
    split_ifs <;> nofun
  | taskDone t =>
    obtain rfl := Except.ok.inj hu
    exact h.frame (fun _ => id) (fun v hv => (worker_waits_of_update hv nofun).2) subset_rfl
      subset_rfl
  | unlocked t | joined t =>
    obtain rfl := Except.ok.inj hu
    exact h.frame (fun _ => id) (fun _ => id) subset_rfl subset_rfl

end MuduoWindows.Base.SharedPool
