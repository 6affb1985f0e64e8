import MuduoWindows.Net.EventLoop

/-! # The order of queued functors

The steps of an event loop with the thread that runs it, and with a record of the functors that were
pushed and of those that were called. A functor is called at the head of what
`doPendingFunctors` has taken.
-/

namespace MuduoWindows.Net
open Library

/-- `runner` is the thread in `loop()`. `pushed` and `executed` remember the functors in the order
of their pushes and their calls, the latter with their thread; `taken` counts those that had been
pushed when `doPendingFunctors` last took them. -/
structure RecordedLoop (T C F : Type) where
  loop : EventLoop T C F
  runner : Option T
  pushed : List F
  executed : List (T × F)
  taken : ℕ

namespace RecordedLoop
variable {T C F : Type}

def create (threadId : T) : RecordedLoop T C F :=
  { loop := .create threadId, runner := none, pushed := [], executed := [], taken := 0 }

inductive Event (T C F : Type) where
  /-- Thread `t` calls `loop()`. -/
  | loop (t : T)
  | step (e : EventLoop.Event T C F)

/-- What a step of the loop adds to the record. -/
def record (s : RecordedLoop T C F) (runner : T) : EventLoop.Event T C F → RecordedLoop T C F
  | .push _ cb => { s with pushed := s.pushed ++ [cb] }
  | .callFunctor => { s with
      executed := s.executed ++ (s.loop.queue.functors.head?.map (runner, ·)).toList }
  | .swap => { s with taken := s.pushed.length }
  | _ => s

variable [DecidableEq T]

/-- Any thread can call `loop()`, the loop's own thread when it is not in it; the runner executes
what is not a call from outside. -/
def machine : Machine (RecordedLoop T C F) (Event T C F) Fault where
  enabled s
    | .loop t => t = s.loop.threadId → EventLoop.machine.enabled s.loop .loop
    | .step .loop => False
    | .step e => EventLoop.machine.enabled s.loop e
  step s
    | .loop t => do
      assert (s.loop.looping = false) "!looping_"
      require (t = s.loop.threadId) .abortNotInLoopThread
      let loop ← EventLoop.machine.step s.loop .loop
      pure { s with loop := loop, runner := some t }
    | .step e => do
      let loop ← EventLoop.machine.step s.loop e
      pure { s.record (s.runner.getD s.loop.threadId) e with loop := loop }

/-- The event takes a functor from those that `doPendingFunctors` has taken. -/
def Calls : Event T C F → Bool
  | .step .callFunctor => true
  | _ => false

def Takes : Event T C F → Bool
  | .step .swap => true
  | _ => false

/-- What has been called and what is still to be called are the functors in order, and the calls
were made by the loop's thread. -/
structure InOrder (s : RecordedLoop T C F) : Prop where
  all : s.executed.map Prod.snd ++ s.loop.queue.all = s.pushed
  batch : s.executed.length + s.loop.queue.functors.length = s.taken
  thread : ∀ x ∈ s.executed, x.1 = s.loop.threadId
  runner : ∀ t ∈ s.runner, t = s.loop.threadId
  /-- The loop's functors are all called before it takes more. -/
  done : s.loop.pc ≠ .functors → s.loop.queue.functors = []

variable {s t : RecordedLoop T C F} {l l' : EventLoop T C F}

/-- `loop()` goes on only on the loop's own thread, and adds no functor to the record. -/
theorem loop_ok {u : T} (ht : machine.step s (.loop u) = .ok t) :
    u = s.loop.threadId ∧ ∃ l', EventLoop.machine.step s.loop .loop = .ok l' ∧
      t = { s with loop := l', runner := some u } := by
  obtain ⟨-, ht⟩ := require_bind_eq_ok.mp ht
  obtain ⟨hu, ht⟩ := require_bind_eq_ok.mp ht
  obtain ⟨l', hl, ht⟩ := bind_eq_ok.mp ht
  exact ⟨hu, l', hl, (Except.ok.inj ht).symm⟩

omit [DecidableEq T] in
theorem create_inOrder (threadId : T) : (create threadId : RecordedLoop T C F).InOrder :=
  ⟨rfl, rfl, nofun, nofun, fun _ => rfl⟩

/-- A step of the loop that neither pushes, takes nor calls a functor. -/
def Idle : EventLoop.Event T C F → Prop
  | .push _ _ | .swap | .callFunctor | .loop => False
  | _ => True

/-- Such a step leaves the functors, and does not leave the loop over them before its end. -/
theorem idle_step {e : EventLoop.Event T C F} (hidle : Idle e) (he : EventLoop.machine.enabled l e)
    (hl : EventLoop.machine.step l e = .ok l') :
    l'.queue = l.queue ∧ l'.threadId = l.threadId ∧
      (l'.pc ≠ .functors → l.pc ≠ .functors ∨ l.queue.functors = []) := by
  cases e with
  | push t cb => exact hidle.elim
  | swap => exact hidle.elim
  | callFunctor => exact hidle.elim
  | loop => exact hidle.elim
  | pushDone t =>
    obtain rfl := Except.ok.inj hl
    unfold EventLoop.pushDone
    split_ifs <;> exact ⟨rfl, rfl, .inl⟩
  | quit t =>
    obtain rfl := Except.ok.inj hl
    split_ifs <;> exact ⟨rfl, rfl, .inl⟩
  | polled activeChannels =>
    obtain rfl := Except.ok.inj hl
    exact ⟨rfl, rfl, fun _ => .inl fun hpc => nomatch hpc.symm.trans he⟩
  | timersDone =>
    obtain rfl := Except.ok.inj hl
    exact ⟨rfl, rfl, fun _ => .inl fun hpc => nomatch hpc.symm.trans he.2⟩
  | handleEvent =>
    obtain rfl := Except.ok.inj hl
    unfold EventLoop.handleEvent
    dsimp only
    split_ifs <;> exact ⟨rfl, rfl, .inl⟩
  | handlersDone =>
    obtain rfl := Except.ok.inj hl
    exact ⟨rfl, rfl, fun _ => .inl fun hpc => nomatch hpc.symm.trans he.2.1⟩
  | functorsDone =>
    obtain rfl := Except.ok.inj hl
    unfold EventLoop.whileNotQuit
    split_ifs <;> exact ⟨rfl, rfl, fun _ => .inr he.2.2⟩

omit [DecidableEq T] in
theorem InOrder.runs (h : s.InOrder) : s.runner.getD s.loop.threadId = s.loop.threadId := by
  cases hr : s.runner with
  | none => rfl
  | some t => exact h.runner t hr

theorem InOrder.loop (h : s.InOrder) {u : T} (he : machine.enabled s (.loop u))
    (ht : machine.step s (.loop u) = .ok t) : t.InOrder := by
  obtain ⟨rfl, l', hl, rfl⟩ := loop_ok ht
  obtain ⟨-, hl⟩ := require_bind_eq_ok.mp hl
  obtain rfl := Except.ok.inj hl
  have hpc : s.loop.pc = .outside := he rfl
  refine ⟨h.all, h.batch, h.thread, ?_, fun _ => h.done (by rw [hpc]; nofun)⟩
  intro t ht
  exact (Option.some.inj ht).symm

theorem InOrder.push (h : s.InOrder) (u : T) (cb : F) :
    InOrder { s with pushed := s.pushed ++ [cb], loop := s.loop.push u cb } := by
  refine ⟨?_, h.batch, h.thread, h.runner, h.done⟩
  change s.executed.map Prod.snd ++ (s.loop.queue.queueInLoop cb).all = s.pushed ++ [cb]
  rw [FunctorQueue.all_queueInLoop, ← List.append_assoc, h.all]

omit [DecidableEq T] in
theorem InOrder.swap (h : s.InOrder) (hpc : s.loop.pc = .swapping) :
    InOrder { s with
      taken := s.pushed.length
      loop := { s.loop with queue := s.loop.queue.swap, pc := .functors } } := by
  have hnone := h.done (by rw [hpc]; nofun)
  refine ⟨?_, ?_, h.thread, h.runner, fun hne => absurd rfl hne⟩
  · change s.executed.map Prod.snd ++ s.loop.queue.swap.all = s.pushed
    rw [FunctorQueue.all_swap hnone, h.all]
  · have hall := congrArg List.length h.all
    unfold FunctorQueue.all at hall
    rw [hnone, List.nil_append, List.length_append, List.length_map] at hall
    exact hall

omit [DecidableEq T] in
theorem InOrder.callFunctor (h : s.InOrder) {f : F} {rest : List F}
    (hf : s.loop.queue.functors = f :: rest) (hpc : s.loop.pc = .functors) :
    InOrder { s with
      executed := s.executed ++ [(s.loop.threadId, f)]
      loop := { s.loop with queue := { s.loop.queue with functors := rest } } } := by
  refine ⟨?_, ?_, ?_, h.runner, fun hne => absurd hpc hne⟩
  · have hall := h.all
    rw [FunctorQueue.all_cons hf] at hall
    change (s.executed ++ [(s.loop.threadId, f)]).map Prod.snd ++ _ = s.pushed
    rw [List.map_append, List.append_assoc]
    exact hall
  · have hbatch := h.batch
    rw [hf, List.length_cons] at hbatch
    change (s.executed ++ [(s.loop.threadId, f)]).length + rest.length = s.taken
    rw [List.length_append, List.length_singleton]
    omega
  · intro x hx
    rcases List.mem_append.mp hx with hx | hx
    · exact h.thread x hx
    · rw [List.mem_singleton.mp hx]

theorem InOrder.idle (h : s.InOrder) {e : EventLoop.Event T C F} (hidle : Idle e)
    (he : EventLoop.machine.enabled s.loop e) (hl : EventLoop.machine.step s.loop e = .ok l') :
    InOrder { s with loop := l' } := by
  obtain ⟨hqueue, hthread, hpc⟩ := idle_step hidle he hl
  refine ⟨?_, ?_, ?_, ?_, ?_⟩
  · change s.executed.map Prod.snd ++ l'.queue.all = s.pushed
    rw [hqueue]
    exact h.all
  · change s.executed.length + l'.queue.functors.length = s.taken
    rw [hqueue]
    exact h.batch
  · change ∀ x ∈ s.executed, x.1 = l'.threadId
    rw [hthread]
    exact h.thread
  · change ∀ t ∈ s.runner, t = l'.threadId
    rw [hthread]
    exact h.runner
  · intro hne
    change l'.queue.functors = []
    rw [hqueue]
    rcases hpc hne with hne | hnone
    · exact h.done hne
    · exact hnone

theorem InOrder.step (h : s.InOrder) {e : Event T C F} (he : machine.enabled s e)
    (ht : machine.step s e = .ok t) : t.InOrder := by
  cases e with
  | loop u => exact h.loop he ht
  | step e =>
    obtain ⟨l', hl, ht⟩ := bind_eq_ok.mp ht
    obtain rfl := Except.ok.inj ht
    cases e with
    | loop => exact he.elim
    | push u cb =>
      obtain rfl := Except.ok.inj hl
      exact h.push u cb
    | swap =>
      obtain rfl := Except.ok.inj hl
      exact h.swap he
    | callFunctor =>
      obtain rfl := Except.ok.inj hl
      cases hf : s.loop.queue.functors with
      | nil => exact absurd hf he.2.2
      | cons f rest =>
        have hcall := h.callFunctor hf he.2.1
        unfold record
        rw [h.runs, hf]
        exact hcall
    | pushDone | quit | polled | timersDone | handleEvent | handlersDone | functorsDone =>
      refine h.idle ?_ ?_ hl
      · trivial
      · exact he

theorem run_inOrder {threadId : T} {es : List (Event T C F)}
    (h : machine.Run Machine.Any (create threadId) es s) : s.InOrder :=
  h.invariant InOrder (create_inOrder threadId) fun _ _ _ hs he _ ht => hs.step he ht

theorem step_pushed {e : Event T C F} (ht : machine.step s e = .ok t) : s.pushed <+: t.pushed := by
  cases e with
  | loop u =>
    obtain ⟨-, l', -, rfl⟩ := loop_ok ht
    exact List.prefix_rfl
  | step e =>
    obtain ⟨l', -, ht⟩ := bind_eq_ok.mp ht
    obtain rfl := Except.ok.inj ht
    cases e with
    | push u cb => exact List.prefix_append _ _
    | _ => exact List.prefix_rfl

/-- A step that does not take functors leaves the batch, and adds to the record what it calls. -/
theorem step_counts {e : Event T C F} (he : machine.enabled s e) (htakes : Takes e = false)
    (ht : machine.step s e = .ok t) : t.taken = s.taken ∧
      t.executed.length = s.executed.length + (if Calls e then 1 else 0) := by
  cases e with
  | loop u =>
    obtain ⟨-, l', -, rfl⟩ := loop_ok ht
    exact ⟨rfl, rfl⟩
  | step e =>
    obtain ⟨l', -, ht⟩ := bind_eq_ok.mp ht
    obtain rfl := Except.ok.inj ht
    cases e with
    | loop => exact he.elim
    | swap => cases htakes
    | callFunctor =>
      refine ⟨rfl, ?_⟩
      cases hf : s.loop.queue.functors with
      | nil => exact absurd hf he.2.2
      | cons f rest =>
        change (s.executed ++ (s.loop.queue.functors.head?.map _).toList).length = _
        rw [hf]
        exact List.length_append
    | push | pushDone | quit | polled | timersDone | handleEvent | handlersDone | functorsDone =>
      exact ⟨rfl, rfl⟩

theorem run_counts {es : List (Event T C F)} (h : machine.Run Machine.Any s es t)
    (htakes : ∀ e ∈ es, Takes e = false) : s.pushed <+: t.pushed ∧ t.taken = s.taken ∧
      t.executed.length = s.executed.length + es.countP Calls := by
  induction h with
  | nil => exact ⟨List.prefix_rfl, rfl, rfl⟩
  | snoc _ he _ ht ih =>
    obtain ⟨hpushed, htaken, hlength⟩ := ih fun e hmem => htakes e (List.mem_append_left _ hmem)
    obtain ⟨htaken', hlength'⟩ := step_counts he
      (htakes _ (List.mem_append_right _ (List.mem_singleton_self _))) ht
    refine ⟨hpushed.trans (step_pushed ht), htaken'.trans htaken, ?_⟩
    rw [hlength', hlength, List.countP_append, List.countP_singleton]
    omega

omit [DecidableEq T] in
theorem InOrder.taken_eq (h : s.InOrder) :
    s.executed.map Prod.snd ++ s.loop.queue.functors = s.pushed.take s.taken := by
  rw [← h.all, ← h.batch]
  unfold FunctorQueue.all
  rw [← List.append_assoc]
  exact (List.take_left' (by rw [List.length_append, List.length_map])).symm

omit [DecidableEq T] in
theorem InOrder.taken_le (h : s.InOrder) : s.taken ≤ s.pushed.length := by
  have hall := congrArg List.length h.all
  have hbatch := h.batch
  unfold FunctorQueue.all at hall
  rw [List.length_append, List.length_append, List.length_map] at hall
  omega

/-- The functors are called in the order of their pushes, each once, by the loop's thread. Those
that `doPendingFunctors` has taken are the next ones of the functors pushed until then; before it
takes functors again, it calls no others and no more than these. -/
theorem functors_in_order {threadId : T} {es : List (Event T C F)}
    (h : machine.Run Machine.Any (create threadId) es s) :
    s.executed.map Prod.snd <+: s.pushed ∧ (∀ x ∈ s.executed, x.1 = s.loop.threadId) ∧
    s.executed.map Prod.snd ++ s.loop.queue.functors = s.pushed.take s.taken ∧
    ∀ es' t, machine.Run Machine.Any s es' t → (∀ e ∈ es', Takes e = false) →
      es'.countP Calls ≤ s.loop.queue.functors.length ∧
        t.executed.map Prod.snd <+: s.pushed.take s.taken := by
  have horder := run_inOrder h
  refine ⟨⟨_, horder.all⟩, horder.thread, horder.taken_eq, ?_⟩
  intro es' t ht htakes
  obtain ⟨⟨rest, hpushed⟩, hsame, hcount⟩ := run_counts ht htakes
  have horder' : t.InOrder := run_inOrder (h.append ht)
  have hbatch := horder.batch
  have hbatch' := horder'.batch
  constructor
  · omega
  · refine ⟨t.loop.queue.functors, ?_⟩
    calc t.executed.map Prod.snd ++ t.loop.queue.functors
        = t.pushed.take t.taken := horder'.taken_eq
      _ = (s.pushed ++ rest).take s.taken := by rw [hsame, hpushed]
      _ = s.pushed.take s.taken := List.take_append_of_le_length horder.taken_le

instance [DecidableEq C] [DecidableEq F] (s : RecordedLoop T C F) :
    ∀ e, Decidable (machine.enabled s e)
  | .loop t => inferInstanceAs (Decidable (t = _ → EventLoop.machine.enabled s.loop .loop))
  | .step e => match e with
    | .loop => .isFalse id
    | .push t cb => inferInstanceAs (Decidable (EventLoop.machine.enabled s.loop (.push t cb)))
    | .pushDone t => inferInstanceAs (Decidable (EventLoop.machine.enabled s.loop (.pushDone t)))
    | .quit t => inferInstanceAs (Decidable (EventLoop.machine.enabled s.loop (.quit t)))
    | .polled l => inferInstanceAs (Decidable (EventLoop.machine.enabled s.loop (.polled l)))
    | .timersDone => inferInstanceAs (Decidable (EventLoop.machine.enabled s.loop .timersDone))
    | .handleEvent => inferInstanceAs (Decidable (EventLoop.machine.enabled s.loop .handleEvent))
    | .handlersDone => inferInstanceAs (Decidable (EventLoop.machine.enabled s.loop .handlersDone))
    | .swap => inferInstanceAs (Decidable (EventLoop.machine.enabled s.loop .swap))
    | .callFunctor => inferInstanceAs (Decidable (EventLoop.machine.enabled s.loop .callFunctor))
    | .functorsDone => inferInstanceAs (Decidable (EventLoop.machine.enabled s.loop .functorsDone))

/-- A functor queues itself again while it is called. -/
theorem functors_in_order_requeued : ∃ s : RecordedLoop Bool Unit ℕ,
    machine.Run Machine.Any (create false)
      [.loop false, .step (.push true 7), .step (.pushDone true), .step (.polled []),
        .step .timersDone, .step .handlersDone, .step .swap, .step .callFunctor,
        .step (.push false 7)] s ∧
    s.pushed = [7, 7] ∧ s.executed.map Prod.snd <+: s.pushed ∧
    s.executed.map Prod.snd ++ s.loop.queue.functors = [7, 7].take 1 := by
  obtain ⟨s, hs, hp⟩ := Machine.exists_run_of_exec machine Machine.Any
    (create false : RecordedLoop Bool Unit ℕ)
    [.loop false, .step (.push true 7), .step (.pushDone true), .step (.polled []),
      .step .timersDone, .step .handlersDone, .step .swap, .step .callFunctor,
      .step (.push false 7)]
    (fun s => decide (s.pushed = [7, 7] ∧ s.taken = 1)) (by decide)
  obtain ⟨hpushed, htaken⟩ := of_decide_eq_true hp
  obtain ⟨hfront, -, hbatch, -⟩ := functors_in_order hs
  rw [hpushed, htaken] at hbatch
  exact ⟨s, hs, hpushed, hfront, hbatch⟩

/-- Another thread pushes a functor when `doPendingFunctors` has begun and has not yet taken the
pending functors: this call executes it. -/
theorem pushed_during_call : ∃ s t : RecordedLoop Bool Unit ℕ,
    machine.Run Machine.Any (create false)
      [.loop false, .step (.polled []), .step .timersDone, .step .handlersDone] s ∧
    s.loop.callingPendingFunctors = true ∧ s.pushed = [] ∧
    machine.Run Machine.Any s
      [.step (.push true 7), .step (.pushDone true), .step .swap, .step .callFunctor] t ∧
    t.executed = [(false, 7)] := by
  obtain ⟨t, ht, hp⟩ := Machine.exists_run_of_exec machine Machine.Any
    ((machine.exec Machine.Any (create false : RecordedLoop Bool Unit ℕ)
      [.loop false, .step (.polled []), .step .timersDone, .step .handlersDone]).getD
      (create false))
    [.step (.push true 7), .step (.pushDone true), .step .swap, .step .callFunctor]
    (fun t => decide (t.executed = [(false, 7)])) (by decide)
  refine ⟨_, t, ?_, rfl, rfl, ht, of_decide_eq_true hp⟩
  exact Machine.run_of_exec machine Machine.Any rfl

end RecordedLoop
end MuduoWindows.Net
