import MuduoWindows.Net.EventLoop

/-! # net/eventLoopThread.cpp

The owner calls `startLoop` and then the destructor, while the thread makes an event loop, publishes
it and runs it. Any thread calls `quit` on the loop once it is there. `loop()` and `quit()` take a
step for each access to `quit_`; the other steps of the loop are those of its own machine.
-/

namespace MuduoWindows.Net
open Library

/-- Where `threadFunc` is. -/
inductive ThreadPc where
  | notStarted
  | started
  /-- The loop is made; `callback_` runs. -/
  | callback
  /-- `loop_` is set. -/
  | published
  /-- In `loop()`, before the first test of `quit_`. -/
  | entered
  /-- In `loop()`; it has returned when the loop is outside. -/
  | looping
  | finished
  deriving DecidableEq

/-- Where the owner is. -/
inductive OwnerPc where
  | outside
  /-- In `startLoop`, waiting for `loop_`. -/
  | waiting
  | running
  /-- In the destructor, before the test of `loop_`. -/
  | exiting
  /-- Before `loop_->quit()`. -/
  | quitting
  | joining
  | done
  deriving DecidableEq

/-- `quitting t`: thread `t` is in `quit` and has still to write to the pipe; `quitCalled`: some
thread has executed the store of `quit`. -/
structure EventLoopThread (T C F : Type) where
  loop : EventLoop T C F
  hasLoop : Bool
  exiting : Bool
  thread : ThreadPc
  owner : OwnerPc
  quitting : T → Bool
  quitCalled : Bool

namespace EventLoopThread
variable {T C F : Type}

def create (threadId : T) : EventLoopThread T C F :=
  { loop := .create threadId, hasLoop := false, exiting := false, thread := .notStarted
    owner := .outside, quitting := fun _ => false, quitCalled := false }

def HasEventLoop (s : EventLoopThread T C F) : Prop :=
  s.thread ≠ .notStarted ∧ s.thread ≠ .started ∧ s.thread ≠ .finished

instance (s : EventLoopThread T C F) : Decidable s.HasEventLoop :=
  inferInstanceAs (Decidable (_ ∧ _ ∧ _))

/-- `loop()` up to its loop. -/
def enter (s : EventLoopThread T C F) : Result (EventLoopThread T C F) := do
  assert (s.loop.looping = false) "!looping_"
  pure { s with loop := { s.loop with looping := true, quit := false }, thread := .entered }

/-- A step of the loop that touches neither `quit_` nor its start. -/
def Inner : EventLoop.Event T C F → Prop
  | .quit _ | .loop => False
  | _ => True

instance : ∀ e : EventLoop.Event T C F, Decidable (Inner e)
  | .quit _ | .loop => .isFalse id
  | .push _ _ | .pushDone _ | .polled _ | .timersDone | .handleEvent | .handlersDone | .swap
  | .callFunctor | .functorsDone => .isTrue trivial

inductive Event (T C F : Type) where
  | startLoop
  /-- The thread makes the loop. -/
  | eventLoop
  | publish
  | startLoopDone
  /-- `loop()` begins. -/
  | loop
  /-- The first test of `quit_`. -/
  | whileNotQuit
  | inner (e : EventLoop.Event T C F)
  /-- The thread ends after `loop()`. -/
  | loopDone
  /-- The store of `quit()`. -/
  | quit (t : T)
  /-- The rest of `quit()` for a thread that is not the loop's. -/
  | quitDone (t : T)
  | destructor
  /-- The destructor's test of `loop_`. -/
  | testLoop
  /-- The store of the destructor's `quit()`, on thread `t`. -/
  | destructorQuit (t : T)
  | join

variable [DecidableEq T]

/-- `quit_ = true`, by thread `t`. -/
def setQuit (s : EventLoopThread T C F) (t : T) : EventLoopThread T C F :=
  { s with
    loop := { s.loop with quit := true }
    quitting := if t ≠ s.loop.threadId then Function.update s.quitting t true else s.quitting
    quitCalled := true }

/-- The loop's thread calls `quit` from `callback_` or from a callback of the loop. The
destructor does not use a loop that is gone. -/
def machine : Machine (EventLoopThread T C F) (Event T C F) Fault where
  enabled s
    | .startLoop => s.owner = .outside
    | .eventLoop => s.thread = .started
    | .publish => s.thread = .callback
    | .startLoopDone => s.owner = .waiting ∧ s.hasLoop = true
    | .loop => s.thread = .published
    | .whileNotQuit => s.thread = .entered
    | .inner e => s.HasEventLoop ∧ Inner e ∧ EventLoop.machine.enabled s.loop e
    | .loopDone => s.thread = .looping ∧ s.loop.pc = .outside
    | .quit t => s.HasEventLoop ∧ s.quitting t = false ∧
        (t = s.loop.threadId → s.thread = .callback ∨ s.loop.pc.callsUser = true)
    | .quitDone t => s.quitting t = true
    | .destructor => s.owner = .running ∨ s.owner = .outside
    | .testLoop => s.owner = .exiting
    | .destructorQuit t => s.owner = .quitting ∧ s.HasEventLoop ∧ s.quitting t = false ∧
        t ≠ s.loop.threadId
    | .join => s.owner = .joining ∧ s.thread = .finished
  step s
    | .startLoop => pure { s with owner := .waiting, thread := .started }
    | .eventLoop => pure { s with loop := .create s.loop.threadId, thread := .callback }
    | .publish => pure { s with hasLoop := true, thread := .published }
    | .startLoopDone => pure { s with owner := .running }
    | .loop => s.enter
    | .whileNotQuit => pure { s with loop := s.loop.whileNotQuit, thread := .looping }
    | .inner e => do
      let loop ← EventLoop.machine.step s.loop e
      pure { s with loop := loop }
    | .loopDone => pure { s with hasLoop := false, thread := .finished }
    | .quit t => pure (s.setQuit t)
    | .quitDone t => pure { s with
        loop := s.loop.wakeup, quitting := Function.update s.quitting t false }
    | .destructor => pure { s with exiting := true, owner := .exiting }
    | .testLoop => pure { s with owner := if s.hasLoop then .quitting else .done }
    | .destructorQuit t => pure { s.setQuit t with owner := .joining }
    | .join => pure { s with owner := .done }

/-- `loop()` sets `quit_` to false before any thread has called `quit`. -/
def Late (s : EventLoopThread T C F) (e : Event T C F) : Prop := e = .loop → s.quitCalled = false

/-- A call of `quit` stays in force, and the pipe wakes a loop that polls. -/
structure Quits (s : EventLoopThread T C F) : Prop where
  fresh : s.owner = .outside → s.thread = .notStarted
  made : ¬ s.HasEventLoop → s.thread ≠ .finished → s.quitCalled = false
  quit : s.quitCalled = true → s.loop.quit = true
  wakes : s.loop.quit = true → s.loop.pc = .polling →
    EventLoop.sizeofOne ≤ s.loop.wakeupBytes ∨ ∃ t, s.quitting t = true
  outside : s.thread ≠ .looping → s.loop.pc = .outside

variable {s t : EventLoopThread T C F} {l l' : EventLoop T C F}

omit [DecidableEq T] in
theorem create_quits (threadId : T) : (create threadId : EventLoopThread T C F).Quits :=
  ⟨fun _ => rfl, fun _ _ => rfl, nofun, nofun, fun _ => rfl⟩

/-- The other steps of the loop leave `quit_`, and go on polling only where it is false; a loop
that polls keeps the bytes in its pipe. -/
theorem inner_step {e : EventLoop.Event T C F} (hinner : Inner e)
    (he : EventLoop.machine.enabled l e) (hl : EventLoop.machine.step l e = .ok l') :
    l'.quit = l.quit ∧
      (l'.pc = .polling → l.quit = false ∨ (l.pc = .polling ∧ l.wakeupBytes ≤ l'.wakeupBytes)) ∧
      (l.pc = .outside → l'.pc = .outside) := by
  cases e with
  | push t cb =>
    obtain rfl := Except.ok.inj hl
    exact ⟨rfl, fun hpc => .inr ⟨hpc, le_rfl⟩, id⟩
  | pushDone t =>
    obtain rfl := Except.ok.inj hl
    unfold EventLoop.pushDone
    split_ifs
    · exact ⟨rfl, fun hpc => .inr ⟨hpc, Nat.le_add_right _ _⟩, id⟩
    · exact ⟨rfl, fun hpc => .inr ⟨hpc, le_rfl⟩, id⟩
  | quit t => exact hinner.elim
  | loop => exact hinner.elim
  | polled activeChannels =>
    obtain rfl := Except.ok.inj hl
    exact ⟨rfl, nofun, fun hpc => nomatch hpc.symm.trans he⟩
  | timersDone =>
    obtain rfl := Except.ok.inj hl
    exact ⟨rfl, nofun, fun hpc => nomatch hpc.symm.trans he.2⟩
  | handleEvent =>
    obtain rfl := Except.ok.inj hl
    have hpc : l.pc = .handlers := he.2.1
    have hframe : l.handleEvent.quit = l.quit ∧ l.handleEvent.pc = l.pc := by
      unfold EventLoop.handleEvent
      split_ifs <;> exact ⟨rfl, rfl⟩
    rw [hframe.2, hpc]
    exact ⟨hframe.1, nofun, nofun⟩
  | handlersDone =>
    obtain rfl := Except.ok.inj hl
    exact ⟨rfl, nofun, fun hpc => nomatch hpc.symm.trans he.2.1⟩
  | swap =>
    obtain rfl := Except.ok.inj hl
    exact ⟨rfl, nofun, fun hpc => nomatch hpc.symm.trans he⟩
  | callFunctor =>
    obtain rfl := Except.ok.inj hl
    exact ⟨rfl, fun hpc => .inr ⟨hpc, le_rfl⟩, id⟩
  | functorsDone =>
    obtain rfl := Except.ok.inj hl
    have hpc : l.pc = .functors := he.2.1
    unfold EventLoop.whileNotQuit
    split_ifs with hquit
    · exact ⟨rfl, nofun, fun _ => rfl⟩
    · exact ⟨rfl, fun _ => .inl (Bool.not_eq_true _ ▸ hquit),
        fun hout => nomatch hout.symm.trans hpc⟩

theorem begins_step (hquit : s.loop.quit = true) {e : Event T C F}
    (he : machine.enabled s e) (ht : machine.step s e = .ok t) (hpc : t.loop.pc = .polling) :
    s.loop.pc = .polling := by
  cases e with
  | startLoop | publish | startLoopDone | loopDone | quit | quitDone | destructor | testLoop
  | destructorQuit | join =>
    obtain rfl := Except.ok.inj ht
    exact hpc
  | eventLoop =>
    obtain rfl := Except.ok.inj ht
    cases hpc
  | loop =>
    obtain ⟨-, ht⟩ := require_bind_eq_ok.mp ht
    obtain rfl := Except.ok.inj ht
    exact hpc
  | whileNotQuit =>
    obtain rfl := Except.ok.inj ht
    change s.loop.whileNotQuit.pc = .polling at hpc
    unfold EventLoop.whileNotQuit at hpc
    rw [if_pos hquit] at hpc
    cases hpc
  | inner e =>
    obtain ⟨l', hl, ht⟩ := bind_eq_ok.mp ht
    obtain rfl := Except.ok.inj ht
    obtain ⟨-, hpolling, -⟩ := inner_step he.2.1 he.2.2 hl
    rcases hpolling hpc with hfalse | ⟨hold, -⟩
    · rw [hquit] at hfalse
      cases hfalse
    · exact hold

theorem Quits.setQuit (h : s.Quits) (hloop : s.HasEventLoop) {u : T}
    (hu : u = s.loop.threadId → s.thread = .callback ∨ s.loop.pc.callsUser = true) :
    (s.setQuit u).Quits := by
  refine ⟨h.fresh, fun hnone => absurd hloop hnone, fun _ => rfl, ?_, h.outside⟩
  intro _ hpc
  change s.loop.pc = .polling at hpc
  by_cases hself : u = s.loop.threadId
  · rcases hu hself with hcallback | huser
    · have hout := h.outside (by rw [hcallback]; nofun)
      rw [hpc] at hout
      cases hout
    · rw [hpc] at huser
      cases huser
  · apply Or.inr
    refine ⟨u, ?_⟩
    unfold EventLoopThread.setQuit
    dsimp only
    rw [if_pos hself, Function.update_self]

theorem Quits.step (h : s.Quits) {e : Event T C F} (he : machine.enabled s e) (hlate : Late s e)
    (ht : machine.step s e = .ok t) : t.Quits := by
  cases e with
  | startLoop =>
    obtain rfl := Except.ok.inj ht
    have hthread := h.fresh he
    have hcalled := h.made (fun hloop => hloop.1 hthread) (by rw [hthread]; nofun)
    exact ⟨nofun, fun _ _ => hcalled, h.quit, h.wakes, fun _ => h.outside (by rw [hthread]; nofun)⟩
  | eventLoop =>
    obtain rfl := Except.ok.inj ht
    have hthread : s.thread = .started := he
    have hcalled := h.made (fun hloop => hloop.2.1 hthread) (by rw [hthread]; nofun)
    refine ⟨?_, fun _ _ => hcalled, ?_, nofun, fun _ => rfl⟩
    · intro howner
      cases (h.fresh howner).symm.trans hthread
    · intro hquit
      cases hcalled.symm.trans hquit
  | publish =>
    obtain rfl := Except.ok.inj ht
    have hthread : s.thread = .callback := he
    refine ⟨?_, ?_, h.quit, h.wakes, fun _ => h.outside (by rw [hthread]; nofun)⟩
    · intro howner
      cases (h.fresh howner).symm.trans hthread
    · exact fun hnone => absurd ⟨nofun, nofun, nofun⟩ hnone
  | startLoopDone =>
    obtain rfl := Except.ok.inj ht
    exact ⟨nofun, h.made, h.quit, h.wakes, h.outside⟩
  | loop =>
    obtain ⟨-, ht⟩ := require_bind_eq_ok.mp ht
    obtain rfl := Except.ok.inj ht
    have hthread : s.thread = .published := he
    have hcalled : s.quitCalled = false := hlate rfl
    refine ⟨?_, fun _ _ => hcalled, ?_, nofun, fun _ => h.outside (by rw [hthread]; nofun)⟩
    · intro howner
      cases (h.fresh howner).symm.trans hthread
    · intro hquit
      cases hcalled.symm.trans hquit
  | whileNotQuit =>
    obtain rfl := Except.ok.inj ht
    have hthread : s.thread = .entered := he
    refine ⟨?_, ?_, ?_, ?_, fun hne => absurd rfl hne⟩
    · intro howner
      cases (h.fresh howner).symm.trans hthread
    · exact fun hnone => absurd ⟨nofun, nofun, nofun⟩ hnone
    · intro hcalled
      change s.loop.whileNotQuit.quit = true
      unfold EventLoop.whileNotQuit
      rw [if_pos (h.quit hcalled)]
      exact h.quit hcalled
    · change s.loop.whileNotQuit.quit = true → s.loop.whileNotQuit.pc = .polling → _
      unfold EventLoop.whileNotQuit
      split_ifs with hquit
      · exact fun _ => nofun
      · exact fun htrue => absurd htrue hquit
  | inner e =>
    obtain ⟨l', hl, ht⟩ := bind_eq_ok.mp ht
    obtain rfl := Except.ok.inj ht
    obtain ⟨hquit, hpolling, hout⟩ := inner_step he.2.1 he.2.2 hl
    refine ⟨h.fresh, h.made, ?_, ?_, fun hne => hout (h.outside hne)⟩
    · intro hcalled
      exact hquit.trans (h.quit hcalled)
    · intro hquit' hpc
      rcases hpolling hpc with hfalse | ⟨hold, hbytes⟩
      · cases hfalse.symm.trans (hquit.symm.trans hquit')
      · rcases h.wakes (hquit.symm.trans hquit') hold with hwake | hquitting
        · exact .inl (hwake.trans hbytes)
        · exact .inr hquitting
  | loopDone =>
    obtain rfl := Except.ok.inj ht
    refine ⟨?_, fun _ hne => absurd rfl hne, h.quit, h.wakes, fun _ => he.2⟩
    intro howner
    cases (h.fresh howner).symm.trans he.1
  | quit u =>
    obtain rfl := Except.ok.inj ht
    exact h.setQuit he.1 he.2.2
  | quitDone u =>
    obtain rfl := Except.ok.inj ht
    exact ⟨h.fresh, h.made, h.quit, fun _ _ => .inl (Nat.le_add_left _ _), h.outside⟩
  | destructor =>
    obtain rfl := Except.ok.inj ht
    exact ⟨nofun, h.made, h.quit, h.wakes, h.outside⟩
  | testLoop =>
    obtain rfl := Except.ok.inj ht
    refine ⟨?_, h.made, h.quit, h.wakes, h.outside⟩
    change (if s.hasLoop = true then OwnerPc.quitting else .done) = .outside → _
    split_ifs <;> nofun
  | destructorQuit u =>
    obtain rfl := Except.ok.inj ht
    have hquits := h.setQuit he.2.1 (fun hself => absurd hself he.2.2.2)
    exact ⟨nofun, hquits.made, hquits.quit, hquits.wakes, hquits.outside⟩
  | join =>
    obtain rfl := Except.ok.inj ht
    exact ⟨nofun, h.made, h.quit, h.wakes, h.outside⟩

/-- Once `quit` has been called, the loop begins no iteration, and a loop that polls finds its bytes
in the pipe or gets them from a thread that is still in `quit`. -/
theorem quit_not_lost {threadId : T} {es : List (Event T C F)}
    (h : machine.Run Late (create threadId) es s) (hcalled : s.quitCalled = true) :
    (∀ e t, machine.enabled s e → machine.step s e = .ok t → t.loop.pc = .polling →
      s.loop.pc = .polling) ∧
    (s.loop.pc = .polling → 8 ≤ s.loop.wakeupBytes ∨ ∃ t, s.quitting t = true) := by
  have hquits : s.Quits := h.invariant Quits (create_quits threadId)
    fun _ _ _ hs he hlate ht => hs.step he hlate ht
  have hquit := hquits.quit hcalled
  exact ⟨fun _ _ he ht hpc => begins_step hquit he ht hpc, hquits.wakes hquit⟩

instance [DecidableEq C] [DecidableEq F] (s : EventLoopThread T C F) :
    ∀ e, Decidable (machine.enabled s e)
  | .startLoop => inferInstanceAs (Decidable (s.owner = .outside))
  | .eventLoop => inferInstanceAs (Decidable (s.thread = .started))
  | .publish => inferInstanceAs (Decidable (s.thread = .callback))
  | .startLoopDone => inferInstanceAs (Decidable (s.owner = .waiting ∧ s.hasLoop = true))
  | .loop => inferInstanceAs (Decidable (s.thread = .published))
  | .whileNotQuit => inferInstanceAs (Decidable (s.thread = .entered))
  | .inner e => inferInstanceAs (Decidable (_ ∧ Inner e ∧ EventLoop.machine.enabled s.loop e))
  | .loopDone => inferInstanceAs (Decidable (s.thread = .looping ∧ s.loop.pc = .outside))
  | .quit t => inferInstanceAs (Decidable (_ ∧ s.quitting t = false ∧ (_ → _)))
  | .quitDone t => inferInstanceAs (Decidable (s.quitting t = true))
  | .destructor => inferInstanceAs (Decidable (s.owner = .running ∨ s.owner = .outside))
  | .testLoop => inferInstanceAs (Decidable (s.owner = .exiting))
  | .destructorQuit t =>
    inferInstanceAs (Decidable (s.owner = .quitting ∧ _ ∧ s.quitting t = false ∧ _))
  | .join => inferInstanceAs (Decidable (s.owner = .joining ∧ s.thread = .finished))

instance (s : EventLoopThread T C F) : ∀ e : Event T C F, Decidable (Late s e)
  | .loop => decidable_of_iff (s.quitCalled = false) ⟨fun h _ => h, fun h => h rfl⟩
  | .startLoop | .eventLoop | .publish | .startLoopDone | .whileNotQuit | .inner _ | .loopDone
  | .quit _ | .quitDone _ | .destructor | .testLoop | .destructorQuit _ | .join => .isTrue nofun

/-- The owner (`false`) destroys the thread (`true`) while its loop polls. -/
theorem quit_not_lost_polling :
    ∃ s : EventLoopThread Bool Unit ℕ, machine.Run Late (create true)
      [.startLoop, .eventLoop, .publish, .startLoopDone, .loop, .whileNotQuit, .destructor,
        .testLoop, .destructorQuit false] s ∧
      s.loop.pc = .polling ∧ (8 ≤ s.loop.wakeupBytes ∨ ∃ t, s.quitting t = true) ∧
      ∀ e t, machine.enabled s e → machine.step s e = .ok t → t.loop.pc = .polling →
        s.loop.pc = .polling := by
  obtain ⟨s, hs, hp⟩ := Machine.exists_run_of_exec machine Late
    (create true : EventLoopThread Bool Unit ℕ)
    [.startLoop, .eventLoop, .publish, .startLoopDone, .loop, .whileNotQuit, .destructor,
      .testLoop, .destructorQuit false]
    (fun s => decide (s.quitCalled = true ∧ s.loop.pc = .polling)) (by decide)
  obtain ⟨hcalled, hpc⟩ := of_decide_eq_true hp
  obtain ⟨hbegins, hwakes⟩ := quit_not_lost hs hcalled
  exact ⟨s, hs, hpc, hwakes hpc, hbegins⟩

/-- The owner destroys the thread before `loop()` sets `quit_` to false: the loop reads the byte of
`quit` in its first iteration and then polls on for ever, while the owner waits in `join`. -/
theorem quit_lost :
    ∃ s : EventLoopThread Bool Unit ℕ, machine.Run Machine.Any (create true)
      [.startLoop, .eventLoop, .publish, .startLoopDone, .destructor, .testLoop,
        .destructorQuit false, .quitDone false, .loop, .whileNotQuit,
        .inner (.polled [.wakeupChannel]), .inner .timersDone, .inner .handleEvent,
        .inner .handlersDone, .inner .swap, .inner .functorsDone] s ∧
      s.quitCalled = true ∧ s.owner = .joining ∧ s.loop.pc = .polling ∧ s.loop.iteration = 1 ∧
      s.loop.wakeupBytes = 0 ∧ ∀ t, s.quitting t = false := by
  obtain ⟨s, hs, hp⟩ := Machine.exists_run_of_exec machine Machine.Any
    (create true : EventLoopThread Bool Unit ℕ)
    [.startLoop, .eventLoop, .publish, .startLoopDone, .destructor, .testLoop,
      .destructorQuit false, .quitDone false, .loop, .whileNotQuit,
      .inner (.polled [.wakeupChannel]), .inner .timersDone, .inner .handleEvent,
      .inner .handlersDone, .inner .swap, .inner .functorsDone]
    (fun s => decide (s.quitCalled = true ∧ s.owner = .joining ∧ s.loop.pc = .polling ∧
      s.loop.iteration = 1 ∧ s.loop.wakeupBytes = 0 ∧ ∀ t, s.quitting t = false)) (by decide)
  exact ⟨s, hs, of_decide_eq_true hp⟩

end EventLoopThread
end MuduoWindows.Net
