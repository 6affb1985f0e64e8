import MuduoWindows.Net.Fault

/-! # net/eventLoop.cpp: the queue of functors and the wakeup pipe

The loop thread goes through `loop()`; at any time it and the other threads call `queueInLoop`,
which pushes under the mutex and writes to the pipe afterwards. `F` is the type of functors, `T`
that of threads and `C` that of channels other than `wakeupChannel_`. What the callbacks do besides
queueing functors does not matter here.
-/

namespace MuduoWindows.Net
open Library

/-- `pendingFunctors_`, and the functors that `doPendingFunctors` took and has still to call. -/
structure FunctorQueue (F : Type) where
  pendingFunctors : List F
  functors : List F
  deriving DecidableEq

namespace FunctorQueue
variable {F : Type}

def empty : FunctorQueue F := ⟨[], []⟩

def queueInLoop (q : FunctorQueue F) (cb : F) : FunctorQueue F :=
  { q with pendingFunctors := q.pendingFunctors ++ [cb] }

/-- `functors.swap(pendingFunctors_)` of a fresh `functors`. -/
def swap (q : FunctorQueue F) : FunctorQueue F := ⟨[], q.pendingFunctors⟩

/-- Every functor in flight, in the order of the calls to come. -/
def all (q : FunctorQueue F) : List F := q.functors ++ q.pendingFunctors

@[simp] theorem all_empty : (empty : FunctorQueue F).all = [] := rfl

@[simp] theorem all_queueInLoop (q : FunctorQueue F) (cb : F) :
    (q.queueInLoop cb).all = q.all ++ [cb] := by
  simp [all, queueInLoop]

theorem all_swap {q : FunctorQueue F} (h : q.functors = []) : q.swap.all = q.all := by
  simp [all, swap, h]

theorem all_cons {q : FunctorQueue F} {f : F} {rest : List F} (h : q.functors = f :: rest) :
    q.all = f :: all { q with functors := rest } := by
  unfold all
  rw [h, List.cons_append]

end FunctorQueue

/-- Where the loop thread stands in `loop()`. -/
inductive LoopPc where
  | outside
  /-- In `poller_->poll`. -/
  | polling
  /-- In `expiredProcess`. -/
  | timers
  /-- In the loop over `activeChannels_`. -/
  | handlers
  /-- In `doPendingFunctors`, before the swap. -/
  | swapping
  /-- In the loop over `functors`. -/
  | functors
  deriving DecidableEq

/-- Callbacks of the user run, so the loop thread can call `queueInLoop`. -/
def LoopPc.callsUser : LoopPc → Bool
  | .timers | .handlers | .functors => true
  | .outside | .polling | .swapping => false

/-- An element of `activeChannels_`. -/
inductive ActiveChannel (C : Type) where
  | wakeupChannel
  | channel (c : C)
  deriving DecidableEq

/-- `wakeupBytes` counts the unread bytes in the pipe; `pushed t` says that thread `t` is in
`queueInLoop` behind the push. -/
structure EventLoop (T C F : Type) where
  threadId : T
  quit : Bool
  looping : Bool
  eventHandling : Bool
  callingPendingFunctors : Bool
  iteration : ℕ
  activeChannels : List (ActiveChannel C)
  queue : FunctorQueue F
  wakeupBytes : ℕ
  pc : LoopPc
  pushed : T → Bool

namespace EventLoop
variable {T C F : Type}

/-- `EventLoop::EventLoop` on the thread that will run the loop. -/
def create (threadId : T) : EventLoop T C F :=
  { threadId := threadId, quit := false, looping := false, eventHandling := false
    callingPendingFunctors := false, iteration := 0, activeChannels := [], queue := .empty
    wakeupBytes := 0, pc := .outside, pushed := fun _ => false }

/-- `sizeof(uint64_t)`. -/
def sizeofOne : ℕ := 8

def wakeup (l : EventLoop T C F) : EventLoop T C F :=
  { l with wakeupBytes := l.wakeupBytes + sizeofOne }

def handleRead (l : EventLoop T C F) : EventLoop T C F :=
  { l with wakeupBytes := l.wakeupBytes - sizeofOne }

/-- The next active channel handles its event; only `wakeupChannel_` matters here. -/
def handleEvent (l : EventLoop T C F) : EventLoop T C F :=
  let l' := { l with activeChannels := l.activeChannels.tail }
  if l.activeChannels.head? matches some .wakeupChannel then l'.handleRead else l'

/-- The body of `while (!quit_)`, or its end. -/
def whileNotQuit (l : EventLoop T C F) : EventLoop T C F :=
  if l.quit then { l with looping := false, pc := .outside }
  else { l with activeChannels := [], pc := .polling }

inductive Event (T C F : Type) where
  /-- `queueInLoop` up to the end of the locked block; `runInLoop` of another thread is the
  same. -/
  | push (t : T) (cb : F)
  /-- The rest of `queueInLoop`. -/
  | pushDone (t : T)
  | quit (t : T)
  | loop
  /-- `poll` returns, with the channels it found. -/
  | polled (activeChannels : List (ActiveChannel C))
  | timersDone
  | handleEvent
  | handlersDone
  | swap
  | callFunctor
  | functorsDone

variable [DecidableEq T]

/-- `push_back` of the functor. -/
def push (l : EventLoop T C F) (t : T) (cb : F) : EventLoop T C F :=
  { l with queue := l.queue.queueInLoop cb, pushed := Function.update l.pushed t true }

/-- `if (!isInLoopThread() || callingPendingFunctors_) wakeup()`. -/
def pushDone (l : EventLoop T C F) (t : T) : EventLoop T C F :=
  let l' := { l with pushed := Function.update l.pushed t false }
  if t ≠ l.threadId ∨ l.callingPendingFunctors then l'.wakeup else l'

/-- Threads push at any time, the loop thread from callbacks; the loop thread goes on with
`loop()` only between its own calls. The wakeup channel is active only with 8 bytes to read. The
destruction of the functors at the end of `doPendingFunctors` is no step: none of it calls back. -/
def machine : Machine (EventLoop T C F) (Event T C F) Fault where
  enabled l
    | .push t _ => l.pushed t = false ∧ (t = l.threadId → l.pc.callsUser)
    | .pushDone t => l.pushed t
    | .quit t => l.pushed t = false ∧ (t = l.threadId → l.pc.callsUser)
    | .loop => l.pc = .outside
    | .polled _ => l.pc = .polling
    | .timersDone => l.pushed l.threadId = false ∧ l.pc = .timers
    | .handleEvent => l.pushed l.threadId = false ∧ l.pc = .handlers ∧ l.activeChannels ≠ [] ∧
        (l.activeChannels.head? = some .wakeupChannel → sizeofOne ≤ l.wakeupBytes)
    | .handlersDone => l.pushed l.threadId = false ∧ l.pc = .handlers ∧ l.activeChannels = []
    | .swap => l.pc = .swapping
    | .callFunctor => l.pushed l.threadId = false ∧ l.pc = .functors ∧ l.queue.functors ≠ []
    | .functorsDone => l.pushed l.threadId = false ∧ l.pc = .functors ∧ l.queue.functors = []
  step l
    | .push t cb => pure (l.push t cb)
    | .pushDone t => pure (l.pushDone t)
    | .quit t =>
      let l' := { l with quit := true }
      pure (if t ≠ l.threadId then l'.wakeup else l')
    | .loop => do
      assert (l.looping = false) "!looping_"
      pure (whileNotQuit { l with looping := true, quit := false })
    | .polled activeChannels =>
      pure { l with
        activeChannels := activeChannels, iteration := l.iteration + 1, eventHandling := true
        pc := .timers }
    | .timersDone => pure { l with pc := .handlers }
    | .handleEvent => pure l.handleEvent
    | .handlersDone =>
      pure { l with eventHandling := false, callingPendingFunctors := true, pc := .swapping }
    | .swap => pure { l with queue := l.queue.swap, pc := .functors }
    | .callFunctor => pure { l with queue := { l.queue with functors := l.queue.functors.tail } }
    | .functorsDone => pure (whileNotQuit { l with callingPendingFunctors := false })

def WillWake (l : EventLoop T C F) : Prop :=
  ∃ t, l.pushed t ∧ (t ≠ l.threadId ∨ l.callingPendingFunctors)

/-- From the swap until the next poll returns nothing is read from the pipe, so each functor
pushed since then has its bytes there or is about to get them. -/
structure Awake (l : EventLoop T C F) : Prop where
  looping : l.looping ↔ l.pc ≠ .outside
  calling : l.callingPendingFunctors ↔ l.pc = .swapping ∨ l.pc = .functors
  idle : l.pc = .polling ∨ l.pc = .outside ∨ l.pc = .swapping → l.pushed l.threadId = false
  wake : l.pc ≠ .timers → l.pc ≠ .handlers → l.pc ≠ .swapping →
    l.queue.pendingFunctors ≠ [] → sizeofOne ≤ l.wakeupBytes ∨ l.WillWake

variable {l : EventLoop T C F}

omit [DecidableEq T] in
theorem create_awake (threadId : T) : (create threadId : EventLoop T C F).Awake := by
  refine ⟨by simp [create], by simp [create], fun _ => rfl, fun _ _ _ h => ?_⟩
  exact absurd rfl h

omit [DecidableEq T] in
theorem Awake.wakeup (h : l.Awake) : l.wakeup.Awake :=
  ⟨h.looping, h.calling, h.idle, fun _ _ _ _ => .inl (Nat.le_add_left _ _)⟩

omit [DecidableEq T] in
theorem Awake.setQuit (h : l.Awake) : Awake { l with quit := true } :=
  ⟨h.looping, h.calling, h.idle, h.wake⟩

theorem Awake.push (h : l.Awake) {t : T} {cb : F} (ht : t = l.threadId → l.pc.callsUser) :
    (l.push t cb).Awake := by
  refine ⟨h.looping, h.calling, ?_, ?_⟩
  · intro hpc
    have hne : l.threadId ≠ t := by
      rintro rfl
      have huser := ht rfl
      rcases hpc with hpc | hpc | hpc <;> rw [show l.pc = _ from hpc] at huser <;> cases huser
    exact (Function.update_of_ne hne _ _).trans (h.idle hpc)
  · intro htimers hhandlers hswap _
    refine .inr ⟨t, Function.update_self _ _ _, ?_⟩
    by_cases hloop : t = l.threadId
    · have huser := ht hloop
      refine .inr (h.calling.mpr (.inr ?_))
      change l.pc ≠ _ at htimers hhandlers
      cases hpc : l.pc <;> simp_all [LoopPc.callsUser]
    · exact .inl hloop

theorem Awake.pushDone (h : l.Awake) (t : T) : (l.pushDone t).Awake := by
  -- a push that writes nothing leaves everybody else who will write
  have hidle : l.pc = .polling ∨ l.pc = .outside ∨ l.pc = .swapping →
      Function.update l.pushed t false l.threadId = false := by
    intro hpc
    by_cases hne : l.threadId = t
    · rw [hne, Function.update_self]
    · rw [Function.update_of_ne hne, h.idle hpc]
  unfold EventLoop.pushDone
  split_ifs with hwake
  · exact ⟨h.looping, h.calling, hidle, fun _ _ _ _ => .inl (Nat.le_add_left _ _)⟩
  · refine ⟨h.looping, h.calling, hidle, fun ht hh hs hp => ?_⟩
    rcases h.wake ht hh hs hp with hbytes | ⟨u, hu, hcause⟩
    · exact .inl hbytes
    · have hut : u ≠ t := fun he => hwake (he ▸ hcause)
      exact .inr ⟨u, (Function.update_of_ne hut _ _).trans hu, hcause⟩

theorem Awake.loop (h : l.Awake) (hpc : l.pc = .outside) :
    ∃ l', machine.step l .loop = .ok l' ∧ l'.Awake := by
  have hlooping : l.looping = false := by
    cases hl : l.looping with
    | false => rfl
    | true => exact absurd hpc (h.looping.mp hl)
  have hcalling : l.callingPendingFunctors = false := by
    cases hc : l.callingPendingFunctors with
    | false => rfl
    | true => rcases h.calling.mp hc with hc | hc <;> rw [hpc] at hc <;> cases hc
  refine ⟨whileNotQuit { l with looping := true, quit := false }, ?_, ?_⟩
  · change (assert _ _ >>= _) = _
    rw [require_bind hlooping, pure_eq_ok]
  · refine ⟨by simp [whileNotQuit], by simp [whileNotQuit, hcalling], ?_, ?_⟩
    · exact fun _ => h.idle (.inr (.inl hpc))
    · exact fun _ _ _ => h.wake (by simp [hpc]) (by simp [hpc]) (by simp [hpc])

theorem Awake.functorsDone (h : l.Awake) (he : machine.enabled l .functorsDone) :
    ∃ l', machine.step l .functorsDone = .ok l' ∧ l'.Awake := by
  obtain ⟨hidle, hpc, -⟩ := he
  have hlooping : l.looping := h.looping.mpr (by simp [hpc])
  refine ⟨_, rfl, ?_⟩
  have hwake : l.queue.pendingFunctors ≠ [] → sizeofOne ≤ l.wakeupBytes ∨
      ∃ t, l.pushed t ∧ t ≠ l.threadId := by
    intro hp
    rcases h.wake (by simp [hpc]) (by simp [hpc]) (by simp [hpc]) hp with hb | ⟨t, ht, -⟩
    · exact .inl hb
    · refine .inr ⟨t, ht, ?_⟩
      rintro rfl
      rw [hidle] at ht
      cases ht
  have hwill : ∀ l' : EventLoop T C F, l'.pushed = l.pushed → l'.threadId = l.threadId →
      (∃ t, l.pushed t ∧ t ≠ l.threadId) → l'.WillWake := by
    rintro l' hpushed hid ⟨t, ht, hne⟩
    exact ⟨t, by rw [hpushed]; exact ht, .inl (by rw [hid]; exact hne)⟩
  unfold whileNotQuit
  split_ifs
  · exact ⟨by simp, by simp, fun _ => hidle,
      fun _ _ _ hp => (hwake hp).imp_right (hwill _ rfl rfl)⟩
  · exact ⟨by simpa using hlooping, by simp, fun _ => hidle,
      fun _ _ _ hp => (hwake hp).imp_right (hwill _ rfl rfl)⟩

theorem Awake.step (h : l.Awake) {e : Event T C F} (he : machine.enabled l e) :
    ∃ l', machine.step l e = .ok l' ∧ l'.Awake := by
  cases e with
  | push t cb => exact ⟨_, rfl, h.push he.2⟩
  | pushDone t => exact ⟨_, rfl, h.pushDone t⟩
  | quit t =>
    refine ⟨_, rfl, ?_⟩
    split_ifs
    · exact h.setQuit.wakeup
    · exact h.setQuit
  | loop => exact h.loop he
  | polled activeChannels =>
    have hpc : l.pc = .polling := he
    refine ⟨_, rfl, ⟨?_, ?_, ?_, ?_⟩⟩
    · simpa [hpc] using h.looping
    · simpa [hpc] using h.calling
    · simp
    · simp
  | timersDone =>
    have hpc : l.pc = .timers := he.2
    refine ⟨_, rfl, ⟨?_, ?_, ?_, ?_⟩⟩
    · simpa [hpc] using h.looping
    · simpa [hpc] using h.calling
    · simp
    · simp
  | handleEvent =>
    have hpc : l.pc = .handlers := he.2.1
    have hframe : l.handleEvent.pc = l.pc ∧ l.handleEvent.looping = l.looping ∧
        l.handleEvent.callingPendingFunctors = l.callingPendingFunctors := by
      unfold EventLoop.handleEvent
      split_ifs <;> exact ⟨rfl, rfl, rfl⟩
    obtain ⟨hpc', hlooping, hcalling⟩ := hframe
    refine ⟨_, rfl, ⟨?_, ?_, ?_, ?_⟩⟩
    · rw [hpc', hlooping]
      exact h.looping
    · rw [hpc', hcalling]
      exact h.calling
    · simp [hpc', hpc]
    · simp [hpc', hpc]
  | handlersDone =>
    have hpc : l.pc = .handlers := he.2.1
    refine ⟨_, rfl, ⟨?_, ?_, ?_, ?_⟩⟩
    · simpa [hpc] using h.looping
    · simp
    · exact fun _ => he.1
    · simp
  | swap =>
    have hpc : l.pc = .swapping := he
    refine ⟨_, rfl, ⟨?_, ?_, ?_, ?_⟩⟩
    · simpa [hpc] using h.looping
    · simpa [hpc] using h.calling
    · simp
    · exact fun _ _ _ hp => absurd rfl hp
  | callFunctor =>
    exact ⟨_, rfl, ⟨h.looping, h.calling, h.idle, h.wake⟩⟩
  | functorsDone => exact h.functorsDone he

theorem awake_run {threadId : T} {es : List (Event T C F)}
    (h : machine.Run Machine.Any (create threadId) es l) : l.Awake := by
  refine h.invariant Awake (create_awake threadId) ?_
  intro t e u ht he _ hu
  obtain ⟨v, hv, hawake⟩ := ht.step he
  obtain rfl := Except.ok.inj (hv.symm.trans hu)
  exact hawake

/-- While the loop thread is blocked in `poll` with a functor pending, 8 bytes are unread in the
pipe or a thread is about to write them. -/
theorem no_functor_sleeps {threadId : T} {es : List (Event T C F)} {l : EventLoop T C F}
    (h : machine.Run Machine.Any (create threadId) es l) (hpoll : l.pc = .polling)
    (hpending : l.queue.pendingFunctors ≠ []) : 8 ≤ l.wakeupBytes ∨ ∃ t, l.pushed t := by
  have hawake := awake_run h
  rcases hawake.wake (by simp [hpoll]) (by simp [hpoll]) (by simp [hpoll]) hpending with hb | hw
  · exact .inl hb
  · obtain ⟨t, ht, -⟩ := hw
    exact .inr ⟨t, ht⟩

instance [DecidableEq C] [DecidableEq F] (l : EventLoop T C F) :
    ∀ e, Decidable (machine.enabled l e)
  | .push t _ => inferInstanceAs (Decidable (l.pushed t = false ∧ (_ → l.pc.callsUser = true)))
  | .quit t => inferInstanceAs (Decidable (l.pushed t = false ∧ (_ → l.pc.callsUser = true)))
  | .pushDone t => inferInstanceAs (Decidable (l.pushed t = true))
  | .loop => inferInstanceAs (Decidable (l.pc = .outside))
  | .polled _ => inferInstanceAs (Decidable (l.pc = .polling))
  | .timersDone => inferInstanceAs (Decidable (_ ∧ l.pc = .timers))
  | .handleEvent =>
    inferInstanceAs (Decidable (_ ∧ l.pc = .handlers ∧ l.activeChannels ≠ [] ∧ (_ → _)))
  | .handlersDone => inferInstanceAs (Decidable (_ ∧ l.pc = .handlers ∧ _))
  | .swap => inferInstanceAs (Decidable (l.pc = .swapping))
  | .callFunctor => inferInstanceAs (Decidable (_ ∧ l.pc = .functors ∧ l.queue.functors ≠ []))
  | .functorsDone => inferInstanceAs (Decidable (_ ∧ l.pc = .functors ∧ l.queue.functors = []))

/-- The loop thread (`false`) queues from a pending functor that another thread queued. -/
theorem no_functor_sleeps_nested :
    ∃ l : EventLoop Bool Unit ℕ, machine.Run Machine.Any (create false)
      [.loop, .push true 0, .pushDone true, .polled [.wakeupChannel], .timersDone, .handleEvent,
        .handlersDone, .swap, .callFunctor, .push false 1, .pushDone false, .functorsDone] l ∧
      (8 ≤ l.wakeupBytes ∨ ∃ t, l.pushed t) := by
  obtain ⟨l, hl, hp⟩ := Machine.exists_run_of_exec machine Machine.Any
    ((create false : EventLoop Bool Unit ℕ))
    [.loop, .push true 0, .pushDone true, .polled [.wakeupChannel], .timersDone,
      .handleEvent, .handlersDone, .swap, .callFunctor, .push false 1, .pushDone false,
      .functorsDone]
    (fun l => decide (l.pc = .polling ∧ l.queue.pendingFunctors ≠ [])) (by decide)
  obtain ⟨hpc, hpending⟩ := of_decide_eq_true hp
  exact ⟨l, hl, no_functor_sleeps hl hpc hpending⟩

end EventLoop
end MuduoWindows.Net
