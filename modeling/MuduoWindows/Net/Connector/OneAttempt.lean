import MuduoWindows.Net.Connector.Attempts

/-! # One attempt at a time

A functor or a timer that is to connect finds the connector free, because what could be left over
is queued in front of it. The calls of the user must find no chain. `stop` may come between any two
steps of a function on the loop's thread.
-/

namespace MuduoWindows.Net
open Library

namespace ConnectorThreads
open Connector (Inv)

/-- The calls of `start` and `restart` that find the connector without a chain, no function of it
at work and no other call under way. What an earlier call has left to the loop may still be queued
if `start` queues its functor behind it. -/
def Ready (s : ConnectorThreads) : Event → Prop
  | .start isInLoopThread _ => s.Idle ∧ s.calling = [] ∧ s.connector.state = .kDisconnected ∧
      s.connector.timers = [] ∧ .startInLoop ∉ s.connector.queue.all ∧
      (isInLoopThread = true → s.connector.channel = none ∧ .stopInLoop ∉ s.connector.queue.all)
  | .restart _ => s.calling = [] ∧ s.connector.state ≠ .kConnecting ∧ s.connector.timers = [] ∧
      .startInLoop ∉ s.connector.queue.all ∧ s.connector.channel = none ∧
      .stopInLoop ∉ s.connector.queue.all
  | .stop _ => .startInLoop ∉ s.calling
  | _ => True

/-- No `start` is under way on another thread. -/
structure Steady (s : ConnectorThreads) : Prop where
  paused : s.connector.Paused s.pause
  callbacks : s.callbacks ≠ [] → s.connector.pc = .handlers ∧ s.connector.active = none ∧
    s.connector.state ≠ .kConnected ∧ .write ∉ s.callbacks.dropLast
  calling : ∀ f ∈ s.calling, f = .stopInLoop ∧ s.connector.connect_ = false

/-- Another thread has set `connect_` and not yet queued `startInLoop`. -/
structure Starting (s : ConnectorThreads) : Prop where
  idle : s.Idle
  calling : s.calling = [.startInLoop]
  inv : Inv none { s.connector with connect_ := false }
  state : s.connector.state = .kDisconnected
  timers : s.connector.timers = []
  start : .startInLoop ∉ s.connector.queue.all

def Keeps (r : Result ConnectorThreads) : Prop := ∃ s, r = .ok s ∧ (s.Steady ∨ s.Starting)

variable {s : ConnectorThreads}

theorem create_steady : create.Steady :=
  ⟨⟨none, Connector.create_inv⟩, fun h => absurd rfl h, fun _ h => absurd h List.not_mem_nil⟩

theorem Steady.inv (h : s.Steady) (hpause : s.pause = none) : ∃ o, Inv o s.connector := by
  have hpaused := h.paused
  rwa [hpause] at hpaused

theorem startInLoop_keeps (h : Inv none s.connector) (hs : s.connector.state = .kDisconnected)
    (hfree : s.connector.connect_ = true → s.connector.Free) (hcallbacks : s.callbacks = [])
    (hcalling : ∀ f ∈ s.calling, f = .stopInLoop ∧ s.connector.connect_ = false)
    (savedErrno : ConnectErrno) : Keeps (s.startInLoop savedErrno) :=
  ⟨_, require_bind hs _, .inl ⟨⟨h, hs, hfree⟩, fun hne => absurd hcallbacks hne, hcalling⟩⟩

theorem retry_steady {connector : Connector} {fd : ℕ} (h : Inv (some fd) connector)
    (hactive : connector.active = none)
    (hpc : connector.connect_ = true → connector.pc = .handlers)
    (hcallbacks : s.callbacks ≠ [] →
      connector.pc = .handlers ∧ .write ∉ s.callbacks.dropLast)
    (hcalling : ∀ f ∈ s.calling, f = .stopInLoop ∧ connector.connect_ = false) :
    Steady ({ s with connector := connector.removed fd }.retry fd) := by
  have hs : connector.state ≠ .kDisconnected := by
    rw [h.state.mpr nofun]
    nofun
  obtain ⟨hstart, htimers⟩ := h.alone hs
  have hall : (connector.removed fd).queue.all = connector.queue.all ++ [.resetChannel] :=
    FunctorQueue.all_queueInLoop _ _
  refine ⟨⟨h.ended nofun hactive fun i => (h.settle i).1, ⟨rfl, htimers, ?_⟩,
      fun hc => .inr (hpc hc)⟩,
    fun hne => ⟨(hcallbacks hne).1, hactive, nofun, (hcallbacks hne).2⟩, hcalling⟩
  change .startInLoop ∉ (connector.removed fd).queue.all
  rw [hall]
  simpa using hstart

theorem Steady.handleError (h : s.Steady) (hpause : s.pause = none)
    (hpc : s.connector.pc = .handlers) (hactive : s.connector.active = none)
    (hwrite : .write ∉ s.callbacks.dropLast) :
    Keeps s.handleError := by
  obtain ⟨o, ho⟩ := h.inv hpause
  unfold ConnectorThreads.handleError
  by_cases hc : s.connector.state = .kConnecting
  · obtain ⟨fd, rfl⟩ := Option.ne_none_iff_exists'.mp (ho.state.mp hc)
    rw [if_pos hc, ho.removeAndResetChannel_eq, ok_bind]
    exact ⟨_, rfl, .inl (retry_steady ho hactive (fun _ => hpc) (fun _ => ⟨hpc, hwrite⟩) h.calling)⟩
  · rw [if_neg hc]
    exact ⟨s, rfl, .inl h⟩

/-- The write callback is the last one, so `handleWrite` finds no connection. -/
theorem Steady.handleWrite (h : s.Steady) (hpause : s.pause = none)
    (hpc : s.connector.pc = .handlers) (hactive : s.connector.active = none)
    (hs : s.connector.state ≠ .kConnected) (hlast : s.callbacks = []) (err isSelfConnect : Bool) :
    Keeps (s.handleWrite err isSelfConnect) := by
  obtain ⟨o, ho⟩ := h.inv hpause
  unfold ConnectorThreads.handleWrite
  by_cases hc : s.connector.state = .kConnecting
  · obtain ⟨fd, rfl⟩ := Option.ne_none_iff_exists'.mp (ho.state.mp hc)
    have hretry := retry_steady ho hactive (fun _ => hpc) (fun hne => absurd hlast hne) h.calling
    rw [if_pos hc, ho.removeAndResetChannel_eq, ok_bind]
    dsimp only
    split_ifs
    · exact ⟨_, rfl, .inl hretry⟩
    · exact ⟨_, rfl, .inl hretry⟩
    · exact ⟨_, rfl, .inl ⟨⟨ho.ended nofun hactive fun i => (ho.settle i).1,
        ho.ended nofun hactive fun i => (ho.settle i).2⟩, fun hne => absurd hlast hne, h.calling⟩⟩
  · have hdown : s.connector.state = .kDisconnected := by
      cases hstate : s.connector.state with
      | kDisconnected => rfl
      | kConnecting => exact absurd hstate hc
      | kConnected => exact absurd hstate hs
    rw [if_neg hc, require_bind hdown]
    exact ⟨s, rfl, .inl h⟩

theorem Steady.stopInLoop (h : s.Steady) (hidle : s.Idle) (hactive : s.connector.active = none)
    (hconnect : s.connector.state = .kConnecting → s.connector.connect_ = false) :
    Keeps s.stopInLoop := by
  obtain ⟨hpause, hlast⟩ := hidle
  obtain ⟨o, ho⟩ := h.inv hpause
  unfold ConnectorThreads.stopInLoop
  by_cases hc : s.connector.state = .kConnecting
  · obtain ⟨fd, rfl⟩ := Option.ne_none_iff_exists'.mp (ho.state.mp hc)
    have hremove : (s.connector.setState .kDisconnected).removeAndResetChannel =
        .ok (fd, (s.connector.setState .kDisconnected).removed fd) :=
      Connector.removeAndResetChannel_eq (ho.attempt fd rfl).2 ho.channels
    have hretry := retry_steady ho hactive
      (fun hset => absurd ((hconnect hc).symm.trans hset) Bool.false_ne_true)
      (fun hne => absurd hlast hne) h.calling
    rw [if_pos hc, hremove, ok_bind]
    exact ⟨_, rfl, .inl hretry⟩
  · rw [if_neg hc]
    exact ⟨s, rfl, .inl h⟩

theorem handleEventWithGuard_write (revents : Events) :
    .write ∉ (Channel.handleEventWithGuard revents).dropLast := by
  obtain ⟨front, heq, hfront⟩ := Channel.exists_handleEventWithGuard_eq revents
  rw [heq]
  split_ifs
  · rw [List.dropLast_concat]
    exact hfront
  · rw [List.append_nil]
    exact fun hmem => hfront (List.mem_of_mem_dropLast hmem)

theorem Steady.callback (h : s.Steady) {callback : Channel.Callback}
    {callbacks : List Channel.Callback} (hpause : s.pause = none)
    (hc : s.callbacks = callback :: callbacks) (err isSelfConnect : Bool) :
    Keeps ({ s with callbacks := callbacks }.runCallback err isSelfConnect callback) := by
  obtain ⟨hpc, hactive, hs, hwrite⟩ := h.callbacks (by rw [hc]; nofun)
  rw [hc] at hwrite
  have hrest : .write ∉ callbacks.dropLast := by
    cases callbacks with
    | nil => exact List.not_mem_nil
    | cons next callbacks => exact fun hmem => hwrite (List.mem_cons_of_mem _ hmem)
  have hsteady : Steady { s with callbacks := callbacks } :=
    ⟨h.paused, fun _ => ⟨hpc, hactive, hs, hrest⟩, h.calling⟩
  cases callback with
  | write =>
    refine hsteady.handleWrite hpause hpc hactive hs ?_ err isSelfConnect
    cases callbacks with
    | nil => rfl
    | cons next callbacks => exact absurd List.mem_cons_self hwrite
  | error => exact hsteady.handleError hpause hpc hactive hrest
  | close | read => exact ⟨_, rfl, .inl hsteady⟩

theorem Steady.call (h : s.Steady) (hidle : s.Idle) (hpc : s.connector.pc = .functors)
    {f : ConnectorFunctor} {rest : List ConnectorFunctor}
    (hq : s.connector.queue.functors = f :: rest) (savedErrno : ConnectErrno) :
    Keeps ({ s with connector := { s.connector with
      queue := { s.connector.queue with functors := rest } } }.runFunctor savedErrno f) := by
  obtain ⟨o, ho⟩ := h.inv hidle.1
  cases f with
  | startInLoop =>
    obtain ⟨hs, hfree⟩ := ho.pop_start hq
    obtain rfl : o = none := ho.none_iff.mpr (by rw [hs]; nofun)
    have hpop := ho.pop hpc hq nofun
    exact startInLoop_keeps (s := { s with connector := { s.connector with
      queue := { s.connector.queue with functors := rest } } }) hpop hs hfree hidle.2 h.calling
      savedErrno
  | stopInLoop =>
    have hpop : Steady { s with connector := { s.connector with
        queue := { s.connector.queue with functors := rest } } } := by
      refine ⟨?_, fun hne => absurd hidle.2 hne, h.calling⟩
      rw [show s.pause = none from hidle.1]
      exact ⟨o, ho.pop hpc hq nofun⟩
    refine hpop.stopInLoop hidle ?_ fun hs => ?_
    · by_contra hactive
      rcases (ho.active hactive).2 with hpc' | hpc' <;> rw [hpc] at hpc' <;> cases hpc'
    · -- `start` has not been called again, as its functor would stand in the chain
      by_contra hconnect
      have hmem : ConnectorFunctor.stopInLoop ∈ s.connector.queue.all := by
        rw [FunctorQueue.all_cons hq]
        exact List.mem_cons_self
      have hstart := ho.stopped (eq_true_of_ne_false hconnect) hmem
      have hup : s.connector.state ≠ .kDisconnected := by
        rw [show s.connector.state = .kConnecting from hs]
        nofun
      exact (ho.alone hup).1 hstart
  | resetChannel =>
    have hinv := ho.popReset hpc hq
    unfold runFunctor
    rw [Connector.resetChannel_eq (s := { s.connector with
      queue := { s.connector.queue with functors := rest } }) hinv.unregistered, ok_bind]
    refine ⟨_, rfl, .inl ⟨?_, fun hne => absurd hidle.2 hne, h.calling⟩⟩
    change Connector.Paused _ s.pause
    rw [hidle.1]
    exact ⟨none, hinv⟩

theorem Steady.resume (h : s.Steady) {pause : Pause} (hpause : s.pause = some pause) :
    Keeps (s.resume pause) := by
  have hpaused := h.paused
  rw [hpause] at hpaused
  cases pause with
  | startInLoop savedErrno =>
    obtain ⟨hinv, hs, hfree⟩ := hpaused
    refine ⟨_, rfl, .inl ⟨?_, h.callbacks, h.calling⟩⟩
    dsimp only
    split_ifs with hconnect
    · exact ⟨hinv, hs, (hfree hconnect).toClear⟩
    · exact ⟨none, hinv⟩
  | connect savedErrno =>
    obtain ⟨hinv, hs, hclear⟩ := hpaused
    have hcallbacks {state : ConnectorState} (hstate : state ≠ .kConnected)
        (hne : s.callbacks ≠ []) :
        s.connector.pc = .handlers ∧ s.connector.active = none ∧ state ≠ .kConnected ∧
          .write ∉ s.callbacks.dropLast := by
      obtain ⟨hpc, hactive, -, hwrite⟩ := h.callbacks hne
      exact ⟨hpc, hactive, hstate, hwrite⟩
    change Keeps (ConnectorThreads.connect { s with pause := none } savedErrno)
    unfold ConnectorThreads.connect
    cases savedErrno with
    | ok | EINPROGRESS | WSAEINTR | EISCONN | WSAEWOULDBLOCK =>
      dsimp only
      rw [Connector.connecting_eq (s := { s.connector with sockets := s.connector.sockets + 1 })
        hclear.channel (hinv.unregistered _), ok_bind]
      exact ⟨_, rfl, .inl ⟨⟨_, hinv.connecting hclear⟩, hcallbacks nofun, h.calling⟩⟩
    | EAGAIN | EADDRINUSE | EADDRNOTAVAIL | ECONNREFUSED | ENETUNREACH =>
      have hrefused : Inv none ((Connector.close { s.connector with
          sockets := s.connector.sockets + 1 } s.connector.sockets).setState .kDisconnected) := by
        rw [← hs]
        exact hinv.refused
      exact ⟨_, rfl, .inl ⟨⟨hrefused, ⟨rfl, hclear.timers, hclear.start⟩,
        fun _ => .inl hclear.channel⟩, hcallbacks nofun, h.calling⟩⟩
    | EACCES | EPERM | EAFNOSUPPORT | EALREADY | EBADF | EFAULT | ENOTSOCK | unexpected =>
      exact ⟨_, rfl, .inl ⟨⟨none, hinv.refused⟩, h.callbacks, h.calling⟩⟩
  | retry =>
    obtain ⟨hinv, hretries, hpc⟩ := hpaused
    refine ⟨_, rfl, .inl ⟨?_, h.callbacks, h.calling⟩⟩
    dsimp only
    split_ifs with hconnect
    · exact ⟨hinv, hretries, hpc hconnect⟩
    · exact ⟨none, hinv⟩
  | runAfter =>
    obtain ⟨hinv, hretries, hpc⟩ := hpaused
    exact ⟨_, rfl, .inl ⟨⟨none, hinv.runAfter hretries.state hretries.timers hretries.start hpc⟩,
      h.callbacks, h.calling⟩⟩
  | handleWrite sockfd =>
    obtain ⟨hclose, hhand⟩ := hpaused
    change Keeps (if s.connector.connect_ then _ else _)
    split_ifs
    · exact ⟨_, rfl, .inl ⟨⟨hclose, hhand⟩, h.callbacks, h.calling⟩⟩
    · exact ⟨_, rfl, .inl ⟨⟨none, hclose⟩, h.callbacks, h.calling⟩⟩
  | newConnectionCallback sockfd =>
    obtain ⟨-, hhand⟩ := hpaused
    exact ⟨_, rfl, .inl ⟨⟨none, hhand⟩, h.callbacks, h.calling⟩⟩

theorem Steady.start (h : s.Steady) {isInLoopThread : Bool} {savedErrno : ConnectErrno}
    (hready : s.Ready (.start isInLoopThread savedErrno)) :
    Keeps (machine.step s (.start isInLoopThread savedErrno)) := by
  obtain ⟨⟨hpause, hlast⟩, hcalling, hs, htimers, hstart, hthread⟩ := hready
  obtain ⟨o, ho⟩ := h.inv hpause
  obtain rfl : o = none := ho.none_iff.mpr (by rw [hs]; nofun)
  cases isInLoopThread with
  | true =>
    obtain ⟨hchannel, hstop⟩ := hthread rfl
    have hallow := ho.allow ⟨⟨hchannel, htimers, hstart⟩, hstop⟩ s.connector.retryDelayMs
    rw [← hs] at hallow
    refine startInLoop_keeps (s := { s with connector := { s.connector with connect_ := true } })
      hallow hs (fun _ => ⟨⟨hchannel, htimers, hstart⟩, hstop⟩) hlast ?_ savedErrno
    rw [show s.calling = [] from hcalling]
    exact fun f hf => absurd hf List.not_mem_nil
  | false =>
    refine ⟨_, rfl, .inr ⟨⟨hpause, hlast⟩, ?_, ho.forbid, hs, htimers, hstart⟩⟩
    change s.calling ++ [.startInLoop] = _
    rw [hcalling]
    rfl

theorem Steady.stop (h : s.Steady) (isInLoopThread : Bool) :
    Keeps (machine.step s (.stop isInLoopThread)) := by
  cases isInLoopThread with
  | true =>
    exact ⟨_, rfl, .inl ⟨h.paused.forbid.queueStop rfl, h.callbacks,
      fun f hf => ⟨(h.calling f hf).1, rfl⟩⟩⟩
  | false =>
    refine ⟨_, rfl, .inl ⟨h.paused.forbid, h.callbacks, fun f hf => ⟨?_, rfl⟩⟩⟩
    rcases List.mem_append.mp hf with hf | hf
    · exact (h.calling f hf).1
    · exact List.mem_singleton.mp hf

theorem Steady.goOn (h : s.Steady) {e : Connector.Event} (he : machine.enabled s (.goOn e)) :
    Keeps (machine.step s (.goOn e)) := by
  obtain ⟨hgoes, ⟨hpause, hlast⟩, he⟩ := he
  obtain ⟨o, ho⟩ := h.inv hpause
  obtain ⟨t, ht, -, hconnect, -⟩ := step_goesOn s.connector hgoes
  obtain ⟨u, hu, hinv⟩ := ho.goesOn hgoes he
  obtain rfl := Except.ok.inj (ht.symm.trans hu)
  change Keeps (Connector.machine.step s.connector e >>= _)
  rw [ht, ok_bind]
  refine ⟨_, rfl, .inl ⟨?_, fun hne => absurd hlast hne, fun f hf => ?_⟩⟩
  · change Connector.Paused t s.pause
    rw [hpause]
    exact ⟨o, hinv⟩
  · exact ⟨(h.calling f hf).1, hconnect.trans (h.calling f hf).2⟩

/-- The channel is taken from the active ones, and its callbacks are to be called. -/
theorem Steady.handleEvent (h : s.Steady) (he : machine.enabled s .handleEvent) :
    Keeps (machine.step s .handleEvent) := by
  obtain ⟨⟨hpause, hlast⟩, hpc, hactive⟩ := he
  obtain ⟨o, ho⟩ := h.inv hpause
  obtain ⟨revents, hrevents⟩ := Option.ne_none_iff_exists'.mp hactive
  have hs : s.connector.state = .kConnecting := ho.state.mpr (ho.active hactive).1
  have htaken : Inv o { s.connector with active := none } :=
    ⟨ho.state, ho.attempt, ho.channels, ho.ledger, ho.chain, ho.reset, ho.resetFirst,
      ho.stopFirst, ho.stopped, ho.timer, nofun, ho.batch⟩
  refine ⟨_, rfl, .inl ⟨?_, fun _ => ⟨hpc, rfl, ?_, ?_⟩, h.calling⟩⟩
  · change Connector.Paused _ s.pause
    rw [hpause]
    exact ⟨o, htaken⟩
  · change s.connector.state ≠ _
    rw [hs]
    nofun
  · dsimp only
    rw [hrevents]
    exact handleEventWithGuard_write revents

theorem Steady.step (h : s.Steady) {e : Event} (he : machine.enabled s e) (hready : s.Ready e) :
    Keeps (machine.step s e) := by
  cases e with
  | start isInLoopThread savedErrno => exact h.start hready
  | restart savedErrno =>
    obtain ⟨hcalling, hs, htimers, hstart, hchannel, hstop⟩ := hready
    obtain ⟨⟨hpause, hlast⟩, -⟩ := he
    obtain ⟨o, ho⟩ := h.inv hpause
    obtain rfl : o = none := ho.none_iff.mpr hs
    have hallow := ho.allow ⟨⟨hchannel, htimers, hstart⟩, hstop⟩ Connector.kInitRetryDelayMs
    refine startInLoop_keeps (s := { s with connector := { s.connector with
      state := .kDisconnected, retryDelayMs := Connector.kInitRetryDelayMs, connect_ := true } })
      hallow rfl (fun _ => ⟨⟨hchannel, htimers, hstart⟩, hstop⟩) hlast ?_ savedErrno
    rw [show s.calling = [] from hcalling]
    exact fun f hf => absurd hf List.not_mem_nil
  | stop isInLoopThread => exact h.stop isInLoopThread
  | queue f =>
    obtain ⟨rfl, hconnect⟩ := h.calling f he
    exact ⟨_, rfl, .inl ⟨h.paused.queueStop hconnect, h.callbacks,
      fun f hf => h.calling f (List.mem_of_mem_erase hf)⟩⟩
  | goOn e => exact h.goOn he
  | timer i savedErrno =>
    obtain ⟨⟨hpause, hlast⟩, hpc, hi⟩ := he
    obtain ⟨o, ho⟩ := h.inv hpause
    obtain ⟨hinv, hs, hfree⟩ := ho.fire hpc hi
    exact startInLoop_keeps (s := { s with connector := { s.connector with
      timers := s.connector.timers.eraseIdx i } }) hinv hs hfree hlast h.calling savedErrno
  | handleEvent => exact h.handleEvent he
  | callback err isSelfConnect =>
    obtain ⟨callback, callbacks, hc⟩ := List.exists_cons_of_ne_nil he.2
    rw [step_callback hc]
    exact h.callback he.1 hc err isSelfConnect
  | call savedErrno =>
    obtain ⟨hidle, hpc, hne⟩ := he
    obtain ⟨f, rest, hq⟩ := List.exists_cons_of_ne_nil hne
    rw [step_call hq]
    exact h.call hidle hpc hq savedErrno
  | resume =>
    obtain ⟨pause, hpause⟩ := Option.ne_none_iff_exists'.mp he
    rw [step_resume hpause]
    exact h.resume hpause

/-- The loop finds nothing to do that connects until `startInLoop` is queued. -/
theorem Starting.step (h : s.Starting) {e : Event} (he : machine.enabled s e) (hready : s.Ready e) :
    Keeps (machine.step s e) := by
  obtain ⟨hidle, hcalling, hinv, hs, htimers, hstart⟩ := h
  have hbusy : s.calling ≠ [] := by
    rw [hcalling]
    nofun
  cases e with
  | start => exact absurd hready.2.1 hbusy
  | restart => exact absurd hready.1 hbusy
  | stop =>
    refine absurd ?_ hready
    rw [hcalling]
    exact List.mem_singleton.mpr rfl
  | queue f =>
    change f ∈ s.calling at he
    rw [hcalling] at he
    obtain rfl := List.mem_singleton.mp he
    refine ⟨_, rfl, .inl ⟨?_, fun hne => absurd hidle.2 hne, fun f hf => ?_⟩⟩
    · change Connector.Paused _ s.pause
      rw [hidle.1]
      exact ⟨none, hinv.queueStart hs htimers hstart⟩
    · change f ∈ s.calling.erase .startInLoop at hf
      rw [hcalling] at hf
      exact absurd hf List.not_mem_nil
  | goOn e =>
    obtain ⟨hgoes, -, he⟩ := he
    obtain ⟨t, ht, hforbid, -, hstate, htimers', hall⟩ := step_goesOn s.connector hgoes
    obtain ⟨u, hu, hinv'⟩ := hinv.goesOn hgoes he
    obtain rfl := Except.ok.inj (hforbid.symm.trans hu)
    change Keeps (Connector.machine.step s.connector e >>= _)
    rw [ht, ok_bind]
    exact ⟨_, rfl, .inr ⟨hidle, hcalling, hinv', hstate.trans hs, htimers'.trans htimers,
      fun hmem => hstart (hall hmem)⟩⟩
  | timer i savedErrno =>
    have hi : i < s.connector.timers.length := he.2.2
    rw [htimers] at hi
    exact absurd hi (Nat.not_lt_zero i)
  | handleEvent =>
    obtain ⟨-, -, hactive⟩ := he
    exact absurd rfl (hinv.active hactive).1
  | callback => exact absurd hidle.2 he.2
  | call savedErrno =>
    obtain ⟨-, hpc, hne⟩ := he
    obtain ⟨f, rest, hq⟩ := List.exists_cons_of_ne_nil hne
    have hrest : ∀ {f'}, f' ∈ FunctorQueue.all { s.connector.queue with functors := rest } →
        f' ∈ s.connector.queue.all := by
      intro f' hmem
      rw [FunctorQueue.all_cons hq]
      exact List.mem_cons_of_mem _ hmem
    rw [step_call hq]
    cases f with
    | startInLoop =>
      refine absurd ?_ hstart
      rw [FunctorQueue.all_cons hq]
      exact List.mem_cons_self
    | stopInLoop =>
      have hidly : s.connector.state ≠ .kConnecting := by
        rw [hs]
        nofun
      unfold runFunctor stopInLoop
      rw [if_neg hidly]
      exact ⟨_, rfl, .inr ⟨hidle, hcalling, hinv.pop hpc hq nofun, hs, htimers,
        fun hmem => hstart (hrest hmem)⟩⟩
    | resetChannel =>
      have hinv' := hinv.popReset hpc hq
      unfold runFunctor
      rw [Connector.resetChannel_eq (s := { s.connector with
        queue := { s.connector.queue with functors := rest } }) hinv'.unregistered, ok_bind]
      exact ⟨_, rfl, .inr ⟨hidle, hcalling, hinv', hs, htimers, fun hmem => hstart (hrest hmem)⟩⟩
  | resume => exact absurd hidle.1 he

theorem step_keeps (h : s.Steady ∨ s.Starting) {e : Event} (he : machine.enabled s e)
    (hready : s.Ready e) : Keeps (machine.step s e) :=
  h.elim (fun h => h.step he hready) fun h => h.step he hready

theorem run_keeps {es : List Event} (h : machine.Run Ready create es s) :
    s.Steady ∨ s.Starting := by
  refine h.invariant (fun s => s.Steady ∨ s.Starting) (.inl create_steady) ?_
  intro t e u ht he hready hu
  obtain ⟨v, hv, hkeeps⟩ := step_keeps ht he hready
  obtain rfl := Except.ok.inj (hv.symm.trans hu)
  exact hkeeps

/-- `handleWrite` has the socket and is about to hand it over or to close it. -/
def Holds (s : ConnectorThreads) (fd : ℕ) : Prop :=
  s.pause = some (.handleWrite fd) ∨ s.pause = some (.newConnectionCallback fd)

/-- The connector has at most one socket: that of the attempt or the one that `handleWrite` has. -/
structure Owns (s : ConnectorThreads) (o : Option ℕ) : Prop where
  state : s.connector.state = .kConnecting ↔ ∃ fd, s.connector.WritingChannel fd
  opened : ∀ i, s.connector.Opened i → o = some i
  held : ∀ i, o = some i → s.connector.WritingChannel i ∨ s.Holds i
  ledger : ∀ i, s.connector.closed i + s.connector.handed i =
    if i < s.connector.sockets ∧ o ≠ some i then 1 else 0

theorem owns_of_inv {o : Option ℕ} {connect_ : Bool}
    (h : Inv o { s.connector with connect_ := connect_ }) : s.Owns o := by
  refine ⟨?_, fun i hi => h.opened.mp hi, fun i hi => .inl (h.writingChannel.mpr hi), h.ledger⟩
  rw [show s.connector.state = _ ↔ _ from h.state, Option.ne_none_iff_exists']
  exact exists_congr fun fd => h.writingChannel.symm

theorem owns_of_held {fd : ℕ} (hclose : Inv none (s.connector.close fd)) (hheld : s.Holds fd) :
    s.Owns (some fd) := by
  have hledger (i : ℕ) : Function.update s.connector.closed fd (s.connector.closed fd + 1) i +
      s.connector.handed i = if i < s.connector.sockets ∧ none ≠ some i then 1 else 0 :=
    hclose.ledger i
  have hone : s.connector.closed fd + 1 + s.connector.handed fd ≤ 1 := by
    have hfd := hledger fd
    rw [Function.update_self] at hfd
    rw [hfd]
    split_ifs <;> decide
  have hother {i : ℕ} (hi : i ≠ fd) : s.connector.closed i + s.connector.handed i =
      if i < s.connector.sockets ∧ none ≠ some i then 1 else 0 := by
    have hi' := hledger i
    rwa [Function.update_of_ne hi] at hi'
  refine ⟨iff_of_false (fun hs => hclose.state.mp hs rfl) ?_, fun i hi => ?_, ?_, fun i => ?_⟩
  · rintro ⟨i, hi⟩
    exact Option.some_ne_none i (hclose.writingChannel.mp hi).symm
  · obtain ⟨hlt, hclosed, hhanded⟩ := hi
    by_contra hne
    have hi' := hother fun h => hne (congrArg some h.symm)
    rw [if_pos ⟨hlt, nofun⟩] at hi'
    omega
  · rintro i hi
    obtain rfl := Option.some.inj hi
    exact .inr hheld
  · by_cases hi : i = fd
    · subst i
      rw [if_neg (by simp)]
      omega
    · rw [hother hi]
      exact if_congr (and_congr_right fun _ => by simp [Ne.symm hi]) rfl rfl

theorem Steady.owns (h : s.Steady) : ∃ o, s.Owns o := by
  cases hpause : s.pause with
  | none =>
    obtain ⟨o, ho⟩ := h.inv hpause
    exact ⟨o, owns_of_inv ho⟩
  | some pause =>
    have hpaused := h.paused
    rw [hpause] at hpaused
    cases pause with
    | startInLoop | connect | retry | runAfter => exact ⟨none, owns_of_inv hpaused.1⟩
    | handleWrite => exact ⟨_, owns_of_held hpaused.1 (.inl hpause)⟩
    | newConnectionCallback => exact ⟨_, owns_of_held hpaused.1 (.inr hpause)⟩

/-- If every `start` and `restart` finds the connector without a chain and at rest: it is connecting
exactly while its channel waits for writing, no assertion fails, at most one socket is open, and any
other socket has been closed once or handed over once. -/
theorem one_attempt {es : List Event} (h : machine.Run Ready create es s) :
    (s.connector.state = .kConnecting ↔ ∃ fd, s.connector.WritingChannel fd) ∧
    (∀ e, machine.enabled s e → s.Ready e → ∃ t, machine.step s e = .ok t) ∧
    (∀ i j, s.connector.Opened i → s.connector.Opened j → i = j) ∧
    (∀ i < s.connector.sockets,
      (s.connector.Opened i ∧ (s.connector.WritingChannel i ∨ s.Holds i)) ∨
      (s.connector.closed i = 1 ∧ s.connector.handed i = 0) ∨
      (s.connector.closed i = 0 ∧ s.connector.handed i = 1)) := by
  have hkeeps := run_keeps h
  obtain ⟨o, ho⟩ : ∃ o, s.Owns o := hkeeps.elim (·.owns) fun h => ⟨none, owns_of_inv h.inv⟩
  refine ⟨ho.state, fun e he hready => ?_, fun i j hi hj => ?_, fun i hi => ?_⟩
  · obtain ⟨t, ht, -⟩ := step_keeps hkeeps he hready
    exact ⟨t, ht⟩
  · exact Option.some.inj ((ho.opened i hi).symm.trans (ho.opened j hj))
  · have hledger := ho.ledger i
    by_cases hio : o = some i
    · rw [if_neg fun hne => hne.2 hio] at hledger
      exact .inl ⟨⟨hi, by omega, by omega⟩, ho.held i hio⟩
    · rw [if_pos ⟨hi, hio⟩] at hledger
      omega

instance (s : ConnectorThreads) : ∀ e, Decidable (s.Ready e)
  | .start isInLoopThread _ => inferInstanceAs (Decidable (s.Idle ∧ s.calling = [] ∧
      s.connector.state = .kDisconnected ∧ s.connector.timers = [] ∧
      .startInLoop ∉ s.connector.queue.all ∧ (isInLoopThread = true →
        s.connector.channel = none ∧ .stopInLoop ∉ s.connector.queue.all)))
  | .restart _ => inferInstanceAs (Decidable (s.calling = [] ∧
      s.connector.state ≠ .kConnecting ∧ s.connector.timers = [] ∧
      .startInLoop ∉ s.connector.queue.all ∧ s.connector.channel = none ∧
      .stopInLoop ∉ s.connector.queue.all))
  | .stop _ => inferInstanceAs (Decidable (.startInLoop ∉ s.calling))
  | .queue _ | .goOn _ | .timer _ _ | .handleEvent | .callback _ _ | .call _ | .resume =>
    .isTrue trivial

/-- The first attempt ends with an error event, the second one is stopped on its way and the third
one connects. -/
theorem one_attempt_connected :
    ∃ s, machine.Run Ready create
      [.start true .EINPROGRESS, .resume, .resume, .goOn .loop, .goOn (.polled (some POLLERR)),
        .goOn .timersDone, .handleEvent, .callback true false, .resume, .resume, .goOn .swap,
        .call .ok, .goOn .functorsDone, .goOn (.polled none), .timer 0 .EINPROGRESS, .resume,
        .resume, .goOn .timersDone, .stop false, .queue .stopInLoop, .goOn .swap, .call .ok,
        .resume, .start false .ok, .queue .startInLoop, .goOn .functorsDone, .goOn (.polled none),
        .goOn .timersDone, .goOn .swap, .call .ok, .call .EINPROGRESS, .resume, .resume,
        .goOn .functorsDone, .goOn (.polled (some POLLOUT)), .goOn .timersDone, .handleEvent,
        .callback false false, .resume, .resume] s ∧
      s.connector.state = .kConnected ∧ s.connector.sockets = 3 ∧ s.connector.handed 2 = 1 ∧
      ∀ i < s.connector.sockets,
        (s.connector.Opened i ∧ (s.connector.WritingChannel i ∨ s.Holds i)) ∨
        (s.connector.closed i = 1 ∧ s.connector.handed i = 0) ∨
        (s.connector.closed i = 0 ∧ s.connector.handed i = 1) := by
  obtain ⟨s, hs, hp⟩ := Machine.exists_run_of_exec machine Ready create
    [.start true .EINPROGRESS, .resume, .resume, .goOn .loop, .goOn (.polled (some POLLERR)),
      .goOn .timersDone, .handleEvent, .callback true false, .resume, .resume, .goOn .swap,
      .call .ok, .goOn .functorsDone, .goOn (.polled none), .timer 0 .EINPROGRESS, .resume,
      .resume, .goOn .timersDone, .stop false, .queue .stopInLoop, .goOn .swap, .call .ok, .resume,
      .start false .ok, .queue .startInLoop, .goOn .functorsDone, .goOn (.polled none),
      .goOn .timersDone, .goOn .swap, .call .ok, .call .EINPROGRESS, .resume, .resume,
      .goOn .functorsDone, .goOn (.polled (some POLLOUT)), .goOn .timersDone, .handleEvent,
      .callback false false, .resume, .resume]
    (fun s => decide (s.connector.state = .kConnected ∧ s.connector.sockets = 3 ∧
      s.connector.handed 2 = 1)) (by decide +kernel)
  obtain ⟨hstate, hsockets, hhanded⟩ := of_decide_eq_true hp
  exact ⟨s, hs, hstate, hsockets, hhanded, (one_attempt hs).2.2.2⟩

/-- After `start`, `stop` and `start` the assertions fail: at once if the loop's thread calls, and
in `connecting` if another thread does, whether before `stopInLoop` or in it: the channel of the
first attempt is still there. -/
theorem attempts_overlap :
    (∃ s, machine.Run Machine.Any create
      [.start true .EINPROGRESS, .resume, .resume, .stop true] s ∧
      machine.enabled s (.start true .EINPROGRESS) ∧
      machine.step s (.start true .EINPROGRESS) = .error (.assertion "state_ == kDisconnected")) ∧
    (∃ s, machine.Run Machine.Any create
      [.start true .EINPROGRESS, .resume, .resume, .stop true, .start false .ok,
        .queue .startInLoop, .goOn .loop, .goOn (.polled none), .goOn .timersDone, .goOn .swap,
        .call .ok, .resume, .resume, .call .EINPROGRESS, .resume] s ∧
      machine.enabled s .resume ∧ machine.step s .resume = .error (.assertion "!channel_")) ∧
    ∃ s, machine.Run Machine.Any create
      [.start true .EINPROGRESS, .resume, .resume, .stop true, .goOn .loop, .goOn (.polled none),
        .goOn .timersDone, .goOn .swap, .call .ok, .start false .ok, .queue .startInLoop, .resume,
        .resume, .goOn .functorsDone, .goOn (.polled none), .timer 0 .EINPROGRESS, .resume] s ∧
      machine.enabled s .resume ∧ machine.step s .resume = .error (.assertion "!channel_") := by
  refine ⟨?_, ?_, ?_⟩
  · exact Machine.exists_fault_of_exec machine Machine.Any create
      [.start true .EINPROGRESS, .resume, .resume, .stop true]
      (.start true .EINPROGRESS) (.assertion "state_ == kDisconnected") (by decide)
  · exact Machine.exists_fault_of_exec machine Machine.Any create
      [.start true .EINPROGRESS, .resume, .resume, .stop true, .start false .ok,
        .queue .startInLoop, .goOn .loop, .goOn (.polled none), .goOn .timersDone, .goOn .swap,
        .call .ok, .resume, .resume, .call .EINPROGRESS, .resume]
      .resume (.assertion "!channel_") (by decide +kernel)
  · exact Machine.exists_fault_of_exec machine Machine.Any create
      [.start true .EINPROGRESS, .resume, .resume, .stop true, .goOn .loop, .goOn (.polled none),
        .goOn .timersDone, .goOn .swap, .call .ok, .start false .ok, .queue .startInLoop, .resume,
        .resume, .goOn .functorsDone, .goOn (.polled none), .timer 0 .EINPROGRESS, .resume]
      .resume (.assertion "!channel_") (by decide +kernel)

end ConnectorThreads
end MuduoWindows.Net
