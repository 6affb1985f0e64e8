import MuduoWindows.Net.Connector

/-! # The connector and its threads

`start` and `stop` may be called in any thread. What they share with the functions on the loop's
thread is `connect_` and the queue. Here those functions stop at each test of `connect_` and behind
it, and a call of another thread stops before it queues its functor, so a step has at most one
access to what is shared.
-/

namespace MuduoWindows.Net
open Library

/-- Where a function on the loop's thread stands: at its `if (connect_)`, or behind it. -/
inductive Pause where
  | startInLoop (savedErrno : ConnectErrno)
  | connect (savedErrno : ConnectErrno)
  | retry
  | runAfter
  | handleWrite (sockfd : ℕ)
  | newConnectionCallback (sockfd : ℕ)
  deriving DecidableEq

/-- `callbacks` are those that `handleEvent` has still to call, and `calling` the functors that
calls of other threads have still to queue. -/
structure ConnectorThreads where
  connector : Connector
  callbacks : List Channel.Callback
  pause : Option Pause
  calling : List ConnectorFunctor

namespace ConnectorThreads

def settled (s : Connector) : ConnectorThreads :=
  { connector := s, callbacks := [], pause := none, calling := [] }

def create : ConnectorThreads := settled .create

/-- No function of the connector runs on the loop's thread. -/
def Idle (s : ConnectorThreads) : Prop := s.pause = none ∧ s.callbacks = []

instance (s : ConnectorThreads) : Decidable s.Idle := inferInstanceAs (Decidable (_ ∧ _))

/-- `retry` up to the test. -/
def retry (s : ConnectorThreads) (sockfd : ℕ) : ConnectorThreads :=
  { s with connector := (s.connector.close sockfd).setState .kDisconnected, pause := some .retry }

def connect (s : ConnectorThreads) (savedErrno : ConnectErrno) : Result ConnectorThreads :=
  let sockfd := s.connector.sockets
  let s := { s with connector := { s.connector with sockets := s.connector.sockets + 1 } }
  match savedErrno with
  | .ok | .EINPROGRESS | .WSAEINTR | .EISCONN | .WSAEWOULDBLOCK => do
    let connector ← s.connector.connecting sockfd
    pure { s with connector := connector }
  | .EAGAIN | .EADDRINUSE | .EADDRNOTAVAIL | .ECONNREFUSED | .ENETUNREACH => pure (s.retry sockfd)
  | .EACCES | .EPERM | .EAFNOSUPPORT | .EALREADY | .EBADF | .EFAULT | .ENOTSOCK =>
    pure { s with connector := s.connector.close sockfd }
  | .unexpected => pure { s with connector := s.connector.close sockfd }

/-- `startInLoop` up to the test. -/
def startInLoop (s : ConnectorThreads) (savedErrno : ConnectErrno) : Result ConnectorThreads := do
  assert (s.connector.state = .kDisconnected) "state_ == kDisconnected"
  pure { s with pause := some (.startInLoop savedErrno) }

/-- `stopInLoop` up to the test of `retry`. -/
def stopInLoop (s : ConnectorThreads) : Result ConnectorThreads :=
  if s.connector.state = .kConnecting then do
    let (sockfd, connector) ← (s.connector.setState .kDisconnected).removeAndResetChannel
    pure ({ s with connector := connector }.retry sockfd)
  else pure s

/-- `handleWrite` up to a test, its own or that of `retry`. -/
def handleWrite (s : ConnectorThreads) (err isSelfConnect : Bool) : Result ConnectorThreads :=
  if s.connector.state = .kConnecting then do
    let (sockfd, connector) ← s.connector.removeAndResetChannel
    let s := { s with connector := connector }
    if err then pure (s.retry sockfd)
    else if isSelfConnect then pure (s.retry sockfd)
    else pure { s with
      connector := s.connector.setState .kConnected, pause := some (.handleWrite sockfd) }
  else do
    assert (s.connector.state = .kDisconnected) "state_ == kDisconnected"
    pure s

def handleError (s : ConnectorThreads) : Result ConnectorThreads :=
  if s.connector.state = .kConnecting then do
    let (sockfd, connector) ← s.connector.removeAndResetChannel
    pure ({ s with connector := connector }.retry sockfd)
  else pure s

def runCallback (s : ConnectorThreads) (err isSelfConnect : Bool) :
    Channel.Callback → Result ConnectorThreads
  | .write => s.handleWrite err isSelfConnect
  | .error => s.handleError
  | .close | .read => pure s

def runFunctor (s : ConnectorThreads) (savedErrno : ConnectErrno) :
    ConnectorFunctor → Result ConnectorThreads
  | .startInLoop => s.startInLoop savedErrno
  | .stopInLoop => s.stopInLoop
  | .resetChannel => do
    let connector ← s.connector.resetChannel
    pure { s with connector := connector }

/-- The function on the loop's thread makes its test, or goes on behind it. -/
def resume (s : ConnectorThreads) : Pause → Result ConnectorThreads
  | .startInLoop savedErrno =>
    pure { s with pause := if s.connector.connect_ then some (.connect savedErrno) else none }
  | .connect savedErrno => { s with pause := none }.connect savedErrno
  | .retry => pure { s with pause := if s.connector.connect_ then some .runAfter else none }
  | .runAfter => pure { s with
      pause := none
      connector := { s.connector with
        timers := s.connector.timers ++ [s.connector.retryDelayMs]
        retryDelayMs := min (s.connector.retryDelayMs * 2) Connector.kMaxRetryDelayMs } }
  | .handleWrite sockfd =>
    if s.connector.connect_ then pure { s with pause := some (.newConnectionCallback sockfd) }
    else pure { s with pause := none, connector := s.connector.close sockfd }
  | .newConnectionCallback sockfd =>
    pure { s with pause := none, connector := s.connector.newConnectionCallback sockfd }

/-- `start()` on the loop's thread, or its first half on another one. -/
def start (s : ConnectorThreads) (isInLoopThread : Bool) (savedErrno : ConnectErrno) :
    Result ConnectorThreads :=
  let s := { s with connector := { s.connector with connect_ := true } }
  if isInLoopThread then s.startInLoop savedErrno
  else pure { s with calling := s.calling ++ [.startInLoop] }

def restart (s : ConnectorThreads) (savedErrno : ConnectErrno) : Result ConnectorThreads :=
  let connector := s.connector.setState .kDisconnected
  { s with connector := { connector with
      retryDelayMs := Connector.kInitRetryDelayMs, connect_ := true } }.startInLoop savedErrno

/-- `stop()` on the loop's thread, or its first half on another one. -/
def stop (s : ConnectorThreads) (isInLoopThread : Bool) : ConnectorThreads :=
  let connector := { s.connector with connect_ := false }
  if isInLoopThread then { s with connector := connector.queueInLoop .stopInLoop }
  else { s with connector := connector, calling := s.calling ++ [.stopInLoop] }

/-- The second half of a call on another thread. -/
def queue (s : ConnectorThreads) (f : ConnectorFunctor) : ConnectorThreads :=
  { s with connector := s.connector.queueInLoop f, calling := s.calling.erase f }

def GoesOn : Connector.Event → Prop
  | .loop | .polled _ | .timersDone | .swap | .functorsDone => True
  | _ => False

inductive Event where
  | start (isInLoopThread : Bool) (savedErrno : ConnectErrno)
  | restart (savedErrno : ConnectErrno)
  | stop (isInLoopThread : Bool)
  | queue (f : ConnectorFunctor)
  | goOn (e : Connector.Event)
  | timer (i : ℕ) (savedErrno : ConnectErrno)
  | handleEvent
  | callback (err isSelfConnect : Bool)
  | call (savedErrno : ConnectErrno)
  | resume
  deriving DecidableEq

/-- On the loop's thread a function begins when no other one runs. -/
def machine : Machine ConnectorThreads Event Fault where
  enabled s
    | .start isInLoopThread _ | .stop isInLoopThread =>
        isInLoopThread = true → s.Idle ∧ s.connector.pc ≠ .polling
    | .restart _ => s.Idle ∧ s.connector.pc ≠ .polling
    | .queue f => f ∈ s.calling
    | .goOn e => GoesOn e ∧ s.Idle ∧ Connector.machine.enabled s.connector e
    | .timer i _ => s.Idle ∧ s.connector.pc = .timers ∧ i < s.connector.timers.length
    | .handleEvent => s.Idle ∧ s.connector.pc = .handlers ∧ s.connector.active ≠ none
    | .callback _ _ => s.pause = none ∧ s.callbacks ≠ []
    | .call _ => s.Idle ∧ s.connector.pc = .functors ∧ s.connector.queue.functors ≠ []
    | .resume => s.pause ≠ none
  step s
    | .start isInLoopThread savedErrno => s.start isInLoopThread savedErrno
    | .restart savedErrno => s.restart savedErrno
    | .stop isInLoopThread => pure (s.stop isInLoopThread)
    | .queue f => pure (s.queue f)
    | .goOn e => do
      let connector ← Connector.machine.step s.connector e
      pure { s with connector := connector }
    | .timer i savedErrno => { s with connector := { s.connector with
        timers := s.connector.timers.eraseIdx i } }.startInLoop savedErrno
    | .handleEvent => pure { s with
        connector := { s.connector with active := none }
        callbacks := (s.connector.active.map Channel.handleEventWithGuard).getD [] }
    | .callback err isSelfConnect =>
      match s.callbacks with
      | [] => pure s
      | callback :: callbacks =>
        { s with callbacks := callbacks }.runCallback err isSelfConnect callback
    | .call savedErrno =>
      match s.connector.queue.functors with
      | [] => pure s
      | f :: rest => { s with connector := { s.connector with
          queue := { s.connector.queue with functors := rest } } }.runFunctor savedErrno f
    | .resume =>
      match s.pause with
      | none => pure s
      | some pause => s.resume pause

instance : ∀ e : Connector.Event, Decidable (GoesOn e)
  | .loop | .polled _ | .timersDone | .swap | .functorsDone => .isTrue trivial
  | .start _ _ | .restart _ | .stop | .timer _ _ | .handleEvent _ _ | .call _ => .isFalse id

instance (s : ConnectorThreads) : ∀ e, Decidable (machine.enabled s e)
  | .start isInLoopThread _ | .stop isInLoopThread => inferInstanceAs (Decidable
      (isInLoopThread = true → s.Idle ∧ s.connector.pc ≠ .polling))
  | .restart _ => inferInstanceAs (Decidable (s.Idle ∧ s.connector.pc ≠ .polling))
  | .queue f => inferInstanceAs (Decidable (f ∈ s.calling))
  | .goOn e => inferInstanceAs (Decidable
      (GoesOn e ∧ s.Idle ∧ Connector.machine.enabled s.connector e))
  | .timer i _ => inferInstanceAs (Decidable
      (s.Idle ∧ s.connector.pc = .timers ∧ i < s.connector.timers.length))
  | .handleEvent => inferInstanceAs (Decidable
      (s.Idle ∧ s.connector.pc = .handlers ∧ s.connector.active ≠ none))
  | .callback _ _ => inferInstanceAs (Decidable (s.pause = none ∧ s.callbacks ≠ []))
  | .call _ => inferInstanceAs (Decidable
      (s.Idle ∧ s.connector.pc = .functors ∧ s.connector.queue.functors ≠ []))
  | .resume => inferInstanceAs (Decidable (s.pause ≠ none))

theorem step_resume {s : ConnectorThreads} {pause : Pause} (h : s.pause = some pause) :
    machine.step s .resume = s.resume pause := by
  simp only [machine, h]

theorem step_callback {s : ConnectorThreads} {callback : Channel.Callback}
    {callbacks : List Channel.Callback} (h : s.callbacks = callback :: callbacks)
    (err isSelfConnect : Bool) : machine.step s (.callback err isSelfConnect) =
      { s with callbacks := callbacks }.runCallback err isSelfConnect callback := by
  simp only [machine, h]

theorem step_call {s : ConnectorThreads} {f : ConnectorFunctor} {rest : List ConnectorFunctor}
    (h : s.connector.queue.functors = f :: rest) (savedErrno : ConnectErrno) :
    machine.step s (.call savedErrno) = { s with connector := { s.connector with
      queue := { s.connector.queue with functors := rest } } }.runFunctor savedErrno f := by
  simp only [machine, h]

/-- Where the loop goes on without the connector `connect_` is of no account. -/
theorem step_goesOn (connector : Connector) {e : Connector.Event} (hgoes : GoesOn e) :
    ∃ t, Connector.machine.step connector e = .ok t ∧
      Connector.machine.step { connector with connect_ := false } e =
        .ok { t with connect_ := false } ∧
      t.connect_ = connector.connect_ ∧ t.state = connector.state ∧ t.timers = connector.timers ∧
      t.queue.all ⊆ connector.queue.all := by
  cases e with
  | loop | polled | timersDone | functorsDone =>
    exact ⟨_, rfl, rfl, rfl, rfl, rfl, List.Subset.refl _⟩
  | swap =>
    refine ⟨_, rfl, rfl, rfl, rfl, rfl, ?_⟩
    change connector.queue.pendingFunctors ++ [] ⊆ _ ++ connector.queue.pendingFunctors
    rw [List.append_nil]
    exact List.subset_append_right _ _
  | start | restart | stop | timer | handleEvent | call => exact hgoes.elim

/-- Some steps lead from one state to the other. -/
def Leads (a b : ConnectorThreads) : Prop := ∃ es, machine.Run Machine.Any a es b

variable {a b c : ConnectorThreads} {s t : Connector}

theorem Leads.refl : Leads a a := ⟨[], .nil⟩

theorem Leads.trans (h : Leads a b) (k : Leads b c) : Leads a c := by
  obtain ⟨es, h⟩ := h
  obtain ⟨fs, k⟩ := k
  exact ⟨es ++ fs, h.append k⟩

theorem Leads.step {e : Event} (he : machine.enabled a e) (hb : machine.step a e = .ok b)
    (h : Leads b c) : Leads a c := by
  obtain ⟨es, h⟩ := h
  exact ⟨e :: es, .cons he trivial hb h⟩

theorem Leads.resume {pause : Pause} (hpause : a.pause = some pause) (hb : a.resume pause = .ok b)
    (h : Leads b c) : Leads a c := by
  refine .step (e := .resume) ?_ ((step_resume hpause).trans hb) h
  exact fun hnone => Option.some_ne_none _ (hpause.symm.trans hnone)

/-- A function that has begun leads on to a state. -/
def Finishes (r : Result ConnectorThreads) (b : ConnectorThreads) : Prop :=
  ∃ a, r = .ok a ∧ Leads a b

theorem Finishes.done : Finishes (.ok a) a := ⟨a, rfl, .refl⟩

theorem retry_leads (hpause : a.pause = none) (sockfd : ℕ) :
    Leads (a.retry sockfd) { a with connector := a.connector.retry sockfd } := by
  refine .resume rfl rfl ?_
  change Leads { a.retry sockfd with
    pause := if a.connector.connect_ then some .runAfter else none } _
  unfold Connector.retry retry
  dsimp only [Connector.setState, Connector.close]
  by_cases hconnect : a.connector.connect_ = true
  · rw [if_pos hconnect, if_pos hconnect]
    refine .resume rfl rfl ?_
    rw [hpause]
    exact .refl
  · rw [if_neg hconnect, if_neg hconnect, hpause]
    exact .refl

theorem connect_finishes (hpause : a.pause = none) {savedErrno : ConnectErrno}
    (h : a.connector.connect savedErrno = .ok t) :
    Finishes (a.connect savedErrno) { a with connector := t } := by
  unfold Connector.connect at h
  unfold connect
  cases savedErrno with
  | ok | EINPROGRESS | WSAEINTR | EISCONN | WSAEWOULDBLOCK =>
    dsimp only at h ⊢
    rw [h]
    exact .done
  | EAGAIN | EADDRINUSE | EADDRNOTAVAIL | ECONNREFUSED | ENETUNREACH =>
    obtain rfl := Except.ok.inj h
    exact ⟨_, rfl, retry_leads (a := { a with connector := { a.connector with
      sockets := a.connector.sockets + 1 } }) hpause _⟩
  | EACCES | EPERM | EAFNOSUPPORT | EALREADY | EBADF | EFAULT | ENOTSOCK | unexpected =>
    obtain rfl := Except.ok.inj h
    exact .done

theorem startInLoop_finishes (hpause : a.pause = none) {savedErrno : ConnectErrno}
    (h : a.connector.startInLoop savedErrno = .ok t) :
    Finishes (a.startInLoop savedErrno) { a with connector := t } := by
  unfold Connector.startInLoop at h
  obtain ⟨hstate, h⟩ := require_bind_eq_ok.mp h
  refine ⟨{ a with pause := some (.startInLoop savedErrno) }, require_bind hstate _, ?_⟩
  refine .resume rfl rfl ?_
  change Leads { a with
    pause := if a.connector.connect_ then some (.connect savedErrno) else none } _
  by_cases hconnect : a.connector.connect_ = true
  · rw [if_pos hconnect] at h ⊢
    obtain ⟨b, hb, hleads⟩ := connect_finishes hpause h
    have hresume : { a with pause := some (.connect savedErrno) }.resume (.connect savedErrno) =
        a.connect savedErrno := by
      change { a with pause := none }.connect savedErrno = _
      rw [← hpause]
    exact .resume rfl (hresume.trans hb) hleads
  · rw [if_neg hconnect] at h ⊢
    obtain rfl := Except.ok.inj h
    rw [← hpause]
    exact .refl

theorem stopInLoop_finishes (hpause : a.pause = none) (h : a.connector.stopInLoop = .ok t) :
    Finishes a.stopInLoop { a with connector := t } := by
  unfold Connector.stopInLoop at h
  unfold stopInLoop
  by_cases hstate : a.connector.state = .kConnecting
  · rw [if_pos hstate] at h ⊢
    obtain ⟨⟨sockfd, u⟩, hu, h⟩ := bind_eq_ok.mp h
    obtain rfl := Except.ok.inj h
    rw [hu]
    exact ⟨_, rfl, retry_leads (a := { a with connector := u }) hpause sockfd⟩
  · rw [if_neg hstate] at h ⊢
    obtain rfl := Except.ok.inj h
    exact .done

theorem runFunctor_finishes (hpause : a.pause = none) {savedErrno : ConnectErrno}
    {f : ConnectorFunctor} (h : a.connector.runFunctor savedErrno f = .ok t) :
    Finishes (a.runFunctor savedErrno f) { a with connector := t } := by
  cases f with
  | startInLoop => exact startInLoop_finishes hpause h
  | stopInLoop => exact stopInLoop_finishes hpause h
  | resetChannel =>
    change a.connector.resetChannel = _ at h
    change Finishes (a.connector.resetChannel >>= _) _
    rw [h]
    exact .done

theorem handleError_finishes (hpause : a.pause = none) (h : a.connector.handleError = .ok t) :
    Finishes a.handleError { a with connector := t } := by
  unfold Connector.handleError at h
  unfold handleError
  by_cases hstate : a.connector.state = .kConnecting
  · rw [if_pos hstate] at h ⊢
    obtain ⟨⟨sockfd, u⟩, hu, h⟩ := bind_eq_ok.mp h
    obtain rfl := Except.ok.inj h
    rw [hu]
    exact ⟨_, rfl, retry_leads (a := { a with connector := u }) hpause sockfd⟩
  · rw [if_neg hstate] at h ⊢
    obtain rfl := Except.ok.inj h
    exact .done

theorem handleWrite_finishes (hpause : a.pause = none) {err isSelfConnect : Bool}
    (h : a.connector.handleWrite err isSelfConnect = .ok t) :
    Finishes (a.handleWrite err isSelfConnect) { a with connector := t } := by
  unfold Connector.handleWrite at h
  unfold handleWrite
  by_cases hstate : a.connector.state = .kConnecting
  · rw [if_pos hstate] at h ⊢
    obtain ⟨⟨sockfd, u⟩, hu, h⟩ := bind_eq_ok.mp h
    have hretry := retry_leads (a := { a with connector := u }) hpause sockfd
    rw [hu, ok_bind]
    dsimp only at h ⊢
    split_ifs at h with herr hself hconnect
    · obtain rfl := Except.ok.inj h
      rw [if_pos herr]
      exact ⟨_, rfl, hretry⟩
    · obtain rfl := Except.ok.inj h
      rw [if_neg herr, if_pos hself]
      exact ⟨_, rfl, hretry⟩
    · obtain rfl := Except.ok.inj h
      rw [if_neg herr, if_neg hself, hpause]
      exact ⟨_, rfl, .resume rfl (if_pos hconnect) (.resume rfl rfl .refl)⟩
    · obtain rfl := Except.ok.inj h
      rw [if_neg herr, if_neg hself, hpause]
      exact ⟨_, rfl, .resume rfl (if_neg hconnect) .refl⟩
  · rw [if_neg hstate] at h ⊢
    obtain ⟨hdown, h⟩ := require_bind_eq_ok.mp h
    obtain rfl := Except.ok.inj h
    rw [require_bind hdown]
    exact .done

theorem callbacks_leads {err isSelfConnect : Bool} {callbacks : List Channel.Callback}
    (hpause : a.pause = none)
    (h : callbacks.foldlM (Connector.runCallback err isSelfConnect) a.connector = .ok t) :
    Leads { a with callbacks := callbacks } { a with connector := t, callbacks := [] } := by
  induction callbacks generalizing a with
  | nil =>
    obtain rfl := Except.ok.inj h
    exact .refl
  | cons callback callbacks ih =>
    rw [List.foldlM_cons] at h
    obtain ⟨u, hu, h⟩ := bind_eq_ok.mp h
    have hcallback : Finishes ({ a with callbacks := callbacks }.runCallback
        err isSelfConnect callback) { a with connector := u, callbacks := callbacks } := by
      cases callback with
      | write => exact handleWrite_finishes (a := { a with callbacks := callbacks }) hpause hu
      | error => exact handleError_finishes (a := { a with callbacks := callbacks }) hpause hu
      | close | read =>
        obtain rfl := Except.ok.inj hu
        exact .done
    obtain ⟨b, hb, hleads⟩ := hcallback
    exact .step (e := .callback err isSelfConnect) ⟨hpause, List.cons_ne_nil _ _⟩ hb
      (hleads.trans (ih (a := { a with connector := u }) hpause h))

/-- Where each function of the connector and each call is one step, the threads can take the same
way. -/
theorem step_leads {e : Connector.Event} (he : Connector.machine.enabled s e)
    (h : Connector.machine.step s e = .ok t) : Leads (settled s) (settled t) := by
  cases e with
  | start isInLoopThread savedErrno =>
    cases isInLoopThread with
    | true =>
      obtain ⟨b, hb, hleads⟩ := startInLoop_finishes (a := settled _) rfl h
      exact .step (e := .start true savedErrno) (fun _ => ⟨⟨rfl, rfl⟩, he rfl⟩) hb hleads
    | false =>
      obtain rfl := Except.ok.inj h
      exact .step (e := .start false savedErrno) nofun rfl
        (.step (e := .queue .startInLoop) List.mem_cons_self rfl .refl)
  | restart savedErrno =>
    obtain ⟨b, hb, hleads⟩ := startInLoop_finishes (a := settled _) rfl h
    exact .step (e := .restart savedErrno) ⟨⟨rfl, rfl⟩, he⟩ hb hleads
  | stop =>
    obtain rfl := Except.ok.inj h
    exact .step (e := .stop false) nofun rfl
      (.step (e := .queue .stopInLoop) List.mem_cons_self rfl .refl)
  | timer i savedErrno =>
    obtain ⟨b, hb, hleads⟩ := startInLoop_finishes (a := settled _) rfl h
    exact .step (e := .timer i savedErrno) ⟨⟨rfl, rfl⟩, he⟩ hb hleads
  | handleEvent err isSelfConnect =>
    obtain ⟨revents, hrevents⟩ := Option.ne_none_iff_exists'.mp he.2
    rw [Connector.step_handleEvent hrevents] at h
    have hcallbacks := callbacks_leads (a := settled { s with active := none }) rfl h
    refine .step (e := .handleEvent) ⟨⟨rfl, rfl⟩, he⟩ ?_ hcallbacks
    simp only [machine, settled, hrevents]
    rfl
  | call savedErrno =>
    cases hqueue : s.queue.functors with
    | nil => exact absurd hqueue he.2
    | cons f rest =>
      rw [Connector.step_call hqueue] at h
      obtain ⟨b, hb, hleads⟩ := runFunctor_finishes (a := settled _) rfl h
      exact .step (e := .call savedErrno) ⟨⟨rfl, rfl⟩, he⟩ ((step_call hqueue savedErrno).trans hb)
        hleads
  | loop | polled | timersDone | swap | functorsDone =>
    refine .step (e := .goOn _) ⟨?_, ⟨rfl, rfl⟩, he⟩ ?_ .refl
    · trivial
    · change (Connector.machine.step s _ >>= _) = _
      rw [h]
      rfl

theorem run_leads {es : List Connector.Event} {P : Connector → Connector.Event → Prop}
    (h : Connector.machine.Run P s es t) : Leads (settled s) (settled t) := by
  induction h with
  | nil => exact .refl
  | snoc _ he _ hu ih => exact ih.trans (step_leads he hu)

end ConnectorThreads
end MuduoWindows.Net
