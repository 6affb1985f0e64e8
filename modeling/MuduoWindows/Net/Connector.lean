import MuduoWindows.Net.Channel
import MuduoWindows.Net.EventLoop

/-! # net/connector.cpp

A connector with what the loop and the poller hold for it: its queued functors, its retry timers,
its active channel and the registry. The sockets are numbered in the order of their creation, and a
channel is known to the poller by its socket. The answers of the system calls come with the steps.
-/

namespace MuduoWindows.Net
open Library

/-- `Connector::States` -/
inductive ConnectorState where
  | kDisconnected
  | kConnecting
  | kConnected
  deriving DecidableEq, Repr

inductive ConnectorFunctor where
  | startInLoop
  | stopInLoop
  | resetChannel
  deriving DecidableEq

/-- `savedErrno` of `connect`; `ok` is 0. -/
inductive ConnectErrno where
  | ok
  | EINPROGRESS
  | WSAEINTR
  | EISCONN
  | WSAEWOULDBLOCK
  | EAGAIN
  | EADDRINUSE
  | EADDRNOTAVAIL
  | ECONNREFUSED
  | ENETUNREACH
  | EACCES
  | EPERM
  | EAFNOSUPPORT
  | EALREADY
  | EBADF
  | EFAULT
  | ENOTSOCK
  | unexpected
  deriving DecidableEq

/-- `closed` and `handed` count, for every socket, the calls of `sockets::close` and of
`newConnectionCallback_`; `timers` are the delays of the pending timers, and `active` holds the
`revents` of the channel while it waits in `activeChannels_`. -/
structure Connector where
  connect_ : Bool
  state : ConnectorState
  channel : Option Channel
  retryDelayMs : ℕ
  channels : EPollPoller.ChannelMap ℕ
  queue : FunctorQueue ConnectorFunctor
  timers : List ℕ
  active : Option Events
  pc : LoopPc
  sockets : ℕ
  closed : ℕ → ℕ
  handed : ℕ → ℕ

namespace Connector

def kMaxRetryDelayMs : ℕ := 30 * 1000
def kInitRetryDelayMs : ℕ := 500

def create : Connector :=
  { connect_ := false, state := .kDisconnected, channel := none, retryDelayMs := kInitRetryDelayMs
    channels := fun _ => none, queue := .empty, timers := [], active := none, pc := .outside
    sockets := 0, closed := fun _ => 0, handed := fun _ => 0 }

def setState (s : Connector) (state : ConnectorState) : Connector := { s with state := state }

def queueInLoop (s : Connector) (f : ConnectorFunctor) : Connector :=
  { s with queue := s.queue.queueInLoop f }

/-- `sockets::close` -/
def close (s : Connector) (sockfd : ℕ) : Connector :=
  { s with closed := Function.update s.closed sockfd (s.closed sockfd + 1) }

def newConnectionCallback (s : Connector) (sockfd : ℕ) : Connector :=
  { s with handed := Function.update s.handed sockfd (s.handed sockfd + 1) }

def retry (s : Connector) (sockfd : ℕ) : Connector :=
  let s := (s.close sockfd).setState .kDisconnected
  if s.connect_ then
    { s with
      timers := s.timers ++ [s.retryDelayMs]
      retryDelayMs := min (s.retryDelayMs * 2) kMaxRetryDelayMs }
  else s

def connecting (s : Connector) (sockfd : ℕ) : Result Connector := do
  let s := s.setState .kConnecting
  assert (s.channel = none) "!channel_"
  let u ← EPollPoller.updateChannel s.channels sockfd (Channel.create sockfd).enableWriting
  pure { s with channel := some u.channel, channels := u.channels }

def connect (s : Connector) (savedErrno : ConnectErrno) : Result Connector :=
  let sockfd := s.sockets
  let s := { s with sockets := s.sockets + 1 }
  match savedErrno with
  | .ok | .EINPROGRESS | .WSAEINTR | .EISCONN | .WSAEWOULDBLOCK => s.connecting sockfd
  | .EAGAIN | .EADDRINUSE | .EADDRNOTAVAIL | .ECONNREFUSED | .ENETUNREACH => pure (s.retry sockfd)
  | .EACCES | .EPERM | .EAFNOSUPPORT | .EALREADY | .EBADF | .EFAULT | .ENOTSOCK =>
    pure (s.close sockfd)
  | .unexpected => pure (s.close sockfd)

def startInLoop (s : Connector) (savedErrno : ConnectErrno) : Result Connector := do
  assert (s.state = .kDisconnected) "state_ == kDisconnected"
  if s.connect_ then s.connect savedErrno else pure s

/-- `disableAll()` and `remove()` of the channel; `resetChannel` is left to the loop. -/
def removeAndResetChannel (s : Connector) : Result (ℕ × Connector) :=
  match s.channel with
  | none => .error (.nullPointer "channel_")
  | some c => do
    let u ← EPollPoller.updateChannel s.channels c.fd c.disableAll
    let r ← EPollPoller.removeChannel u.channels c.fd u.channel
    pure (c.fd,
      { s with channel := some r.channel, channels := r.channels }.queueInLoop .resetChannel)

/-- The destructor of the channel looks it up in the poller. -/
def resetChannel (s : Connector) : Result Connector :=
  match s.channel with
  | none => pure s
  | some c => do
    assert (s.channels c.fd ≠ some c.fd) "!loop_->hasChannel(this)"
    pure { s with channel := none }

def stopInLoop (s : Connector) : Result Connector :=
  if s.state = .kConnecting then do
    let s := s.setState .kDisconnected
    let (sockfd, s) ← s.removeAndResetChannel
    pure (s.retry sockfd)
  else pure s

/-- `err` tells whether `getSocketError` gives an error. -/
def handleWrite (s : Connector) (err isSelfConnect : Bool) : Result Connector :=
  if s.state = .kConnecting then do
    let (sockfd, s) ← s.removeAndResetChannel
    if err then pure (s.retry sockfd)
    else if isSelfConnect then pure (s.retry sockfd)
    else
      let s := s.setState .kConnected
      if s.connect_ then pure (s.newConnectionCallback sockfd) else pure (s.close sockfd)
  else do
    assert (s.state = .kDisconnected) "state_ == kDisconnected"
    pure s

def handleError (s : Connector) : Result Connector :=
  if s.state = .kConnecting then do
    let (sockfd, s) ← s.removeAndResetChannel
    pure (s.retry sockfd)
  else pure s

/-- The channel has a write and an error callback. -/
def runCallback (err isSelfConnect : Bool) (s : Connector) : Channel.Callback → Result Connector
  | .write => s.handleWrite err isSelfConnect
  | .error => s.handleError
  | .close | .read => pure s

/-- `start()` on the loop's thread, where it connects at once, or on another one. -/
def start (s : Connector) (isInLoopThread : Bool) (savedErrno : ConnectErrno) : Result Connector :=
  let s := { s with connect_ := true }
  if isInLoopThread then s.startInLoop savedErrno else pure (s.queueInLoop .startInLoop)

def stop (s : Connector) : Connector := { s with connect_ := false }.queueInLoop .stopInLoop

def restart (s : Connector) (savedErrno : ConnectErrno) : Result Connector :=
  let s := s.setState .kDisconnected
  { s with retryDelayMs := kInitRetryDelayMs, connect_ := true }.startInLoop savedErrno

def runFunctor (s : Connector) (savedErrno : ConnectErrno) : ConnectorFunctor → Result Connector
  | .startInLoop => s.startInLoop savedErrno
  | .stopInLoop => s.stopInLoop
  | .resetChannel => s.resetChannel

/-- An attempt to connect made in a step ends with its `savedErrno`. -/
inductive Event where
  | start (isInLoopThread : Bool) (savedErrno : ConnectErrno)
  | restart (savedErrno : ConnectErrno)
  | stop
  /-- `loop()` begins. -/
  | loop
  /-- `poll` returns, with the connector's channel among the active ones or without it. -/
  | polled (revents : Option Events)
  /-- A retry timer fires. -/
  | timer (i : ℕ) (savedErrno : ConnectErrno)
  | timersDone
  | handleEvent (err isSelfConnect : Bool)
  /-- The loop takes the pending functors. -/
  | swap
  /-- It calls the next of them. -/
  | call (savedErrno : ConnectErrno)
  | functorsDone
  deriving DecidableEq

/-- What the loop does, as opposed to the calls of the connector's user. -/
def Event.IsOwn : Event → Prop
  | .start _ _ | .restart _ | .stop => False
  | _ => True

/-- The loop's thread calls functions of the connector unless it is in `poll`, and `poll` reports
registered channels. Each function is one step: no call of another thread overlaps it. -/
def machine : Machine Connector Event Fault where
  enabled s
    | .start isInLoopThread _ => isInLoopThread = true → s.pc ≠ .polling
    | .restart _ => s.pc ≠ .polling
    | .stop => True
    | .loop => s.pc = .outside
    | .polled revents => s.pc = .polling ∧
        (revents ≠ none → ∃ c ∈ s.channel, s.channels c.fd = some c.fd)
    | .timer i _ => s.pc = .timers ∧ i < s.timers.length
    | .timersDone => s.pc = .timers
    | .handleEvent _ _ => s.pc = .handlers ∧ s.active ≠ none
    | .swap => s.pc = .handlers ∧ s.active = none
    | .call _ => s.pc = .functors ∧ s.queue.functors ≠ []
    | .functorsDone => s.pc = .functors ∧ s.queue.functors = []
  step s
    | .start isInLoopThread savedErrno => s.start isInLoopThread savedErrno
    | .restart savedErrno => s.restart savedErrno
    | .stop => pure s.stop
    | .loop => pure { s with pc := .polling }
    | .polled revents => pure { s with pc := .timers, active := revents }
    | .timer i savedErrno => { s with timers := s.timers.eraseIdx i }.startInLoop savedErrno
    | .timersDone => pure { s with pc := .handlers }
    | .handleEvent err isSelfConnect =>
      match s.active with
      | none => pure s
      | some revents => (Channel.handleEventWithGuard revents).foldlM
          (runCallback err isSelfConnect) { s with active := none }
    | .swap => pure { s with pc := .functors, queue := s.queue.swap }
    | .call savedErrno =>
      match s.queue.functors with
      | [] => pure s
      | f :: rest => { s with queue := { s.queue with functors := rest } }.runFunctor savedErrno f
    | .functorsDone => pure { s with pc := .polling }

theorem step_handleEvent {s : Connector} {revents : Events} (h : s.active = some revents)
    (err isSelfConnect : Bool) : machine.step s (.handleEvent err isSelfConnect) =
      (Channel.handleEventWithGuard revents).foldlM (runCallback err isSelfConnect)
        { s with active := none } := by
  simp only [machine, h]

theorem step_handleEvent_none {s : Connector} (h : s.active = none) (err isSelfConnect : Bool) :
    machine.step s (.handleEvent err isSelfConnect) = .ok s := by
  simp only [machine, h]
  rfl

theorem step_call {s : Connector} {f : ConnectorFunctor} {rest : List ConnectorFunctor}
    (h : s.queue.functors = f :: rest) (savedErrno : ConnectErrno) :
    machine.step s (.call savedErrno) =
      runFunctor { s with queue := { s.queue with functors := rest } } savedErrno f := by
  simp only [machine, h]

theorem step_call_nil {s : Connector} (h : s.queue.functors = []) (savedErrno : ConnectErrno) :
    machine.step s (.call savedErrno) = .ok s := by
  simp only [machine, h]
  rfl

instance (s : Connector) : ∀ e, Decidable (machine.enabled s e)
  | .start isInLoopThread _ => inferInstanceAs (Decidable (isInLoopThread = true → s.pc ≠ .polling))
  | .restart _ => inferInstanceAs (Decidable (s.pc ≠ .polling))
  | .stop => .isTrue trivial
  | .loop => inferInstanceAs (Decidable (s.pc = .outside))
  | .polled revents => inferInstanceAs (Decidable (s.pc = .polling ∧
      (revents ≠ none → ∃ c ∈ s.channel, s.channels c.fd = some c.fd)))
  | .timer i _ => inferInstanceAs (Decidable (s.pc = .timers ∧ i < s.timers.length))
  | .timersDone => inferInstanceAs (Decidable (s.pc = .timers))
  | .handleEvent _ _ => inferInstanceAs (Decidable (s.pc = .handlers ∧ s.active ≠ none))
  | .swap => inferInstanceAs (Decidable (s.pc = .handlers ∧ s.active = none))
  | .call _ => inferInstanceAs (Decidable (s.pc = .functors ∧ s.queue.functors ≠ []))
  | .functorsDone => inferInstanceAs (Decidable (s.pc = .functors ∧ s.queue.functors = []))

instance : ∀ e : Event, Decidable e.IsOwn
  | .start _ _ | .restart _ | .stop => .isFalse id
  | .loop | .polled _ | .timer _ _ | .timersDone | .handleEvent _ _ | .swap | .call _
  | .functorsDone => .isTrue trivial

end Connector
end MuduoWindows.Net
