import MuduoWindows.Net.Connector.Threads
import MuduoWindows.Net.TcpClient

/-! # The client and its threads

`connect`, `disconnect` and `stop` may be called in any thread. Here the functions on the loop's
thread stop at the tests of both flags `connect_` and behind them, and `connect` and `stop` stop
between the two flags and, on another thread, before they queue their functor.
-/

namespace MuduoWindows.Net
open Library

/-- The calls of the connector in `removeConnection`, `connect` and `stop`. -/
inductive ConnectorCall where
  | restart
  | start
  | stop
  deriving DecidableEq

/-- The client with what `ConnectorThreads` adds to its connector. The loop's thread stands in front
of the call `next`, and other threads stand in front of `others`. -/
structure TcpClientThreads where
  client : TcpClient
  callbacks : List Channel.Callback
  pause : Option Pause
  calling : List ConnectorFunctor
  next : Option ConnectorCall
  others : List ConnectorCall

namespace TcpClientThreads

def create (callbacks : Callbacks) : TcpClientThreads :=
  { client := .create callbacks, callbacks := [], pause := none, calling := [], next := none
    others := [] }

/-- The connector of the client and its threads. -/
def connector (c : TcpClientThreads) : ConnectorThreads :=
  { connector := c.client.connector, callbacks := c.callbacks, pause := c.pause
    calling := c.calling }

def setConnector (c : TcpClientThreads) (s : ConnectorThreads) : TcpClientThreads :=
  { c with
    client := { c.client with connector := s.connector }
    callbacks := s.callbacks, pause := s.pause, calling := s.calling }

/-- No function of the connector or the client runs on the loop's thread. -/
def Idle (c : TcpClientThreads) : Prop := c.connector.Idle ∧ c.next = none

instance (c : TcpClientThreads) : Decidable c.Idle := inferInstanceAs (Decidable (_ ∧ _))

/-- A thread comes to the call. -/
def before (c : TcpClientThreads) (isInLoopThread : Bool) (call : ConnectorCall) :
    TcpClientThreads :=
  if isInLoopThread then { c with next := some call }
  else { c with others := c.others ++ [call] }

/-- The thread makes the call. -/
def behind (c : TcpClientThreads) (isInLoopThread : Bool) (call : ConnectorCall) :
    TcpClientThreads :=
  if isInLoopThread then { c with next := none } else { c with others := c.others.erase call }

def Calls (c : TcpClientThreads) (isInLoopThread : Bool) (call : ConnectorCall) : Prop :=
  if isInLoopThread then c.next = some call else call ∈ c.others

instance (c : TcpClientThreads) (isInLoopThread : Bool) (call : ConnectorCall) :
    Decidable (c.Calls isInLoopThread call) :=
  inferInstanceAs (Decidable (if isInLoopThread then c.next = some call else call ∈ c.others))

/-- `connect()` up to `connector_->start()`. -/
def connect (c : TcpClientThreads) (isInLoopThread : Bool) : TcpClientThreads :=
  { c with client := { c.client with connect_ := true, quiet := false } }.before isInLoopThread
    .start

def startConnector (c : TcpClientThreads) (isInLoopThread : Bool) (savedErrno : ConnectErrno) :
    Result TcpClientThreads := do
  let connector ← c.connector.start isInLoopThread savedErrno
  pure ((c.behind isInLoopThread .start).setConnector connector)

def disconnect (c : TcpClientThreads) : TcpClientThreads :=
  { c with client := c.client.disconnect }

/-- `stop()` up to `connector_->stop()`. -/
def stop (c : TcpClientThreads) (isInLoopThread : Bool) : TcpClientThreads :=
  { c with client := { c.client with connect_ := false } }.before isInLoopThread .stop

def stopConnector (c : TcpClientThreads) (isInLoopThread : Bool) : TcpClientThreads :=
  ({ c with client := { c.client with quiet := true } }.behind isInLoopThread .stop).setConnector
    (c.connector.stop isInLoopThread)

/-- `removeConnection` up to `restart()`. -/
def removeConnection (c : TcpClientThreads) (p : ℕ) : Result TcpClientThreads := do
  assert (c.client.connection = some p) "connection_ == conn"
  pure { c with
    client := { c.client with
      connection := none, pendingFunctors := c.client.pendingFunctors ++ [p] }
    next := if c.client.retry_ ∧ c.client.connect_ then some .restart else none }

def restart (c : TcpClientThreads) (savedErrno : ConnectErrno) : Result TcpClientThreads := do
  let connector ← c.connector.restart savedErrno
  pure ((c.behind true .restart).setConnector connector)

/-- The connector has called `newConnectionCallback_`. -/
def newConnection (c : TcpClientThreads) (sockfd : ℕ) : Result TcpClientThreads := do
  let client ← c.client.newConnection sockfd
  pure { c with client := client }

/-- The socket that a step of the connector passes to `newConnectionCallback_`. -/
def handed (c : TcpClientThreads) (e : ConnectorThreads.Event) : Option ℕ :=
  match e, c.pause with
  | .resume, some (.newConnectionCallback sockfd) => some sockfd
  | _, _ => none

def onConnector (c : TcpClientThreads) (e : ConnectorThreads.Event) : Result TcpClientThreads := do
  let connector ← ConnectorThreads.machine.step c.connector e
  match c.handed e with
  | some sockfd => (c.setConnector connector).newConnection sockfd
  | none => pure (c.setConnector connector)

def onConnection (c : TcpClientThreads) (p : ℕ) (e : TcpConnection.Event) :
    Result TcpClientThreads := do
  let conn ← TcpConnection.machine.step (c.client.conn p) e
  let c' := { c with client := c.client.setConnection p conn }
  if TcpClient.Closes (c.client.conn p) e then c'.removeConnection p else pure c'

def connectDestroyed (c : TcpClientThreads) : Result TcpClientThreads := do
  let client ← c.client.connectDestroyed
  pure { c with client := client }

/-- The step is one of the connector on the loop's thread. -/
def IsOwn : ConnectorThreads.Event → Prop
  | .start _ _ | .restart _ | .stop _ | .queue _ => False
  | _ => True

inductive Event where
  | connect (isInLoopThread : Bool)
  | startConnector (isInLoopThread : Bool) (savedErrno : ConnectErrno)
  | disconnect
  | stop (isInLoopThread : Bool)
  | stopConnector (isInLoopThread : Bool)
  | enableRetry
  /-- A call of another thread queues its functor. -/
  | queue (f : ConnectorFunctor)
  /-- The loop works for the connector. -/
  | connector (e : ConnectorThreads.Event)
  /-- The loop or the user works on a connection. -/
  | connection (p : ℕ) (e : TcpConnection.Event)
  | restart (savedErrno : ConnectErrno)
  | connectDestroyed
  deriving DecidableEq

/-- The loop's thread begins nothing new before a function has returned. -/
def machine : Machine TcpClientThreads Event Fault where
  enabled c
    | .connect isInLoopThread | .stop isInLoopThread =>
        isInLoopThread = true → c.Idle ∧ c.client.connector.pc ≠ .polling
    | .startConnector isInLoopThread _ => c.Calls isInLoopThread .start
    | .stopConnector isInLoopThread => c.Calls isInLoopThread .stop
    | .disconnect | .enableRetry => True
    | .queue f => f ∈ c.calling
    | .connector e => IsOwn e ∧ c.next = none ∧
        ConnectorThreads.machine.enabled c.connector e
    | .connection p e => c.Idle ∧ p < c.client.created ∧ c.client.connector.pc ≠ .polling ∧
        e ≠ .connectEstablished ∧ e ≠ .connectDestroyed ∧
        TcpConnection.machine.enabled (c.client.conn p) e
    | .restart _ => c.Calls true .restart
    | .connectDestroyed => c.Idle ∧ c.client.connector.pc = .functors ∧
        c.client.pendingFunctors ≠ []
  step c
    | .connect isInLoopThread => pure (c.connect isInLoopThread)
    | .startConnector isInLoopThread savedErrno => c.startConnector isInLoopThread savedErrno
    | .disconnect => pure c.disconnect
    | .stop isInLoopThread => pure (c.stop isInLoopThread)
    | .stopConnector isInLoopThread => pure (c.stopConnector isInLoopThread)
    | .enableRetry => pure { c with client := c.client.enableRetry }
    | .queue f => pure (c.setConnector (c.connector.queue f))
    | .connector e => c.onConnector e
    | .connection p e => c.onConnection p e
    | .restart savedErrno => c.restart savedErrno
    | .connectDestroyed => c.connectDestroyed

end TcpClientThreads
end MuduoWindows.Net
