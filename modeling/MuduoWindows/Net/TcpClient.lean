import MuduoWindows.Net.Connector
import MuduoWindows.Net.TcpConnection

/-! # net/tcpClient.cpp

A client with its connector and its connections, which stand at the addresses 0, 1, 2 and so on.
The connector and every connection take their own steps; the client adds what their callbacks do.
A call of the client's user and a handler of the loop are one step each: no call of another thread
overlaps a handler here. Names are left out.
-/

namespace MuduoWindows.Net
open Library

/-- `created` connections exist, and `connectDestroyed` is queued for those in `pendingFunctors`.
`quiet` says that `disconnect()` or `stop()` was called and `connect()` not since; `late` are the
sockets for which `newConnection` was called meanwhile. -/
structure TcpClient where
  connector : Connector
  callbacks : Callbacks
  retry_ : Bool
  connect_ : Bool
  connection : Option ℕ
  conn : ℕ → TcpConnection
  created : ℕ
  pendingFunctors : List ℕ
  quiet : Bool
  late : List ℕ

namespace TcpClient

/-- The default of `TcpConnection`. -/
def highWaterMark : ℕ := 64 * 1024 * 1024

def create (callbacks : Callbacks) : TcpClient :=
  { connector := .create, callbacks := callbacks, retry_ := false, connect_ := true
    connection := none, conn := fun _ => .create 0 callbacks highWaterMark, created := 0
    pendingFunctors := [], quiet := false, late := [] }

def setConnection (c : TcpClient) (p : ℕ) (conn : TcpConnection) : TcpClient :=
  { c with conn := Function.update c.conn p conn }

/-- `start()` of the connector, on the loop's thread or on another one. -/
def connect (c : TcpClient) (isInLoopThread : Bool) (savedErrno : ConnectErrno) :
    Result TcpClient := do
  let c := { c with connect_ := true, quiet := false }
  let connector ← c.connector.start isInLoopThread savedErrno
  pure { c with connector := connector }

def disconnect (c : TcpClient) : TcpClient :=
  let c := { c with connect_ := false, quiet := true }
  match c.connection with
  | some p => c.setConnection p (c.conn p).shutdown
  | none => c

def stop (c : TcpClient) : TcpClient :=
  { c with connect_ := false, quiet := true, connector := c.connector.stop }

def enableRetry (c : TcpClient) : TcpClient := { c with retry_ := true }

/-- The `newConnectionCallback_` of the connector. -/
def newConnection (c : TcpClient) (sockfd : ℕ) : Result TcpClient := do
  let p := c.created
  let conn := TcpConnection.create sockfd { c.callbacks with close := true } highWaterMark
  let c := { c with
    created := p + 1, connection := some p
    late := if c.quiet then c.late ++ [sockfd] else c.late }
  let conn ← conn.connectEstablished
  pure (c.setConnection p conn)

/-- The `closeCallback_` of the connection `p`. -/
def removeConnection (c : TcpClient) (p : ℕ) (savedErrno : ConnectErrno) : Result TcpClient := do
  assert (c.connection = some p) "connection_ == conn"
  let c := { c with connection := none, pendingFunctors := c.pendingFunctors ++ [p] }
  if c.retry_ ∧ c.connect_ then do
    let connector ← c.connector.restart savedErrno
    pure { c with connector := connector }
  else
    pure c

/-- The socket that a step of the connector has passed to `newConnectionCallback_`. -/
def handed (s s' : Connector) : Option ℕ :=
  match s.channel with
  | some ch => if s.handed ch.fd < s'.handed ch.fd then some ch.fd else none
  | none => none

/-- A step of the connector, which calls the client last. -/
def onConnector (c : TcpClient) (e : Connector.Event) : Result TcpClient := do
  let connector ← Connector.machine.step c.connector e
  let c' := { c with connector := connector }
  match handed c.connector connector with
  | some sockfd => c'.newConnection sockfd
  | none => pure c'

/-- The step of a connection calls `closeCallback_`. -/
def Closes (conn : TcpConnection) : TcpConnection.Event → Prop
  | .resume _ _ => conn.todo.head? = some .closeCallback
  | _ => False

instance (conn : TcpConnection) : ∀ e, Decidable (Closes conn e)
  | .resume _ _ => inferInstanceAs (Decidable (conn.todo.head? = some .closeCallback))
  | .connectEstablished | .connectDestroyed | .call _ | .userDone | .polled _ | .dispatch
  | .runFunctor | .delayed => .isFalse id

def onConnection (c : TcpClient) (p : ℕ) (e : TcpConnection.Event) (savedErrno : ConnectErrno) :
    Result TcpClient := do
  let conn ← TcpConnection.machine.step (c.conn p) e
  let c' := c.setConnection p conn
  if Closes (c.conn p) e then c'.removeConnection p savedErrno else pure c'

/-- The functor of `removeConnection`. -/
def connectDestroyed (c : TcpClient) : Result TcpClient :=
  match c.pendingFunctors with
  | [] => pure c
  | p :: rest => do
    let conn ← (c.conn p).connectDestroyed
    pure ({ c with pendingFunctors := rest }.setConnection p conn)

inductive Event where
  | connect (isInLoopThread : Bool) (savedErrno : ConnectErrno)
  | disconnect
  | stop
  | enableRetry
  /-- The loop works for the connector. -/
  | connector (e : Connector.Event)
  /-- The loop or the user works on a connection; `savedErrno` is for a restart. -/
  | connection (p : ℕ) (e : TcpConnection.Event) (savedErrno : ConnectErrno)
  | connectDestroyed
  deriving DecidableEq

/-- What the client does itself is left to it: the calls of the connector, and the beginning and the
end of a connection. -/
def machine : Machine TcpClient Event Fault where
  enabled c
    | .connect isInLoopThread savedErrno =>
        Connector.machine.enabled c.connector (.start isInLoopThread savedErrno)
    | .disconnect | .stop | .enableRetry => True
    | .connector e => e.IsOwn ∧ Connector.machine.enabled c.connector e
    | .connection p e _ => p < c.created ∧ c.connector.pc ≠ .polling ∧
        e ≠ .connectEstablished ∧ e ≠ .connectDestroyed ∧
        TcpConnection.machine.enabled (c.conn p) e
    | .connectDestroyed => c.connector.pc = .functors ∧ c.pendingFunctors ≠ []
  step c
    | .connect isInLoopThread savedErrno => c.connect isInLoopThread savedErrno
    | .disconnect => pure c.disconnect
    | .stop => pure c.stop
    | .enableRetry => pure c.enableRetry
    | .connector e => c.onConnector e
    | .connection p e savedErrno => c.onConnection p e savedErrno
    | .connectDestroyed => c.connectDestroyed

end TcpClient
end MuduoWindows.Net
