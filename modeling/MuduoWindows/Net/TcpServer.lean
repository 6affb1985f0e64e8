import MuduoWindows.Net.EventLoop
import MuduoWindows.Net.TcpConnection

/-! # net/tcpServer.cpp over several loops

`L` is the type of loops. Every loop has its queue of functors, and a connection runs on the loop
that the thread pool gave it. A call of a function is one step, with the calls it makes on the same
thread; the user's calls from callbacks are steps of their own. The server is started, and the
socket of a new connection comes with the step that accepts it. Connections stand at the addresses
0, 1, 2 and so on; names are lists of characters.
-/

namespace MuduoWindows.Net
open Library

abbrev Name := List Char

inductive ServerFunctor where
  | connectEstablished (p : ℕ)
  | removeConnectionInLoop (p : ℕ)
  | connectDestroyed (p : ℕ)
  | connection (p : ℕ) (f : ConnFunctor)
  deriving DecidableEq

/-- What happened to a connection, and on the thread of which loop. -/
inductive Milestone (L : Type) where
  | established (l : L)
  | removed (l : L)
  | destroyed (l : L)
  deriving DecidableEq

structure ServerConn (L : Type) where
  name : Name
  loop : L
  connection : TcpConnection

/-- The server with its pool and its connections, the queues of all loops, and the milestones of
each connection so far. `created` connections exist. -/
structure TcpServer (L : Type) where
  loop : L
  ipPort : Name
  name : Name
  loops : List L
  next : ℕ
  callbacks : Callbacks
  nextConnId : ℤ
  connections : Name → Option ℕ
  created : ℕ
  conn : ℕ → ServerConn L
  queue : L → FunctorQueue ServerFunctor
  history : ℕ → List (Milestone L)

/-- The conversion `%d`. -/
def printInt (x : ℤ) : Name :=
  if x < 0 then '-' :: Nat.toDigits 10 x.natAbs else Nat.toDigits 10 x.natAbs

namespace TcpServer
variable {L : Type} [DecidableEq L]

/-- `sizeof buf` of `newConnection`. -/
def bufSize : ℕ := 64

/-- `name_ + buf` after `snprintf(buf, sizeof buf, "-%s#%d", ipPort_.c_str(), nextConnId_)`. -/
def connName (name ipPort : Name) (nextConnId : ℤ) : Name :=
  name ++ ('-' :: ipPort ++ '#' :: printInt nextConnId).take (bufSize - 1)

/-- `++` of an `int`. -/
def increment (x : ℤ) : ℤ := (x + 1).bmod (2 ^ 32)

/-- The default of `TcpConnection`: `64 * 1024 * 1024`. -/
def highWaterMark : ℕ := 64 * 1024 * 1024

/-- `loop_->assertInLoopThread()` on the thread of the loop `l`. -/
def assertInLoopThread (l loop : L) : Result Unit := require (l = loop) .abortNotInLoopThread

def queueInLoop (s : TcpServer L) (l : L) (f : ServerFunctor) : TcpServer L :=
  { s with queue := Function.update s.queue l ((s.queue l).queueInLoop f) }

def record (s : TcpServer L) (p : ℕ) (m : Milestone L) : TcpServer L :=
  { s with history := Function.update s.history p (s.history p ++ [m]) }

def setConnection (s : TcpServer L) (p : ℕ) (c : TcpConnection) : TcpServer L :=
  { s with conn := Function.update s.conn p { s.conn p with connection := c } }

def removeConnectionInLoop (l : L) (s : TcpServer L) (p : ℕ) : Result (TcpServer L) := do
  assertInLoopThread l s.loop
  let n := if (s.connections (s.conn p).name).isSome then 1 else 0
  let s := { s with connections := Function.update s.connections (s.conn p).name none }
  assert (n = 1) "n == 1"
  pure ((s.record p (.removed l)).queueInLoop (s.conn p).loop (.connectDestroyed p))

/-- The `closeCallback_` that the server sets: `loop_->runInLoop` of `removeConnectionInLoop`. -/
def removeConnection (l : L) (s : TcpServer L) (p : ℕ) : Result (TcpServer L) :=
  if l = s.loop then s.removeConnectionInLoop l p
  else pure (s.queueInLoop s.loop (.removeConnectionInLoop p))

/-- A task that a function of the connection has left. -/
def runTask (l : L) (p : ℕ) (s : TcpServer L) : Task → Result (TcpServer L)
  | .closeCallback => s.removeConnection l p
  | .remove => do
    let c ← (s.conn p).connection.remove
    pure (s.setConnection p c)
  | .user | .channel _ => pure s

/-- Call a function of a connection on the thread of `l`, with what it calls in turn; what it
queues goes to the connection's loop. -/
def onConnection (l : L) (s : TcpServer L) (p : ℕ)
    (f : TcpConnection → Result TcpConnection) : Result (TcpServer L) := do
  let c ← f (s.conn p).connection
  let s := s.setConnection p { c with todo := [], pendingFunctors := [] }
  let s := c.pendingFunctors.foldl
    (fun s f => s.queueInLoop (s.conn p).loop (.connection p f)) s
  c.todo.foldlM (fun s task => s.runTask l p task) s

def connectEstablished (l : L) (s : TcpServer L) (p : ℕ) : Result (TcpServer L) := do
  assertInLoopThread l (s.conn p).loop
  (s.record p (.established l)).onConnection l p TcpConnection.connectEstablished

def connectDestroyed (l : L) (s : TcpServer L) (p : ℕ) : Result (TcpServer L) := do
  assertInLoopThread l (s.conn p).loop
  (s.record p (.destroyed l)).onConnection l p TcpConnection.connectDestroyed

/-- `handleClose`, as the channel's callback for a hang-up calls it. -/
def handleClose (l : L) (s : TcpServer L) (p : ℕ) : Result (TcpServer L) := do
  assertInLoopThread l (s.conn p).loop
  s.onConnection l p TcpConnection.handleClose

/-- `handleRead` after the peer has closed: `readFd` delivers nothing. -/
def handleRead (l : L) (s : TcpServer L) (p : ℕ) : Result (TcpServer L) := do
  assertInLoopThread l (s.conn p).loop
  s.onConnection l p fun c => c.handleRead []

def forceCloseInLoop (l : L) (s : TcpServer L) (p : ℕ) : Result (TcpServer L) := do
  assertInLoopThread l (s.conn p).loop
  s.onConnection l p TcpConnection.forceCloseInLoop

/-- `threadPool_->getNextLoop()` -/
def getNextLoop (s : TcpServer L) : Result (L × TcpServer L) :=
  if s.loops = [] then pure (s.loop, s)
  else
    match s.loops[s.next]? with
    | none => .error (.outOfBounds "loops_[next_]")
    | some loop =>
      pure (loop, { s with next := if s.loops.length ≤ s.next + 1 then 0 else s.next + 1 })

/-- The new connection at the next address, in the map under its name. -/
def insertConnection (s : TcpServer L) (ioLoop : L) (sockfd : ℕ) : TcpServer L :=
  let name := connName s.name s.ipPort s.nextConnId
  let connection := TcpConnection.create sockfd { s.callbacks with close := true } highWaterMark
  { s with
    nextConnId := increment s.nextConnId
    connections := Function.update s.connections name (some s.created)
    conn := Function.update s.conn s.created ⟨name, ioLoop, connection⟩
    created := s.created + 1 }

def newConnection (s : TcpServer L) (sockfd : ℕ) : Result (TcpServer L) := do
  let (ioLoop, s) ← s.getNextLoop
  let p := s.created
  let s := s.insertConnection ioLoop sockfd
  if s.loop = ioLoop then s.connectEstablished s.loop p
  else pure (s.queueInLoop ioLoop (.connectEstablished p))

/-- A functor of the queue of `l`. -/
def runFunctor (l : L) (s : TcpServer L) : ServerFunctor → Result (TcpServer L)
  | .connectEstablished p => s.connectEstablished l p
  | .removeConnectionInLoop p => s.removeConnectionInLoop l p
  | .connectDestroyed p => s.connectDestroyed l p
  | .connection p .forceCloseInLoop => s.forceCloseInLoop l p
  | .connection _ (.highWaterMarkCallback _) | .connection _ .writeCompleteCallback => pure s

/-- The server before the first connection; `conn` is nowhere an object yet. -/
def start (loop : L) (name ipPort : Name) (loops : List L) (callbacks : Callbacks) :
    TcpServer L :=
  { loop := loop, ipPort := ipPort, name := name, loops := loops, next := 0
    callbacks := callbacks, nextConnId := 1, connections := fun _ => none, created := 0
    conn := fun _ => ⟨[], loop, .create 0 callbacks highWaterMark⟩
    queue := fun _ => .empty, history := fun _ => [] }

inductive Event (L : Type) where
  | newConnection (sockfd : ℕ)
  /-- A readable event behind the peer's close. -/
  | handleRead (p : ℕ)
  /-- A hang-up event. -/
  | handleClose (p : ℕ)
  /-- A call of `forceClose`, on any thread. -/
  | forceClose (p : ℕ)
  /-- The loop `l` takes the pending functors. -/
  | swap (l : L)
  /-- The loop `l` calls the next of them. -/
  | call (l : L)
  deriving DecidableEq

/-- Each function call is one step, also that of another thread. There are fewer than 2^31 accepts,
events come for channels with an interest, and the server is not destroyed. -/
def machine : Machine (TcpServer L) (Event L) Fault where
  enabled s
    | .newConnection _ => s.created + 1 < 2 ^ 31
    | .handleRead p | .handleClose p =>
        p < s.created ∧ (s.conn p).connection.channel.isNoneEvent = false
    | .forceClose p => p < s.created
    | .swap l => (s.queue l).functors = []
    | .call l => (s.queue l).functors ≠ []
  step s
    | .newConnection sockfd => s.newConnection sockfd
    | .handleRead p => s.handleRead (s.conn p).loop p
    | .handleClose p => s.handleClose (s.conn p).loop p
    | .forceClose p => s.onConnection (s.conn p).loop p fun c => pure c.forceClose
    | .swap l => pure { s with queue := Function.update s.queue l (s.queue l).swap }
    | .call l =>
      match (s.queue l).functors with
      | [] => pure s
      | f :: rest =>
        { s with queue := Function.update s.queue l { s.queue l with functors := rest } }.runFunctor
          l f

theorem step_call {s : TcpServer L} {l : L} {f : ServerFunctor} {rest : List ServerFunctor}
    (h : (s.queue l).functors = f :: rest) : machine.step s (.call l) =
      runFunctor l { s with queue := Function.update s.queue l { s.queue l with functors := rest } }
        f := by
  simp only [machine, h]

end TcpServer
end MuduoWindows.Net
