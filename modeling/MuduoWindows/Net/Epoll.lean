import MuduoWindows.Net.Channel

/-! # net/epoll.cpp: readiness from AFD polls

The objects that `new` makes stand at the addresses 0, 1, 2 and so on; `delete` leaves them there
and notes the address of a socket data. The kernel can refuse a poll, and completes each one that it
takes at most once. `P` is the type of the pointers in `epoll_data`.
-/

namespace MuduoWindows.Net
open Library

abbrev AfdEvents := BitVec 32

def AFD_POLL_RECEIVE : AfdEvents := 0x0001
def AFD_POLL_RECEIVE_EXPEDITED : AfdEvents := 0x0002
def AFD_POLL_SEND : AfdEvents := 0x0004
def AFD_POLL_DISCONNECT : AfdEvents := 0x0008
def AFD_POLL_ABORT : AfdEvents := 0x0010
def AFD_POLL_LOCAL_CLOSE : AfdEvents := 0x0020
def AFD_POLL_CONNECT : AfdEvents := 0x0040
def AFD_POLL_ACCEPT : AfdEvents := 0x0080
def AFD_POLL_CONNECT_FAIL : AfdEvents := 0x0100

/-- `epoll_op_t`; `events` are those of its only handle. -/
structure EpollOp where
  generation : ℕ
  sockData : ℕ
  events : AfdEvents
  deriving DecidableEq

/-- `epoll_sock_data_t` without the sockets below `_sock`. -/
structure EpollSockData (P : Type) where
  sock : ℕ
  registeredEvents : Events
  opGeneration : ℕ
  userData : Option P
  opCount : ℤ

/-- `epoll_event` -/
structure EpollEvent (P : Type) where
  events : Events
  data : Option P
  deriving DecidableEq

/-- `epoll_port_data_t` with the objects it has made and the polls that are not yet dequeued.
`refused n` says that call `n` of `epoll__afd_poll` fails; `attempted` counts these calls. -/
structure EpollPort (P : Type) where
  sockDataTree : ℕ → Option ℕ
  attnList : List ℕ
  sockData : ℕ → EpollSockData P
  allocated : ℕ
  op : ℕ → EpollOp
  submitted : ℕ
  inFlight : List ℕ
  deleted : List ℕ
  refused : ℕ → Bool
  attempted : ℕ

/-- What the kernel reports of a poll: whether its status is a success, and the answer in
`_poll_info`. -/
structure Completion where
  op : ℕ
  success : Bool
  numberOfHandles : ℕ
  events : AfdEvents
  deriving DecidableEq

/-- `afd_events` in `epoll_wait`. -/
def Completion.afdEvents (c : Completion) : AfdEvents :=
  if c.numberOfHandles = 0 then 0 else c.events

namespace EpollPort
variable {P : Type}

def create (refused : ℕ → Bool) : EpollPort P :=
  { sockDataTree := fun _ => none, attnList := [], sockData := fun _ => ⟨0, 0, 0, none, 0⟩
    allocated := 0, op := fun _ => ⟨0, 0, 0⟩, submitted := 0, inFlight := [], deleted := []
    refused := refused, attempted := 0 }

/-- The mask that `submit` polls for. -/
def afdEvents (registeredEvents : Events) : AfdEvents :=
  (AFD_POLL_ABORT ||| AFD_POLL_DISCONNECT ||| AFD_POLL_CONNECT_FAIL ||| AFD_POLL_LOCAL_CLOSE) |||
    (if has registeredEvents (EPOLLIN ||| EPOLLRDNORM) then
      AFD_POLL_RECEIVE ||| AFD_POLL_ACCEPT else 0) |||
    (if has registeredEvents (EPOLLIN ||| EPOLLRDBAND) then AFD_POLL_RECEIVE_EXPEDITED else 0) |||
    (if has registeredEvents (EPOLLOUT ||| EPOLLWRNORM ||| EPOLLRDBAND) then
      AFD_POLL_SEND ||| AFD_POLL_CONNECT else 0)

def setSockData (port : EpollPort P) (s : ℕ) (d : EpollSockData P) : EpollPort P :=
  { port with sockData := Function.update port.sockData s d }

/-- The kernel has taken the new poll of a socket; the generation is a `uint32_t`. -/
def started (port : EpollPort P) (s : ℕ) : EpollPort P :=
  let d := port.sockData s
  let op : EpollOp := ⟨(d.opGeneration + 1) % 2 ^ 32, s, afdEvents d.registeredEvents⟩
  { port.setSockData s { d with opCount := d.opCount + 1, opGeneration := op.generation } with
    op := Function.update port.op port.submitted op
    submitted := port.submitted + 1
    inFlight := port.submitted :: port.inFlight
    attempted := port.attempted + 1 }

/-- `epoll_sock_data_t::submit`, and whether it gives 0. A poll that is refused is deleted, which
takes it off `_op_count` again. -/
def submit (port : EpollPort P) (s : ℕ) : EpollPort P × Bool :=
  if port.refused port.attempted then ({ port with attempted := port.attempted + 1 }, false)
  else (port.started s, true)

/-- The end of `epoll_add` and `epoll_mod`; `none` is the result -1. -/
def register (port : EpollPort P) (s : ℕ) (events : Events) (data : P) : Option (EpollPort P) :=
  let (port, success) := (port.setSockData s { port.sockData s with
    registeredEvents := events ||| EPOLLERR ||| EPOLLHUP, userData := some data }).submit s
  if success then some port else none

/-- `none` is the result -1. -/
def epollAdd (port : EpollPort P) (sock : ℕ) (events : Events) (data : P) : Option (EpollPort P) :=
  match port.sockDataTree sock with
  | some _ => none
  | none =>
    let s := port.allocated
    let port := { port.setSockData s ⟨sock, 0, 0, none, 0⟩ with
      allocated := port.allocated + 1
      sockDataTree := Function.update port.sockDataTree sock (some s) }
    port.register s events data

def epollMod (port : EpollPort P) (sock : ℕ) (events : Events) (data : P) : Option (EpollPort P) :=
  match port.sockDataTree sock with
  | some s => port.register s events data
  | none => port.epollAdd sock events data

def remove (port : EpollPort P) (s : ℕ) : EpollPort P :=
  { port with
    sockDataTree := Function.update port.sockDataTree (port.sockData s).sock none
    attnList := port.attnList.erase s }

def epollDel (port : EpollPort P) (sock : ℕ) : Option (EpollPort P) :=
  (port.sockDataTree sock).map port.remove

def find (port : EpollPort P) (s : ℕ) : Prop := port.sockDataTree (port.sockData s).sock = some s

instance (port : EpollPort P) (s : ℕ) : Decidable (port.find s) :=
  inferInstanceAs (Decidable (_ = _))

def addAttn (port : EpollPort P) (s : ℕ) : EpollPort P :=
  { port with attnList := port.attnList.insert s }

/-- `epoll_port_data_t::submit` for one entry of `_attn_list`, which ignores the result. -/
def submitIdle (port : EpollPort P) (s : ℕ) : EpollPort P :=
  if (port.sockData s).opCount = 0 then (port.submit s).1 else port

def submitAll (port : EpollPort P) : EpollPort P :=
  { port.attnList.foldl submitIdle port with attnList := [] }

/-- The sockets of the list whose new poll the kernel refuses. -/
def refusedPolls (port : EpollPort P) : List ℕ → List ℕ
  | [] => []
  | s :: l =>
    if (port.sockData s).opCount = 0 ∧ port.refused port.attempted then
      s :: refusedPolls (port.submitIdle s) l
    else refusedPolls (port.submitIdle s) l

def modify (port : EpollPort P) (s : ℕ) (f : EpollSockData P → EpollSockData P) : EpollPort P :=
  port.setSockData s (f (port.sockData s))

/-- `delete op` -/
def deleteOp (port : EpollPort P) (o : ℕ) : Result (EpollPort P) := do
  let s := (port.op o).sockData
  assert (0 ≤ (port.sockData s).opCount - 1) "_sock_data->_op_count >= 0"
  pure (port.modify s fun d => { d with opCount := d.opCount - 1 })

/-- `delete sock_data`, if `_op_count` is 0. -/
def release (port : EpollPort P) (s : ℕ) : EpollPort P :=
  { port with
    deleted := if (port.sockData s).opCount = 0 then s :: port.deleted else port.deleted }

def reportedEvents (afdEvents : AfdEvents) : Events :=
  (if has afdEvents (AFD_POLL_RECEIVE ||| AFD_POLL_ACCEPT) then EPOLLIN else 0) |||
    (if has afdEvents AFD_POLL_RECEIVE_EXPEDITED then EPOLLIN ||| EPOLLRDBAND else 0) |||
    (if has afdEvents AFD_POLL_SEND then EPOLLOUT else 0) |||
    (if has afdEvents AFD_POLL_DISCONNECT && !has afdEvents AFD_POLL_ABORT then
      EPOLLRDHUP ||| EPOLLIN ||| EPOLLRDNORM ||| EPOLLRDBAND else 0) |||
    (if has afdEvents AFD_POLL_ABORT then EPOLLHUP ||| EPOLLERR else 0) |||
    (if has afdEvents AFD_POLL_CONNECT then EPOLLOUT ||| EPOLLWRNORM ||| EPOLLWRBAND else 0) |||
    (if has afdEvents AFD_POLL_CONNECT_FAIL then EPOLLERR else 0)

/-- The kernel has handed out the completion of a poll. -/
def leave (port : EpollPort P) (o : ℕ) : EpollPort P :=
  { port with inFlight := port.inFlight.erase o }

/-- The end of the loop in `epoll_wait`, when a poll has succeeded. -/
def report (port : EpollPort P) (s : ℕ) (afdEvents : AfdEvents) :
    EpollPort P × Option (EpollEvent P) :=
  let port := (port.modify s fun d =>
    { d with registeredEvents := d.registeredEvents &&& ~~~EPOLLOUT }).addAttn s
  let reported := reportedEvents afdEvents
  (port, if reported ≠ 0 then some ⟨reported, (port.sockData s).userData⟩ else none)

/-- A poll whose generation has been reset; a failed one is not deleted. -/
def dequeueNewest (port : EpollPort P) (entry : Completion) :
    Result (EpollPort P × Option (EpollEvent P)) :=
  let s := (port.op entry.op).sockData
  if ¬ port.find s then do
    let port ← port.deleteOp entry.op
    pure (port.release s, none)
  else if entry.success = false then
    pure (port, some ⟨EPOLLERR, (port.sockData s).userData⟩)
  else if has entry.afdEvents AFD_POLL_LOCAL_CLOSE then do
    let port ← (port.remove s).deleteOp entry.op
    pure (port.release s, none)
  else do
    let port ← port.deleteOp entry.op
    pure (port.report s entry.afdEvents)

/-- The body of the loop in `epoll_port_data_t::epoll_wait`, with the event that it reports. -/
def dequeue (port : EpollPort P) (entry : Completion) :
    Result (EpollPort P × Option (EpollEvent P)) :=
  let op := port.op entry.op
  let port := port.leave entry.op
  if op.generation < (port.sockData op.sockData).opGeneration then do
    let port ← port.deleteOp entry.op
    pure (port, none)
  else
    (port.modify op.sockData fun d => { d with opGeneration := 0 }).dequeueNewest entry

end EpollPort
end MuduoWindows.Net
