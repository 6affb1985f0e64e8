import MuduoWindows.Net.Epoll

/-! # net/epollPoller.cpp with the channels of its loop

`P` is the type of the addresses of channels. A call of `poll` takes several steps: it blocks after
`submitAll`, the entries that the kernel hands out are processed one by one, and the active channels
are filled in at the end. No other function of the poller is called meanwhile.
-/

namespace MuduoWindows.Net
open Library

/-- The functions of a channel that change `events_` and call `update`. -/
inductive Change where
  | enableReading
  | disableReading
  | enableWriting
  | disableWriting
  | disableAll
  deriving DecidableEq

def Change.apply : Change → Channel → Channel
  | enableReading => Channel.enableReading
  | disableReading => Channel.disableReading
  | enableWriting => Channel.enableWriting
  | disableWriting => Channel.disableWriting
  | disableAll => Channel.disableAll

inductive Interest where
  | reading
  | writing
  deriving DecidableEq

namespace Interest

def wanted (c : Channel) : Interest → Bool
  | reading => c.isReading
  | writing => c.isWriting

def afdEvents : Interest → AfdEvents
  | reading => AFD_POLL_RECEIVE
  | writing => AFD_POLL_SEND

end Interest

/-- The poller, the channels, and the poll in progress: `entries` are processed and `events` has
been written to `events_`. `lost` remembers which interests the last entry of a channel has left
without a poll. -/
structure EPollPoller (P : Type) where
  channels : EPollPoller.ChannelMap P
  channel : P → Channel
  port : EpollPort P
  eventsSize : ℕ
  waiting : Bool
  entries : ℕ
  events : List (EpollEvent P)
  activeChannels : List P
  lost : P → Interest → Bool

namespace EPollPoller
variable {P : Type} [DecidableEq P]

def kInitEventListSize : ℕ := 16

/-- `ARRAY_COUNT(entries)` of `epoll_wait`. -/
def entriesCount : ℕ := 64

/-- `refused` tells which polls the kernel will refuse. -/
def create (refused : ℕ → Bool) : EPollPoller P :=
  { channels := fun _ => none, channel := fun _ => .create 0, port := .create refused
    eventsSize := kInitEventListSize, waiting := false, entries := 0, events := []
    activeChannels := [], lost := fun _ _ => false }

def setChannel (s : EPollPoller P) (p : P) (c : Channel) : EPollPoller P :=
  { s with channel := Function.update s.channel p c }

/-- `update(operation, channel)`: `epoll_ctl` must not fail, except to delete. -/
def update (port : EpollPort P) (p : P) (c : Channel) : EpollCtl → Result (EpollPort P)
  | .add =>
    match port.epollAdd c.fd c.events p with
    | some port => pure port
    | none => .error (.sysFatal "epoll_ctl op = ADD")
  | .mod =>
    match port.epollMod c.fd c.events p with
    | some port => pure port
    | none => .error (.sysFatal "epoll_ctl op = MOD")
  | .del => pure ((port.epollDel c.fd).getD port)

/-- Apply what `updateChannel` or `removeChannel` has decided. -/
def applyUpdate (s : EPollPoller P) (p : P) (u : Update P) : Result (EPollPoller P) := do
  let port ← match u.ctl with
    | some operation => update s.port p u.channel operation
    | none => pure s.port
  pure { s.setChannel p u.channel with
    channels := u.channels, port := port
    lost := Function.update s.lost p fun _ => false }

def change (s : EPollPoller P) (p : P) (change : Change) : Result (EPollPoller P) := do
  let u ← updateChannel s.channels p (change.apply (s.channel p))
  s.applyUpdate p u

/-- `Channel::remove` -/
def remove (s : EPollPoller P) (p : P) : Result (EPollPoller P) := do
  assert ((s.channel p).isNoneEvent) "isNoneEvent()"
  let u ← removeChannel s.channels p (s.channel p)
  s.applyUpdate p u

/-- The most entries that `epoll_wait` asks for. -/
def maxEntries (s : EPollPoller P) : ℕ := min entriesCount s.eventsSize

/-- The entry is for the poll that the socket data takes for its newest one, and the socket is
registered. -/
def Current (s : EPollPoller P) (entry : Completion) : Prop :=
  let op := s.port.op entry.op
  (s.port.sockData op.sockData).opGeneration ≤ op.generation ∧ s.port.find op.sockData

instance (s : EPollPoller P) (entry : Completion) : Decidable (s.Current entry) :=
  inferInstanceAs (Decidable (_ ∧ _))

/-- Another poll of the socket asks for the interest. -/
def Covered (s : EPollPoller P) (entry : Completion) (i : Interest) : Prop :=
  ∃ o ∈ s.port.inFlight.erase entry.op,
    (s.port.op o).sockData = (s.port.op entry.op).sockData ∧ has (s.port.op o).events i.afdEvents

instance (s : EPollPoller P) (entry : Completion) (i : Interest) : Decidable (s.Covered entry i) :=
  inferInstanceAs (Decidable (∃ o ∈ _, _))

/-- An entry loses an interest by closing the socket, or if no other poll asks for it and the
socket will not be polled for it again: the status is an error, the interest is in writing, or
`_op_count` counts another poll. -/
def Loses (s : EPollPoller P) (entry : Completion) (i : Interest) : Prop :=
  (entry.success = true ∧ has entry.afdEvents AFD_POLL_LOCAL_CLOSE) ∨
    (¬ s.Covered entry i ∧ (entry.success = false ∨ i = .writing ∨
      (s.port.sockData (s.port.op entry.op).sockData).opCount ≠ 1))

instance (s : EPollPoller P) (entry : Completion) (i : Interest) : Decidable (s.Loses entry i) :=
  inferInstanceAs (Decidable (_ ∨ _))

def lostBy (s : EPollPoller P) (entry : Completion) (p : P) (i : Interest) : Bool :=
  if s.Current entry ∧ (s.port.sockData (s.port.op entry.op).sockData).userData = some p then
    decide (s.Loses entry i)
  else s.lost p i

/-- An entry that `GetQueuedCompletionStatusEx` has returned. -/
def processEntry (s : EPollPoller P) (entry : Completion) : Result (EPollPoller P) := do
  let (port, event) ← s.port.dequeue entry
  pure { s with
    port := port, entries := s.entries + 1, events := s.events ++ event.toList
    lost := s.lostBy entry }

/-- `set_revents` and `push_back`. -/
def activate (s : EPollPoller P) (p : P) (events : Events) : EPollPoller P :=
  { s.setChannel p { s.channel p with revents := events } with
    activeChannels := s.activeChannels ++ [p] }

/-- The body of the loop in `fillActiveChannels`. -/
def fillActiveChannel (s : EPollPoller P) (event : EpollEvent P) : Result (EPollPoller P) :=
  match event.data with
  | none => .error (.nullPointer "channel")
  | some p => do
    assert (s.channels (s.channel p).fd ≠ none) "it != channels_.end()"
    assert (s.channels (s.channel p).fd = some p) "it->second == channel"
    pure (s.activate p event.events)

def fillActiveChannels (s : EPollPoller P) : Result (EPollPoller P) := do
  assert (s.events.length ≤ s.eventsSize) "numEvents <= events_.size()"
  s.events.foldlM fillActiveChannel s

/-- What `poll` does when `epoll_wait` has returned. -/
def polled (s : EPollPoller P) : Result (EPollPoller P) :=
  if 0 < s.events.length then do
    let s ← s.fillActiveChannels
    pure { s with
      waiting := false
      eventsSize := if s.events.length = s.eventsSize then s.eventsSize * 2 else s.eventsSize }
  else pure { s with waiting := false }

inductive Event (P : Type) where
  /-- A new channel takes the place of one that the poller does not know. -/
  | newChannel (p : P) (fd : ℕ)
  | change (p : P) (c : Change)
  | remove (p : P)
  /-- The loop clears `activeChannels_` and calls `poll`, which blocks. -/
  | poll
  | entry (entry : Completion)
  /-- `poll` returns. -/
  | polled
  deriving DecidableEq

/-- A poll completes with events that it has asked for. -/
def machine : Machine (EPollPoller P) (Event P) Fault where
  enabled s
    | .newChannel p _ => s.waiting = false ∧ (s.channel p).index = .kNew
    | .change _ _ | .remove _ | .poll => s.waiting = false
    | .entry entry => s.waiting = true ∧ s.entries < s.maxEntries ∧
        entry.op ∈ s.port.inFlight ∧ entry.events &&& ~~~(s.port.op entry.op).events = 0
    | .polled => s.waiting = true
  step s
    | .newChannel p fd => pure { s.setChannel p (.create fd) with
        lost := Function.update s.lost p fun _ => false }
    | .change p c => s.change p c
    | .remove p => s.remove p
    | .poll => pure { s with
        port := s.port.submitAll, waiting := true, entries := 0, events := []
        activeChannels := [] }
    | .entry entry => s.processEntry entry
    | .polled => s.polled

instance (s : EPollPoller P) : ∀ e, Decidable (machine.enabled s e)
  | .newChannel _ _ => inferInstanceAs (Decidable (s.waiting = false ∧ _))
  | .change _ _ | .remove _ | .poll => inferInstanceAs (Decidable (s.waiting = false))
  | .entry entry => inferInstanceAs (Decidable (s.waiting = true ∧ s.entries < s.maxEntries ∧
      entry.op ∈ s.port.inFlight ∧ entry.events &&& ~~~(s.port.op entry.op).events = 0))
  | .polled => inferInstanceAs (Decidable (s.waiting = true))

end EPollPoller
end MuduoWindows.Net
