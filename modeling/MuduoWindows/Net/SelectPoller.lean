import MuduoWindows.Library.Numbered
import MuduoWindows.Net.EPollPoller

/-! # net/selectPoller.cpp with the channels of its loop

`P` is the type of the addresses of channels. `index_` is an `int` here and kept beside the channel,
whose own field knows only the constants of the other poller. `revents` of an entry is left out: it
is written and never read.
-/

namespace MuduoWindows.Net
open Library

/-- `struct pollfd`; `events` is a `short`. The unsigned `fd` is read back as the `int` it came
from. -/
structure Pollfd where
  fd : ℤ
  events : BitVec 16
  deriving DecidableEq

structure SelectPoller (P : Type) where
  channels : ℤ → Option P
  channel : P → Channel
  index : P → ℤ
  pollfds : List Pollfd

namespace SelectPoller
variable {P : Type} [DecidableEq P]

/-- A poller without channels; the channels are built but not registered. -/
def create (fd : P → ℕ) : SelectPoller P :=
  { channels := fun _ => none, channel := fun p => .create (fd p), index := fun _ => -1
    pollfds := [] }

/-- The entry that `updateChannel` writes for a channel that it knows. -/
def entry (c : Channel) : Pollfd :=
  { fd := if c.isNoneEvent then -c.fd - 1 else c.fd, events := c.events.setWidth 16 }

def updateChannel (s : SelectPoller P) (p : P) : Result (SelectPoller P) := do
  let c := s.channel p
  if s.index p < 0 then do
    assert (s.channels c.fd = none) "channels_.find(channel->fd()) == channels_.end()"
    let pollfds := s.pollfds ++ [{ fd := c.fd, events := c.events.setWidth 16 }]
    pure { s with
      pollfds := pollfds
      index := Function.update s.index p (pollfds.length - 1)
      channels := Function.update s.channels c.fd (some p) }
  else do
    assert (s.channels c.fd ≠ none) "channels_.find(channel->fd()) != channels_.end()"
    assert (s.channels c.fd = some p) "channels_[channel->fd()] == channel"
    let idx := s.index p
    assert (0 ≤ idx ∧ idx < s.pollfds.length)
      "0 <= idx && idx < static_cast<int>(pollfds_.size())"
    let fds := s.pollfds[idx.toNat]?.map Pollfd.fd
    assert (fds = some (c.fd : ℤ) ∨ fds = some (-(c.fd : ℤ) - 1))
      "pfd.fd == channel->fd() || pfd.fd == -channel->fd() - 1"
    pure { s with pollfds := s.pollfds.set idx.toNat (entry c) }

/-- The descriptor behind `fd`, which may be negated. -/
def channelAtEnd (fd : ℤ) : ℤ := if fd < 0 then -fd - 1 else fd

def removeChannel (s : SelectPoller P) (p : P) : Result (SelectPoller P) := do
  let c := s.channel p
  assert (s.channels c.fd ≠ none) "channels_.find(channel->fd()) != channels_.end()"
  assert (s.channels c.fd = some p) "channels_[channel->fd()] == channel"
  assert (c.isNoneEvent) "channel->isNoneEvent()"
  let idx := s.index p
  assert (0 ≤ idx ∧ idx < s.pollfds.length)
    "0 <= idx && idx < static_cast<int>(pollfds_.size())"
  let pfd := s.pollfds[idx.toNat]?
  assert (pfd.map Pollfd.fd = some (-(c.fd : ℤ) - 1) ∧
      pfd.map (fun pfd => pfd.events.signExtend 32) = some c.events)
    "pfd.fd == -channel->fd() - 1 && pfd.events == channel->events()"
  let channels := Function.update s.channels c.fd none
  if idx = s.pollfds.length - 1 then
    pure { s with channels := channels, pollfds := s.pollfds.dropLast }
  else
    match (s.pollfds.getLast?.map fun pfd => channelAtEnd pfd.fd).bind channels with
    | none => .error (.nullPointer "channels_[channelAtEnd]")
    | some last => pure { s with
        channels := channels
        index := Function.update s.index last idx
        pollfds := swapRemove s.pollfds idx.toNat }

/-- A function of the channel that changes `events_` and calls `update`. -/
def change (s : SelectPoller P) (p : P) (change : Change) : Result (SelectPoller P) :=
  { s with channel := Function.update s.channel p (change.apply (s.channel p)) }.updateChannel p

/-- `Channel::remove` -/
def remove (s : SelectPoller P) (p : P) : Result (SelectPoller P) := do
  assert ((s.channel p).isNoneEvent) "isNoneEvent()"
  s.removeChannel p

def Registered (s : SelectPoller P) (p : P) : Prop := s.channels (s.channel p).fd = some p

instance (s : SelectPoller P) (p : P) : Decidable (s.Registered p) :=
  inferInstanceAs (Decidable (_ = _))

inductive Event (P : Type) where
  | change (p : P) (change : Change)
  | remove (p : P)
  deriving DecidableEq

/-- Only a registered channel without interest is removed. -/
def machine : Machine (SelectPoller P) (Event P) Fault where
  enabled s
    | .change _ _ => True
    | .remove p => s.Registered p ∧ (s.channel p).isNoneEvent = true
  step s
    | .change p change => s.change p change
    | .remove p => s.remove p

instance (s : SelectPoller P) : ∀ e, Decidable (machine.enabled s e)
  | .change _ _ => .isTrue trivial
  | .remove _ => inferInstanceAs (Decidable (_ ∧ _))

end SelectPoller
end MuduoWindows.Net
