import MuduoWindows.Net.Fault

/-! # net/channel.h and the registry of net/epollPoller.cpp

A channel is known to the poller by its pointer, of type `P`; `channels_` maps file descriptors to
channels. What `epoll_ctl` does is left to its caller: an update returns the operation to perform.
-/

namespace MuduoWindows.Net
open Library

abbrev Events := BitVec 32

def POLLIN : Events := 0x001
def POLLPRI : Events := 0x002
def POLLOUT : Events := 0x004
def POLLERR : Events := 0x008
def POLLNVAL : Events := 0x020
def EPOLLIN : Events := 0x001
def EPOLLOUT : Events := 0x004
def EPOLLERR : Events := 0x008
def EPOLLHUP : Events := 0x010
def EPOLLRDNORM : Events := 0x040
def EPOLLRDBAND : Events := 0x080
def EPOLLWRNORM : Events := 0x100
def EPOLLWRBAND : Events := 0x200
def EPOLLRDHUP : Events := 0x2000

def has (events mask : Events) : Bool := events &&& mask != 0

theorem has_iff {x m : Events} :
    has x m = true ↔ ∃ i, x.getLsbD i = true ∧ m.getLsbD i = true := by
  unfold has
  rw [bne_iff_ne]
  constructor
  · intro h
    by_contra hnone
    apply h
    apply BitVec.eq_of_getLsbD_eq
    intro i _
    change (x &&& m).getLsbD i = (0#32).getLsbD i
    rw [BitVec.getLsbD_and, BitVec.getLsbD_zero]
    by_contra hi
    rw [Bool.not_eq_false, Bool.and_eq_true] at hi
    exact hnone ⟨i, hi⟩
  · rintro ⟨i, hx, hm⟩ h
    have hbit := congrArg (fun x => x.getLsbD i) h
    simp [hx, hm] at hbit

theorem has_or_left {x y m : Events} (h : has x m = true) : has (x ||| y) m = true := by
  obtain ⟨i, hx, hm⟩ := has_iff.mp h
  exact has_iff.mpr ⟨i, by simp [hx], hm⟩

theorem has_or_right {x y m : Events} (h : has y m = true) : has (x ||| y) m = true := by
  rw [BitVec.or_comm]
  exact has_or_left h

theorem has_mask {x m m' : Events} (h : has x m = true) : has x (m ||| m') = true := by
  obtain ⟨i, hx, hm⟩ := has_iff.mp h
  exact has_iff.mpr ⟨i, hx, by simp [hm]⟩

theorem has_and {x y m : Events} (h : y &&& m = m) : has (x &&& y) m = has x m := by
  unfold has
  rw [BitVec.and_assoc, h]

inductive Index where
  | kNew
  | kAdded
  | kDeleted
  deriving DecidableEq, Repr

structure Channel where
  fd : ℕ
  events : Events
  revents : Events
  index : Index
  deriving DecidableEq

namespace Channel

def kNoneEvent : Events := 0
def kReadEvent : Events := POLLIN ||| POLLPRI
def kWriteEvent : Events := POLLOUT

def create (fd : ℕ) : Channel := { fd := fd, events := 0, revents := 0, index := .kNew }

def isNoneEvent (c : Channel) : Bool := c.events == kNoneEvent
def isWriting (c : Channel) : Bool := has c.events kWriteEvent
def isReading (c : Channel) : Bool := has c.events kReadEvent

/-! The changes of `events_` that the channel's functions make before `update()`. -/

def enableReading (c : Channel) : Channel := { c with events := c.events ||| kReadEvent }
def disableReading (c : Channel) : Channel := { c with events := c.events &&& ~~~kReadEvent }
def enableWriting (c : Channel) : Channel := { c with events := c.events ||| kWriteEvent }
def disableWriting (c : Channel) : Channel := { c with events := c.events &&& ~~~kWriteEvent }
def disableAll (c : Channel) : Channel := { c with events := kNoneEvent }

/-- The callbacks of `handleEventWithGuard`, in the order of its tests. -/
inductive Callback where
  | close
  | error
  | read
  | write
  deriving DecidableEq

def handleEventWithGuard (revents : Events) : List Callback :=
  (if has revents EPOLLHUP && !has revents EPOLLIN then [.close] else []) ++
    (if has revents (POLLERR ||| POLLNVAL) then [.error] else []) ++
    (if has revents (POLLIN ||| POLLPRI) then [.read] else []) ++
    (if has revents POLLOUT then [.write] else [])

/-- The write callback is called last. -/
theorem exists_handleEventWithGuard_eq (revents : Events) : ∃ front,
    handleEventWithGuard revents = front ++ (if has revents POLLOUT then [.write] else []) ∧
      .write ∉ front := by
  refine ⟨_, rfl, ?_⟩
  split_ifs <;> simp

variable {c : Channel}

theorem isNoneEvent_iff : c.isNoneEvent = true ↔ c.events = 0 := beq_iff_eq

theorem isReading_iff : c.isReading = true ↔ c.events &&& kReadEvent ≠ 0 := bne_iff_ne

theorem isWriting_iff : c.isWriting = true ↔ c.events &&& kWriteEvent ≠ 0 := bne_iff_ne

theorem events_ne_zero (h : c.isReading = true ∨ c.isWriting = true) : c.events ≠ 0 := by
  intro h0
  rw [isReading_iff, isWriting_iff, h0] at h
  simp at h

@[simp] theorem isReading_enableReading : c.enableReading.isReading = true := by
  rw [isReading_iff]
  intro h
  have hbit := congrArg (fun x => x.getLsbD 0) h
  simp [enableReading, kReadEvent, POLLIN, POLLPRI] at hbit

@[simp] theorem isWriting_enableWriting : c.enableWriting.isWriting = true := by
  rw [isWriting_iff]
  intro h
  have hbit := congrArg (fun x => x.getLsbD 2) h
  simp [enableWriting, kWriteEvent, POLLOUT] at hbit

@[simp] theorem isWriting_disableWriting : c.disableWriting.isWriting = false := by
  unfold isWriting has disableWriting
  rw [BitVec.and_assoc, show ~~~kWriteEvent &&& kWriteEvent = 0#32 from rfl, BitVec.and_zero]
  rfl

@[simp] theorem isWriting_enableReading : c.enableReading.isWriting = c.isWriting := by
  unfold isWriting has enableReading
  rw [BitVec.and_or_distrib_right, show kReadEvent &&& kWriteEvent = 0#32 from rfl, BitVec.or_zero]

@[simp] theorem isWriting_disableReading : c.disableReading.isWriting = c.isWriting := by
  unfold isWriting has disableReading
  rw [BitVec.and_assoc, show ~~~kReadEvent &&& kWriteEvent = kWriteEvent from rfl]

@[simp] theorem isWriting_disableAll : c.disableAll.isWriting = false := by
  unfold isWriting has disableAll
  rw [show kNoneEvent = 0#32 from rfl, BitVec.zero_and]
  rfl

@[simp] theorem isReading_enableWriting : c.enableWriting.isReading = c.isReading := by
  unfold isReading has enableWriting
  rw [BitVec.and_or_distrib_right, show kWriteEvent &&& kReadEvent = 0#32 from rfl, BitVec.or_zero]

@[simp] theorem isReading_disableWriting : c.disableWriting.isReading = c.isReading := by
  unfold isReading has disableWriting
  rw [BitVec.and_assoc, show ~~~kWriteEvent &&& kReadEvent = kReadEvent from rfl]

end Channel

inductive EpollCtl where
  | add
  | mod
  | del
  deriving DecidableEq

namespace EPollPoller
variable {P : Type} [DecidableEq P]

/-- `channels_` -/
abbrev ChannelMap (P : Type) := ℕ → Option P

/-- The call of `epoll_ctl`, if there is one, the channel and `channels_`. -/
structure Update (P : Type) where
  ctl : Option EpollCtl
  channel : Channel
  channels : ChannelMap P

def updateChannel (channels : ChannelMap P) (p : P) (c : Channel) : Result (Update P) :=
  match c.index with
  | .kNew => do
    assert (channels c.fd = none) "channels_.find(fd) == channels_.end()"
    pure { ctl := some .add, channel := { c with index := .kAdded }
           channels := Function.update channels c.fd (some p) }
  | .kDeleted => do
    assert (channels c.fd ≠ none) "channels_.find(fd) != channels_.end()"
    assert (channels c.fd = some p) "channels_[fd] == channel"
    pure { ctl := some .add, channel := { c with index := .kAdded }, channels := channels }
  | .kAdded => do
    assert (channels c.fd ≠ none) "channels_.find(fd) != channels_.end()"
    assert (channels c.fd = some p) "channels_[fd] == channel"
    if c.isNoneEvent then
      pure { ctl := some .del, channel := { c with index := .kDeleted }, channels := channels }
    else
      pure { ctl := some .mod, channel := c, channels := channels }

def removeChannel (channels : ChannelMap P) (p : P) (c : Channel) : Result (Update P) := do
  assert (channels c.fd ≠ none) "channels_.find(fd) != channels_.end()"
  assert (channels c.fd = some p) "channels_[fd] == channel"
  assert (c.isNoneEvent) "channel->isNoneEvent()"
  assert (c.index = .kAdded ∨ c.index = .kDeleted) "index == kAdded || index == kDeleted"
  pure { ctl := if c.index = .kAdded then some .del else none
         channel := { c with index := .kNew }
         channels := Function.update channels c.fd none }

/-- The registry agrees with the channel's index. -/
def Registered (channels : ChannelMap P) (p : P) (c : Channel) : Prop :=
  if c.index = .kNew then channels c.fd = none else channels c.fd = some p

/-- The operation that an update of the channel performs. -/
def ctlOf (c : Channel) : EpollCtl :=
  if c.index ≠ .kAdded then .add else if c.isNoneEvent then .del else .mod

/-- The index that an update of the channel leaves. -/
def indexOf (c : Channel) : Index :=
  if c.index = .kAdded ∧ c.isNoneEvent then .kDeleted else .kAdded

variable {channels : ChannelMap P} {p : P} {c : Channel}

/-- The assertions of `updateChannel` test that the channel agrees with the registry. -/
theorem registered_of_updateChannel {u : Update P} (h : updateChannel channels p c = .ok u) :
    Registered channels p c := by
  unfold Registered
  unfold updateChannel at h
  cases hi : c.index with
  | kNew =>
    rw [hi] at h
    rw [if_pos rfl]
    exact (require_bind_eq_ok.mp h).1
  | kAdded | kDeleted =>
    rw [hi] at h
    rw [if_neg nofun]
    exact (require_bind_eq_ok.mp (require_bind_eq_ok.mp h).2).1

theorem updateChannel_eq (h : Registered channels p c) :
    updateChannel channels p c = .ok
      { ctl := some (ctlOf c), channel := { c with index := indexOf c }
        channels := Function.update channels c.fd (some p) } := by
  unfold Registered at h
  unfold updateChannel ctlOf indexOf
  cases hi : c.index with
  | kNew =>
    have hnone : channels c.fd = none := by simpa [hi] using h
    simp [require_bind hnone]
  | kDeleted =>
    have hsome : channels c.fd = some p := by simpa [hi] using h
    have hsame : Function.update channels c.fd (some p) = channels :=
      Function.update_eq_self_iff.mpr hsome.symm
    simp [require_bind, hsome, hsame]
  | kAdded =>
    have hsome : channels c.fd = some p := by simpa [hi] using h
    have hsame : Function.update channels c.fd (some p) = channels :=
      Function.update_eq_self_iff.mpr hsome.symm
    by_cases hn : c.isNoneEvent = true
    · simp [require_bind, hsome, hsame, hn]
    · simp [require_bind, hsome, hsame, hn, ← hi]

theorem removeChannel_ok {u : Update P} (h : removeChannel channels p c = .ok u) :
    channels c.fd = some p ∧ c.isNoneEvent = true ∧ (c.index = .kAdded ∨ c.index = .kDeleted) := by
  unfold removeChannel at h
  obtain ⟨-, h⟩ := require_bind_eq_ok.mp h
  obtain ⟨hp, h⟩ := require_bind_eq_ok.mp h
  obtain ⟨hnone, h⟩ := require_bind_eq_ok.mp h
  exact ⟨hp, hnone, (require_bind_eq_ok.mp h).1⟩

theorem removeChannel_eq (h : channels c.fd = some p) (hnone : c.isNoneEvent = true)
    (hindex : c.index = .kAdded ∨ c.index = .kDeleted) :
    removeChannel channels p c = .ok
      { ctl := if c.index = .kAdded then some .del else none
        channel := { c with index := .kNew }
        channels := Function.update channels c.fd none } := by
  have hne : channels c.fd ≠ none := by rw [h]; nofun
  unfold removeChannel
  rw [require_bind hne, require_bind h, require_bind hnone, require_bind hindex, pure_eq_ok]

end EPollPoller
end MuduoWindows.Net
