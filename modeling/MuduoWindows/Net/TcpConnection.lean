import MuduoWindows.Net.BufferQueue
import MuduoWindows.Net.Channel

/-! # net/tcpConnection.cpp

A connection on its loop thread. A handler that calls user code is cut there: what is still to be
done is a list of tasks, and while a callback of the user is the first of them, its calls come as
events. Queued functors are taken one after the other in their order. Buffers in user code are
fresh for every call, and logging is left out.
-/

namespace MuduoWindows.Net
open Library

namespace sockets

/-- `size_t`, and `ssize_t` too: net/types.h says `typedef size_t ssize_t`. -/
def sizeMod : ℕ := 2 ^ 64

/-- The conversion of a `size_t` argument to the `int` parameter of `::send`. -/
def toInt (count : ℕ) : ℤ := (BitVec.ofNat 32 count).toInt

/-- The `ssize_t` that `sockets::write` makes of the `int` result of `::send`. -/
def write (sent : ℤ) : ℕ := (sent % sizeMod).toNat

/-- What `::send` can return for a length: -1, or how much was sent. -/
def Sends (count : ℕ) (sent : ℤ) : Prop := sent = -1 ∨ 0 ≤ sent ∧ sent ≤ toInt count

instance (count : ℕ) (sent : ℤ) : Decidable (Sends count sent) :=
  inferInstanceAs (Decidable (_ ∨ _))

end sockets

inductive Errno where
  | WSAEWOULDBLOCK
  | EPIPE
  | ECONNRESET
  | other
  deriving DecidableEq

inductive StateE where
  | kDisconnected
  | kConnecting
  | kConnected
  | kDisconnecting
  deriving DecidableEq

/-- A functor of the connection in the loop's queue. -/
inductive ConnFunctor where
  | forceCloseInLoop
  | writeCompleteCallback
  | highWaterMarkCallback (size : ℕ)
  deriving DecidableEq

/-- What the loop thread has still to do in the handler it is in. -/
inductive Task where
  /-- A callback of the channel. -/
  | channel (callback : Channel.Callback)
  /-- A callback of the user, which runs now or next. -/
  | user
  /-- The call of `closeCallback_` at the end of `handleClose`. -/
  | closeCallback
  /-- `channel_->remove()` at the end of `connectDestroyed`. -/
  | remove
  deriving DecidableEq

/-- What can be seen of the connection from outside. -/
inductive Effect where
  | setState (s : StateE)
  | epollCtl (op : EpollCtl) (events : Events)
  | connectionCallback (connected : Bool)
  | messageCallback
  | closeCallback
  | shutdownWrite
  deriving DecidableEq

/-- Which callbacks are set. -/
structure Callbacks where
  connection : Bool
  message : Bool
  writeComplete : Bool
  highWaterMark : Bool
  close : Bool
  deriving DecidableEq

/-- The connection, what the poller and the loop hold for it, and what has been seen of it:
`active` are the events of its entries in `activeChannels_` not handled yet, `delayed` counts the
timers of `forceCloseWithDelay`, `destroyed` says that `connectDestroyed` was called, `messages`
joins all messages passed to `sendInLoop` and `accepted` all bytes that `::send` took. -/
structure TcpConnection where
  state : StateE
  reading : Bool
  channel : Channel
  inputBuffer : Buffer
  outputBuffer : Buffer
  highWaterMark : ℕ
  callbacks : Callbacks
  channels : EPollPoller.ChannelMap Unit
  pendingFunctors : List ConnFunctor
  active : List Events
  delayed : ℕ
  todo : List Task
  destroyed : Bool
  messages : List UInt8
  accepted : List UInt8
  trace : List Effect

namespace TcpConnection

def create (fd : ℕ) (callbacks : Callbacks) (highWaterMark : ℕ) : TcpConnection :=
  { state := .kConnecting, reading := true, channel := .create fd
    inputBuffer := .ofSize Buffer.kInitialSize, outputBuffer := .ofSize Buffer.kInitialSize
    highWaterMark := highWaterMark, callbacks := callbacks
    channels := fun _ => none, pendingFunctors := [], active := [], delayed := 0, todo := []
    destroyed := false, messages := [], accepted := [], trace := [] }

def emit (c : TcpConnection) (e : Effect) : TcpConnection := { c with trace := c.trace ++ [e] }

def setState (c : TcpConnection) (s : StateE) : TcpConnection :=
  { c with state := s }.emit (.setState s)

def queueInLoop (c : TcpConnection) (f : ConnFunctor) : TcpConnection :=
  { c with pendingFunctors := c.pendingFunctors ++ [f] }

/-- Queue a callback of the user under a condition. -/
def queueIf (c : TcpConnection) (p : Prop) [Decidable p] (f : ConnFunctor) : TcpConnection :=
  { c with pendingFunctors := c.pendingFunctors ++ if p then [f] else [] }

/-- The connection after `epoll_ctl` for its channel. -/
def applyUpdate (c : TcpConnection) (u : EPollPoller.Update Unit) : TcpConnection :=
  let c' := { c with channel := u.channel, channels := u.channels }
  match u.ctl with
  | none => c'
  | some op => c'.emit (.epollCtl op u.channel.events)

/-- A function of the channel that changes the interest and calls `update()`. -/
def update (c : TcpConnection) (change : Channel → Channel) : Result TcpConnection := do
  let u ← EPollPoller.updateChannel c.channels () (change c.channel)
  pure (c.applyUpdate u)

/-- `connectionCallback_`: the user runs next. -/
def connectionCallback (c : TcpConnection) : TcpConnection :=
  { c with
    todo := if c.callbacks.connection then .user :: c.todo else c.todo
    trace := c.trace ++ if c.callbacks.connection then
      [.connectionCallback (decide (c.state = .kConnected))] else [] }

def connectEstablished (c : TcpConnection) : Result TcpConnection := do
  assert (c.state = .kConnecting) "state_ == kConnecting"
  let c ← (c.setState .kConnected).update Channel.enableReading
  pure c.connectionCallback

def shutdownInLoop (c : TcpConnection) : TcpConnection :=
  { c with trace := c.trace ++ if c.channel.isWriting then [] else [.shutdownWrite] }

/-- `disableAll` and the callbacks of a connection that goes down. -/
def handleClose (c : TcpConnection) : Result TcpConnection := do
  assert (c.state = .kConnected ∨ c.state = .kDisconnecting)
    "state_ == kConnected || state_ == kDisconnecting"
  let c ← (c.setState .kDisconnected).update Channel.disableAll
  let c := { c with todo := if c.callbacks.close then .closeCallback :: c.todo else c.todo }
  pure c.connectionCallback

def connectDestroyed (c : TcpConnection) : Result TcpConnection := do
  let c := { c with destroyed := true }
  if c.state = .kConnected then do
    let c ← (c.setState .kDisconnected).update Channel.disableAll
    pure { c with todo := .remove :: c.todo }.connectionCallback
  else
    pure { c with todo := .remove :: c.todo }

/-- `channel_->remove()` -/
def remove (c : TcpConnection) : Result TcpConnection := do
  assert (c.channel.isNoneEvent) "isNoneEvent()"
  let u ← EPollPoller.removeChannel c.channels () c.channel
  pure (c.applyUpdate u)

/-- The local variables of `sendInLoop` behind the direct write. -/
structure Direct where
  nwrote : ℕ
  remaining : ℕ
  faultError : Bool

/-- The result of the direct write. The test is that of the source; as `ssize_t` is unsigned, the
second branch is never taken. -/
def direct (len : ℕ) (sent : ℤ) (errno : Errno) : Direct :=
  let nwrote := sockets.write sent
  if 0 ≤ nwrote then
    { nwrote := nwrote, remaining := (len + sockets.sizeMod - nwrote) % sockets.sizeMod
      faultError := false }
  else
    { nwrote := 0, remaining := len
      faultError := errno ≠ .WSAEWOULDBLOCK ∧ (errno = .EPIPE ∨ errno = .ECONNRESET) }

/-- The kernel takes the first `sent` bytes. -/
def accept (c : TcpConnection) (data : List UInt8) (sent : ℤ) : TcpConnection :=
  { c with accepted := c.accepted ++ data.take sent.toNat }

/-- `sendInLoop` tries to write directly: nothing is waiting in the output buffer. -/
def writesDirectly (c : TcpConnection) : Prop :=
  c.channel.isWriting = false ∧ c.outputBuffer.readableBytes = 0

instance (c : TcpConnection) : Decidable c.writesDirectly := inferInstanceAs (Decidable (_ ∧ _))

/-- The end of `sendInLoop`: keep what is left of the message and write it when the socket is
writable. -/
def buffer (c : TcpConnection) (data : List UInt8) (d : Direct) : Result TcpConnection := do
  let oldLen := c.outputBuffer.readableBytes
  let newLen := (oldLen + d.remaining) % sockets.sizeMod
  let c := c.queueIf (c.highWaterMark ≤ newLen ∧ oldLen < c.highWaterMark ∧
    c.callbacks.highWaterMark) (.highWaterMarkCallback newLen)
  let outputBuffer ← c.outputBuffer.append ((data.drop d.nwrote).take d.remaining)
  let c := { c with outputBuffer := outputBuffer }
  if c.channel.isWriting then pure c else c.update Channel.enableWriting

/-- The first part of `sendInLoop`: the direct write, if there is one. -/
def writeDirectly (c : TcpConnection) (data : List UInt8) (sent : ℤ) (errno : Errno) :
    Direct × TcpConnection :=
  if c.writesDirectly then
    let d := direct data.length sent errno
    (d, (c.accept data sent).queueIf (0 ≤ d.nwrote ∧ d.remaining = 0 ∧ c.callbacks.writeComplete)
      .writeCompleteCallback)
  else
    (⟨0, data.length, false⟩, c)

/-- `sent` and `errno` are the outcome of `::send`, if it is called. -/
def sendInLoop (c : TcpConnection) (data : List UInt8) (sent : ℤ) (errno : Errno) :
    Result TcpConnection := do
  let c := { c with messages := c.messages ++ data }
  if c.state = .kDisconnected then
    pure c
  else do
    let (d, c) := c.writeDirectly data sent errno
    assert (d.remaining ≤ data.length) "remaining <= len"
    if d.faultError = false ∧ 0 < d.remaining then c.buffer data d else pure c

def send (c : TcpConnection) (data : List UInt8) (sent : ℤ) (errno : Errno) :
    Result TcpConnection :=
  if c.state = .kConnected then c.sendInLoop data sent errno else pure c

/-- `handleWrite` has emptied the output buffer. -/
def outputDone (c : TcpConnection) : Result TcpConnection := do
  let c ← c.update Channel.disableWriting
  let c := c.queueIf c.callbacks.writeComplete .writeCompleteCallback
  pure (if c.state = .kDisconnecting then c.shutdownInLoop else c)

def handleWrite (c : TcpConnection) (sent : ℤ) : Result TcpConnection :=
  if c.channel.isWriting then do
    let n := sockets.write sent
    let c := c.accept c.outputBuffer.readable sent
    if 0 < n then do
      let outputBuffer ← c.outputBuffer.retrieve n
      let c := { c with outputBuffer := outputBuffer }
      if outputBuffer.readableBytes = 0 then c.outputDone else pure c
    else
      pure c
  else
    pure c

/-- `received` is what the socket delivers. As `n` is unsigned the branch of `handleError` is
never taken. -/
def handleRead (c : TcpConnection) (received : List UInt8) : Result TcpConnection := do
  let (n, inputBuffer) ← c.inputBuffer.readFd received
  let c := { c with inputBuffer := inputBuffer }
  if 0 < n then
    if c.callbacks.message then
      pure ({ c with todo := .user :: c.todo }.emit .messageCallback)
    else
      pure c
  else
    c.handleClose

def shutdown (c : TcpConnection) : TcpConnection :=
  if c.state = .kConnected then (c.setState .kDisconnecting).shutdownInLoop else c

def forceClose (c : TcpConnection) : TcpConnection :=
  if c.state = .kConnected ∨ c.state = .kDisconnecting then
    (c.setState .kDisconnecting).queueInLoop .forceCloseInLoop
  else c

def forceCloseWithDelay (c : TcpConnection) : TcpConnection :=
  if c.state = .kConnected ∨ c.state = .kDisconnecting then
    { c.setState .kDisconnecting with delayed := c.delayed + 1 }
  else c

def forceCloseInLoop (c : TcpConnection) : Result TcpConnection :=
  if c.state = .kConnected ∨ c.state = .kDisconnecting then c.handleClose else pure c

def startReadInLoop (c : TcpConnection) : Result TcpConnection :=
  if c.reading = false ∨ c.channel.isReading = false then do
    let c ← c.update Channel.enableReading
    pure { c with reading := true }
  else pure c

def stopReadInLoop (c : TcpConnection) : Result TcpConnection :=
  if c.reading ∨ c.channel.isReading then do
    let c ← c.update Channel.disableReading
    pure { c with reading := false }
  else pure c

def Registered (c : TcpConnection) : Prop := EPollPoller.Registered c.channels () c.channel

/-- The connection after an update of its channel. -/
def updated (c : TcpConnection) (change : Channel → Channel) : TcpConnection :=
  { c with
    channel := { change c.channel with index := EPollPoller.indexOf (change c.channel) }
    channels := Function.update c.channels (change c.channel).fd (some ())
    trace := c.trace ++ [.epollCtl (EPollPoller.ctlOf (change c.channel))
      (change c.channel).events] }

/-- A change of the interest, which leaves the descriptor and the index alone. -/
def ChangesInterest (change : Channel → Channel) : Prop :=
  ∀ ch, (change ch).fd = ch.fd ∧ (change ch).index = ch.index

theorem update_eq {c : TcpConnection} (h : c.Registered) {change : Channel → Channel}
    (hchange : ChangesInterest change) : c.update change = .ok (c.updated change) := by
  obtain ⟨hfd, hindex⟩ := hchange c.channel
  have hreg : EPollPoller.Registered c.channels () (change c.channel) := by
    unfold EPollPoller.Registered
    rw [hfd, hindex]
    exact h
  unfold update
  rw [EPollPoller.updateChannel_eq hreg]
  rfl

theorem updated_registered (c : TcpConnection) (change : Channel → Channel) :
    (c.updated change).Registered := by
  unfold Registered EPollPoller.Registered updated
  rw [if_neg]
  · exact Function.update_self _ _ _
  · dsimp only
    unfold EPollPoller.indexOf
    split_ifs <;> simp

@[simp] theorem setState_registered {c : TcpConnection} {s : StateE} :
    (c.setState s).Registered ↔ c.Registered := Iff.rfl

theorem changes_enableReading : ChangesInterest Channel.enableReading := fun _ => ⟨rfl, rfl⟩
theorem changes_disableReading : ChangesInterest Channel.disableReading := fun _ => ⟨rfl, rfl⟩
theorem changes_enableWriting : ChangesInterest Channel.enableWriting := fun _ => ⟨rfl, rfl⟩
theorem changes_disableWriting : ChangesInterest Channel.disableWriting := fun _ => ⟨rfl, rfl⟩
theorem changes_disableAll : ChangesInterest Channel.disableAll := fun _ => ⟨rfl, rfl⟩

/-- The connection after `handleClose`. -/
def closed (c : TcpConnection) : TcpConnection :=
  let c := (c.setState .kDisconnected).updated Channel.disableAll
  { c with
    todo := if c.callbacks.close then .closeCallback :: c.todo else c.todo }.connectionCallback

/-- A connection that `connectDestroyed` takes down. -/
def takenDown (c : TcpConnection) : TcpConnection :=
  let c := ({ c with destroyed := true }.setState .kDisconnected).updated Channel.disableAll
  { c with todo := .remove :: c.todo }.connectionCallback

/-- The connection after `channel_->remove()`. -/
def removed (c : TcpConnection) : TcpConnection :=
  { c with
    channel := { c.channel with index := .kNew }
    channels := Function.update c.channels c.channel.fd none
    trace := c.trace ++ if c.channel.index = .kAdded then
      [.epollCtl .del c.channel.events] else [] }

variable {c c' : TcpConnection}

theorem connectEstablished_eq (h : c.Registered) (hs : c.state = .kConnecting) :
    c.connectEstablished =
      .ok ((c.setState .kConnected).updated Channel.enableReading).connectionCallback := by
  unfold connectEstablished
  rw [require_bind hs, update_eq (setState_registered.mpr h) changes_enableReading, ok_bind,
    pure_eq_ok]

theorem handleClose_ok (h : c.Registered) (hc : c.handleClose = .ok c') :
    (c.state = .kConnected ∨ c.state = .kDisconnecting) ∧ c' = c.closed := by
  unfold handleClose at hc
  obtain ⟨hs, hc⟩ := require_bind_eq_ok.mp hc
  rw [update_eq (setState_registered.mpr h) changes_disableAll, ok_bind, pure_eq_ok] at hc
  exact ⟨hs, (Except.ok.inj hc).symm⟩

theorem connectDestroyed_eq (h : c.Registered) :
    c.connectDestroyed = .ok (if c.state = .kConnected then c.takenDown
      else { c with destroyed := true, todo := .remove :: c.todo }) := by
  unfold connectDestroyed
  by_cases hs : c.state = .kConnected
  · have hreg : ({ c with destroyed := true }.setState .kDisconnected).Registered := h
    simp only [if_pos hs]
    rw [update_eq hreg changes_disableAll, ok_bind, pure_eq_ok]
    rfl
  · simp only [if_neg hs, pure_eq_ok]

theorem remove_ok (hc : c.remove = .ok c') : c.channel.events = 0 ∧ c' = c.removed := by
  unfold remove EPollPoller.removeChannel at hc
  obtain ⟨hnone, hc⟩ := require_bind_eq_ok.mp hc
  obtain ⟨u, hu, hc⟩ := bind_eq_ok.mp hc
  simp only [require_bind_eq_ok, pure_eq_ok, Except.ok.injEq] at hu
  obtain ⟨-, -, -, -, rfl⟩ := hu
  refine ⟨by simpa [Channel.isNoneEvent, Channel.kNoneEvent] using hnone, ?_⟩
  obtain rfl := Except.ok.inj hc
  unfold applyUpdate removed
  split_ifs with hi
  · rfl
  · simp

theorem startReadInLoop_eq (h : c.Registered) :
    c.startReadInLoop = .ok (if c.reading = false ∨ c.channel.isReading = false then
      { c.updated Channel.enableReading with reading := true } else c) := by
  unfold startReadInLoop
  rw [update_eq h changes_enableReading, ok_bind]
  split_ifs <;> rfl

theorem stopReadInLoop_eq (h : c.Registered) :
    c.stopReadInLoop = .ok (if c.reading ∨ c.channel.isReading then
      { c.updated Channel.disableReading with reading := false } else c) := by
  unfold stopReadInLoop
  rw [update_eq h changes_disableReading, ok_bind]
  split_ifs <;> rfl

/-- The connection after the update of `outputDone`. -/
def drained (c : TcpConnection) : TcpConnection :=
  (c.updated Channel.disableWriting).queueIf (c.callbacks.writeComplete = true)
    .writeCompleteCallback

theorem outputDone_eq (h : c.Registered) : c.outputDone =
    .ok (if c.state = .kDisconnecting then c.drained.shutdownInLoop else c.drained) := by
  unfold outputDone
  rw [update_eq h changes_disableWriting, ok_bind]
  rfl

/-- The output buffer, the queue and the record of the stream may have changed. -/
def Wrote (c c' : TcpConnection) : Prop :=
  ∃ outputBuffer pendingFunctors messages accepted, c' = { c with
    outputBuffer := outputBuffer, pendingFunctors := pendingFunctors
    messages := messages, accepted := accepted }

theorem Wrote.refl : Wrote c c := ⟨_, _, _, _, rfl⟩

theorem Wrote.trans {c'' : TcpConnection} (h : Wrote c c') (k : Wrote c' c'') : Wrote c c'' := by
  obtain ⟨_, _, _, _, rfl⟩ := h
  obtain ⟨_, _, _, _, rfl⟩ := k
  exact ⟨_, _, _, _, rfl⟩

theorem writeDirectly_wrote (data : List UInt8) (sent : ℤ) (errno : Errno) :
    Wrote c (c.writeDirectly data sent errno).2 := by
  unfold writeDirectly
  split_ifs
  · exact ⟨_, _, _, _, rfl⟩
  · exact .refl

theorem buffer_cases {data : List UInt8} {d : Direct} (hreg : c.Registered)
    (hc : c.buffer data d = .ok c') :
    ∃ m, Wrote c m ∧ (c' = m ∨ c' = m.updated Channel.enableWriting) := by
  unfold buffer at hc
  obtain ⟨b, -, hc⟩ := bind_eq_ok.mp hc
  dsimp only at hc
  split_ifs at hc
  · exact ⟨_, ⟨_, _, _, _, rfl⟩, .inl (Except.ok.inj hc).symm⟩
  · refine ⟨_, ?_, .inr (Except.ok.inj (hc.symm.trans (update_eq ?_ changes_enableWriting)))⟩
    · exact ⟨_, _, _, _, rfl⟩
    · exact hreg

theorem sendInLoop_cases {data : List UInt8} {sent : ℤ} {errno : Errno} (hreg : c.Registered)
    (hc : c.sendInLoop data sent errno = .ok c') : Wrote c c' ∨
      c.state ≠ .kDisconnected ∧ ∃ m, Wrote c m ∧ c' = m.updated Channel.enableWriting := by
  unfold sendInLoop at hc
  have hmessages : Wrote c { c with messages := c.messages ++ data } := ⟨_, _, _, _, rfl⟩
  by_cases hs : c.state = .kDisconnected
  · simp only [if_pos hs] at hc
    exact .inl (Except.ok.inj hc ▸ hmessages)
  · simp only [if_neg hs] at hc
    have hdirect := hmessages.trans (writeDirectly_wrote data sent errno)
    generalize { c with messages := c.messages ++ data }.writeDirectly data sent errno = w
      at hc hdirect
    obtain ⟨d, w⟩ := w
    dsimp only at hc hdirect
    obtain ⟨-, hc⟩ := require_bind_eq_ok.mp hc
    split_ifs at hc
    · have hw : w.Registered := by
        obtain ⟨_, _, _, _, rfl⟩ := hdirect
        exact hreg
      obtain ⟨m, hm, rfl | rfl⟩ := buffer_cases hw hc
      · exact .inl (hdirect.trans hm)
      · exact .inr ⟨hs, m, hdirect.trans hm, rfl⟩
    · exact .inl (Except.ok.inj hc ▸ hdirect)

theorem handleWrite_cases {sent : ℤ} (hc : c.handleWrite sent = .ok c') :
    Wrote c c' ∨ c.channel.isWriting = true ∧ ∃ m, Wrote c m ∧ m.outputDone = .ok c' := by
  unfold handleWrite at hc
  split_ifs at hc with hw
  · dsimp only at hc
    split_ifs at hc
    · obtain ⟨b, -, hc⟩ := bind_eq_ok.mp hc
      split_ifs at hc
      · exact .inr ⟨hw, _, ⟨_, _, _, _, rfl⟩, hc⟩
      · exact .inl (Except.ok.inj hc ▸ ⟨_, _, _, _, rfl⟩)
    · exact .inl (Except.ok.inj hc ▸ ⟨_, _, _, _, rfl⟩)
  · exact .inl (Except.ok.inj hc ▸ .refl)

/-- Every byte count that is not 0 is taken for data, and 0 for the end of the stream. -/
theorem handleRead_cases {received : List UInt8} (hc : c.handleRead received = .ok c') :
    ∃ b, c.inputBuffer.readFd received = .ok (received.length, b) ∧
      ((received ≠ [] ∧ c.callbacks.message = true ∧
        c' = { c with inputBuffer := b, todo := .user :: c.todo }.emit .messageCallback) ∨
      (received ≠ [] ∧ c.callbacks.message ≠ true ∧ c' = { c with inputBuffer := b }) ∨
      (received = [] ∧ { c with inputBuffer := b }.handleClose = .ok c')) := by
  unfold handleRead at hc
  obtain ⟨⟨n, b⟩, hread, hc⟩ := bind_eq_ok.mp hc
  obtain rfl := Buffer.readFd_length hread
  refine ⟨b, hread, ?_⟩
  dsimp only at hc
  split_ifs at hc with hpos hmessage
  · exact .inl ⟨List.length_pos_iff.mp hpos, hmessage, (Except.ok.inj hc).symm⟩
  · exact .inr (.inl ⟨List.length_pos_iff.mp hpos, hmessage, (Except.ok.inj hc).symm⟩)
  · exact .inr (.inr ⟨List.length_eq_zero_iff.mp (Nat.eq_zero_of_not_pos hpos), hc⟩)

/-- A call of the user's code, from a callback, a functor or a timer. `sendInLoop` is the functor
that `send` of another thread queues. -/
inductive Call where
  | send (data : List UInt8) (sent : ℤ) (errno : Errno)
  | sendInLoop (data : List UInt8) (sent : ℤ) (errno : Errno)
  | shutdown
  | forceClose
  | forceCloseWithDelay
  | startRead
  | stopRead
  /-- `retrieve` of the input buffer. -/
  | retrieve (len : ℕ)
  deriving DecidableEq

def call (c : TcpConnection) : Call → Result TcpConnection
  | .send data sent errno => c.send data sent errno
  | .sendInLoop data sent errno => c.sendInLoop data sent errno
  | .shutdown => pure c.shutdown
  | .forceClose => pure c.forceClose
  | .forceCloseWithDelay => pure c.forceCloseWithDelay
  | .startRead => c.startReadInLoop
  | .stopRead => c.stopReadInLoop
  | .retrieve len => do
    let inputBuffer ← c.inputBuffer.retrieve len
    pure { c with inputBuffer := inputBuffer }

inductive Event where
  | connectEstablished
  | connectDestroyed
  | call (call : Call)
  /-- A callback of the user returns. -/
  | userDone
  /-- The poller finds the channel active; with one entry of `activeChannels_` for each mask. -/
  | polled (revents : List Events)
  /-- The loop handles the next entry. -/
  | dispatch
  /-- The next task that is not the user's. -/
  | resume (received : List UInt8) (sent : ℤ)
  | runFunctor
  /-- A timer of `forceCloseWithDelay` runs. -/
  | delayed
  deriving DecidableEq

def resume (c : TcpConnection) (received : List UInt8) (sent : ℤ) : Result TcpConnection :=
  let c' := { c with todo := c.todo.tail }
  match c.todo with
  | .channel .close :: _ => c'.handleClose
  | .channel .read :: _ => c'.handleRead received
  | .channel .write :: _ => c'.handleWrite sent
  | .closeCallback :: _ => pure (c'.emit .closeCallback)
  | .remove :: _ => c'.remove
  | .channel .error :: _ | .user :: _ | [] => pure c'

def runFunctor (c : TcpConnection) : Result TcpConnection :=
  let c' := { c with pendingFunctors := c.pendingFunctors.tail }
  match c.pendingFunctors with
  | .forceCloseInLoop :: _ => c'.forceCloseInLoop
  | .writeCompleteCallback :: _ | .highWaterMarkCallback _ :: _ =>
    pure { c' with todo := .user :: c'.todo }
  | [] => pure c'

/-- What `::send` and the arguments of a call may be. -/
def Call.possible (c : TcpConnection) : Call → Prop
  | .send data sent _ | .sendInLoop data sent _ =>
      data.length < sockets.sizeMod ∧ (c.writesDirectly → sockets.Sends data.length sent)
  | .retrieve len => len ≤ c.inputBuffer.readableBytes
  | .shutdown | .forceClose | .forceCloseWithDelay | .startRead | .stopRead => True

/-- Between two handlers the loop thread has nothing left to do; the user has the connection from
`connectEstablished` on. -/
def machine : Machine TcpConnection Event Fault where
  enabled c
    | .connectEstablished => c.todo = [] ∧ c.state = .kConnecting
    | .connectDestroyed => c.todo = [] ∧ c.state ≠ .kConnecting ∧ c.destroyed = false
    | .call call => (c.todo = [] ∨ c.todo.head? = some .user) ∧ c.state ≠ .kConnecting ∧
        call.possible c
    | .userDone => c.todo.head? = some .user
    | .polled _ => c.todo = [] ∧ c.active = [] ∧ c.channel.index = .kAdded
    | .dispatch => c.todo = [] ∧ c.active ≠ []
    | .resume received sent => c.todo ≠ [] ∧ c.todo.head? ≠ some .user ∧
        received.length ≤ c.inputBuffer.iovec.sum ∧
        sockets.Sends c.outputBuffer.readableBytes sent
    | .runFunctor => c.todo = [] ∧ c.pendingFunctors ≠ []
    | .delayed => c.todo = [] ∧ c.delayed ≠ 0
  step c
    | .connectEstablished => c.connectEstablished
    | .connectDestroyed => c.connectDestroyed
    | .call call => c.call call
    | .userDone => pure { c with todo := c.todo.tail }
    | .polled revents => pure { c with active := revents }
    | .dispatch =>
      let revents := c.active.headD 0
      pure { c with
        active := c.active.tail, channel := { c.channel with revents := revents }
        todo := (Channel.handleEventWithGuard revents).map .channel }
    | .resume received sent => c.resume received sent
    | .runFunctor => c.runFunctor
    | .delayed => pure { c with delayed := c.delayed - 1 }.forceClose

instance (c : TcpConnection) : ∀ call : Call, Decidable (call.possible c)
  | .send _ _ _ | .sendInLoop _ _ _ => inferInstanceAs (Decidable (_ ∧ (_ → _)))
  | .retrieve len => inferInstanceAs (Decidable (len ≤ c.inputBuffer.readableBytes))
  | .shutdown | .forceClose | .forceCloseWithDelay | .startRead | .stopRead => .isTrue trivial

instance (c : TcpConnection) : ∀ e, Decidable (machine.enabled c e)
  | .connectEstablished => inferInstanceAs (Decidable (c.todo = [] ∧ c.state = .kConnecting))
  | .connectDestroyed =>
    inferInstanceAs (Decidable (c.todo = [] ∧ c.state ≠ .kConnecting ∧ c.destroyed = false))
  | .call call => inferInstanceAs (Decidable ((c.todo = [] ∨ c.todo.head? = some .user) ∧
      c.state ≠ .kConnecting ∧ call.possible c))
  | .userDone => inferInstanceAs (Decidable (c.todo.head? = some .user))
  | .polled _ =>
    inferInstanceAs (Decidable (c.todo = [] ∧ c.active = [] ∧ c.channel.index = .kAdded))
  | .dispatch => inferInstanceAs (Decidable (c.todo = [] ∧ c.active ≠ []))
  | .resume received sent => inferInstanceAs (Decidable (c.todo ≠ [] ∧
      c.todo.head? ≠ some .user ∧ received.length ≤ c.inputBuffer.iovec.sum ∧
      sockets.Sends c.outputBuffer.readableBytes sent))
  | .runFunctor => inferInstanceAs (Decidable (c.todo = [] ∧ c.pendingFunctors ≠ []))
  | .delayed => inferInstanceAs (Decidable (c.todo = [] ∧ c.delayed ≠ 0))

end TcpConnection
end MuduoWindows.Net
