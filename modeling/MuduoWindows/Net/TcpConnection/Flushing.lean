import MuduoWindows.Net.TcpConnection.Output

/-! # Shutdown of a connection that several threads use

`send` and `shutdown` look at `state_` in the calling thread. In the loop thread they act at once,
in another thread they queue a functor; `handleWrite` shuts down when it empties the output buffer.
`::send` is never refused here.
-/

namespace MuduoWindows.Net
open Library

namespace sockets

/-- A count between 0 and the length passed to `::send`. -/
def Counts (count : ℕ) (sent : ℤ) : Prop := 0 ≤ sent ∧ sent ≤ toInt count

instance (count : ℕ) (sent : ℤ) : Decidable (Counts count sent) :=
  inferInstanceAs (Decidable (_ ∧ _))

theorem Counts.sends {count : ℕ} {sent : ℤ} (h : Counts count sent) : Sends count sent := .inr h

theorem Counts.ne {count : ℕ} {sent : ℤ} (h : Counts count sent) : sent ≠ -1 := by
  have h0 := h.1
  omega

end sockets

namespace TcpConnection

/-- The channel waits for the socket to be writable exactly when there is something to write. -/
def Poised (c : TcpConnection) : Prop :=
  c.channel.isWriting = true ↔ c.outputBuffer.readableBytes ≠ 0

/-- How often `socket_->shutdownWrite()` was called. -/
def shutdowns (c : TcpConnection) : ℕ := c.trace.count .shutdownWrite

/-- What a write that shuts nothing down leaves alone. -/
structure Frame (c c' : TcpConnection) : Prop where
  state : c'.state = c.state
  messages : c'.messages = c.messages
  shutdowns : c'.shutdowns = c.shutdowns

variable {c c' c'' : TcpConnection}

theorem Frame.trans (h : Frame c c') (k : Frame c' c'') : Frame c c'' :=
  ⟨k.state.trans h.state, k.messages.trans h.messages, k.shutdowns.trans h.shutdowns⟩

theorem updated_frame (change : Channel → Channel) : Frame c (c.updated change) := by
  refine ⟨rfl, rfl, ?_⟩
  unfold shutdowns updated
  rw [List.count_append, List.count_singleton]
  simp

theorem queueIf_frame (p : Prop) [Decidable p] (f : ConnFunctor) : Frame c (c.queueIf p f) :=
  ⟨rfl, rfl, rfl⟩

theorem readableBytes_ne_zero {b : Buffer} (hv : b.Valid) (hne : b.readable ≠ []) :
    b.readableBytes ≠ 0 := by
  rw [← hv.readable_length]
  exact mt List.length_eq_zero_iff.mp hne

theorem buffer_flush {data : List UInt8} {d : Direct} (hout : c.outputBuffer.Valid)
    (hreg : c.Registered) (hrest : (data.drop d.nwrote).take d.remaining ≠ [])
    (hc : c.buffer data d = .ok c') : Frame c c' ∧ c'.Poised := by
  obtain ⟨b, hb, hv, hq⟩ := Buffer.append_holds hout ((data.drop d.nwrote).take d.remaining)
  have hne : b.readableBytes ≠ 0 := by
    apply readableBytes_ne_zero hv
    rw [hq]
    exact fun h => hrest (List.append_eq_nil_iff.mp h).2
  unfold TcpConnection.buffer at hc
  dsimp only at hc
  rw [show (c.queueIf _ _).outputBuffer = c.outputBuffer from rfl, hb, ok_bind] at hc
  split_ifs at hc with hw
  · obtain rfl := Except.ok.inj hc
    exact ⟨⟨rfl, rfl, rfl⟩, iff_of_true hw hne⟩
  · rw [update_eq (by exact hreg) changes_enableWriting] at hc
    obtain rfl := Except.ok.inj hc
    exact ⟨(updated_frame _).trans ⟨rfl, rfl, rfl⟩,
      iff_of_true Channel.isWriting_enableWriting hne⟩

theorem writeDirectly_rest {data : List UInt8} {sent : ℤ} (errno : Errno)
    (hlen : data.length < sockets.sizeMod)
    (hsends : c.writesDirectly → sockets.Counts data.length sent)
    (hrest : 0 < (c.writeDirectly data sent errno).1.remaining) :
    (data.drop (c.writeDirectly data sent errno).1.nwrote).take
      (c.writeDirectly data sent errno).1.remaining ≠ [] := by
  unfold writeDirectly at *
  by_cases hd : c.writesDirectly
  · rw [if_pos hd, direct_eq errno hlen (hsends hd).sends (hsends hd).ne] at *
    dsimp only at *
    intro hnil
    have hzero := congrArg List.length hnil
    simp only [List.length_take, List.length_drop, List.length_nil] at hzero
    omega
  · rw [if_neg hd] at *
    dsimp only at *
    intro hnil
    have hzero := congrArg List.length hnil
    simp only [List.length_take, List.length_drop, List.length_nil] at hzero
    omega

theorem writeDirectly_frame (data : List UInt8) (sent : ℤ) (errno : Errno) :
    Frame c (c.writeDirectly data sent errno).2 := by
  unfold writeDirectly
  split_ifs
  · exact ⟨rfl, rfl, rfl⟩
  · exact ⟨rfl, rfl, rfl⟩

theorem writeDirectly_poised (h : c.Poised) (data : List UInt8) (sent : ℤ) (errno : Errno) :
    (c.writeDirectly data sent errno).2.Poised := by
  unfold writeDirectly
  split_ifs
  · exact h
  · exact h

theorem Intact.sendInLoop_flush (h : c.Intact) (hp : c.Poised) (hs : c.state ≠ .kDisconnected)
    {data : List UInt8} {sent : ℤ} {errno : Errno} (hlen : data.length < sockets.sizeMod)
    (hsends : c.writesDirectly → sockets.Counts data.length sent)
    (hc : c.sendInLoop data sent errno = .ok c') :
    c'.Intact ∧ c'.Poised ∧ Frame { c with messages := c.messages ++ data } c' := by
  obtain ⟨c₁, hc₁, hintact⟩ := h.sendInLoop errno hlen (fun hd => (hsends hd).sends)
    fun _ hd => (hsends hd).ne
  obtain rfl := Except.ok.inj (hc₁.symm.trans hc)
  refine ⟨hintact, ?_⟩
  unfold TcpConnection.sendInLoop at hc
  simp only [if_neg hs] at hc
  have hpoised : Poised { c with messages := c.messages ++ data } := hp
  have hpoised := writeDirectly_poised hpoised data sent errno
  have hframe := writeDirectly_frame (c := { c with messages := c.messages ++ data })
    data sent errno
  have hrest := writeDirectly_rest (c := { c with messages := c.messages ++ data })
    errno hlen hsends
  have hsplit := writeDirectly_split (c := { c with messages := c.messages ++ data })
    h.output errno hlen (fun hd => (hsends hd).sends) fun hd => (hsends hd).ne
  generalize { c with messages := c.messages ++ data }.writeDirectly data sent errno = w
    at hc hpoised hframe hrest hsplit
  obtain ⟨d, w⟩ := w
  dsimp only at hc hpoised hframe hrest hsplit
  obtain ⟨-, hc⟩ := require_bind_eq_ok.mp hc
  have hout : w.outputBuffer.Valid := by
    rw [hsplit.output]
    exact h.output
  split_ifs at hc with hremaining
  · obtain ⟨hbuffer, hwriting⟩ :=
      buffer_flush hout (hsplit.registered.mpr h.registered) (hrest hremaining.2) hc
    exact ⟨hwriting, hframe.trans hbuffer⟩
  · obtain rfl := Except.ok.inj hc
    exact ⟨hpoised, hframe⟩

theorem Intact.send_flush (h : c.Intact) (hp : c.Poised) (hs : c.state = .kConnected)
    {data : List UInt8} {sent : ℤ} {errno : Errno} (hlen : data.length < sockets.sizeMod)
    (hsends : c.writesDirectly → sockets.Counts data.length sent)
    (hc : c.send data sent errno = .ok c') :
    c'.Intact ∧ c'.Poised ∧ Frame { c with messages := c.messages ++ data } c' := by
  unfold TcpConnection.send at hc
  rw [if_pos hs] at hc
  exact h.sendInLoop_flush hp (by simp [hs]) hlen hsends hc

theorem shutdownInLoop_shutdowns :
    c.shutdownInLoop.shutdowns = c.shutdowns + if c.channel.isWriting then 0 else 1 := by
  unfold shutdownInLoop shutdowns
  rw [List.count_append]
  split_ifs <;> simp

theorem setState_shutdowns (s : StateE) : (c.setState s).shutdowns = c.shutdowns := by
  unfold setState emit shutdowns
  rw [List.count_append, List.count_singleton]
  simp

theorem emit_shutdowns {effect : Effect} (he : effect ≠ .shutdownWrite) :
    (c.emit effect).shutdowns = c.shutdowns := by
  unfold emit shutdowns
  rw [List.count_append, List.count_singleton, if_neg (by simpa using he), Nat.add_zero]

theorem connectionCallback_shutdowns : c.connectionCallback.shutdowns = c.shutdowns := by
  unfold connectionCallback shutdowns
  dsimp only
  rw [List.count_append]
  split_ifs <;> simp

theorem closed_shutdowns : c.closed.shutdowns = c.shutdowns := by
  have hupdated : ((c.setState .kDisconnected).updated Channel.disableAll).shutdowns =
      c.shutdowns := (updated_frame _).shutdowns.trans (setState_shutdowns _)
  unfold closed
  exact connectionCallback_shutdowns.trans hupdated

/-- `handleWrite` shuts down when it empties the output buffer of a connection in
`kDisconnecting`. -/
def Drains (c : TcpConnection) (sent : ℤ) : Prop :=
  c.channel.isWriting = true ∧ c.state = .kDisconnecting ∧ sent = c.outputBuffer.readableBytes

instance (c : TcpConnection) (sent : ℤ) : Decidable (c.Drains sent) :=
  inferInstanceAs (Decidable (_ ∧ _))

theorem outputDone_flush (hreg : c.Registered) (hzero : c.outputBuffer.readableBytes = 0)
    (hc : c.outputDone = .ok c') :
    c'.Poised ∧ c'.outputBuffer = c.outputBuffer ∧ c'.state = c.state ∧
      c'.messages = c.messages ∧
      c'.shutdowns = c.shutdowns + if c.state = .kDisconnecting then 1 else 0 := by
  rw [outputDone_eq hreg] at hc
  obtain rfl := Except.ok.inj hc
  have hwriting : ¬ c.channel.disableWriting.isWriting = true := by simp
  have hqueued : Frame c c.drained := (updated_frame Channel.disableWriting).trans
    (queueIf_frame (c.callbacks.writeComplete = true) .writeCompleteCallback)
  have hpoised : c.drained.Poised := iff_of_false hwriting (not_not.mpr hzero)
  by_cases hs : c.state = .kDisconnecting
  · rw [if_pos hs, if_pos hs]
    refine ⟨hpoised, rfl, rfl, rfl, ?_⟩
    rw [shutdownInLoop_shutdowns, if_neg (by exact hwriting)]
    exact congrArg (· + 1) hqueued.shutdowns
  · rw [if_neg hs, if_neg hs]
    exact ⟨hpoised, rfl, rfl, rfl, hqueued.shutdowns⟩

/-- `handleWrite` of a connection that is up. -/
structure Written (c c' : TcpConnection) (sent : ℤ) : Prop where
  poised : c'.Poised
  state : c'.state = c.state
  messages : c'.messages = c.messages
  shutdowns : c'.shutdowns = c.shutdowns + if c.Drains sent then 1 else 0
  drained : c.Drains sent → c'.outputBuffer.readableBytes = 0

theorem Intact.handleWrite_flush (h : c.Intact) (hp : c.Poised) {sent : ℤ}
    (hcount : sockets.Counts c.outputBuffer.readableBytes sent)
    (hc : c.handleWrite sent = .ok c') : c'.Intact ∧ Written c c' sent := by
  obtain ⟨c₁, hc₁, hintact⟩ := h.handleWrite hcount.sends fun _ => hcount.ne
  obtain rfl := Except.ok.inj (hc₁.symm.trans hc)
  refine ⟨hintact, ?_⟩
  have h0 := hcount.1
  unfold TcpConnection.handleWrite at hc
  by_cases hw : c.channel.isWriting = true
  · have hne := hp.mp hw
    obtain ⟨hwrite, hle⟩ := hcount.sends.write_eq hcount.ne
    obtain ⟨b, hb, hv, hq⟩ := Buffer.retrieve_holds h.output hle
    have hleft : b.readableBytes = c.outputBuffer.readableBytes - sent.toNat := by
      rw [← hv.readable_length, hq, List.length_drop, h.output.readable_length]
    simp only [if_pos hw, hwrite] at hc
    by_cases hn : 0 < sent.toNat
    · rw [if_pos hn] at hc
      change (c.outputBuffer.retrieve sent.toNat >>= _) = _ at hc
      rw [hb, ok_bind] at hc
      split_ifs at hc with hzero
      · have hall : sent = c.outputBuffer.readableBytes := by omega
        obtain ⟨hpoised, hout, hstate, hmessages, hshut⟩ :=
          outputDone_flush (by exact h.registered) hzero hc
        refine ⟨hpoised, hstate, hmessages, ?_, fun _ => by rw [hout]; exact hzero⟩
        by_cases hs : c.state = .kDisconnecting
        · rw [if_pos ⟨hw, hs, hall⟩, hshut, if_pos (by exact hs)]
          rfl
        · rw [if_neg fun hd => hs hd.2.1, hshut, if_neg (by exact hs)]
          rfl
      · obtain rfl := Except.ok.inj hc
        have hnot : ¬ c.Drains sent := fun hd => hzero (by rw [hleft]; have := hd.2.2; omega)
        refine ⟨iff_of_true hw hzero, rfl, rfl, ?_, fun hd => absurd hd hnot⟩
        rw [if_neg hnot]
        rfl
    · rw [if_neg hn] at hc
      obtain rfl := Except.ok.inj hc
      have hnot : ¬ c.Drains sent := fun hd => hne (by have := hd.2.2; omega)
      refine ⟨hp, rfl, rfl, ?_, fun hd => absurd hd hnot⟩
      rw [if_neg hnot]
      rfl
  · rw [if_neg hw] at hc
    obtain rfl := Except.ok.inj hc
    have hnot : ¬ c.Drains sent := fun hd => hw hd.1
    refine ⟨hp, rfl, rfl, ?_, fun hd => absurd hd hnot⟩
    rw [if_neg hnot]
    rfl

/-- The connection that `connectEstablished` leaves. -/
def established (fd : ℕ) (callbacks : Callbacks) (highWaterMark : ℕ) : TcpConnection :=
  (((create fd callbacks highWaterMark).setState .kConnected).updated
    Channel.enableReading).connectionCallback

theorem connectEstablished_create (fd : ℕ) (callbacks : Callbacks) (highWaterMark : ℕ) :
    (create fd callbacks highWaterMark).connectEstablished =
      .ok (established fd callbacks highWaterMark) :=
  connectEstablished_eq (create_intact fd callbacks highWaterMark).registered rfl

theorem established_intact (fd : ℕ) (callbacks : Callbacks) (highWaterMark : ℕ) :
    (established fd callbacks highWaterMark).Intact :=
  ⟨Buffer.ofSize_valid _, Buffer.ofSize_valid _, updated_registered _ _,
    fun _ => Buffer.ofSize_readable _⟩

theorem established_poised (fd : ℕ) (callbacks : Callbacks) (highWaterMark : ℕ) :
    (established fd callbacks highWaterMark).Poised := by
  refine iff_of_false ?_ (not_not.mpr (Nat.sub_self _))
  change ¬ has (0 ||| Channel.kReadEvent) Channel.kWriteEvent = true
  decide

end TcpConnection

/-! ## The connection and its threads -/

/-- Bytes whose number is a `size_t`. -/
abbrev Message := { data : List UInt8 // data.length < sockets.sizeMod }

/-- A functor that a thread other than the loop's has queued; `early` says that the `send` behind it
returned before `shutdown()` was called. -/
inductive ThreadFunctor where
  | sendInLoop (early : Bool) (data : Message)
  | shutdownInLoop
  deriving DecidableEq

/-- Where a thread other than the loop's stands. -/
inductive ThreadStage where
  | outside
  /-- In `send`, which has seen `kConnected`. -/
  | sending (data : Message)
  /-- In `shutdown`, which has seen `kConnected`. -/
  | disconnecting
  /-- In `shutdown`, behind `setState`. -/
  | shuttingDown
  deriving DecidableEq

/-- The connection, the functors queued for it and the threads that use it. `called` says that
`shutdown()` was called, `handed` remembers the messages that reached `sendInLoop`, those of calls
that returned before `shutdown()` marked. -/
structure SharedConnection (T : Type) where
  conn : TcpConnection
  pendingFunctors : List ThreadFunctor
  threads : T → ThreadStage
  called : Bool
  handed : List (Bool × Message)

namespace SharedConnection
variable {T : Type}

def create (fd : ℕ) (callbacks : Callbacks) (highWaterMark : ℕ) : SharedConnection T :=
  { conn := .established fd callbacks highWaterMark, pendingFunctors := []
    threads := fun _ => .outside, called := false, handed := [] }

inductive Event (T : Type) where
  /-- `send` in the loop thread. -/
  | send (data : Message) (sent : ℤ) (errno : Errno)
  /-- Some thread calls `shutdown()`. -/
  | shutdownCalled
  /-- `shutdown` in the loop thread. -/
  | shutdown
  | handleWrite (sent : ℤ)
  | runFunctor (sent : ℤ) (errno : Errno)
  /-- Another thread calls `send` and looks at `state_`. -/
  | trySend (t : T) (data : Message)
  /-- It queues the functor and returns. -/
  | queueSend (t : T)
  /-- Another thread looks at `state_` in `shutdown`. -/
  | tryShutdown (t : T)
  | setDisconnecting (t : T)
  /-- It queues the functor and returns. -/
  | queueShutdown (t : T)

def send (c : SharedConnection T) (data : Message) (sent : ℤ) (errno : Errno) :
    Result (SharedConnection T) := do
  let conn ← c.conn.send data sent errno
  pure { c with
    conn := conn
    handed := c.handed ++ if c.conn.state = .kConnected then [(!c.called, data)] else [] }

def runFunctor (c : SharedConnection T) (sent : ℤ) (errno : Errno) :
    Result (SharedConnection T) :=
  match c.pendingFunctors with
  | .sendInLoop early data :: fs => do
    let conn ← c.conn.sendInLoop data sent errno
    pure { c with conn := conn, pendingFunctors := fs, handed := c.handed ++ [(early, data)] }
  | .shutdownInLoop :: fs => pure { c with conn := c.conn.shutdownInLoop, pendingFunctors := fs }
  | [] => pure c

def queueInLoop (c : SharedConnection T) (f : ThreadFunctor) : SharedConnection T :=
  { c with pendingFunctors := c.pendingFunctors ++ [f] }

variable [DecidableEq T]

def setStage (c : SharedConnection T) (t : T) (stage : ThreadStage) : SharedConnection T :=
  { c with threads := Function.update c.threads t stage }

def queueSend (c : SharedConnection T) (t : T) : SharedConnection T :=
  match c.threads t with
  | .sending data => (c.queueInLoop (.sendInLoop (!c.called) data)).setStage t .outside
  | _ => c

/-- What `::send` can return in the functor that comes next. -/
def Returns (c : SharedConnection T) (sent : ℤ) : Prop :=
  match c.pendingFunctors with
  | .sendInLoop _ data :: _ => c.conn.writesDirectly → sockets.Counts data.1.length sent
  | .shutdownInLoop :: _ => True
  | [] => False

/-- Every `::send` takes between 0 and the passed number of bytes. -/
def machine : Machine (SharedConnection T) (Event T) Fault where
  enabled c
    | .send data sent _ => c.conn.state = .kConnected → c.conn.writesDirectly →
        sockets.Counts data.1.length sent
    | .shutdownCalled => True
    | .shutdown => c.called = true
    | .handleWrite sent => sockets.Counts c.conn.outputBuffer.readableBytes sent
    | .runFunctor sent _ => c.Returns sent
    | .trySend t _ => c.threads t = .outside
    | .queueSend t => ∃ data, c.threads t = .sending data
    | .tryShutdown t => c.threads t = .outside ∧ c.called = true
    | .setDisconnecting t => c.threads t = .disconnecting
    | .queueShutdown t => c.threads t = .shuttingDown
  step c
    | .send data sent errno => c.send data sent errno
    | .shutdownCalled => pure { c with called := true }
    | .shutdown => pure { c with conn := c.conn.shutdown }
    | .handleWrite sent => do
      let conn ← c.conn.handleWrite sent
      pure { c with conn := conn }
    | .runFunctor sent errno => c.runFunctor sent errno
    | .trySend t data =>
      pure (c.setStage t (if c.conn.state = .kConnected then .sending data else .outside))
    | .queueSend t => pure (c.queueSend t)
    | .tryShutdown t =>
      pure (c.setStage t (if c.conn.state = .kConnected then .disconnecting else .outside))
    | .setDisconnecting t =>
      pure ({ c with conn := c.conn.setState .kDisconnecting }.setStage t .shuttingDown)
    | .queueShutdown t => pure ((c.queueInLoop .shutdownInLoop).setStage t .outside)

/-- The output buffer is empty, and the kernel has accepted the stream through every message whose
`send` returned before `shutdown()` was called. -/
structure Flushed (c : SharedConnection T) : Prop where
  empty : c.conn.outputBuffer.readableBytes = 0
  queued : ∀ data : Message, .sendInLoop true data ∈ c.pendingFunctors → data.1 = []
  handed : ∀ front data back, c.handed = front ++ (true, data) :: back →
    (front ++ [(true, data)]).flatMap (·.2.1) <+: c.conn.accepted

/-- If the step calls `shutdownWrite()`, which it does last, everything is flushed. -/
def Flushes (c : SharedConnection T) (e : Event T) : Prop :=
  ∀ c', machine.step c e = .ok c' → c.conn.shutdowns < c'.conn.shutdowns → c'.Flushed

/-- A message of another thread is still queued whose `send` returned before `shutdown()` was
called. -/
def Waiting (c : SharedConnection T) : Prop :=
  ∃ data : Message, .sendInLoop true data ∈ c.pendingFunctors ∧ data.1 ≠ []

/-- No message waits in the queue when `shutdown` of the loop thread finds the connection not
writing, or when `handleWrite` empties the output buffer of a connection that shuts down. -/
def Caught (c : SharedConnection T) : Event T → Prop
  | .shutdown => c.conn.state = .kConnected → c.conn.channel.isWriting = false → ¬ c.Waiting
  | .handleWrite sent => c.conn.Drains sent → ¬ c.Waiting
  | _ => True

variable {c c' : SharedConnection T}

/-- The message of a functor whose `send` returned before `shutdown()` was called. -/
def IsEarly : ThreadFunctor → Prop
  | .sendInLoop early _ => early = true
  | .shutdownInLoop => False

/-- The connection is up and writes what it has; the queue holds no message of a call that returned
before `shutdown()` was called behind a functor of `shutdown`. -/
structure Sound (c : SharedConnection T) : Prop where
  intact : c.conn.Intact
  poised : c.conn.Poised
  up : c.conn.state = .kConnected ∨ c.conn.state = .kDisconnecting
  messages : c.conn.messages = c.handed.flatMap (·.2.1)
  order : c.pendingFunctors.Pairwise fun f g => f = .shutdownInLoop → ¬ IsEarly g
  uncalled : c.called = false → .shutdownInLoop ∉ c.pendingFunctors
  threads : c.called = false → ∀ t, c.threads t ≠ .disconnecting ∧ c.threads t ≠ .shuttingDown

omit [DecidableEq T] in
theorem create_sound (fd : ℕ) (callbacks : Callbacks) (highWaterMark : ℕ) :
    (create fd callbacks highWaterMark : SharedConnection T).Sound := by
  constructor
  · exact TcpConnection.established_intact fd callbacks highWaterMark
  · exact TcpConnection.established_poised fd callbacks highWaterMark
  · exact .inl rfl
  · rfl
  · exact .nil
  · exact fun _ => List.not_mem_nil
  · exact fun _ t => ⟨nofun, nofun⟩

omit [DecidableEq T] in
theorem Sound.ne (h : c.Sound) : c.conn.state ≠ .kDisconnected := by
  rcases h.up with hs | hs <;> simp [hs]

omit [DecidableEq T] in
theorem Sound.flushed_iff (h : c.Sound) (hempty : c.conn.outputBuffer.readableBytes = 0) :
    c.Flushed ↔ ¬ c.Waiting := by
  constructor
  · rintro hflushed ⟨data, hmem, hne⟩
    exact hne (hflushed.queued data hmem)
  · intro hwaiting
    refine ⟨hempty, ?_, ?_⟩
    · intro data hmem
      by_contra hne
      exact hwaiting ⟨data, hmem, hne⟩
    · intro front data back hhanded
      have hnil : c.conn.outputBuffer.readable = [] := by
        rw [← List.length_eq_zero_iff, h.intact.output.readable_length]
        exact hempty
      have hstream := h.intact.stream h.ne
      rw [hnil, List.append_nil, h.messages, hhanded, List.append_cons,
        List.flatMap_append] at hstream
      rw [hstream]
      exact List.prefix_append _ _

/-! ## What the steps keep -/

omit [DecidableEq T] in
theorem Sound.write (h : c.Sound) (hintact : c'.conn.Intact) (hpoised : c'.conn.Poised)
    (hstate : c'.conn.state = c.conn.state)
    (hmessages : c'.conn.messages = c'.handed.flatMap (·.2.1))
    (hfunctors : c'.pendingFunctors <:+ c.pendingFunctors) (hthreads : c'.threads = c.threads)
    (hcalled : c'.called = c.called) : c'.Sound := by
  constructor
  · exact hintact
  · exact hpoised
  · rw [hstate]
    exact h.up
  · exact hmessages
  · exact h.order.sublist hfunctors.sublist
  · rw [hcalled]
    exact fun hc hmem => h.uncalled hc (hfunctors.subset hmem)
  · rw [hcalled, hthreads]
    exact h.threads

theorem Sound.send (h : c.Sound) {data : Message} {sent : ℤ} {errno : Errno}
    (he : machine.enabled c (.send data sent errno))
    (hc : machine.step c (.send data sent errno) = .ok c') :
    c'.Sound ∧ c'.conn.shutdowns = c.conn.shutdowns := by
  obtain ⟨conn, hconn, hc⟩ := bind_eq_ok.mp hc
  obtain rfl := Except.ok.inj hc
  by_cases hs : c.conn.state = .kConnected
  · obtain ⟨hintact, hpoised, hframe⟩ := h.intact.send_flush h.poised hs data.2 (he hs) hconn
    refine ⟨h.write hintact hpoised hframe.state ?_ (List.suffix_refl _) rfl rfl, hframe.shutdowns⟩
    change conn.messages = _
    rw [hframe.messages, if_pos hs, List.flatMap_append, ← h.messages, List.flatMap_singleton]
  · unfold TcpConnection.send at hconn
    rw [if_neg hs] at hconn
    obtain rfl := Except.ok.inj hconn
    refine ⟨h.write h.intact h.poised rfl ?_ (List.suffix_refl _) rfl rfl, rfl⟩
    rw [if_neg hs, List.append_nil]
    exact h.messages

omit [DecidableEq T] in
theorem Sound.shutdown (h : c.Sound) :
    Sound { c with conn := c.conn.shutdown } ∧ c.conn.shutdown.shutdowns = c.conn.shutdowns +
      if c.conn.state = .kConnected ∧ c.conn.channel.isWriting = false then 1 else 0 := by
  have hkeep := h.intact.keeps (TcpConnection.shutdown_keeps (c := c.conn))
  unfold TcpConnection.shutdown at *
  by_cases hs : c.conn.state = .kConnected
  · rw [if_pos hs] at *
    refine ⟨⟨hkeep, h.poised, .inr rfl, h.messages, h.order, h.uncalled, h.threads⟩, ?_⟩
    rw [TcpConnection.shutdownInLoop_shutdowns, TcpConnection.setState_shutdowns]
    change _ + (if c.conn.channel.isWriting = true then 0 else 1) = _
    cases hw : c.conn.channel.isWriting <;> simp [hs]
  · rw [if_neg hs] at *
    refine ⟨⟨h.intact, h.poised, h.up, h.messages, h.order, h.uncalled, h.threads⟩, ?_⟩
    rw [if_neg fun hd => hs hd.1, Nat.add_zero]

theorem Sound.handleWrite (h : c.Sound) {sent : ℤ} (he : machine.enabled c (.handleWrite sent))
    (hc : machine.step c (.handleWrite sent) = .ok c') :
    c'.Sound ∧ c'.pendingFunctors = c.pendingFunctors ∧
      TcpConnection.Written c.conn c'.conn sent := by
  obtain ⟨conn, hconn, hc⟩ := bind_eq_ok.mp hc
  obtain rfl := Except.ok.inj hc
  obtain ⟨hintact, hwritten⟩ := h.intact.handleWrite_flush h.poised he hconn
  refine ⟨h.write hintact hwritten.poised hwritten.state ?_ (List.suffix_refl _) rfl rfl,
    rfl, hwritten⟩
  change conn.messages = _
  rw [hwritten.messages]
  exact h.messages

/-- A functor of `shutdown` is the only one that shuts down, and no early message is behind it. -/
theorem Sound.runFunctor (h : c.Sound) {sent : ℤ} {errno : Errno}
    (he : machine.enabled c (.runFunctor sent errno))
    (hc : machine.step c (.runFunctor sent errno) = .ok c') :
    c'.Sound ∧ (c.conn.shutdowns < c'.conn.shutdowns →
      c'.conn.outputBuffer.readableBytes = 0 ∧ ¬ c'.Waiting) := by
  change c.Returns sent at he
  change c.runFunctor sent errno = _ at hc
  unfold Returns at he
  unfold SharedConnection.runFunctor at hc
  cases hqueue : c.pendingFunctors with
  | nil =>
    rw [hqueue] at he
    exact he.elim
  | cons f fs =>
    rw [hqueue] at he hc
    have hsuffix : fs <:+ c.pendingFunctors := by
      rw [hqueue]
      exact List.suffix_cons _ _
    cases f with
    | sendInLoop early data =>
      obtain ⟨conn, hconn, hc⟩ := bind_eq_ok.mp hc
      obtain rfl := Except.ok.inj hc
      obtain ⟨hintact, hpoised, hframe⟩ :=
        h.intact.sendInLoop_flush h.poised h.ne data.2 he hconn
      refine ⟨h.write hintact hpoised hframe.state ?_ hsuffix rfl rfl, fun hlt => ?_⟩
      · change conn.messages = _
        rw [hframe.messages, List.flatMap_append, ← h.messages, List.flatMap_singleton]
      · exact absurd hframe.shutdowns.symm hlt.ne
    | shutdownInLoop =>
      obtain rfl := Except.ok.inj hc
      refine ⟨h.write ⟨h.intact.input, h.intact.output, h.intact.registered, h.intact.stream⟩
        h.poised rfl h.messages hsuffix rfl rfl, fun hlt => ?_⟩
      change _ < c.conn.shutdownInLoop.shutdowns at hlt
      rw [TcpConnection.shutdownInLoop_shutdowns] at hlt
      constructor
      · by_contra hne
        rw [if_pos (h.poised.mpr hne)] at hlt
        exact absurd hlt (lt_irrefl _)
      · rintro ⟨data, hmem, -⟩
        have horder := h.order
        rw [hqueue] at horder
        exact List.rel_of_pairwise_cons horder hmem rfl rfl

omit [DecidableEq T] in
theorem Sound.queueInLoop (h : c.Sound) {f : ThreadFunctor}
    (hshutdown : f = .shutdownInLoop → c.called = true) (hearly : IsEarly f → c.called = false) :
    (c.queueInLoop f).Sound := by
  refine ⟨h.intact, h.poised, h.up, h.messages, ?_, ?_, h.threads⟩
  · refine List.pairwise_append.mpr ⟨h.order, List.pairwise_singleton _ _, ?_⟩
    rintro g hg f' hf rfl hearly'
    obtain rfl := List.mem_singleton.mp hf
    exact h.uncalled (hearly hearly') hg
  · intro hcalled hmem
    rcases List.mem_append.mp hmem with hmem | hmem
    · exact h.uncalled hcalled hmem
    · have htrue := hshutdown (List.mem_singleton.mp hmem).symm
      exact Bool.false_ne_true (hcalled.symm.trans htrue)

theorem Sound.setStage (h : c.Sound) {t : T} {stage : ThreadStage}
    (hstage : stage = .disconnecting ∨ stage = .shuttingDown → c.called = true) :
    (c.setStage t stage).Sound := by
  refine ⟨h.intact, h.poised, h.up, h.messages, h.order, h.uncalled, fun hcalled u => ?_⟩
  change Function.update c.threads t stage u ≠ _ ∧ Function.update c.threads t stage u ≠ _
  by_cases hu : u = t
  · rw [hu, Function.update_self]
    constructor
    · rintro rfl
      exact absurd (hcalled.symm.trans (hstage (.inl rfl))) Bool.false_ne_true
    · rintro rfl
      exact absurd (hcalled.symm.trans (hstage (.inr rfl))) Bool.false_ne_true
  · rw [Function.update_of_ne hu]
    exact h.threads hcalled u

omit [DecidableEq T] in
theorem Sound.called_of_stage (h : c.Sound) {t : T}
    (ht : c.threads t = .disconnecting ∨ c.threads t = .shuttingDown) : c.called = true := by
  by_contra hcalled
  obtain ⟨hd, hs⟩ := h.threads (Bool.eq_false_iff.mpr hcalled) t
  exact ht.elim hd hs

theorem Sound.queueSend (h : c.Sound) (t : T) :
    (c.queueSend t).Sound ∧ (c.queueSend t).conn = c.conn := by
  unfold SharedConnection.queueSend
  split
  · next data _ =>
    have hqueue : (c.queueInLoop (.sendInLoop (!c.called) data)).Sound := by
      refine h.queueInLoop (fun hf => by cases hf) fun hearly => ?_
      simpa [IsEarly] using hearly
    exact ⟨hqueue.setStage (by simp), rfl⟩
  · exact ⟨h, rfl⟩

theorem Sound.step (h : c.Sound) {e : Event T} (he : machine.enabled c e)
    (hc : machine.step c e = .ok c') : c'.Sound := by
  cases e with
  | send data sent errno => exact (h.send he hc).1
  | shutdownCalled =>
    obtain rfl := Except.ok.inj hc
    exact ⟨h.intact, h.poised, h.up, h.messages, h.order, nofun, nofun⟩
  | shutdown => exact Except.ok.inj hc ▸ h.shutdown.1
  | handleWrite sent => exact (h.handleWrite he hc).1
  | runFunctor sent errno => exact (h.runFunctor he hc).1
  | trySend t data =>
    refine Except.ok.inj hc ▸ h.setStage ?_
    split_ifs <;> simp
  | queueSend t => exact Except.ok.inj hc ▸ (h.queueSend t).1
  | tryShutdown t => exact Except.ok.inj hc ▸ h.setStage fun _ => he.2
  | setDisconnecting t =>
    have hset : Sound { c with conn := c.conn.setState .kDisconnecting } := by
      refine ⟨h.intact.keeps ⟨rfl, rfl, rfl, fun _ => h.ne, id, id⟩, h.poised, .inr rfl,
        h.messages, h.order, h.uncalled, h.threads⟩
    exact Except.ok.inj hc ▸ hset.setStage fun _ => h.called_of_stage (.inl he)
  | queueShutdown t =>
    have hqueue := h.queueInLoop (f := .shutdownInLoop)
      (fun _ => h.called_of_stage (.inr he)) False.elim
    exact Except.ok.inj hc ▸ hqueue.setStage (by simp)

/-! ## The steps that shut down -/

theorem Sound.shutdown_iff (h : c.Sound) : c.Flushes .shutdown ↔ c.Caught .shutdown := by
  obtain ⟨hsound, hcount⟩ := h.shutdown
  constructor
  · intro hflush hs hw hwaiting
    rw [if_pos ⟨hs, hw⟩] at hcount
    have hflushed := hflush _ rfl (by
      change _ < c.conn.shutdown.shutdowns
      omega)
    exact (hsound.flushed_iff hflushed.empty).mp hflushed hwaiting
  · intro hcaught c' hc hlt
    obtain rfl := Except.ok.inj hc
    change _ < c.conn.shutdown.shutdowns at hlt
    by_cases hd : c.conn.state = .kConnected ∧ c.conn.channel.isWriting = false
    · have hempty : c.conn.outputBuffer.readableBytes = 0 := by
        by_contra hne
        rw [h.poised.mpr hne] at hd
        cases hd.2
      refine (hsound.flushed_iff ?_).mpr (hcaught hd.1 hd.2)
      change c.conn.shutdown.outputBuffer.readableBytes = 0
      rw [TcpConnection.shutdown_keeps.output]
      exact hempty
    · rw [if_neg hd] at hcount
      omega

theorem Sound.handleWrite_iff (h : c.Sound) {sent : ℤ}
    (he : machine.enabled c (.handleWrite sent)) :
    c.Flushes (.handleWrite sent) ↔ c.Caught (.handleWrite sent) := by
  have hwaiting : ∀ {c' : SharedConnection T}, c'.pendingFunctors = c.pendingFunctors →
      (c'.Waiting ↔ c.Waiting) := by
    intro c' hc'
    unfold Waiting
    rw [hc']
  constructor
  · intro hflush hd
    obtain ⟨conn, hconn, -⟩ := h.intact.handleWrite he.sends fun _ => he.ne
    have hc : machine.step c (.handleWrite sent) = .ok { c with conn := conn } := by
      change (c.conn.handleWrite sent >>= _) = _
      rw [hconn]
      rfl
    obtain ⟨hsound, hfunctors, hwritten⟩ := h.handleWrite he hc
    have hshut := hwritten.shutdowns
    rw [if_pos hd] at hshut
    have hflushed := hflush _ hc (by omega)
    exact mt (hwaiting hfunctors).mpr ((hsound.flushed_iff hflushed.empty).mp hflushed)
  · intro hcaught c' hc hlt
    obtain ⟨hsound, hfunctors, hwritten⟩ := h.handleWrite he hc
    have hd : c.conn.Drains sent := by
      by_contra hnot
      have hshut := hwritten.shutdowns
      rw [if_neg hnot] at hshut
      omega
    exact (hsound.flushed_iff (hwritten.drained hd)).mpr (mt (hwaiting hfunctors).mp (hcaught hd))

theorem Sound.flushes_iff (h : c.Sound) {e : Event T} (he : machine.enabled c e) :
    c.Flushes e ↔ c.Caught e := by
  have hsame : ∀ {c'}, machine.step c e = .ok c' → c'.conn.shutdowns = c.conn.shutdowns →
      c.Flushes e := by
    intro c' hc' hshut c'' hc'' hlt
    obtain rfl := Except.ok.inj (hc'.symm.trans hc'')
    exact absurd hshut.symm hlt.ne
  cases e with
  | send data sent errno =>
    refine iff_of_true (fun c' hc hlt => ?_) trivial
    exact absurd (h.send he hc).2.symm hlt.ne
  | shutdownCalled => exact iff_of_true (hsame rfl rfl) trivial
  | shutdown => exact h.shutdown_iff
  | handleWrite sent => exact h.handleWrite_iff he
  | runFunctor sent errno =>
    refine iff_of_true (fun c' hc hlt => ?_) trivial
    obtain ⟨hsound, hshut⟩ := h.runFunctor he hc
    obtain ⟨hempty, hwaiting⟩ := hshut hlt
    exact (hsound.flushed_iff hempty).mpr hwaiting
  | trySend t data => exact iff_of_true (hsame rfl rfl) trivial
  | queueSend t =>
    exact iff_of_true (hsame rfl (congrArg TcpConnection.shutdowns (h.queueSend t).2)) trivial
  | tryShutdown t => exact iff_of_true (hsame rfl rfl) trivial
  | setDisconnecting t =>
    exact iff_of_true (hsame rfl (TcpConnection.setState_shutdowns _)) trivial
  | queueShutdown t => exact iff_of_true (hsame rfl rfl) trivial

/-- The runs whose calls of `shutdownWrite()` flush are those in which none is made while a message
waits in the queue. -/
theorem shutdown_flushes {fd highWaterMark : ℕ} {callbacks : Callbacks} {es : List (Event T)}
    {c : SharedConnection T} :
    machine.Run Flushes (create fd callbacks highWaterMark) es c ↔
      machine.Run Caught (create fd callbacks highWaterMark) es c := by
  have hstep : ∀ (t : SharedConnection T) e u, t.Sound → machine.enabled t e →
      machine.step t e = .ok u → u.Sound := fun _ _ _ ht he hu => ht.step he hu
  have hstart := create_sound (T := T) fd callbacks highWaterMark
  constructor
  · exact Machine.Run.mono_of_invariant Sound hstart hstep fun _ _ ht he => (ht.flushes_iff he).mp
  · exact Machine.Run.mono_of_invariant Sound hstart hstep fun _ _ ht he => (ht.flushes_iff he).mpr

instance (c : SharedConnection T) (sent : ℤ) : Decidable (c.Returns sent) := by
  unfold Returns
  split <;> infer_instance

instance (c : SharedConnection T) : ∀ e, Decidable (machine.enabled c e)
  | .send data sent _ => inferInstanceAs (Decidable (_ → _ → sockets.Counts data.1.length sent))
  | .shutdownCalled => .isTrue trivial
  | .shutdown => inferInstanceAs (Decidable (c.called = true))
  | .handleWrite sent =>
    inferInstanceAs (Decidable (sockets.Counts c.conn.outputBuffer.readableBytes sent))
  | .runFunctor sent _ => inferInstanceAs (Decidable (c.Returns sent))
  | .trySend t _ => inferInstanceAs (Decidable (c.threads t = .outside))
  | .queueSend t => by
    change Decidable (∃ data, c.threads t = .sending data)
    cases c.threads t with
    | sending data => exact .isTrue ⟨data, rfl⟩
    | outside | disconnecting | shuttingDown => exact .isFalse (by simp)
  | .tryShutdown t => inferInstanceAs (Decidable (c.threads t = .outside ∧ c.called = true))
  | .setDisconnecting t => inferInstanceAs (Decidable (c.threads t = .disconnecting))
  | .queueShutdown t => inferInstanceAs (Decidable (c.threads t = .shuttingDown))

/-- One byte sent by another thread is in the queue when the loop thread shuts down. In the second
run the other thread shuts down itself, and the loop thread empties the output buffer before it
comes to the functors. -/
theorem shutdown_leaves_message :
    (∃ es, ∃ c c' : SharedConnection Unit,
      machine.Run Machine.Any (create 3 ⟨true, true, true, true, true⟩ 64) es c ∧
        machine.enabled c .shutdown ∧ machine.step c .shutdown = .ok c' ∧
        c.conn.shutdowns < c'.conn.shutdowns ∧ ¬ c'.Flushed) ∧
    ∃ es, ∃ c c' : SharedConnection Unit,
      machine.Run Machine.Any (create 3 ⟨true, true, true, true, true⟩ 64) es c ∧
        machine.enabled c (.handleWrite 1) ∧ machine.step c (.handleWrite 1) = .ok c' ∧
        c.conn.shutdowns < c'.conn.shutdowns ∧ ¬ c'.Flushed := by
  have hleft : ∀ {c : SharedConnection Unit},
      .sendInLoop true ⟨[1], by decide⟩ ∈ c.pendingFunctors → ¬ c.Flushed :=
    fun hmem hflushed => List.cons_ne_nil _ _ (hflushed.queued _ hmem)
  constructor
  · obtain ⟨c, hc, hp⟩ := Machine.exists_run_of_exec machine Machine.Any
      (create 3 ⟨true, true, true, true, true⟩ 64 : SharedConnection Unit)
      [.trySend () ⟨[1], by decide⟩, .queueSend (), .shutdownCalled]
      (fun c => decide (c.called = true ∧ c.conn.shutdowns < c.conn.shutdown.shutdowns ∧
        ThreadFunctor.sendInLoop true ⟨[1], by decide⟩ ∈ c.pendingFunctors)) (by decide +kernel)
    obtain ⟨hcalled, hlt, hmem⟩ := of_decide_eq_true hp
    exact ⟨_, c, _, hc, hcalled, rfl, hlt, hleft hmem⟩
  · obtain ⟨c, hc, hp⟩ := Machine.exists_run_of_exec machine Machine.Any
      (create 3 ⟨true, true, true, true, true⟩ 64 : SharedConnection Unit)
      [.send ⟨[2, 3], by decide⟩ 1 .other, .trySend () ⟨[1], by decide⟩, .queueSend (),
        .shutdownCalled, .tryShutdown (), .setDisconnecting (), .queueShutdown ()]
      (fun c => decide (machine.enabled c (.handleWrite 1)) &&
        match machine.step c (.handleWrite 1) with
        | .ok c' => decide (c.conn.shutdowns < c'.conn.shutdowns ∧
            ThreadFunctor.sendInLoop true ⟨[1], by decide⟩ ∈ c'.pendingFunctors)
        | .error _ => false) (by decide +kernel)
    obtain ⟨he, hp⟩ := Bool.and_eq_true_iff.mp hp
    split at hp
    · next c' hstep =>
      obtain ⟨hlt, hmem⟩ := of_decide_eq_true hp
      exact ⟨_, c, c', hc, of_decide_eq_true he, hstep, hlt, hleft hmem⟩
    · exact absurd hp Bool.false_ne_true

end SharedConnection
end MuduoWindows.Net
