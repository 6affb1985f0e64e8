import MuduoWindows.Base.StringPiece
import MuduoWindows.Net.Epoll
import MuduoWindows.Net.TcpConnection.Closing
import MuduoWindows.Net.TcpConnection.Flushing
import MuduoWindows.Net.TcpConnection.Teardown

/-! # ExampleEchoServer/echoServer.cpp

A connection of the echo server on its loop thread. The callbacks of the server run when the
connection calls them; no call of `::send` is refused, so that `errno` does not matter. The poller
reports the channel once, and the server is not destroyed.
-/

namespace MuduoWindows.Net
open Library

/-- The connection with the server's callbacks. `chunks` are what the socket has delivered, one for
each `handleRead` that got something; `quit` says that `loop_->quit()` was called. -/
structure EchoServer where
  conn : TcpConnection
  chunks : List (List UInt8)
  quit : Bool

namespace EchoServer

def hello : List UInt8 := Base.ascii "hello\n"
def bye : List UInt8 := Base.ascii "bye\n"
def exitText : List UInt8 := Base.ascii "exit\n"
def quitText : List UInt8 := Base.ascii "quit\n"

/-- Which callbacks the constructor of `EchoServer` and `TcpServer::newConnection` set. -/
def callbacks : Callbacks :=
  { connection := true, message := true, writeComplete := false, highWaterMark := false
    close := true }

/-- `highWaterMark_` -/
def highWaterMark : ℕ := 64 * 1024 * 1024

def create (fd : ℕ) : EchoServer :=
  { conn := .create fd callbacks highWaterMark, chunks := [], quit := false }

def onConnection (c : TcpConnection) (sent : ℤ) : Result TcpConnection := c.send hello sent .other

/-- The branch of `onMessage` for the exit. -/
def sayBye (c : TcpConnection) (msg : List UInt8) (sent : ℤ) : Result TcpConnection :=
  if msg = exitText then do
    let c ← c.send bye sent .other
    pure c.shutdown
  else
    pure c

/-- `first` and `second` are what the two calls of `::send` return, if they are made. -/
def onMessage (s : EchoServer) (first second : ℤ) : Result EchoServer := do
  let (msg, inputBuffer) ← s.conn.inputBuffer.retrieveAllAsString
  let c ← sayBye { s.conn with inputBuffer := inputBuffer } msg first
  let c ← c.send msg second .other
  pure { s with conn := c, quit := s.quit || decide (msg = quitText) }

def userDone (c : TcpConnection) : TcpConnection := { c with todo := c.todo.tail }

/-- The next task of the handler, and the callback that it ends in. -/
def resume (s : EchoServer) (received : List UInt8) (sent first second : ℤ) :
    Result EchoServer := do
  let c ← s.conn.resume received sent
  if s.conn.todo.head? = some (.channel .read) ∧ received ≠ [] then do
    let t ← onMessage { s with conn := c, chunks := s.chunks ++ [received] } first second
    pure { t with conn := userDone t.conn }
  else if s.conn.todo.head? = some (.channel .read) ∨
      s.conn.todo.head? = some (.channel .close) then do
    let c ← onConnection c first
    pure { s with conn := userDone c }
  else
    pure { s with conn := c }

inductive Event where
  | connectEstablished (sent : ℤ)
  | polled (revents : Events)
  | dispatch
  | resume (received : List UInt8) (sent first second : ℤ)
  /-- The functor that `TcpServer::removeConnection` has queued. -/
  | connectDestroyed
  deriving DecidableEq

/-- net/epoll.cpp reports no `POLLPRI`, and here a channel at most once in a poll; the server, which
is not destroyed itself, destroys a connection that is closed. -/
def machine : Machine EchoServer Event Fault where
  enabled s
    | .connectEstablished _ => TcpConnection.machine.enabled s.conn .connectEstablished
    | .polled revents => TcpConnection.machine.enabled s.conn (.polled [revents]) ∧
        has revents POLLPRI = false
    | .dispatch => TcpConnection.machine.enabled s.conn .dispatch
    | .resume received sent _ _ => TcpConnection.machine.enabled s.conn (.resume received sent)
    | .connectDestroyed => TcpConnection.machine.enabled s.conn .connectDestroyed ∧
        s.conn.state = .kDisconnected
  step s
    | .connectEstablished sent => do
      let c ← s.conn.connectEstablished
      let c ← onConnection c sent
      pure { s with conn := userDone c }
    | .polled revents => do
      let c ← TcpConnection.machine.step s.conn (.polled [revents])
      pure { s with conn := c }
    | .dispatch => do
      let c ← TcpConnection.machine.step s.conn .dispatch
      pure { s with conn := c }
    | .resume received sent first second => s.resume received sent first second
    | .connectDestroyed => do
      let c ← s.conn.connectDestroyed
      pure { s with conn := c }

instance (s : EchoServer) : ∀ e, Decidable (machine.enabled s e)
  | .connectEstablished _ =>
    inferInstanceAs (Decidable (TcpConnection.machine.enabled s.conn .connectEstablished))
  | .polled _ =>
    inferInstanceAs (Decidable (TcpConnection.machine.enabled s.conn (.polled _) ∧ _))
  | .dispatch => inferInstanceAs (Decidable (TcpConnection.machine.enabled s.conn .dispatch))
  | .resume _ _ _ _ =>
    inferInstanceAs (Decidable (TcpConnection.machine.enabled s.conn (.resume _ _)))
  | .connectDestroyed =>
    inferInstanceAs (Decidable (TcpConnection.machine.enabled s.conn .connectDestroyed ∧ _))

/-- Every call of `::send` returns a count between 0 and the length passed. -/
def Counted (s : EchoServer) : Event → Prop
  | .connectEstablished sent => sockets.Counts hello.length sent
  | .resume received sent first second =>
      sockets.Counts s.conn.outputBuffer.readableBytes sent ∧
        (received ≠ [] → sockets.Counts bye.length first ∧ sockets.Counts received.length second)
  | .polled _ | .dispatch | .connectDestroyed => True

instance (s : EchoServer) : ∀ e, Decidable (Counted s e)
  | .connectEstablished _ => inferInstanceAs (Decidable (sockets.Counts _ _))
  | .resume _ _ _ _ => inferInstanceAs (Decidable (_ ∧ (_ → _ ∧ _)))
  | .polled _ | .dispatch | .connectDestroyed => .isTrue trivial

/-! ## The answers -/

/-- What the server says to the messages of a client. -/
def replies : List (List UInt8) → List UInt8
  | [] => []
  | msg :: rest => if msg = exitText then bye else msg ++ replies rest

def answer (chunks : List (List UInt8)) : List UInt8 := hello ++ replies chunks

variable {chunks : List (List UInt8)} {msg : List UInt8}

theorem replies_append (h : exitText ∉ chunks) (rest : List (List UInt8)) :
    replies (chunks ++ rest) = chunks.flatten ++ replies rest := by
  induction chunks with
  | nil => rfl
  | cons c chunks ih =>
    have hc : c ≠ exitText := fun heq => h (heq ▸ List.mem_cons_self)
    rw [List.cons_append, replies, if_neg hc, ih fun hmem => h (List.mem_cons_of_mem c hmem),
      List.flatten_cons, List.append_assoc]

theorem replies_of_mem (h : exitText ∈ chunks) (rest : List (List UInt8)) :
    replies (chunks ++ rest) = replies chunks := by
  induction chunks with
  | nil => exact absurd h List.not_mem_nil
  | cons c chunks ih =>
    rw [List.cons_append, replies, replies]
    split_ifs with hc
    · rfl
    · rw [ih ((List.mem_cons.mp h).resolve_left (Ne.symm hc))]

theorem answer_concat (h : exitText ∉ chunks) (msg : List UInt8) : answer (chunks ++ [msg]) =
    answer chunks ++ if msg = exitText then bye else msg := by
  have hbefore := replies_append h []
  unfold answer
  rw [replies_append h, List.append_assoc]
  rw [List.append_nil, replies, List.append_nil] at hbefore
  rw [hbefore, replies]
  split_ifs
  · rfl
  · rw [replies, List.append_nil]

theorem answer_of_mem (h : exitText ∈ chunks) (msg : List UInt8) :
    answer (chunks ++ [msg]) = answer chunks := by
  unfold answer
  rw [replies_of_mem h]

/-! ## The connection underneath -/

/-- The conditions of the connection's own results. -/
def Kept (c : TcpConnection) (e : TcpConnection.Event) : Prop :=
  c.Unrefused e ∧ c.Careful e ∧ c.Unread e

/-- A state of the connection in one of its own runs. -/
def Reached (c : TcpConnection) : Prop :=
  ∃ fd es, TcpConnection.machine.Run Kept (.create fd callbacks highWaterMark) es c

variable {c c' : TcpConnection} {e : TcpConnection.Event}

theorem create_reached (fd : ℕ) : Reached (create fd).conn := ⟨fd, [], .nil⟩

theorem Reached.step (h : Reached c) (he : TcpConnection.machine.enabled c e) (hkept : Kept c e)
    (hc : TcpConnection.machine.step c e = .ok c') : Reached c' := by
  obtain ⟨fd, es, hes⟩ := h
  exact ⟨fd, es ++ [e], hes.snoc he hkept hc⟩

theorem Reached.intact (h : Reached c) : c.Intact := by
  obtain ⟨fd, es, hes⟩ := h
  exact (TcpConnection.create_intact fd callbacks highWaterMark).run
    (hes.mono_of_invariant (fun _ => True) trivial (fun _ _ _ _ _ _ => trivial)
      fun _ _ _ _ hkept => hkept.1)

theorem Reached.interest (h : Reached c) : c.Interest := by
  obtain ⟨fd, es, hes⟩ := h
  exact ((TcpConnection.create_settled fd callbacks highWaterMark).run
    (hes.mono_of_invariant (fun _ => True) trivial (fun _ _ _ _ _ _ => trivial)
      fun _ _ _ _ hkept => hkept.2.1)).interest

theorem Reached.standing (h : Reached c) : c.Standing := by
  obtain ⟨fd, es, hes⟩ := h
  exact ((TcpConnection.create_standing fd callbacks highWaterMark).run
    (hes.mono_of_invariant (fun _ => True) trivial (fun _ _ _ _ _ _ => trivial)
      fun _ _ _ _ hkept => hkept.2.2)).1

/-! ## Writing -/

/-- What a write leaves of the rest of the connection. -/
structure Same (c c' : TcpConnection) : Prop where
  todo : c'.todo = c.todo
  active : c'.active = c.active
  input : c'.inputBuffer = c.inputBuffer
  callbacks : c'.callbacks = c.callbacks
  reading : c'.reading = c.reading

theorem Same.refl : Same c c := ⟨rfl, rfl, rfl, rfl, rfl⟩

theorem Same.trans {c'' : TcpConnection} (h : Same c c') (k : Same c' c'') : Same c c'' :=
  ⟨k.todo.trans h.todo, k.active.trans h.active, k.input.trans h.input,
    k.callbacks.trans h.callbacks, k.reading.trans h.reading⟩

theorem wrote_same (h : TcpConnection.Wrote c c') : Same c c' := by
  obtain ⟨_, _, _, _, rfl⟩ := h
  exact ⟨rfl, rfl, rfl, rfl, rfl⟩

/-- A call of `send` from a callback. -/
structure Sent (c c' : TcpConnection) (data : List UInt8) : Prop where
  reached : Reached c'
  same : Same c c'
  state : c'.state = c.state
  shutdowns : c'.shutdowns = c.shutdowns
  poised : c.Poised → c'.Poised
  messages : c'.messages = c.messages ++ if c.state = .kConnected then data else []
  down : c.state ≠ .kConnected → c' = c

theorem send_sent (h : Reached c) (hpoised : c.state = .kConnected → c.Poised)
    (huser : c.todo.head? = some .user) (hs : c.state ≠ .kConnecting) {data : List UInt8} {sent : ℤ}
    (hlen : data.length < sockets.sizeMod) (hcount : sockets.Counts data.length sent) :
    ∃ c', c.send data sent .other = .ok c' ∧ Sent c c' data := by
  obtain ⟨c', hc', -⟩ := h.intact.send .other hlen (fun _ => hcount.sends) fun _ _ => hcount.ne
  have hreached : Reached c' :=
    h.step (e := .call (.send data sent .other)) ⟨.inr huser, hs, hlen, fun _ => hcount.sends⟩
      ⟨fun _ _ => hcount.ne, trivial, trivial⟩ hc'
  refine ⟨c', hc', ?_⟩
  by_cases hconnected : c.state = .kConnected
  · obtain ⟨-, hpoised', hframe⟩ :=
      h.intact.send_flush (hpoised hconnected) hconnected hlen (fun _ => hcount) hc'
    have hsame : Same c c' := by
      unfold TcpConnection.send at hc'
      rw [if_pos hconnected] at hc'
      rcases TcpConnection.sendInLoop_cases h.intact.registered hc' with hw | ⟨-, m, hw, rfl⟩
      · exact wrote_same hw
      · exact (wrote_same hw).trans ⟨rfl, rfl, rfl, rfl, rfl⟩
    refine ⟨hreached, hsame, hframe.state, hframe.shutdowns, fun _ => hpoised', ?_,
      fun hne => absurd hconnected hne⟩
    rw [if_pos hconnected]
    exact hframe.messages
  · unfold TcpConnection.send at hc'
    rw [if_neg hconnected] at hc'
    obtain rfl := Except.ok.inj hc'
    refine ⟨h, .refl, rfl, rfl, id, ?_, fun _ => rfl⟩
    rw [if_neg hconnected, List.append_nil]

/-! ## The input buffer -/

/-- An input buffer that the user has emptied, with the room that the readings can have made. -/
structure Emptied (b : Buffer) : Prop where
  reader : b.readerIndex = Buffer.kCheapPrepend
  writer : b.writerIndex = Buffer.kCheapPrepend
  room : b.buffer.length ≤ Buffer.kCheapPrepend + 2 * Buffer.extrabufSize

theorem ofSize_emptied : Emptied (.ofSize Buffer.kInitialSize) := by
  refine ⟨rfl, rfl, ?_⟩
  unfold Buffer.ofSize
  rw [List.length_replicate]
  decide

theorem Emptied.readable {b : Buffer} (h : Emptied b) : b.readable = [] := by
  unfold Buffer.readable
  rw [h.reader, h.writer]
  exact window_self _ _

theorem Emptied.iovec_le {b : Buffer} (h : Emptied b) :
    b.iovec.sum ≤ b.writableBytes + Buffer.extrabufSize ∧
      (Buffer.extrabufSize ≤ b.writableBytes → b.iovec.sum ≤ b.writableBytes) ∧
      b.iovec.sum < 2 ^ 31 := by
  have hmod := Nat.mod_le b.writableBytes (2 ^ 32)
  have hroom := h.room
  have hwritable : b.writableBytes = b.buffer.length - Buffer.kCheapPrepend := by
    unfold Buffer.writableBytes
    rw [h.writer]
  unfold Buffer.iovec
  unfold Buffer.extrabufSize at *
  split_ifs <;> simp only [List.sum_cons, List.sum_nil] <;> omega

/-- Space is made inside the buffer, or exactly as much as is needed behind it. -/
theorem makeSpace_length {b b' : Buffer} (hv : b.Valid) {len : ℕ} (h : b.makeSpace len = .ok b') :
    b'.buffer.length ≤ b.buffer.length + len := by
  have hr := hv.reader
  have hw := hv.writer
  unfold Buffer.makeSpace at h
  split_ifs at h with hgrow
  · obtain rfl := Except.ok.inj h
    rw [resize_length]
    omega
  · obtain ⟨hmove, h⟩ := require_bind_eq_ok.mp h
    obtain ⟨-, h⟩ := require_bind_eq_ok.mp h
    obtain rfl := Except.ok.inj h
    refine (store_length ?_).le.trans (Nat.le_add_right _ _)
    rw [window_length hw]
    omega

theorem append_length {b b' : Buffer} (hv : b.Valid) {data : List UInt8}
    (h : b.append data = .ok b') : b'.buffer.length ≤ b.buffer.length + data.length := by
  obtain ⟨m, hm, hmv, -, hroom⟩ := Buffer.ensureWritableBytes_eq hv data.length
  have hspace : m.buffer.length ≤ b.buffer.length + data.length := by
    unfold Buffer.ensureWritableBytes at hm
    by_cases hlen : b.writableBytes < data.length
    · simp only [if_pos hlen] at hm
      obtain ⟨m', hm', hm⟩ := bind_eq_ok.mp hm
      obtain ⟨-, hm⟩ := require_bind_eq_ok.mp hm
      obtain rfl := Except.ok.inj hm
      exact makeSpace_length hv hm'
    · simp only [if_neg hlen] at hm
      obtain ⟨-, hm⟩ := require_bind_eq_ok.mp hm
      obtain rfl := Except.ok.inj hm
      exact Nat.le_add_right _ _
  unfold Buffer.append at h
  rw [hm, ok_bind] at h
  obtain ⟨-, h⟩ := require_bind_eq_ok.mp h
  obtain rfl := Except.ok.inj h
  have hw := hmv.writer
  have hstore : (m.fill data).buffer.length = m.buffer.length := by
    refine store_length ?_
    unfold Buffer.writableBytes at hroom
    unfold Buffer.beginWrite
    omega
  exact hstore.le.trans hspace

/-- One reading leaves the buffer short enough: only a short one is offered `extrabuf`. -/
theorem Emptied.readFd {b b' : Buffer} (h : Emptied b) (hv : b.Valid) {received : List UInt8}
    {n : ℕ} (hlen : received.length ≤ b.iovec.sum) (hb : b.readFd received = .ok (n, b')) :
    b'.buffer.length ≤ Buffer.kCheapPrepend + 2 * Buffer.extrabufSize := by
  obtain ⟨hsum, hlarge, -⟩ := h.iovec_le
  have hw := h.writer
  have hroom := h.room
  have hcheap := hv.cheap
  have hwritable : b.writableBytes = b.buffer.length - Buffer.kCheapPrepend := by
    unfold Buffer.writableBytes
    rw [hw]
  have hfill : (b.fill (received.take b.writableBytes)).buffer.length = b.buffer.length := by
    refine store_length ?_
    rw [List.length_take]
    unfold Buffer.beginWrite
    omega
  unfold Buffer.readFd at hb
  dsimp only at hb
  split_ifs at hb with hone
  · obtain ⟨-, rfl⟩ := Prod.mk.inj (Except.ok.inj hb)
    exact hfill.le.trans hroom
  · obtain ⟨b₂, hb₂, hb⟩ := bind_eq_ok.mp hb
    obtain ⟨-, rfl⟩ := Prod.mk.inj (Except.ok.inj hb)
    have hv₂ : Buffer.Valid { b.fill (received.take b.writableBytes) with
        writerIndex := (b.fill (received.take b.writableBytes)).buffer.length } :=
      ⟨hfill ▸ hcheap, hfill ▸ hv.reader.trans hv.writer, le_rfl⟩
    have hgrown := append_length hv₂ hb₂
    dsimp only at hgrown
    rw [hfill, List.length_drop] at hgrown
    omega

theorem readFd_nil (b : Buffer) : b.readFd [] = .ok (0, b) := by
  have hstore : store b.buffer b.writerIndex [] = b.buffer := by
    unfold store
    rw [List.append_nil, List.length_nil, Nat.add_zero, List.take_append_drop]
  unfold Buffer.readFd Buffer.fill Buffer.beginWrite
  dsimp only
  rw [List.take_nil, hstore]
  exact if_pos (Nat.zero_le _)

/-! ## The invariant -/

/-- The tasks of a handler that may close the connection. -/
def ends : Task → Bool
  | .channel .close | .channel .read => true
  | .channel .error | .channel .write | .user | .closeCallback | .remove => false

/-- What has been said and heard, in the words of the server. -/
structure Heard (s : EchoServer) : Prop where
  connecting : s.conn.state = .kConnecting → ∃ fd, s = create fd
  messages : s.conn.state ≠ .kConnecting → s.conn.messages = answer s.chunks
  connected : s.conn.state = .kConnected → exitText ∉ s.chunks ∧ s.conn.shutdowns = 0
  disconnecting : s.conn.state = .kDisconnecting → exitText ∈ s.chunks ∧
    s.conn.shutdowns = if s.conn.outputBuffer.readableBytes = 0 then 1 else 0
  disconnected : s.conn.state = .kDisconnected → s.conn.shutdowns = 0 ∨
    s.conn.shutdowns = 1 ∧ exitText ∈ s.chunks ∧ s.conn.accepted = answer s.chunks
  accepted : s.conn.accepted <+: s.conn.messages
  quit : s.quit = true ↔ quitText ∈ s.chunks
  short : ∀ msg ∈ s.chunks, msg.length < 2 ^ 31

structure Inv (s : EchoServer) : Prop where
  reached : Reached s.conn
  callbacks : s.conn.callbacks = callbacks
  reading : s.conn.reading = true
  poised : s.conn.state ≠ .kDisconnected → s.conn.Poised
  input : Emptied s.conn.inputBuffer
  ends : s.conn.todo.countP ends ≤ 1
  active : s.conn.active = [] ∨
    ∃ revents, s.conn.active = [revents] ∧ has revents POLLPRI = false ∧ s.conn.todo = []
  up : 0 < s.conn.todo.countP EchoServer.ends ∨ s.conn.active ≠ [] → s.conn.Up
  user : .user ∉ s.conn.todo
  removing : .remove ∈ s.conn.todo → s.conn.state = .kDisconnected
  heard : Heard s

variable {s t : EchoServer}

theorem create_inv (fd : ℕ) : (create fd).Inv := by
  refine ⟨create_reached fd, rfl, rfl, fun _ => ?_, ofSize_emptied, Nat.zero_le _,
    .inl rfl, fun h => ?_, List.not_mem_nil, fun h => absurd h List.not_mem_nil, ?_⟩
  · refine iff_of_false ?_ (not_not.mpr (Nat.sub_self _))
    change ¬ has 0 Channel.kWriteEvent = true
    decide
  · exact h.elim (fun hpos => absurd hpos (Nat.lt_irrefl 0)) fun hne => absurd rfl hne
  · exact ⟨fun _ => ⟨fd, rfl⟩, fun hne => absurd rfl hne, nofun, nofun, nofun, List.prefix_rfl,
      iff_of_false nofun List.not_mem_nil, nofun⟩

/-- A handler is only in progress when the connection has been established. -/
theorem Inv.not_connecting (h : s.Inv) (htodo : s.conn.todo ≠ [] ∨ s.conn.active ≠ []) :
    s.conn.state ≠ .kConnecting := by
  intro hs
  obtain ⟨fd, rfl⟩ := h.heard.connecting hs
  exact htodo.elim (fun hne => hne rfl) fun hne => hne rfl

theorem Inv.isNoneEvent (h : s.Inv) (hup : s.conn.Up) : s.conn.channel.isNoneEvent = false := by
  have hread := h.reached.interest.reading hup h.reading
  rw [Bool.eq_false_iff, Ne, Channel.isNoneEvent_iff]
  exact Channel.events_ne_zero (.inl hread)

theorem Heard.same (h : Heard s) (hs : s.conn.state ≠ .kConnecting) (hchunks : t.chunks = s.chunks)
    (hquit : t.quit = s.quit) (hstate : t.conn.state = s.conn.state)
    (hmessages : t.conn.messages = s.conn.messages) (haccepted : t.conn.accepted = s.conn.accepted)
    (hout : t.conn.outputBuffer = s.conn.outputBuffer)
    (hshut : t.conn.shutdowns = s.conn.shutdowns) : Heard t := by
  constructor
  · rw [hstate]
    exact fun hc => absurd hc hs
  · rw [hstate, hmessages, hchunks]
    exact h.messages
  · rw [hstate, hchunks, hshut]
    exact h.connected
  · rw [hstate, hchunks, hshut, hout]
    exact h.disconnecting
  · rw [hstate, hchunks, hshut, haccepted]
    exact h.disconnected
  · rw [haccepted, hmessages]
    exact h.accepted
  · rw [hquit, hchunks]
    exact h.quit
  · rw [hchunks]
    exact h.short

theorem dispatched_ends {revents : Events} (h : has revents POLLPRI = false) :
    ((Channel.handleEventWithGuard revents).map Task.channel).countP ends ≤ 1 := by
  have hread : has revents (POLLIN ||| POLLPRI) = true → has revents EPOLLIN = true := by
    intro hor
    obtain ⟨i, hi, hmask⟩ := has_iff.mp hor
    rw [BitVec.getLsbD_or, Bool.or_eq_true] at hmask
    refine has_iff.mpr ⟨i, hi, hmask.resolve_right fun hpri => ?_⟩
    exact Bool.false_ne_true (h.symm.trans (has_iff.mpr ⟨i, hi, hpri⟩))
  unfold Channel.handleEventWithGuard
  by_cases hin : has revents EPOLLIN = true
  · rw [hin]
    cases has revents EPOLLHUP <;> cases has revents (POLLERR ||| POLLNVAL) <;>
      cases has revents (POLLIN ||| POLLPRI) <;> cases has revents POLLOUT <;> decide
  · rw [Bool.eq_false_iff.mpr fun hor => hin (hread hor), Bool.eq_false_iff.mpr hin]
    cases has revents EPOLLHUP <;> cases has revents (POLLERR ||| POLLNVAL) <;>
      cases has revents POLLOUT <;> decide

/-! ## Steps -/

theorem Reached.userDone (h : Reached c) (huser : c.todo.head? = some .user) :
    Reached (userDone c) :=
  h.step (e := .userDone) huser ⟨trivial, trivial, trivial⟩ rfl

theorem Reached.accepted (h : Reached c) (hs : c.state ≠ .kDisconnected) :
    c.accepted <+: c.messages := ⟨_, h.intact.stream hs⟩

theorem Inv.connectEstablished (h : s.Inv) {sent : ℤ}
    (he : machine.enabled s (.connectEstablished sent))
    (hcount : Counted s (.connectEstablished sent)) :
    ∃ t, machine.step s (.connectEstablished sent) = .ok t ∧ t.Inv := by
  obtain ⟨fd, rfl⟩ := h.heard.connecting he.2
  have hestablished := TcpConnection.connectEstablished_create fd EchoServer.callbacks highWaterMark
  have hreached : Reached (TcpConnection.established fd EchoServer.callbacks highWaterMark) :=
    h.reached.step (e := .connectEstablished) he ⟨trivial, trivial, trivial⟩ hestablished
  have hpoised := TcpConnection.established_poised fd EchoServer.callbacks highWaterMark
  obtain ⟨c', hc', hsent⟩ := send_sent hreached (fun _ => hpoised) rfl nofun
    (by decide : hello.length < sockets.sizeMod) hcount
  have hstate : c'.state = .kConnected := hsent.state
  have hmessages : c'.messages = hello := hsent.messages
  have hup : c'.state ≠ .kDisconnected := by
    rw [hstate]
    nofun
  refine ⟨{ create fd with conn := EchoServer.userDone c' }, ?_, ?_⟩
  · change ((TcpConnection.create fd EchoServer.callbacks _).connectEstablished >>= _) = _
    rw [hestablished, ok_bind]
    change (TcpConnection.send _ _ _ _ >>= _) = _
    rw [hc', ok_bind, pure_eq_ok]
  have htodo : (EchoServer.userDone c').todo = [] := by
    change c'.todo.tail = []
    rw [hsent.same.todo]
    rfl
  have huser : c'.todo.head? = some .user := by rw [hsent.same.todo]; rfl
  refine ⟨hsent.reached.userDone huser, hsent.same.callbacks, hsent.same.reading,
    fun _ => hsent.poised hpoised, ?_, ?_, .inl hsent.same.active, fun _ => .inl hstate, ?_, ?_, ?_⟩
  · change Emptied c'.inputBuffer
    rw [hsent.same.input]
    exact ofSize_emptied
  · rw [htodo]
    exact Nat.zero_le _
  · rw [htodo]
    exact List.not_mem_nil
  · rw [htodo]
    exact fun hmem => absurd hmem List.not_mem_nil
  · refine ⟨fun hs => absurd (hstate.symm.trans hs) nofun, fun _ => hmessages,
      fun _ => ⟨List.not_mem_nil, hsent.shutdowns⟩, fun hs => absurd (hstate.symm.trans hs) nofun,
      fun hs => absurd hs hup, hsent.reached.accepted hup, iff_of_false nofun List.not_mem_nil,
      nofun⟩

theorem Inv.polled (h : s.Inv) {revents : Events} (he : machine.enabled s (.polled revents)) :
    ∃ t, machine.step s (.polled revents) = .ok t ∧ t.Inv := by
  obtain ⟨hpolled, hpri⟩ := he
  obtain ⟨htodo, hactive, hindex⟩ := hpolled
  have hevents := h.reached.interest.added.mp hindex
  have hconnecting : s.conn.state ≠ .kConnecting := by
    intro hs
    obtain ⟨fd, rfl⟩ := h.heard.connecting hs
    cases hindex
  have hup : s.conn.Up := by
    cases hs : s.conn.state with
    | kConnected => exact .inl hs
    | kDisconnecting => exact .inr hs
    | kConnecting => exact absurd hs hconnecting
    | kDisconnected => exact absurd (h.reached.interest.closed hs) hevents
  refine ⟨_, rfl, ?_⟩
  exact ⟨h.reached.step (e := .polled [revents]) ⟨htodo, hactive, hindex⟩
      ⟨trivial, trivial, trivial⟩ rfl, h.callbacks, h.reading, h.poised, h.input, h.ends,
    .inr ⟨revents, rfl, hpri, htodo⟩, fun _ => hup, h.user, h.removing,
    h.heard.same hconnecting rfl rfl rfl rfl rfl rfl rfl⟩

theorem Inv.dispatch (h : s.Inv) (he : machine.enabled s .dispatch) :
    ∃ t, machine.step s .dispatch = .ok t ∧ t.Inv := by
  obtain ⟨revents, hactive, hpri, -⟩ := h.active.resolve_left he.2
  have hreached := h.reached.step (e := .dispatch) he ⟨trivial, trivial, trivial⟩ rfl
  refine ⟨_, rfl, ?_⟩
  have hconnecting := h.not_connecting (.inr he.2)
  have hup := h.up (.inr he.2)
  rw [hactive] at hreached ⊢
  refine ⟨hreached, h.callbacks, h.reading, h.poised, h.input, dispatched_ends hpri, .inl rfl,
    fun _ => hup, fun hmem => ?_, fun hmem => ?_,
    h.heard.same hconnecting rfl rfl rfl rfl rfl rfl rfl⟩
  · obtain ⟨callback, -, hcallback⟩ := List.mem_map.mp hmem
    cases hcallback
  · obtain ⟨callback, -, hcallback⟩ := List.mem_map.mp hmem
    cases hcallback

/-! ## The tasks of a handler -/

/-- The first task of a handler is done; the connection has become `c`. -/
structure Popped (s : EchoServer) (rest : List Task) (c : TcpConnection) : Prop where
  reached : Reached c
  todo : c.todo = rest
  active : c.active = s.conn.active
  input : Emptied c.inputBuffer
  callbacks : c.callbacks = s.conn.callbacks
  reading : c.reading = s.conn.reading
  poised : c.state ≠ .kDisconnected → c.Poised

variable {task : Task} {rest : List Task}

theorem Inv.active_nil (h : s.Inv) (htodo : s.conn.todo = task :: rest) : s.conn.active = [] := by
  refine h.active.resolve_right ?_
  rintro ⟨revents, -, -, hnil⟩
  rw [htodo] at hnil
  cases hnil

theorem Inv.popped (h : s.Inv) (htodo : s.conn.todo = task :: rest) (hp : Popped s rest c)
    (hup : s.conn.Up → c.Up) (hdown : s.conn.state = .kDisconnected → c.state = .kDisconnected)
    {chunks : List (List UInt8)} {quit : Bool}
    (hheard : Heard { conn := c, chunks := chunks, quit := quit }) :
    Inv { conn := c, chunks := chunks, quit := quit } := by
  have hcount : rest.countP EchoServer.ends ≤ s.conn.todo.countP EchoServer.ends := by
    rw [htodo, List.countP_cons]
    exact Nat.le_add_right _ _
  refine ⟨hp.reached, hp.callbacks.trans h.callbacks, hp.reading.trans h.reading, hp.poised,
    hp.input, ?_, .inl (hp.active.trans (h.active_nil htodo)), fun hor => ?_, ?_,
    fun hmem => ?_, hheard⟩
  · rw [hp.todo]
    exact hcount.trans h.ends
  · rw [hp.todo, hp.active] at hor
    exact hup (h.up (hor.imp_left hcount.trans_lt'))
  · rw [hp.todo]
    exact fun hmem => h.user (htodo ▸ List.mem_cons_of_mem task hmem)
  · rw [hp.todo] at hmem
    exact hdown (h.removing (htodo ▸ List.mem_cons_of_mem task hmem))

theorem closed_todo (hcallbacks : c.callbacks = callbacks) :
    c.closed.todo = .user :: .closeCallback :: c.todo := by
  have hset : c.closed.callbacks = c.callbacks := rfl
  unfold TcpConnection.closed TcpConnection.connectionCallback
  dsimp only
  rw [if_pos (by change c.callbacks.connection = true; rw [hcallbacks]; rfl),
    if_pos (by change c.callbacks.close = true; rw [hcallbacks]; rfl)]
  rfl

theorem handleClose_eq (hreg : c.Registered) (hup : c.Up) : c.handleClose = .ok c.closed := by
  have hs : c.state = .kConnected ∨ c.state = .kDisconnecting := hup
  unfold TcpConnection.handleClose
  rw [require_bind hs, TcpConnection.update_eq (TcpConnection.setState_registered.mpr hreg)
    TcpConnection.changes_disableAll, ok_bind, pure_eq_ok]
  rfl

theorem Inv.up_of_ends (h : s.Inv) (htodo : s.conn.todo = task :: rest)
    (hends : EchoServer.ends task = true) : s.conn.Up ∧ rest.countP EchoServer.ends = 0 := by
  have hle := h.ends
  have hcount := List.countP_cons_of_pos (l := rest) hends
  refine ⟨h.up (.inl ?_), ?_⟩
  · rw [htodo, hcount]
    exact Nat.succ_pos _
  · rw [htodo, hcount] at hle
    omega

theorem Heard.closed (h : Heard s) (hreached : Reached s.conn) (hup : s.conn.Up)
    (hstate : c.state = .kDisconnected) (hmessages : c.messages = s.conn.messages)
    (haccepted : c.accepted = s.conn.accepted) (hshut : c.shutdowns = s.conn.shutdowns) :
    Heard { s with conn := c } := by
  have hconnecting : s.conn.state ≠ .kConnecting := by
    rcases hup with hs | hs <;> rw [hs] <;> nofun
  have hdown : s.conn.state ≠ .kDisconnected := by
    rcases hup with hs | hs <;> rw [hs] <;> nofun
  refine ⟨fun hs => absurd (hstate.symm.trans hs) nofun, fun _ => ?_,
    fun hs => absurd (hstate.symm.trans hs) nofun, fun hs => absurd (hstate.symm.trans hs) nofun,
    fun _ => ?_, ?_, h.quit, h.short⟩
  · exact hmessages.trans (h.messages hconnecting)
  · rcases hup with hs | hs
    · exact .inl (hshut.trans (h.connected hs).2)
    · obtain ⟨hexit, hcount⟩ := h.disconnecting hs
      by_cases hzero : s.conn.outputBuffer.readableBytes = 0
      · rw [if_pos hzero] at hcount
        have hstream := hreached.intact.stream hdown
        have hnil : s.conn.outputBuffer.readable = [] := by
          rw [← List.length_eq_zero_iff, hreached.intact.output.readable_length, hzero]
        rw [hnil, List.append_nil, h.messages hconnecting] at hstream
        exact .inr ⟨hshut.trans hcount, hexit, haccepted.trans hstream⟩
      · rw [if_neg hzero] at hcount
        exact .inl (hshut.trans hcount)
  · change c.accepted <+: c.messages
    rw [haccepted, hmessages]
    exact h.accepted

/-- `handleClose`, and in its callback a `send` that finds the connection down. -/
theorem Inv.closed (h : s.Inv) (htodo : s.conn.todo = task :: rest)
    (hends : EchoServer.ends task = true) {b : Buffer} (hb : Emptied b)
    (hc : c = TcpConnection.closed { s.conn with todo := rest, inputBuffer := b })
    (hreached : Reached c) (sent : ℤ) :
    onConnection c sent = .ok c ∧ Inv { s with conn := EchoServer.userDone c } := by
  obtain ⟨hup, hrest⟩ := h.up_of_ends htodo hends
  have hstate : c.state = .kDisconnected := by rw [hc]; rfl
  have htasks : c.todo = .user :: .closeCallback :: rest := by
    rw [hc]
    exact closed_todo h.callbacks
  have htail : (EchoServer.userDone c).todo = .closeCallback :: rest := by
    change c.todo.tail = _
    rw [htasks]
    rfl
  have hcount : (EchoServer.userDone c).todo.countP EchoServer.ends = 0 := by
    rw [htail, List.countP_cons_of_neg (by decide), hrest]
  have hactive : c.active = [] := by
    rw [hc]
    exact h.active_nil htodo
  refine ⟨if_neg (by rw [hstate]; nofun), hreached.userDone (by rw [htasks]; rfl), ?_, ?_,
    fun hne => absurd hstate hne, ?_, hcount.le.trans (Nat.zero_le _), .inl hactive,
    fun hor => ?_, ?_, fun _ => hstate, ?_⟩
  · rw [hc]
    exact h.callbacks
  · rw [hc]
    exact h.reading
  · rw [hc]
    exact hb
  · rcases hor with hpos | hne
    · exact absurd hpos (hcount.le.not_gt)
    · exact absurd hactive hne
  · rw [htail]
    intro hmem
    refine h.user (htodo ▸ List.mem_cons_of_mem task ?_)
    exact (List.mem_cons.mp hmem).resolve_left nofun
  · refine h.heard.closed h.reached hup hstate ?_ ?_ ?_
    · rw [hc]; rfl
    · rw [hc]; rfl
    · rw [hc]
      exact TcpConnection.closed_shutdowns

/-! ## A message -/

theorem Reached.retrieveAll (h : Reached c) (huser : c.todo.head? = some .user)
    (hs : c.state ≠ .kConnecting) :
    c.inputBuffer.retrieveAllAsString = .ok (c.inputBuffer.readable, c.inputBuffer.retrieveAll) ∧
      Reached { c with inputBuffer := c.inputBuffer.retrieveAll } := by
  have hinput := h.intact.input
  have hretrieve : c.inputBuffer.retrieve c.inputBuffer.readableBytes =
      .ok c.inputBuffer.retrieveAll := by
    unfold Buffer.retrieve
    rw [require_bind le_rfl, if_neg (Nat.lt_irrefl _), pure_eq_ok]
  obtain ⟨b, hb, -⟩ := Buffer.retrieveAsString_eq hinput le_rfl
  obtain rfl : b = c.inputBuffer.retrieveAll := by
    obtain ⟨-, hresult⟩ := require_bind_eq_ok.mp hb
    obtain ⟨b', hb', hresult⟩ := bind_eq_ok.mp hresult
    obtain rfl := (Prod.mk.inj (Except.ok.inj hresult)).2
    exact Except.ok.inj (hb'.symm.trans hretrieve)
  rw [← hinput.readable_length, List.take_length, hinput.readable_length] at hb
  refine ⟨hb, h.step (e := .call (.retrieve c.inputBuffer.readableBytes))
    ⟨.inr huser, hs, le_rfl⟩ ⟨trivial, trivial, trivial⟩ ?_⟩
  change (c.inputBuffer.retrieve _ >>= _) = _
  rw [hretrieve, ok_bind, pure_eq_ok]

/-- What `onMessage` leaves of the connection. -/
structure Said (c c' : TcpConnection) (msg : List UInt8) : Prop where
  reached : Reached c'
  todo : c'.todo = c.todo
  active : c'.active = c.active
  callbacks : c'.callbacks = c.callbacks
  reading : c'.reading = c.reading
  input : Emptied c'.inputBuffer
  poised : c'.Poised
  connected : c.state = .kConnected →
    c'.messages = c.messages ++ (if msg = exitText then bye else msg) ∧
    c'.state = (if msg = exitText then .kDisconnecting else .kConnected) ∧
    c'.shutdowns = c.shutdowns +
      if msg = exitText ∧ c'.outputBuffer.readableBytes = 0 then 1 else 0
  down : c.state ≠ .kConnected → c'.messages = c.messages ∧ c'.state = c.state ∧
    c'.shutdowns = c.shutdowns ∧ c'.outputBuffer = c.outputBuffer

theorem shutdown_said (hp : c.Poised) (hs : c.state = .kConnected) :
    c.shutdown.state = .kDisconnecting ∧ c.shutdown.messages = c.messages ∧
      c.shutdown.Poised ∧ Same c c.shutdown ∧
      c.shutdown.shutdowns =
        c.shutdowns + if c.shutdown.outputBuffer.readableBytes = 0 then 1 else 0 := by
  unfold TcpConnection.shutdown
  rw [if_pos hs]
  refine ⟨rfl, rfl, hp, ⟨rfl, rfl, rfl, rfl, rfl⟩, ?_⟩
  rw [TcpConnection.shutdownInLoop_shutdowns, TcpConnection.setState_shutdowns]
  change _ + (if c.channel.isWriting = true then 0 else 1) =
    _ + if c.outputBuffer.readableBytes = 0 then 1 else 0
  by_cases hzero : c.outputBuffer.readableBytes = 0
  · rw [if_pos hzero, if_neg fun hw => hp.mp hw hzero]
  · rw [if_neg hzero, if_pos (hp.mpr hzero)]

theorem reply_said (h : Reached c) (hp : c.Poised) (huser : c.todo.head? = some .user)
    (hs : c.state ≠ .kConnecting) (hinput : Emptied c.inputBuffer) {msg : List UInt8}
    {first second : ℤ} (hlen : msg.length < sockets.sizeMod)
    (hfirst : sockets.Counts bye.length first) (hsecond : sockets.Counts msg.length second) :
    ∃ c₁ c', sayBye c msg first = .ok c₁ ∧ c₁.send msg second .other = .ok c' ∧
      Said c c' msg := by
  unfold sayBye
  by_cases hexit : msg = exitText
  · obtain ⟨c₁, hc₁, hsent⟩ := send_sent h (fun _ => hp) huser hs
      (by decide : bye.length < sockets.sizeMod) hfirst
    have huser₁ : c₁.todo.head? = some .user := by rw [hsent.same.todo, huser]
    have hreached : Reached c₁.shutdown :=
      hsent.reached.step (e := .call .shutdown) ⟨.inr huser₁, hsent.state ▸ hs, trivial⟩
        ⟨trivial, trivial, trivial⟩ rfl
    -- the echo of the message itself finds the connection in another state
    have hclosing : c₁.shutdown.state ≠ .kConnected := by
      unfold TcpConnection.shutdown
      split_ifs with hconnected
      · nofun
      · exact hconnected
    refine ⟨c₁.shutdown, c₁.shutdown, ?_, if_neg hclosing, ?_⟩
    · rw [if_pos hexit, hc₁, ok_bind, pure_eq_ok]
    · by_cases hconnected : c.state = .kConnected
      · obtain ⟨hstate, hmessages, hpoised, hsame, hshut⟩ :=
          shutdown_said (hsent.poised hp) (hsent.state.trans hconnected)
        have hall := hsent.same.trans hsame
        refine ⟨hreached, hall.todo, hall.active, hall.callbacks, hall.reading, ?_, hpoised,
          fun _ => ⟨?_, ?_, ?_⟩, fun hne => absurd hconnected hne⟩
        · rw [hall.input]
          exact hinput
        · rw [hmessages, hsent.messages, if_pos hconnected, if_pos hexit]
        · rw [hstate, if_pos hexit]
        · rw [hshut, hsent.shutdowns]
          simp only [hexit, true_and]
      · obtain rfl := hsent.down hconnected
        have hsame : c₁.shutdown = c₁ := if_neg hconnected
        rw [hsame]
        exact ⟨h, rfl, rfl, rfl, rfl, hinput, hp, fun hc => absurd hc hconnected,
          fun _ => ⟨rfl, rfl, rfl, rfl⟩⟩
  · obtain ⟨c₁, hc₁, hsent⟩ := send_sent h (fun _ => hp) huser hs hlen hsecond
    refine ⟨c, c₁, if_neg hexit, hc₁, hsent.reached, hsent.same.todo, hsent.same.active,
      hsent.same.callbacks, hsent.same.reading, ?_, hsent.poised hp,
      fun hconnected => ⟨?_, ?_, ?_⟩, fun hne => ?_⟩
    · rw [hsent.same.input]
      exact hinput
    · rw [hsent.messages, if_pos hconnected, if_neg hexit]
    · rw [hsent.state, if_neg hexit, hconnected]
    · rw [hsent.shutdowns, if_neg fun hd => hexit hd.1, Nat.add_zero]
    · obtain rfl := hsent.down hne
      exact ⟨rfl, rfl, rfl, rfl⟩

theorem onMessage_said (h : Reached s.conn) (hp : s.conn.Poised)
    (huser : s.conn.todo.head? = some .user) (hs : s.conn.state ≠ .kConnecting)
    (hroom : s.conn.inputBuffer.buffer.length ≤ Buffer.kCheapPrepend + 2 * Buffer.extrabufSize)
    (first second : ℤ) (hlen : s.conn.inputBuffer.readable.length < sockets.sizeMod)
    (hfirst : sockets.Counts bye.length first)
    (hsecond : sockets.Counts s.conn.inputBuffer.readable.length second) :
    ∃ c', onMessage s first second = .ok { s with
        conn := c', quit := s.quit || decide (s.conn.inputBuffer.readable = quitText) } ∧
      Said s.conn c' s.conn.inputBuffer.readable := by
  obtain ⟨hb, hreached⟩ := h.retrieveAll huser hs
  have hpoised : TcpConnection.Poised
    { s.conn with inputBuffer := s.conn.inputBuffer.retrieveAll } := hp
  obtain ⟨c₁, c', hc₁, hc', hsaid⟩ :=
    reply_said hreached hpoised huser hs ⟨rfl, rfl, hroom⟩ hlen hfirst hsecond
  refine ⟨c', ?_, ⟨hsaid.reached, hsaid.todo, hsaid.active, hsaid.callbacks, hsaid.reading,
    hsaid.input, hsaid.poised, hsaid.connected, hsaid.down⟩⟩
  unfold onMessage
  rw [hb, ok_bind]
  change (sayBye _ _ _ >>= _) = _
  rw [hc₁, ok_bind, hc', ok_bind, pure_eq_ok]

theorem Heard.said (h : Heard s) (hup : s.conn.Up) {msg : List UInt8}
    (hshort : msg.length < 2 ^ 31) (hsaid : Said c c' msg)
    (hstate : c.state = s.conn.state) (hmessages : c.messages = s.conn.messages)
    (hshut : c.shutdowns = s.conn.shutdowns) (hout : c.outputBuffer = s.conn.outputBuffer) :
    Heard { conn := EchoServer.userDone c', chunks := s.chunks ++ [msg]
            quit := s.quit || decide (msg = quitText) } := by
  have hquit : (s.quit || decide (msg = quitText)) = true ↔ quitText ∈ s.chunks ++ [msg] := by
    rw [Bool.or_eq_true, h.quit, decide_eq_true_iff, List.mem_append, List.mem_singleton,
      eq_comm (a := msg)]
  have haccepted : c'.state ≠ .kDisconnected → c'.accepted <+: c'.messages :=
    hsaid.reached.accepted
  have hshort : ∀ m ∈ s.chunks ++ [msg], m.length < 2 ^ 31 := by
    intro m hm
    rcases List.mem_append.mp hm with hm | hm
    · exact h.short m hm
    · rw [List.mem_singleton.mp hm]
      exact hshort
  rcases hup with hs | hs
  · obtain ⟨hexit, hzero⟩ := h.connected hs
    obtain ⟨hm, hst, hshut'⟩ := hsaid.connected (hstate.trans hs)
    have hanswer : c'.messages = answer (s.chunks ++ [msg]) := by
      rw [hm, hmessages, h.messages (by rw [hs]; nofun), answer_concat hexit]
    rw [hshut, hzero, Nat.zero_add] at hshut'
    by_cases hmsg : msg = exitText
    · rw [if_pos hmsg] at hst
      refine ⟨fun hd => absurd (hst.symm.trans hd) nofun, fun _ => hanswer,
        fun hd => absurd (hst.symm.trans hd) nofun, fun _ => ⟨?_, ?_⟩,
        fun hd => absurd (hst.symm.trans hd) nofun, haccepted (by rw [hst]; nofun), hquit, hshort⟩
      · exact List.mem_append_right _ (List.mem_singleton.mpr hmsg.symm)
      · refine hshut'.trans ?_
        simp only [hmsg, true_and]
        rfl
    · rw [if_neg hmsg] at hst
      refine ⟨fun hd => absurd (hst.symm.trans hd) nofun, fun _ => hanswer, fun _ => ⟨?_, ?_⟩,
        fun hd => absurd (hst.symm.trans hd) nofun,
        fun hd => absurd (hst.symm.trans hd) nofun, haccepted (by rw [hst]; nofun), hquit, hshort⟩
      · intro hmem
        rcases List.mem_append.mp hmem with hmem | hmem
        · exact hexit hmem
        · exact hmsg (List.mem_singleton.mp hmem).symm
      · exact hshut'.trans (if_neg fun hd => hmsg hd.1)
  · obtain ⟨hexit, hcount⟩ := h.disconnecting hs
    obtain ⟨hm, hst, hshut', hout'⟩ := hsaid.down (by rw [hstate, hs]; nofun)
    rw [hstate, hs] at hst
    refine ⟨fun hd => absurd (hst.symm.trans hd) nofun, fun _ => ?_,
      fun hd => absurd (hst.symm.trans hd) nofun, fun _ => ⟨?_, ?_⟩,
      fun hd => absurd (hst.symm.trans hd) nofun, haccepted (by rw [hst]; nofun), hquit, hshort⟩
    · change c'.messages = _
      rw [hm, hmessages, h.messages (by rw [hs]; nofun), answer_of_mem hexit]
    · exact List.mem_append_left _ hexit
    · change c'.shutdowns = if c'.outputBuffer.readableBytes = 0 then 1 else 0
      rw [hshut', hshut, hcount, hout', hout]

/-! ## The steps of a handler -/

variable {received : List UInt8} {sent first second : ℤ}

theorem Inv.kept (h : s.Inv) (hcount : Counted s (.resume received sent first second)) :
    Kept s.conn (.resume received sent) := by
  refine ⟨fun _ _ => hcount.1.ne, ⟨fun _ hup => h.isNoneEvent hup,
    fun hread => ⟨fun _ hup => h.isNoneEvent hup, fun _ _ hs => ?_⟩⟩, trivial⟩
  obtain ⟨hup, -⟩ := h.up_of_ends (List.eq_cons_of_mem_head? (Option.mem_def.mpr hread)) rfl
  rcases hup with hu | hu <;> cases hs.symm.trans hu

theorem Inv.read (h : s.Inv) (htodo : s.conn.todo = .channel .read :: rest) (hne : received ≠ [])
    (he : TcpConnection.machine.enabled s.conn (.resume received sent))
    (hcount : Counted s (.resume received sent first second)) :
    ∃ t, s.resume received sent first second = .ok t ∧ t.Inv := by
  obtain ⟨b, hread, -, hq⟩ := Buffer.readFd_eq h.reached.intact.input received
  rw [h.input.readable, List.nil_append] at hq
  obtain ⟨hup, -⟩ := h.up_of_ends htodo rfl
  have hdown : s.conn.state ≠ .kDisconnected := by
    rcases hup with hs | hs <;> rw [hs] <;> nofun
  have hconnecting : s.conn.state ≠ .kConnecting := by
    rcases hup with hs | hs <;> rw [hs] <;> nofun
  have hmessage : s.conn.callbacks.message = true := by rw [h.callbacks]; rfl
  obtain ⟨c, hcdef⟩ : ∃ c, c = TcpConnection.emit
      { s.conn with inputBuffer := b, todo := .user :: rest } .messageCallback := ⟨_, rfl⟩
  have hc : s.conn.resume received sent = .ok c := by
    rw [hcdef]
    unfold TcpConnection.resume
    rw [htodo]
    change TcpConnection.handleRead _ _ = _
    unfold TcpConnection.handleRead
    change (s.conn.inputBuffer.readFd received >>= _) = _
    rw [hread, ok_bind]
    exact (if_pos (List.length_pos_iff.mpr hne)).trans (if_pos hmessage)
  have hreached : Reached c := h.reached.step he (h.kept hcount) hc
  have hinput : c.inputBuffer.readable = received := by rw [hcdef]; exact hq
  have hlen := he.2.2.1.trans_lt h.input.iovec_le.2.2
  have hsize : received.length < sockets.sizeMod := hlen.trans (by decide)
  obtain ⟨hfirst, hsecond⟩ := hcount.2 hne
  obtain ⟨c', hc', hsaid⟩ := onMessage_said
    (s := { s with conn := c, chunks := s.chunks ++ [received] }) hreached
    (by rw [hcdef]; exact h.poised hdown) (by rw [hcdef]; rfl) (by rw [hcdef]; exact hconnecting)
    (by rw [hcdef]; exact h.input.readFd h.reached.intact.input he.2.2.1 hread) first second
    (by rw [hinput]; exact hsize) hfirst (by rw [hinput]; exact hsecond)
  rw [hinput] at hc' hsaid
  have hstate : c.state = s.conn.state := by rw [hcdef]; rfl
  have huser : c'.todo = .user :: rest := by rw [hsaid.todo, hcdef]; rfl
  have hheard := h.heard.said hup hlen hsaid hstate (by rw [hcdef]; rfl)
    (by rw [hcdef]; exact TcpConnection.emit_shutdowns nofun) (by rw [hcdef]; rfl)
  refine ⟨_, ?_, h.popped htodo ⟨hsaid.reached.userDone (by rw [huser]; rfl), ?_, ?_, hsaid.input,
    ?_, ?_, fun _ => hsaid.poised⟩ (fun _ => ?_) (fun hs => absurd hs hdown) hheard⟩
  · unfold EchoServer.resume
    rw [hc, ok_bind, if_pos ⟨by rw [htodo]; rfl, hne⟩, hc', ok_bind, pure_eq_ok]
  · change c'.todo.tail = rest
    rw [huser]
    rfl
  · exact hsaid.active.trans (by rw [hcdef]; rfl)
  · exact hsaid.callbacks.trans (by rw [hcdef]; rfl)
  · exact hsaid.reading.trans (by rw [hcdef]; rfl)
  · rcases hup with hs | hs
    · have hst := (hsaid.connected (hstate.trans hs)).2.1
      split_ifs at hst
      · exact .inr hst
      · exact .inl hst
    · have hst := (hsaid.down (by rw [hstate, hs]; nofun)).2.1
      exact .inr (hst.trans (hstate.trans hs))

theorem Inv.close (h : s.Inv) (htodo : s.conn.todo = task :: rest)
    (hends : task = .channel .close ∨ task = .channel .read ∧ received = [])
    (he : TcpConnection.machine.enabled s.conn (.resume received sent))
    (hcount : Counted s (.resume received sent first second)) :
    ∃ t, s.resume received sent first second = .ok t ∧ t.Inv := by
  have htask : EchoServer.ends task = true := by
    rcases hends with rfl | ⟨rfl, -⟩ <;> rfl
  obtain ⟨hup, -⟩ := h.up_of_ends htodo htask
  have hregistered := h.reached.intact.registered
  obtain ⟨b, hb, hc⟩ : ∃ b : Buffer, Emptied b ∧ s.conn.resume received sent =
      .ok (TcpConnection.closed { s.conn with todo := rest, inputBuffer := b }) := by
    rcases hends with rfl | ⟨rfl, rfl⟩
    · refine ⟨s.conn.inputBuffer, h.input, ?_⟩
      unfold TcpConnection.resume
      rw [htodo]
      exact handleClose_eq hregistered hup
    · have hread : s.conn.inputBuffer.readFd [] = .ok (0, s.conn.inputBuffer) := readFd_nil _
      refine ⟨s.conn.inputBuffer, h.input, ?_⟩
      unfold TcpConnection.resume
      rw [htodo]
      change TcpConnection.handleRead _ _ = _
      unfold TcpConnection.handleRead
      change (s.conn.inputBuffer.readFd [] >>= _) = _
      rw [hread, ok_bind]
      exact (if_neg (Nat.lt_irrefl 0)).trans (handleClose_eq hregistered hup)
  have hreached := h.reached.step he (h.kept hcount) hc
  obtain ⟨hon, hinv⟩ := h.closed htodo htask hb rfl hreached first
  refine ⟨_, ?_, hinv⟩
  unfold EchoServer.resume
  rw [hc, ok_bind, if_neg, if_pos, hon, ok_bind, pure_eq_ok]
  · rw [htodo]
    exact hends.elim (fun hclose => .inr (by rw [hclose]; rfl))
      fun hread => .inl (by rw [hread.1]; rfl)
  · rintro ⟨hread, hne⟩
    rw [htodo] at hread
    rcases hends with rfl | ⟨-, hnil⟩
    · cases hread
    · exact hne hnil

theorem resume_plain (htodo : s.conn.todo = task :: rest) (hends : EchoServer.ends task = false)
    (hc : s.conn.resume received sent = .ok c) :
    s.resume received sent first second = .ok { s with conn := c } := by
  have hread : s.conn.todo.head? ≠ some (.channel .read) := by
    rw [htodo]
    rintro hhead
    cases hhead
    cases hends
  have hclose : s.conn.todo.head? ≠ some (.channel .close) := by
    rw [htodo]
    rintro hhead
    cases hhead
    cases hends
  unfold EchoServer.resume
  rw [hc, ok_bind, if_neg fun hd => hread hd.1, if_neg (not_or.mpr ⟨hread, hclose⟩), pure_eq_ok]

theorem handleWrite_same (hregistered : c.Registered) (hc : c.handleWrite sent = .ok c') :
    Same c c' := by
  rcases TcpConnection.handleWrite_cases hc with hw | ⟨-, m, hw, hdone⟩
  · exact wrote_same hw
  · have hm : m.Registered := by
      obtain ⟨_, _, _, _, rfl⟩ := hw
      exact hregistered
    obtain rfl := Except.ok.inj ((TcpConnection.outputDone_eq hm).symm.trans hdone)
    refine (wrote_same hw).trans ?_
    split_ifs
    · exact ⟨rfl, rfl, rfl, rfl, rfl⟩
    · exact ⟨rfl, rfl, rfl, rfl, rfl⟩

theorem handleWrite_left (h : c.Intact) (hw : c.channel.isWriting = true)
    (hcount : sockets.Counts c.outputBuffer.readableBytes sent) (hc : c.handleWrite sent = .ok c') :
    c'.outputBuffer.readableBytes = c.outputBuffer.readableBytes - sent.toNat := by
  obtain ⟨hwrite, hle⟩ := hcount.sends.write_eq hcount.ne
  obtain ⟨b, hb, hv, hq⟩ := Buffer.retrieve_holds h.output hle
  have hleft : b.readableBytes = c.outputBuffer.readableBytes - sent.toNat := by
    rw [← hv.readable_length, hq, List.length_drop, h.output.readable_length]
  unfold TcpConnection.handleWrite at hc
  simp only [if_pos hw, hwrite] at hc
  by_cases hn : 0 < sent.toNat
  · rw [if_pos hn] at hc
    change (c.outputBuffer.retrieve sent.toNat >>= _) = _ at hc
    rw [hb, ok_bind] at hc
    split_ifs at hc
    · rw [TcpConnection.outputDone_eq (by exact h.registered)] at hc
      obtain rfl := Except.ok.inj hc
      split_ifs <;> exact hleft
    · obtain rfl := Except.ok.inj hc
      exact hleft
  · rw [if_neg hn] at hc
    obtain rfl := Except.ok.inj hc
    rw [Nat.eq_zero_of_not_pos hn]
    rfl

/-- The write that empties the buffer of a connection in `kDisconnecting` shuts it down. -/
theorem Heard.written (h : Heard s) (hintact : c.Intact) (hp : c.Poised)
    (hs : s.conn.state = .kDisconnecting) (hstate : c.state = s.conn.state)
    (hout : c.outputBuffer = s.conn.outputBuffer) (hshut : c.shutdowns = s.conn.shutdowns)
    (hcount : sockets.Counts c.outputBuffer.readableBytes sent)
    (hc : c.handleWrite sent = .ok c') :
    c'.shutdowns = if c'.outputBuffer.readableBytes = 0 then 1 else 0 := by
  have hold := (h.disconnecting hs).2
  rw [← hshut, ← hout] at hold
  by_cases hw : c.channel.isWriting = true
  · have hwritten := (hintact.handleWrite_flush hp hcount hc).2.shutdowns
    have hleft := handleWrite_left hintact hw hcount hc
    rw [if_neg (hp.mp hw)] at hold
    rw [hwritten, hold, Nat.zero_add]
    have hdrains : c.Drains sent ↔ c'.outputBuffer.readableBytes = 0 := by
      have hle := (hcount.sends.write_eq hcount.ne).2
      have h0 := hcount.1
      rw [hleft]
      constructor
      · rintro ⟨-, -, hall⟩
        omega
      · exact fun hzero => ⟨hw, hstate.trans hs, by omega⟩
    simp only [hdrains]
  · have hsame : c.handleWrite sent = .ok c := if_neg hw
    obtain rfl := Except.ok.inj (hsame.symm.trans hc)
    exact hold

theorem Inv.write (h : s.Inv) (htodo : s.conn.todo = .channel .write :: rest)
    (he : TcpConnection.machine.enabled s.conn (.resume received sent))
    (hcount : Counted s (.resume received sent first second)) :
    ∃ t, s.resume received sent first second = .ok t ∧ t.Inv := by
  have hconnecting := h.not_connecting (.inl (by rw [htodo]; exact List.cons_ne_nil _ _))
  obtain ⟨c, hcdef⟩ : ∃ c, c = { s.conn with todo := rest } := ⟨_, rfl⟩
  have hresume : s.conn.resume received sent = c.handleWrite sent := by
    rw [hcdef]
    unfold TcpConnection.resume
    rw [htodo]
    rfl
  have hi := h.reached.intact
  have hintact : c.Intact := by
    rw [hcdef]
    exact ⟨hi.input, hi.output, hi.registered, hi.stream⟩
  have hstate : c.state = s.conn.state := by rw [hcdef]
  have hout : c.outputBuffer = s.conn.outputBuffer := by rw [hcdef]
  have hsent : sockets.Counts c.outputBuffer.readableBytes sent := by
    rw [hout]
    exact hcount.1
  obtain ⟨c', hc', -⟩ := hintact.handleWrite hsent.sends fun _ => hsent.ne
  have hreached := h.reached.step he (h.kept hcount) (hresume.trans hc')
  have hsame := handleWrite_same hintact.registered hc'
  refine ⟨_, resume_plain htodo rfl (hresume.trans hc'), ?_⟩
  have hfields : c'.todo = rest ∧ c'.active = s.conn.active ∧ Emptied c'.inputBuffer ∧
      c'.callbacks = s.conn.callbacks ∧ c'.reading = s.conn.reading := by
    rw [hsame.todo, hsame.active, hsame.input, hsame.callbacks, hsame.reading, hcdef]
    exact ⟨rfl, rfl, h.input, rfl, rfl⟩
  obtain ⟨htasks, hactive, hinput, hcallbacks, hreading⟩ := hfields
  by_cases hs : s.conn.state = .kDisconnected
  · have hquiet : c.handleWrite sent = .ok c := by
      refine if_neg fun hw => Channel.events_ne_zero (.inr hw) ?_
      rw [hcdef]
      exact h.reached.interest.closed hs
    obtain rfl := Except.ok.inj (hquiet.symm.trans hc')
    refine h.popped htodo ⟨hreached, htasks, hactive, hinput, hcallbacks, hreading,
      fun hne => absurd (hstate.trans hs) hne⟩ ?_ (fun _ => hstate.trans hs) ?_
    · rintro (hu | hu) <;> cases hs.symm.trans hu
    · exact h.heard.same hconnecting rfl rfl hstate (by rw [hcdef]) (by rw [hcdef]) hout
        (by rw [hcdef]; rfl)
  · have hpoised : c.Poised := by
      rw [hcdef]
      exact h.poised hs
    obtain ⟨-, hw⟩ := hintact.handleWrite_flush hpoised hsent hc'
    have hst : c'.state = s.conn.state := hw.state.trans hstate
    have hmessages : c'.messages = s.conn.messages := by
      rw [hw.messages, hcdef]
    have hshut : c.shutdowns = s.conn.shutdowns := by
      rw [hcdef]
      rfl
    refine h.popped htodo ⟨hreached, htasks, hactive, hinput, hcallbacks, hreading,
      fun _ => hw.poised⟩ ?_ (fun hd => absurd hd hs) ?_
    · unfold TcpConnection.Up
      rw [hst]
      exact id
    · refine ⟨fun hd => absurd (hst.symm.trans hd) hconnecting, fun _ => ?_, fun hd => ?_,
        fun hd => ?_, fun hd => absurd (hst.symm.trans hd) hs,
        hreached.accepted (by rw [hst]; exact hs), h.heard.quit, h.heard.short⟩
      · exact hmessages.trans (h.heard.messages hconnecting)
      · obtain ⟨hexit, hzero⟩ := h.heard.connected (hst.symm.trans hd)
        refine ⟨hexit, ?_⟩
        have hne : c.state ≠ .kDisconnecting := by
          rw [← hw.state, hd]
          nofun
        have hcount' := hw.shutdowns
        rw [if_neg fun hdrains => hne hdrains.2.1] at hcount'
        exact hcount'.trans (hshut.trans hzero)
      · have hdisconnecting := hst.symm.trans hd
        exact ⟨(h.heard.disconnecting hdisconnecting).1,
          h.heard.written hintact hpoised hdisconnecting hstate hout hshut hsent hc'⟩

theorem Inv.plain (h : s.Inv) (htodo : s.conn.todo = task :: rest)
    (htask : task = .channel .error ∨ task = .closeCallback ∨ task = .remove)
    (he : TcpConnection.machine.enabled s.conn (.resume received sent))
    (hcount : Counted s (.resume received sent first second)) :
    ∃ t, s.resume received sent first second = .ok t ∧ t.Inv := by
  have hconnecting := h.not_connecting (.inl (by rw [htodo]; exact List.cons_ne_nil _ _))
  have hpoised : ∀ {c : TcpConnection}, c.outputBuffer = s.conn.outputBuffer →
      c.channel.events = s.conn.channel.events → c.state = s.conn.state →
      c.state ≠ .kDisconnected → c.Poised := by
    intro c hout hevents hstate hs
    have hp := h.poised (by rw [← hstate]; exact hs)
    unfold TcpConnection.Poised at hp ⊢
    rw [Channel.isWriting_iff] at hp ⊢
    rw [hout, hevents]
    exact hp
  have hup : ∀ {c : TcpConnection}, c.state = s.conn.state → s.conn.Up → c.Up := by
    intro c hstate hu
    unfold TcpConnection.Up
    rw [hstate]
    exact hu
  rcases htask with rfl | rfl | rfl
  · have hc : s.conn.resume received sent = .ok { s.conn with todo := rest } := by
      unfold TcpConnection.resume
      rw [htodo]
      rfl
    have hreached := h.reached.step he (h.kept hcount) hc
    exact ⟨_, resume_plain htodo rfl hc, h.popped htodo ⟨hreached, rfl, rfl, h.input, rfl, rfl,
      hpoised rfl rfl rfl⟩ (hup rfl) id (h.heard.same hconnecting rfl rfl rfl rfl rfl rfl rfl)⟩
  · have hc : s.conn.resume received sent =
        .ok (TcpConnection.emit { s.conn with todo := rest } .closeCallback) := by
      unfold TcpConnection.resume
      rw [htodo]
      rfl
    have hreached := h.reached.step he (h.kept hcount) hc
    exact ⟨_, resume_plain htodo rfl hc, h.popped htodo ⟨hreached, rfl, rfl, h.input, rfl, rfl,
      hpoised rfl rfl rfl⟩ (hup rfl) id
      (h.heard.same hconnecting rfl rfl rfl rfl rfl rfl (TcpConnection.emit_shutdowns nofun))⟩
  · have hs := h.removing (htodo ▸ List.mem_cons_self)
    have hc : s.conn.resume received sent =
        .ok (TcpConnection.removed { s.conn with todo := rest }) := by
      unfold TcpConnection.resume
      rw [htodo]
      exact h.reached.standing.remove_eq htodo hs
    have hreached := h.reached.step he (h.kept hcount) hc
    have hshut : (TcpConnection.removed { s.conn with todo := rest }).shutdowns =
        s.conn.shutdowns := by
      unfold TcpConnection.removed TcpConnection.shutdowns
      rw [List.count_append]
      split_ifs <;> simp
    exact ⟨_, resume_plain htodo rfl hc, h.popped htodo ⟨hreached, rfl, rfl, h.input, rfl, rfl,
      hpoised rfl rfl rfl⟩ (hup rfl) id
      (h.heard.same hconnecting rfl rfl rfl rfl rfl rfl hshut)⟩

theorem Inv.resume (h : s.Inv) (he : machine.enabled s (.resume received sent first second))
    (hcount : Counted s (.resume received sent first second)) :
    ∃ t, machine.step s (.resume received sent first second) = .ok t ∧ t.Inv := by
  cases htodo : s.conn.todo with
  | nil => exact absurd htodo he.1
  | cons task rest =>
    cases task with
    | channel callback =>
      cases callback with
      | close => exact h.close htodo (.inl rfl) he hcount
      | error => exact h.plain htodo (.inl rfl) he hcount
      | read =>
        by_cases hnil : received = []
        · exact h.close htodo (.inr ⟨rfl, hnil⟩) he hcount
        · exact h.read htodo hnil he hcount
      | write => exact h.write htodo he hcount
    | user => exact absurd (htodo ▸ List.mem_cons_self) h.user
    | closeCallback => exact h.plain htodo (.inr (.inl rfl)) he hcount
    | remove => exact h.plain htodo (.inr (.inr rfl)) he hcount

theorem Inv.connectDestroyed (h : s.Inv) (he : machine.enabled s .connectDestroyed) :
    ∃ t, machine.step s .connectDestroyed = .ok t ∧ t.Inv := by
  obtain ⟨henabled, hs⟩ := he
  have hc := TcpConnection.connectDestroyed_eq h.reached.intact.registered
  rw [if_neg (by rw [hs]; nofun), henabled.1] at hc
  have hreached := h.reached.step (e := .connectDestroyed) henabled
    ⟨trivial, fun hconnected => absurd (hs.symm.trans hconnected) nofun, trivial⟩ hc
  have hactive : s.conn.active = [] := by
    by_contra hne
    rcases h.up (.inr hne) with hu | hu <;> cases hs.symm.trans hu
  refine ⟨{ s with conn := { s.conn with destroyed := true, todo := [.remove] } }, ?_, ?_⟩
  · change (s.conn.connectDestroyed >>= _) = _
    rw [hc, ok_bind, pure_eq_ok]
  · refine ⟨hreached, h.callbacks, h.reading, fun hne => absurd hs hne, h.input, Nat.zero_le _,
      .inl hactive, fun hor => ?_, fun hmem => ?_, fun _ => hs,
      h.heard.same henabled.2.1 rfl rfl rfl rfl rfl rfl rfl⟩
    · exact hor.elim (fun hpos => absurd hpos (Nat.lt_irrefl 0)) fun hne => absurd hactive hne
    · cases List.mem_singleton.mp hmem

theorem Inv.step (h : s.Inv) {e : Event} (he : machine.enabled s e) (hcount : Counted s e) :
    ∃ t, machine.step s e = .ok t ∧ t.Inv := by
  cases e with
  | connectEstablished sent => exact h.connectEstablished he hcount
  | polled revents => exact h.polled he
  | dispatch => exact h.dispatch he
  | resume received sent first second => exact h.resume he hcount
  | connectDestroyed => exact h.connectDestroyed he

theorem Inv.run (h : s.Inv) {es : List Event} (hrun : machine.Run Counted s es t) : t.Inv := by
  refine hrun.invariant Inv h ?_
  intro u e v hu he hcount hv
  obtain ⟨v', hv', hinv⟩ := hu.step he hcount
  exact Except.ok.inj (hv'.symm.trans hv) ▸ hinv

/-- What the client sees. Nothing is said behind the exit; the connection shuts down once, and only
when the client has been answered. -/
structure Echoes (s : EchoServer) : Prop where
  said : s.conn.accepted <+: answer s.chunks
  whole : s.conn.Up → s.conn.accepted ++ s.conn.outputBuffer.readable = answer s.chunks
  exit : s.conn.Up → (s.conn.state = .kDisconnecting ↔ exitText ∈ s.chunks)
  once : s.conn.shutdowns ≤ 1
  answered : 0 < s.conn.shutdowns → exitText ∈ s.chunks ∧ s.conn.accepted = answer s.chunks
  bye : s.conn.state = .kDisconnecting → s.conn.outputBuffer.readable = [] → s.conn.shutdowns = 1
  quit : s.quit = true ↔ quitText ∈ s.chunks
  /-- The length of a message fits into the `int` of a `StringPiece`. -/
  short : ∀ msg ∈ s.chunks, msg.length < 2 ^ 31

theorem Inv.answered (h : s.Inv) (hs : s.conn.state = .kDisconnecting)
    (hzero : s.conn.outputBuffer.readableBytes = 0) : s.conn.accepted = answer s.chunks := by
  have hstream := h.reached.intact.stream (by rw [hs]; nofun)
  have hnil : s.conn.outputBuffer.readable = [] := by
    rw [← List.length_eq_zero_iff, h.reached.intact.output.readable_length, hzero]
  rw [hnil, List.append_nil, h.heard.messages (by rw [hs]; nofun)] at hstream
  exact hstream

theorem Inv.echoes (h : s.Inv) : s.Echoes := by
  have hheard := h.heard
  -- a connection is shut down only behind the exit
  have hshut : s.conn.shutdowns = 0 ∨ s.conn.shutdowns = 1 ∧ exitText ∈ s.chunks ∧
      s.conn.accepted = answer s.chunks := by
    cases hs : s.conn.state with
    | kConnecting =>
      obtain ⟨fd, rfl⟩ := hheard.connecting hs
      exact .inl rfl
    | kConnected => exact .inl (hheard.connected hs).2
    | kDisconnecting =>
      obtain ⟨hexit, hcount⟩ := hheard.disconnecting hs
      by_cases hzero : s.conn.outputBuffer.readableBytes = 0
      · rw [if_pos hzero] at hcount
        exact .inr ⟨hcount, hexit, h.answered hs hzero⟩
      · rw [if_neg hzero] at hcount
        exact .inl hcount
    | kDisconnected => exact hheard.disconnected hs
  constructor
  · by_cases hs : s.conn.state = .kConnecting
    · obtain ⟨fd, rfl⟩ := hheard.connecting hs
      exact List.nil_prefix
    · rw [← hheard.messages hs]
      exact hheard.accepted
  · intro hup
    rw [← hheard.messages (by rcases hup with hs | hs <;> rw [hs] <;> nofun)]
    exact h.reached.intact.stream (by rcases hup with hs | hs <;> rw [hs] <;> nofun)
  · rintro (hs | hs)
    · exact iff_of_false (by rw [hs]; nofun) (hheard.connected hs).1
    · exact iff_of_true hs (hheard.disconnecting hs).1
  · rcases hshut with hzero | ⟨hone, -⟩ <;> omega
  · intro hpos
    rcases hshut with hzero | ⟨-, hanswered⟩
    · omega
    · exact hanswered
  · intro hs hnil
    rw [(hheard.disconnecting hs).2, ← h.reached.intact.output.readable_length, hnil]
    rfl
  · exact hheard.quit
  · exact hheard.short

/-- Whatever a client sends in whatever pieces, as long as no `::send` is refused, no step of its
connection fails, and it is answered as the server says. -/
theorem echo_answers {fd : ℕ} {es : List Event} {s : EchoServer}
    (h : machine.Run Counted (create fd) es s) :
    s.Echoes ∧ ∀ e, machine.enabled s e → Counted s e → ∃ t, machine.step s e = .ok t := by
  have hs := (create_inv fd).run h
  refine ⟨hs.echoes, fun e he hcount => ?_⟩
  obtain ⟨t, ht, -⟩ := hs.step he hcount
  exact ⟨t, ht⟩

/-- A line is echoed in two parts; behind the exit the rest is written and the connection shut
down, before the client closes it. -/
theorem echo_answers_exit : ∃ s, machine.Run Counted (create 3)
    [.connectEstablished 4, .polled EPOLLIN, .dispatch, .resume (Base.ascii "a\n") 0 0 0,
      .polled (EPOLLIN ||| EPOLLOUT), .dispatch, .resume exitText 0 0 0, .resume [] 8 0 0,
      .polled EPOLLIN, .dispatch, .resume [] 0 0 0] s ∧ s.Echoes ∧
    s.conn.accepted = hello ++ Base.ascii "a\n" ++ bye := by
  obtain ⟨s, hs, hp⟩ := Machine.exists_run_of_exec machine Counted (create 3)
    [.connectEstablished 4, .polled EPOLLIN, .dispatch, .resume (Base.ascii "a\n") 0 0 0,
      .polled (EPOLLIN ||| EPOLLOUT), .dispatch, .resume exitText 0 0 0, .resume [] 8 0 0,
      .polled EPOLLIN, .dispatch, .resume [] 0 0 0]
    (fun s => decide (s.conn.accepted = hello ++ Base.ascii "a\n" ++ bye)) (by decide +kernel)
  exact ⟨s, hs, (echo_answers hs).1, of_decide_eq_true hp⟩

end EchoServer
end MuduoWindows.Net
