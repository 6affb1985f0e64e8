import MuduoWindows.Net.TcpConnection.Flushing

/-! # The write flag and the notifications of a connection

`::send` is never refused here, and a message passed to `sendInLoop` is an object of the address
space that holds the output buffer too, so that the sum of their lengths does not overflow.
-/

namespace MuduoWindows.Net
open Library

/-- The functors that call the user's callbacks for the output buffer. -/
def ConnFunctor.isNotice : ConnFunctor → Bool
  | .writeCompleteCallback | .highWaterMarkCallback _ => true
  | .forceCloseInLoop => false

namespace TcpConnection

/-- Every call of `::send` made in the step returns a count, and the output buffer with the whole
message would fit into the address space. -/
def Counted (c : TcpConnection) : Event → Prop
  | .call (.send data sent _) =>
      c.outputBuffer.readableBytes + data.length < sockets.sizeMod ∧
        (c.state = .kConnected → c.writesDirectly → sockets.Counts data.length sent)
  | .call (.sendInLoop data sent _) =>
      c.outputBuffer.readableBytes + data.length < sockets.sizeMod ∧
        (c.state ≠ .kDisconnected → c.writesDirectly → sockets.Counts data.length sent)
  | .resume _ sent =>
      c.todo.head? = some (.channel .write) → c.channel.isWriting = true →
        sockets.Counts c.outputBuffer.readableBytes sent
  | _ => True

/-- The functors that are still queued when the step begins to queue its own. -/
def left (c : TcpConnection) : Event → List ConnFunctor
  | .runFunctor => c.pendingFunctors.tail
  | _ => c.pendingFunctors

/-- The step writes everything that there is to write: the whole message at once, or the rest of
the output buffer. -/
def Completes (c c' : TcpConnection) : Event → Prop
  | .call (.send data sent _) => c.state = .kConnected ∧ c.writesDirectly ∧ sent = data.length
  | .call (.sendInLoop data sent _) =>
      c.state ≠ .kDisconnected ∧ c.writesDirectly ∧ sent = data.length
  | .resume _ _ => c.todo.head? = some (.channel .write) ∧ c.outputBuffer.readableBytes ≠ 0 ∧
      c'.outputBuffer.readableBytes = 0
  | _ => False

instance (c c' : TcpConnection) : ∀ e, Decidable (c.Completes c' e)
  | .call (.send _ _ _) | .call (.sendInLoop _ _ _) | .resume _ _ =>
    inferInstanceAs (Decidable (_ ∧ _ ∧ _))
  | .call .shutdown | .call .forceClose | .call .forceCloseWithDelay | .call .startRead
  | .call .stopRead | .call (.retrieve _) | .connectEstablished | .connectDestroyed | .userDone
  | .polled _ | .dispatch | .runFunctor | .delayed => .isFalse id

/-- The backlog goes from below the mark to at least the mark. -/
def Crosses (c c' : TcpConnection) : Prop :=
  c.outputBuffer.readableBytes < c.highWaterMark ∧
    c.highWaterMark ≤ c'.outputBuffer.readableBytes

instance (c c' : TcpConnection) : Decidable (c.Crosses c') := inferInstanceAs (Decidable (_ ∧ _))

/-- The notifications that are due for a step to `c'`. -/
def notices (c c' : TcpConnection) (completes : Prop) [Decidable completes] : List ConnFunctor :=
  (if c.Crosses c' then [.highWaterMarkCallback c'.outputBuffer.readableBytes] else []) ++
    if completes then [.writeCompleteCallback] else []

/-- Both callbacks are set, a connection that is up waits for the socket exactly while its output
buffer holds something, and one that is down does not wait. -/
structure Notified (c : TcpConnection) : Prop where
  intact : c.Intact
  poised : c.state ≠ .kDisconnected → c.Poised
  down : c.state = .kDisconnected → c.channel.isWriting = false
  writeComplete : c.callbacks.writeComplete = true
  highWaterMark : c.callbacks.highWaterMark = true

theorem create_notified (fd highWaterMark : ℕ) {callbacks : Callbacks}
    (hw : callbacks.writeComplete = true) (hh : callbacks.highWaterMark = true) :
    (create fd callbacks highWaterMark).Notified := by
  refine ⟨create_intact _ _ _, fun _ => ?_, nofun, hw, hh⟩
  refine iff_of_false ?_ (not_not.mpr (Nat.sub_self _))
  simp [create, Channel.create, Channel.isWriting_iff]

variable {c c' c'' : TcpConnection}

/-- The step queues no notification, and waits for the socket as before unless it closes the
connection. -/
structure Passive (c c' : TcpConnection) : Prop where
  callbacks : c'.callbacks = c.callbacks
  pending : ∃ new, c'.pendingFunctors = c.pendingFunctors ++ new ∧
    new.filter ConnFunctor.isNotice = []
  closed : c.state = .kDisconnected → c'.state = .kDisconnected
  writing : c'.channel.isWriting = true ↔ c.channel.isWriting = true ∧
    (c.state = .kDisconnected ∨ c'.state ≠ .kDisconnected)

theorem Passive.trans (h : Passive c c') (k : Passive c' c'') : Passive c c'' := by
  obtain ⟨u, hu, hnone⟩ := h.pending
  obtain ⟨v, hv, knone⟩ := k.pending
  refine ⟨k.callbacks.trans h.callbacks, ⟨u ++ v, ?_, ?_⟩, k.closed ∘ h.closed, ?_⟩
  · rw [hv, hu, List.append_assoc]
  · rw [List.filter_append, hnone, knone, List.append_nil]
  · have hc := h.closed
    have kc := k.closed
    rw [k.writing, h.writing]
    tauto

/-- A step that queues nothing and keeps the write flag, and the state apart from its phases. -/
theorem Passive.of_eq (hcallbacks : c'.callbacks = c.callbacks)
    (hpending : c'.pendingFunctors = c.pendingFunctors)
    (hstate : c'.state = .kDisconnected ↔ c.state = .kDisconnected)
    (hwriting : c'.channel.isWriting = c.channel.isWriting) : Passive c c' := by
  refine ⟨hcallbacks, ⟨[], by rw [hpending, List.append_nil], rfl⟩, hstate.mpr, ?_⟩
  rw [hwriting, ne_eq, hstate]
  tauto

theorem Passive.refl : Passive c c := .of_eq rfl rfl Iff.rfl rfl

theorem Passive.of_down (hcallbacks : c'.callbacks = c.callbacks)
    (hpending : c'.pendingFunctors = c.pendingFunctors) (hup : c.state ≠ .kDisconnected)
    (hstate : c'.state = .kDisconnected) (hwriting : c'.channel.isWriting = false) :
    Passive c c' := by
  refine ⟨hcallbacks, ⟨[], by rw [hpending, List.append_nil], rfl⟩, fun hd => absurd hd hup, ?_⟩
  rw [hwriting]
  exact iff_of_false Bool.false_ne_true fun h => h.2.elim hup (absurd hstate)

theorem handleClose_passive (hreg : c.Registered) (hc : c.handleClose = .ok c') :
    Passive c c' := by
  obtain ⟨hs, rfl⟩ := handleClose_ok hreg hc
  refine .of_down rfl rfl ?_ rfl (Channel.isWriting_disableAll (c := c.channel))
  rcases hs with hs | hs <;> simp [hs]

theorem setState_passive (hs : c.state = .kConnected ∨ c.state = .kDisconnecting) :
    Passive c (c.setState .kDisconnecting) := by
  refine .of_eq rfl rfl (iff_of_false nofun ?_) rfl
  rcases hs with hs | hs <;> simp [hs]

theorem shutdown_passive : Passive c c.shutdown := by
  unfold shutdown
  split_ifs with hs
  · exact (setState_passive (.inl hs)).trans (.of_eq rfl rfl Iff.rfl rfl)
  · exact .refl

theorem forceClose_passive : Passive c c.forceClose := by
  unfold forceClose
  split_ifs with hs
  · refine (setState_passive hs).trans ⟨rfl, ⟨[.forceCloseInLoop], rfl, rfl⟩, id, ?_⟩
    exact (and_iff_left (em _)).symm
  · exact .refl

theorem forceCloseWithDelay_passive : Passive c c.forceCloseWithDelay := by
  unfold forceCloseWithDelay
  split_ifs with hs
  · exact (setState_passive hs).trans (.of_eq rfl rfl Iff.rfl rfl)
  · exact .refl

theorem startReadInLoop_passive (hreg : c.Registered) (hc : c.startReadInLoop = .ok c') :
    Passive c c' := by
  rw [startReadInLoop_eq hreg] at hc
  obtain rfl := Except.ok.inj hc
  split_ifs
  · exact .of_eq rfl rfl Iff.rfl Channel.isWriting_enableReading
  · exact .refl

theorem stopReadInLoop_passive (hreg : c.Registered) (hc : c.stopReadInLoop = .ok c') :
    Passive c c' := by
  rw [stopReadInLoop_eq hreg] at hc
  obtain rfl := Except.ok.inj hc
  split_ifs
  · exact .of_eq rfl rfl Iff.rfl Channel.isWriting_disableReading
  · exact .refl

theorem handleRead_passive (hreg : c.Registered) {received : List UInt8}
    (hc : c.handleRead received = .ok c') : Passive c c' := by
  obtain ⟨b, -, hcases⟩ := handleRead_cases hc
  have hread : Passive c { c with inputBuffer := b } := .of_eq rfl rfl Iff.rfl rfl
  rcases hcases with ⟨-, -, rfl⟩ | ⟨-, -, rfl⟩ | ⟨-, hc⟩
  · exact .of_eq rfl rfl Iff.rfl rfl
  · exact hread
  · exact hread.trans (handleClose_passive (by exact hreg) hc)

theorem connectDestroyed_passive (hreg : c.Registered) (hc : c.connectDestroyed = .ok c') :
    Passive c c' := by
  obtain rfl := Except.ok.inj ((connectDestroyed_eq hreg).symm.trans hc)
  split_ifs with hs
  · exact .of_down rfl rfl (by simp [hs]) rfl (Channel.isWriting_disableAll (c := c.channel))
  · exact .of_eq rfl rfl Iff.rfl rfl

theorem connectEstablished_passive (hreg : c.Registered) (hs : c.state = .kConnecting)
    (hc : c.connectEstablished = .ok c') : Passive c c' := by
  obtain rfl := Except.ok.inj ((connectEstablished_eq hreg hs).symm.trans hc)
  refine .of_eq rfl rfl (iff_of_false nofun ?_) Channel.isWriting_enableReading
  simp [hs]

theorem resume_passive (hreg : c.Registered) {received : List UInt8} {sent : ℤ}
    (hw : c.todo.head? ≠ some (.channel .write)) (hc : c.resume received sent = .ok c') :
    Passive c c' := by
  unfold resume at hc
  have hpop : Passive c { c with todo := c.todo.tail } := .of_eq rfl rfl Iff.rfl rfl
  cases htodo : c.todo with
  | nil =>
    rw [htodo] at hc hpop
    exact Except.ok.inj hc ▸ hpop
  | cons task rest =>
    rw [htodo] at hc hpop
    cases task with
    | channel callback =>
      cases callback with
      | close => exact hpop.trans (handleClose_passive (by exact hreg) hc)
      | error => exact Except.ok.inj hc ▸ hpop
      | read => exact hpop.trans (handleRead_passive (by exact hreg) hc)
      | write => exact absurd (by rw [htodo]; rfl) hw
    | user => exact Except.ok.inj hc ▸ hpop
    | closeCallback => exact Except.ok.inj hc ▸ .of_eq rfl rfl Iff.rfl rfl
    | remove =>
      obtain ⟨-, rfl⟩ := remove_ok hc
      exact hpop.trans (.of_eq rfl rfl Iff.rfl rfl)

theorem runFunctor_passive (hreg : c.Registered) (hc : c.runFunctor = .ok c') :
    Passive { c with pendingFunctors := c.pendingFunctors.tail } c' := by
  unfold runFunctor at hc
  cases hqueue : c.pendingFunctors with
  | nil =>
    rw [hqueue] at hc
    exact Except.ok.inj hc ▸ .refl
  | cons f rest =>
    rw [hqueue] at hc
    cases f with
    | forceCloseInLoop =>
      change forceCloseInLoop _ = _ at hc
      unfold forceCloseInLoop at hc
      split_ifs at hc
      · exact handleClose_passive (by exact hreg) hc
      · exact Except.ok.inj hc ▸ .refl
    | writeCompleteCallback => exact Except.ok.inj hc ▸ .of_eq rfl rfl Iff.rfl rfl
    | highWaterMarkCallback size => exact Except.ok.inj hc ▸ .of_eq rfl rfl Iff.rfl rfl

theorem step_passive (hreg : c.Registered) {e : Event} (he : machine.enabled c e)
    (hw : ¬ c.Writes e) (hc : machine.step c e = .ok c') :
    Passive { c with pendingFunctors := c.left e } c' := by
  cases e with
  | connectEstablished => exact connectEstablished_passive hreg he.2 hc
  | connectDestroyed => exact connectDestroyed_passive hreg hc
  | call call =>
    cases call with
    | send data sent errno => exact absurd trivial hw
    | sendInLoop data sent errno => exact absurd trivial hw
    | shutdown => exact Except.ok.inj hc ▸ shutdown_passive
    | forceClose => exact Except.ok.inj hc ▸ forceClose_passive
    | forceCloseWithDelay => exact Except.ok.inj hc ▸ forceCloseWithDelay_passive
    | startRead => exact startReadInLoop_passive hreg hc
    | stopRead => exact stopReadInLoop_passive hreg hc
    | retrieve len =>
      obtain ⟨b, -, hc⟩ := bind_eq_ok.mp hc
      exact Except.ok.inj hc ▸ .of_eq rfl rfl Iff.rfl rfl
  | userDone => exact Except.ok.inj hc ▸ .of_eq rfl rfl Iff.rfl rfl
  | polled revents => exact Except.ok.inj hc ▸ .of_eq rfl rfl Iff.rfl rfl
  | dispatch => exact Except.ok.inj hc ▸ .of_eq rfl rfl Iff.rfl rfl
  | resume received sent => exact resume_passive hreg hw hc
  | runFunctor => exact runFunctor_passive hreg hc
  | delayed =>
    have hpop : Passive c { c with delayed := c.delayed - 1 } := .of_eq rfl rfl Iff.rfl rfl
    exact Except.ok.inj hc ▸ hpop.trans forceClose_passive

/-- A write that keeps the state of the connection, and queues the notifications that are due and
no others; one that completes leaves nothing in the output buffer. -/
structure Notifies (c c' : TcpConnection) (completes : Prop) [Decidable completes] : Prop where
  callbacks : c'.callbacks = c.callbacks
  state : c'.state = c.state
  emptied : completes → c'.outputBuffer.readableBytes = 0
  pending : c'.pendingFunctors = c.pendingFunctors ++ c.notices c' completes

theorem not_crosses_of_le (hle : c'.outputBuffer.readableBytes ≤ c.outputBuffer.readableBytes) :
    ¬ c.Crosses c' := fun h => absurd (h.2.trans hle) (not_le_of_gt h.1)

theorem notices_of_le (hle : c'.outputBuffer.readableBytes ≤ c.outputBuffer.readableBytes)
    (completes : Prop) [Decidable completes] :
    c.notices c' completes = if completes then [.writeCompleteCallback] else [] := by
  unfold notices
  rw [if_neg (not_crosses_of_le hle), List.nil_append]

theorem notices_congr {p q : Prop} [Decidable p] [Decidable q] (hpq : p ↔ q) :
    c.notices c' p = c.notices c' q := by
  unfold notices
  rw [if_congr hpq rfl rfl]

theorem notices_isNotice (completes : Prop) [Decidable completes] :
    (c.notices c' completes).filter ConnFunctor.isNotice = c.notices c' completes := by
  unfold notices
  split_ifs <;> rfl

theorem completes_of_mem {completes : Prop} [Decidable completes]
    (hmem : .writeCompleteCallback ∈ c.notices c' completes) : completes := by
  by_contra hnot
  unfold notices at hmem
  rw [if_neg hnot, List.append_nil] at hmem
  split_ifs at hmem <;> simp at hmem

theorem Notifies.congr {p q : Prop} [Decidable p] [Decidable q] (h : Notifies c c' p)
    (hpq : p ↔ q) : Notifies c c' q :=
  ⟨h.callbacks, h.state, h.emptied ∘ hpq.mpr, h.pending.trans (by rw [notices_congr hpq])⟩

theorem notifies_idle (hcallbacks : c'.callbacks = c.callbacks) (hstate : c'.state = c.state)
    (hout : c'.outputBuffer = c.outputBuffer) (hpending : c'.pendingFunctors = c.pendingFunctors)
    {completes : Prop} [Decidable completes] (hnot : ¬ completes) : Notifies c c' completes := by
  refine ⟨hcallbacks, hstate, fun h => absurd h hnot, ?_⟩
  rw [notices_of_le (by rw [hout]), if_neg hnot, List.append_nil, hpending]

/-- The rest of a message is announced when it takes the backlog over the mark. -/
theorem buffer_notifies {data : List UInt8} {d : Direct} (hout : c.outputBuffer.Valid)
    (hreg : c.Registered) (hrest : ((data.drop d.nwrote).take d.remaining).length = d.remaining)
    (hsum : c.outputBuffer.readableBytes + d.remaining < sockets.sizeMod)
    (hh : c.callbacks.highWaterMark = true) (hc : c.buffer data d = .ok c') :
    Notifies c c' False := by
  obtain ⟨b, hb, hv, hq⟩ := Buffer.append_holds hout ((data.drop d.nwrote).take d.remaining)
  have hlen : c.outputBuffer.readableBytes + d.remaining = b.readableBytes := by
    rw [← hv.readable_length, hq, List.length_append, hrest, hout.readable_length]
  have hpending : ∀ w : TcpConnection, w.outputBuffer = b →
      (c.queueIf (c.highWaterMark ≤ b.readableBytes ∧
        c.outputBuffer.readableBytes < c.highWaterMark ∧ c.callbacks.highWaterMark)
        (.highWaterMarkCallback b.readableBytes)).pendingFunctors =
      c.pendingFunctors ++ c.notices w False := by
    rintro w rfl
    unfold queueIf notices Crosses
    rw [if_neg not_false, List.append_nil]
    refine congrArg (c.pendingFunctors ++ ·) (if_congr ?_ rfl rfl)
    rw [hh]
    tauto
  unfold TcpConnection.buffer at hc
  dsimp only at hc
  rw [show (c.queueIf _ _).outputBuffer = c.outputBuffer from rfl, hb, ok_bind,
    Nat.mod_eq_of_lt hsum, hlen] at hc
  split_ifs at hc with hw
  · obtain rfl := Except.ok.inj hc
    exact ⟨rfl, rfl, False.elim, hpending _ rfl⟩
  · rw [update_eq (by exact hreg) changes_enableWriting] at hc
    obtain rfl := Except.ok.inj hc
    exact ⟨rfl, rfl, False.elim, hpending _ rfl⟩

theorem sendInLoop_notifies (hout : c.outputBuffer.Valid) (hreg : c.Registered)
    (hw : c.callbacks.writeComplete = true) (hh : c.callbacks.highWaterMark = true)
    (hs : c.state ≠ .kDisconnected) {data : List UInt8} {sent : ℤ} {errno : Errno}
    (hsum : c.outputBuffer.readableBytes + data.length < sockets.sizeMod)
    (hsends : c.writesDirectly → sockets.Counts data.length sent)
    (hc : c.sendInLoop data sent errno = .ok c') :
    Notifies c c' (c.writesDirectly ∧ sent = data.length) := by
  unfold TcpConnection.sendInLoop at hc
  simp only [if_neg hs] at hc
  unfold writeDirectly at hc
  by_cases hd : c.writesDirectly
  · have hcount := hsends hd
    have h0 := hcount.1
    obtain ⟨-, hle⟩ := hcount.sends.write_eq hcount.ne
    rw [if_pos (by exact hd), direct_eq errno (by omega) hcount.sends hcount.ne] at hc
    obtain ⟨-, hc⟩ := require_bind_eq_ok.mp hc
    dsimp only at hc
    by_cases hall : sent = data.length
    · have hzero : data.length - sent.toNat = 0 := by omega
      rw [if_neg (by omega)] at hc
      obtain rfl := Except.ok.inj hc
      refine ⟨rfl, rfl, fun _ => hd.2, ?_⟩
      rw [notices_of_le (by exact le_rfl), if_pos ⟨hd, hall⟩]
      unfold queueIf
      rw [if_pos ⟨Nat.zero_le _, hzero, hw⟩]
      rfl
    · have hrest : data.length - sent.toNat ≠ 0 := by omega
      rw [if_pos ⟨rfl, by omega⟩] at hc
      have hqueue : ∀ w : TcpConnection, w.queueIf (0 ≤ sent.toNat ∧
          data.length - sent.toNat = 0 ∧ c.callbacks.writeComplete = true)
          .writeCompleteCallback = w := by
        intro w
        unfold queueIf
        rw [if_neg fun h => hrest h.2.1, List.append_nil]
      change TcpConnection.buffer (queueIf _ (0 ≤ sent.toNat ∧ data.length - sent.toNat = 0 ∧
        c.callbacks.writeComplete = true) _) data _ = _ at hc
      rw [hqueue] at hc
      have hbuffer := buffer_notifies (by exact hout) (by exact hreg)
        (by rw [List.length_take, List.length_drop]; exact min_self _)
        (by change c.outputBuffer.readableBytes + (data.length - sent.toNat) < _; omega)
        (by exact hh) hc
      have hsame : Notifies c c' False :=
        ⟨hbuffer.callbacks, hbuffer.state, False.elim, hbuffer.pending⟩
      exact hsame.congr (iff_of_false id fun h => hall h.2)
  · rw [if_neg (by exact hd)] at hc
    obtain ⟨-, hc⟩ := require_bind_eq_ok.mp hc
    have hnot : False ↔ c.writesDirectly ∧ sent = data.length := iff_of_false id fun h => hd h.1
    split_ifs at hc
    · have hbuffer := buffer_notifies (by exact hout) (by exact hreg)
        (by simp) (by exact hsum) (by exact hh) hc
      have hsame : Notifies c c' False :=
        ⟨hbuffer.callbacks, hbuffer.state, False.elim, hbuffer.pending⟩
      exact hsame.congr hnot
    · obtain rfl := Except.ok.inj hc
      refine notifies_idle ?_ ?_ ?_ ?_ fun h => hd h.1
      all_goals rfl

/-- `handleWrite` of a connection that waits exactly while its output buffer holds something. -/
theorem handleWrite_notifies (hout : c.outputBuffer.Valid) (hreg : c.Registered) (hp : c.Poised)
    (hw : c.callbacks.writeComplete = true) {sent : ℤ}
    (hcount : c.channel.isWriting = true → sockets.Counts c.outputBuffer.readableBytes sent)
    (hc : c.handleWrite sent = .ok c') :
    Notifies c c' (c.outputBuffer.readableBytes ≠ 0 ∧ c'.outputBuffer.readableBytes = 0) := by
  unfold TcpConnection.handleWrite at hc
  split_ifs at hc with hwriting
  · have hne := hp.mp hwriting
    have hcount := hcount hwriting
    obtain ⟨hwrite, hle⟩ := hcount.sends.write_eq hcount.ne
    obtain ⟨b, hb, hv, hq⟩ := Buffer.retrieve_holds hout hle
    have hleft : b.readableBytes = c.outputBuffer.readableBytes - sent.toNat := by
      rw [← hv.readable_length, hq, List.length_drop, hout.readable_length]
    rw [hwrite] at hc
    dsimp only at hc
    split_ifs at hc with hpos
    · rw [show (c.accept _ _).outputBuffer = c.outputBuffer from rfl, hb, ok_bind] at hc
      split_ifs at hc with hzero
      · rw [outputDone_eq (by exact hreg)] at hc
        obtain rfl := Except.ok.inj hc
        have hlast : ∀ w : TcpConnection, w.outputBuffer = b →
            c.notices w (c.outputBuffer.readableBytes ≠ 0 ∧ w.outputBuffer.readableBytes = 0) =
              [.writeCompleteCallback] := by
          rintro w rfl
          rw [notices_of_le (by omega), if_pos ⟨hne, hzero⟩]
        have hqueued : ∀ w : TcpConnection, w.callbacks.writeComplete = true →
            w.drained.pendingFunctors = w.pendingFunctors ++ [.writeCompleteCallback] := by
          intro w hw
          change _ ++ (if _ then _ else _) = _
          rw [if_pos (by exact hw)]
          rfl
        split_ifs
        · refine ⟨rfl, rfl, fun _ => hzero, ?_⟩
          rw [hlast _ rfl]
          exact hqueued _ hw
        · refine ⟨rfl, rfl, fun _ => hzero, ?_⟩
          rw [hlast _ rfl]
          exact hqueued _ hw
      · obtain rfl := Except.ok.inj hc
        refine ⟨rfl, rfl, And.right, ?_⟩
        rw [notices_of_le (by change b.readableBytes ≤ _; omega), if_neg fun h => hzero h.2,
          List.append_nil]
        rfl
    · obtain rfl := Except.ok.inj hc
      refine notifies_idle ?_ ?_ ?_ ?_ fun h => hne h.2
      all_goals rfl
  · obtain rfl := Except.ok.inj hc
    exact notifies_idle rfl rfl rfl rfl fun h => h.1 h.2

theorem Notified.sendInLoop (h : c.Notified) {data : List UInt8} {sent : ℤ} {errno : Errno}
    (hsum : c.outputBuffer.readableBytes + data.length < sockets.sizeMod)
    (hsends : c.state ≠ .kDisconnected → c.writesDirectly → sockets.Counts data.length sent)
    (hc : c.sendInLoop data sent errno = .ok c') :
    c'.Notified ∧
      Notifies c c' (c.state ≠ .kDisconnected ∧ c.writesDirectly ∧ sent = data.length) := by
  by_cases hs : c.state = .kDisconnected
  · unfold TcpConnection.sendInLoop at hc
    simp only [if_pos hs] at hc
    obtain rfl := Except.ok.inj hc
    have hi := h.intact
    refine ⟨⟨⟨hi.input, hi.output, hi.registered, absurd hs⟩, h.poised, h.down, h.writeComplete,
      h.highWaterMark⟩, ?_⟩
    refine notifies_idle ?_ ?_ ?_ ?_ fun hd => hd.1 hs
    all_goals rfl
  · obtain ⟨hintact, hpoised, hframe⟩ :=
      h.intact.sendInLoop_flush (h.poised hs) hs (by omega) (hsends hs) hc
    have hnotifies := sendInLoop_notifies h.intact.output h.intact.registered h.writeComplete
      h.highWaterMark hs hsum (hsends hs) hc
    refine ⟨⟨hintact, fun _ => hpoised, fun hd => absurd (hframe.state.symm.trans hd) hs, ?_, ?_⟩,
      hnotifies.congr (and_iff_right hs).symm⟩
    · rw [hnotifies.callbacks, h.writeComplete]
    · rw [hnotifies.callbacks, h.highWaterMark]

theorem Notified.send (h : c.Notified) {data : List UInt8} {sent : ℤ} {errno : Errno}
    (hsum : c.outputBuffer.readableBytes + data.length < sockets.sizeMod)
    (hsends : c.state = .kConnected → c.writesDirectly → sockets.Counts data.length sent)
    (hc : c.send data sent errno = .ok c') :
    c'.Notified ∧
      Notifies c c' (c.state = .kConnected ∧ c.writesDirectly ∧ sent = data.length) := by
  unfold TcpConnection.send at hc
  split_ifs at hc with hs
  · obtain ⟨hn, hnotifies⟩ := h.sendInLoop hsum (fun _ => hsends hs) hc
    refine ⟨hn, hnotifies.congr (and_congr_left' (iff_of_true ?_ hs))⟩
    simp [hs]
  · obtain rfl := Except.ok.inj hc
    exact ⟨h, notifies_idle rfl rfl rfl rfl fun hd => hs hd.1⟩

theorem Notified.handleWrite (h : c.Notified) {sent : ℤ}
    (hcount : c.channel.isWriting = true → sockets.Counts c.outputBuffer.readableBytes sent)
    (hc : c.handleWrite sent = .ok c') :
    c'.Notified ∧
      Notifies c c' (c.outputBuffer.readableBytes ≠ 0 ∧ c'.outputBuffer.readableBytes = 0) := by
  by_cases hw : c.channel.isWriting = true
  · have hs : c.state ≠ .kDisconnected := fun hs => by simp [h.down hs] at hw
    obtain ⟨hintact, hwritten⟩ := h.intact.handleWrite_flush (h.poised hs) (hcount hw) hc
    have hnotifies := handleWrite_notifies h.intact.output h.intact.registered (h.poised hs)
      h.writeComplete hcount hc
    refine ⟨⟨hintact, fun _ => hwritten.poised, fun hd => ?_, ?_, ?_⟩, hnotifies⟩
    · exact absurd (hnotifies.state.symm.trans hd) hs
    · rw [hnotifies.callbacks, h.writeComplete]
    · rw [hnotifies.callbacks, h.highWaterMark]
  · unfold TcpConnection.handleWrite at hc
    rw [if_neg hw] at hc
    obtain rfl := Except.ok.inj hc
    exact ⟨h, notifies_idle rfl rfl rfl rfl fun hd => hd.1 hd.2⟩

/-- The notifications that a step to `c'` queues are those that are due, and one that says that
everything is written leaves an empty output buffer. -/
def Announces (c c' : TcpConnection) (e : Event) : Prop :=
  ∃ new, c'.pendingFunctors = c.left e ++ new ∧
    new.filter ConnFunctor.isNotice = c.notices c' (c.Completes c' e) ∧
    (.writeCompleteCallback ∈ new → c'.outputBuffer.readableBytes = 0)

theorem Notifies.announces {e : Event} (hleft : c.left e = c.pendingFunctors)
    (h : Notifies c c' (c.Completes c' e)) : c.Announces c' e :=
  ⟨_, by rw [h.pending, hleft], notices_isNotice _, fun hmem => h.emptied (completes_of_mem hmem)⟩

theorem Notified.writes (h : c.Notified) {e : Event} (hcount : c.Counted e) (hw : c.Writes e)
    (hc : machine.step c e = .ok c') : c'.Notified ∧ c.Announces c' e := by
  cases e with
  | call call =>
    cases call with
    | send data sent errno =>
      obtain ⟨hn, hnotifies⟩ := h.send hcount.1 hcount.2 hc
      exact ⟨hn, Notifies.announces rfl (hnotifies.congr Iff.rfl)⟩
    | sendInLoop data sent errno =>
      obtain ⟨hn, hnotifies⟩ := h.sendInLoop hcount.1 hcount.2 hc
      exact ⟨hn, Notifies.announces rfl (hnotifies.congr Iff.rfl)⟩
    | _ => exact hw.elim
  | resume received sent =>
    have htodo : c.todo = .channel .write :: c.todo.tail :=
      List.eq_cons_of_mem_head? (Option.mem_def.mpr hw)
    have hpop : Notified { c with todo := c.todo.tail } :=
      ⟨⟨h.intact.input, h.intact.output, h.intact.registered, h.intact.stream⟩, h.poised, h.down,
        h.writeComplete, h.highWaterMark⟩
    change c.resume received sent = _ at hc
    unfold TcpConnection.resume at hc
    rw [htodo] at hc
    obtain ⟨hn, hnotifies⟩ := hpop.handleWrite (hcount hw) hc
    have hsame : Notifies c c'
        (c.outputBuffer.readableBytes ≠ 0 ∧ c'.outputBuffer.readableBytes = 0) :=
      ⟨hnotifies.callbacks, hnotifies.state, hnotifies.emptied, hnotifies.pending⟩
    exact ⟨hn, Notifies.announces rfl (hsame.congr (and_iff_right hw).symm)⟩
  | _ => exact hw.elim

theorem Completes.writes {e : Event} (h : c.Completes c' e) : c.Writes e := by
  cases e with
  | call call =>
    cases call with
    | send data sent errno => trivial
    | sendInLoop data sent errno => trivial
    | _ => exact h.elim
  | resume received sent => exact h.1
  | _ => exact h.elim

theorem Notified.others (h : c.Notified) {e : Event} (he : machine.enabled c e)
    (hw : ¬ c.Writes e) (hc : machine.step c e = .ok c') : c'.Notified ∧ c.Announces c' e := by
  have hkeep := h.intact.others he hw hc
  have hpassive := step_passive h.intact.registered he hw hc
  obtain ⟨new, hnew, hnone⟩ := hpassive.pending
  refine ⟨⟨h.intact.keeps hkeep, fun hs => ?_, fun hs => ?_, ?_, ?_⟩, new, hnew, ?_, ?_⟩
  · have hup := hkeep.state hs
    have hpoised := h.poised hup
    unfold Poised at *
    rw [hpassive.writing, hkeep.output, ← hpoised]
    exact and_iff_left (.inr hs)
  · by_contra htrue
    obtain ⟨hwriting, hdown⟩ := hpassive.writing.mp (Bool.eq_true_of_not_eq_false htrue)
    rcases hdown with hdown | hup
    · exact Bool.false_ne_true ((h.down hdown).symm.trans hwriting)
    · exact hup hs
  · rw [hpassive.callbacks]
    exact h.writeComplete
  · rw [hpassive.callbacks]
    exact h.highWaterMark
  · rw [hnone, notices_of_le (by rw [hkeep.output]), if_neg fun hd => hw hd.writes]
  · intro hmem
    have hfilter : .writeCompleteCallback ∈ new.filter ConnFunctor.isNotice :=
      List.mem_filter.mpr ⟨hmem, rfl⟩
    simp [hnone] at hfilter

theorem Notified.step (h : c.Notified) {e : Event} (he : machine.enabled c e)
    (hcount : c.Counted e) (hc : machine.step c e = .ok c') : c'.Notified ∧ c.Announces c' e := by
  by_cases hw : c.Writes e
  · exact h.writes hcount hw hc
  · exact h.others he hw hc

/-- As long as every `::send` returns a count, the channel of a connection that is up waits for the
socket exactly while the output buffer holds something, and every step queues the notifications
that are due. -/
theorem notifications_match {fd highWaterMark : ℕ} {callbacks : Callbacks} {es : List Event}
    {c : TcpConnection} (hw : callbacks.writeComplete = true)
    (hh : callbacks.highWaterMark = true)
    (h : machine.Run Counted (create fd callbacks highWaterMark) es c) :
    (c.state = .kConnected ∨ c.state = .kDisconnecting →
      (c.channel.isWriting = true ↔ c.outputBuffer.readableBytes ≠ 0)) ∧
    ∀ e c', machine.enabled c e → c.Counted e → machine.step c e = .ok c' →
      ∃ new, c'.pendingFunctors = c.left e ++ new ∧
        new.filter ConnFunctor.isNotice = c.notices c' (c.Completes c' e) ∧
        (.writeCompleteCallback ∈ new → c'.outputBuffer.readableBytes = 0) := by
  have hn : c.Notified := h.invariant Notified (create_notified fd highWaterMark hw hh)
    fun t e u ht he hcount hc => (ht.step he hcount hc).1
  refine ⟨fun hs => hn.poised ?_, fun e c' he hcount hc => (hn.step he hcount hc).2⟩
  rcases hs with hs | hs <;> simp [hs]

instance (c : TcpConnection) : ∀ e, Decidable (c.Counted e)
  | .call (.send _ _ _) | .call (.sendInLoop _ _ _) => inferInstanceAs (Decidable (_ ∧ (_ → _ → _)))
  | .resume _ _ => inferInstanceAs (Decidable (_ → _ → _))
  | .call .shutdown | .call .forceClose | .call .forceCloseWithDelay | .call .startRead
  | .call .stopRead | .call (.retrieve _) | .connectEstablished | .connectDestroyed | .userDone
  | .polled _ | .dispatch | .runFunctor | .delayed => .isTrue trivial

/-- Three bytes of which one is sent cross the mark, and the other two are written later. -/
theorem notifications_match_partial : ∃ c, machine.Run Counted
    (create 3 ⟨true, true, true, true, true⟩ 2)
    [.connectEstablished, .userDone, .call (.send [1, 2, 3] 1 .other), .polled [POLLOUT],
      .dispatch] c ∧
    (c.channel.isWriting = true ↔ c.outputBuffer.readableBytes ≠ 0) ∧
    ∀ c', machine.step c (.resume [] 2) = .ok c' →
      ∃ new, c'.pendingFunctors = c.pendingFunctors ++ new ∧
        new.filter ConnFunctor.isNotice = c.notices c' (c.Completes c' (.resume [] 2)) ∧
        (.writeCompleteCallback ∈ new → c'.outputBuffer.readableBytes = 0) := by
  obtain ⟨c, hc, hp⟩ := Machine.exists_run_of_exec machine Counted
    (create 3 ⟨true, true, true, true, true⟩ 2)
    [.connectEstablished, .userDone, .call (.send [1, 2, 3] 1 .other), .polled [POLLOUT],
      .dispatch]
    (fun c => decide (c.state = .kConnected ∧ machine.enabled c (.resume [] 2) ∧
      c.Counted (.resume [] 2))) (by decide +kernel)
  obtain ⟨hs, he, hcount⟩ := of_decide_eq_true hp
  obtain ⟨hpoised, hsteps⟩ := notifications_match rfl rfl hc
  exact ⟨c, hc, hpoised (.inl hs), fun c' => hsteps _ c' he hcount⟩

end TcpConnection
end MuduoWindows.Net
