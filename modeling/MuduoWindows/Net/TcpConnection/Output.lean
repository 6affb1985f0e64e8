import MuduoWindows.Net.TcpConnection

/-! # The output stream of a connection

What the kernel took and what waits in the output buffer make up the messages passed to
`sendInLoop`, as long as `::send` is never refused: a refused call returns -1, which the unsigned
`ssize_t` turns into the greatest size.
-/

namespace MuduoWindows.Net
open Library

namespace sockets

theorem toInt_le (count : ℕ) : toInt count ≤ count := by
  unfold toInt
  have hlt := BitVec.toInt_le (x := BitVec.ofNat 32 count)
  have hmod : (BitVec.ofNat 32 count).toNat ≤ count := by
    rw [BitVec.toNat_ofNat]
    exact Nat.mod_le _ _
  have hle : (BitVec.ofNat 32 count).toInt ≤ (BitVec.ofNat 32 count).toNat := by
    rw [BitVec.toInt_eq_toNat_cond]
    split_ifs <;> omega
  omega

theorem Sends.write_eq {count : ℕ} {sent : ℤ} (h : Sends count sent) (hs : sent ≠ -1) :
    write sent = sent.toNat ∧ sent.toNat ≤ count := by
  obtain ⟨h0, hle⟩ := h.resolve_left hs
  have hcount := toInt_le count
  have hmax : toInt count < 2 ^ 31 := by
    have := BitVec.toInt_lt (x := BitVec.ofNat 32 count)
    simpa [toInt] using this
  refine ⟨?_, by omega⟩
  unfold write sizeMod
  rw [Int.emod_eq_of_lt h0 (by omega)]

end sockets

namespace TcpConnection

/-- No call of `::send` made in the step is refused. -/
def Unrefused (c : TcpConnection) : Event → Prop
  | .call (.send _ sent _) => c.state = .kConnected → c.writesDirectly → sent ≠ -1
  | .call (.sendInLoop _ sent _) => c.state ≠ .kDisconnected → c.writesDirectly → sent ≠ -1
  | .resume _ sent =>
      c.todo.head? = some (.channel .write) → c.channel.isWriting = true → sent ≠ -1
  | _ => True

/-- The calls of `sendInLoop` and `handleWrite`. -/
def Writes (c : TcpConnection) : Event → Prop
  | .call (.send _ _ _) | .call (.sendInLoop _ _ _) => True
  | .resume _ _ => c.todo.head? = some (.channel .write)
  | _ => False

/-- The invariant: no byte of a connection that is up gets lost, doubled or added. -/
structure Intact (c : TcpConnection) : Prop where
  input : c.inputBuffer.Valid
  output : c.outputBuffer.Valid
  registered : c.Registered
  stream : c.state ≠ .kDisconnected → c.accepted ++ c.outputBuffer.readable = c.messages

/-- The step neither writes nor leaves `kDisconnected`. -/
structure Keeps (c c' : TcpConnection) : Prop where
  output : c'.outputBuffer = c.outputBuffer
  messages : c'.messages = c.messages
  accepted : c'.accepted = c.accepted
  state : c'.state ≠ .kDisconnected → c.state ≠ .kDisconnected
  input : c.inputBuffer.Valid → c'.inputBuffer.Valid
  registered : c.Registered → c'.Registered

theorem create_intact (fd : ℕ) (callbacks : Callbacks) (highWaterMark : ℕ) :
    (create fd callbacks highWaterMark).Intact :=
  ⟨Buffer.ofSize_valid _, Buffer.ofSize_valid _, rfl, fun _ => Buffer.ofSize_readable _⟩

variable {c c' c'' : TcpConnection}

theorem Keeps.refl : Keeps c c := ⟨rfl, rfl, rfl, id, id, id⟩

theorem Keeps.trans (h : Keeps c c') (k : Keeps c' c'') : Keeps c c'' :=
  ⟨k.output.trans h.output, k.messages.trans h.messages, k.accepted.trans h.accepted,
    h.state ∘ k.state, k.input ∘ h.input, k.registered ∘ h.registered⟩

theorem Intact.keeps (h : c.Intact) (k : Keeps c c') : c'.Intact := by
  refine ⟨k.input h.input, by rw [k.output]; exact h.output, k.registered h.registered, ?_⟩
  intro hs
  rw [k.accepted, k.output, k.messages]
  exact h.stream (k.state hs)

theorem closed_keeps : Keeps c c.closed :=
  ⟨rfl, rfl, rfl, fun h => absurd rfl h, id, fun _ => updated_registered _ _⟩

theorem takenDown_keeps : Keeps c c.takenDown :=
  ⟨rfl, rfl, rfl, fun h => absurd rfl h, id, fun _ => updated_registered _ _⟩

theorem removed_keeps : Keeps c c.removed := by
  refine ⟨rfl, rfl, rfl, id, id, fun _ => ?_⟩
  unfold Registered EPollPoller.Registered removed
  rw [if_pos rfl]
  exact Function.update_self _ _ _

theorem updated_keeps (change : Channel → Channel) : Keeps c (c.updated change) :=
  ⟨rfl, rfl, rfl, id, id, fun _ => updated_registered _ _⟩

theorem Intact.handleClose (h : c.Intact) (hc : c.handleClose = .ok c') : Keeps c c' := by
  obtain ⟨-, rfl⟩ := handleClose_ok h.registered hc
  exact closed_keeps

theorem shutdown_keeps : Keeps c c.shutdown := by
  unfold shutdown
  split_ifs with hs
  · exact ⟨rfl, rfl, rfl, fun _ => by simp [hs], id, id⟩
  · exact .refl

theorem forceClose_keeps : Keeps c c.forceClose := by
  unfold forceClose
  split_ifs with hs
  · exact ⟨rfl, rfl, rfl, fun _ => by rcases hs with hs | hs <;> simp [hs], id, id⟩
  · exact .refl

theorem forceCloseWithDelay_keeps : Keeps c c.forceCloseWithDelay := by
  unfold forceCloseWithDelay
  split_ifs with hs
  · exact ⟨rfl, rfl, rfl, fun _ => by rcases hs with hs | hs <;> simp [hs], id, id⟩
  · exact .refl

theorem Intact.startReadInLoop (h : c.Intact) (hc : c.startReadInLoop = .ok c') : Keeps c c' := by
  rw [startReadInLoop_eq h.registered] at hc
  obtain rfl := Except.ok.inj hc
  split_ifs
  · exact ⟨rfl, rfl, rfl, id, id, fun _ => updated_registered _ _⟩
  · exact .refl

theorem Intact.stopReadInLoop (h : c.Intact) (hc : c.stopReadInLoop = .ok c') : Keeps c c' := by
  rw [stopReadInLoop_eq h.registered] at hc
  obtain rfl := Except.ok.inj hc
  split_ifs
  · exact ⟨rfl, rfl, rfl, id, id, fun _ => updated_registered _ _⟩
  · exact .refl

theorem Intact.handleRead (h : c.Intact) {received : List UInt8}
    (hc : c.handleRead received = .ok c') : Keeps c c' := by
  obtain ⟨b, hread, hcases⟩ := handleRead_cases hc
  obtain ⟨b', hb, hv, -⟩ := Buffer.readFd_eq h.input received
  obtain rfl : b = b' := (Prod.mk.inj (Except.ok.inj (hread.symm.trans hb))).2
  have hkeep : Keeps c { c with inputBuffer := b } := ⟨rfl, rfl, rfl, id, fun _ => hv, id⟩
  rcases hcases with ⟨-, -, rfl⟩ | ⟨-, -, rfl⟩ | ⟨-, hc⟩
  · exact ⟨rfl, rfl, rfl, id, fun _ => hv, id⟩
  · exact hkeep
  · exact hkeep.trans ((h.keeps hkeep).handleClose hc)

theorem outputDone_keeps (h : c.Registered) : ∃ c', c.outputDone = .ok c' ∧ Keeps c c' := by
  refine ⟨_, outputDone_eq h, (updated_keeps Channel.disableWriting).trans ?_⟩
  split_ifs
  · exact ⟨rfl, rfl, rfl, id, id, id⟩
  · exact ⟨rfl, rfl, rfl, id, id, id⟩

theorem buffer_spec (hout : c.outputBuffer.Valid) (hreg : c.Registered) (data : List UInt8)
    (d : Direct) :
    ∃ b c', c.buffer data d = .ok c' ∧ b.Valid ∧
      b.readable = c.outputBuffer.readable ++ (data.drop d.nwrote).take d.remaining ∧
      Keeps { c with outputBuffer := b } c' := by
  obtain ⟨b, hb, hv, hq⟩ :=
    Buffer.append_holds hout ((data.drop d.nwrote).take d.remaining)
  have hkeep : ∀ p : Prop, [Decidable p] → ∀ f,
      Keeps { c with outputBuffer := b } { c.queueIf p f with outputBuffer := b } :=
    fun _ _ _ => ⟨rfl, rfl, rfl, id, id, id⟩
  refine ⟨b, ?_⟩
  unfold TcpConnection.buffer
  dsimp only
  rw [show (c.queueIf _ _).outputBuffer = c.outputBuffer from rfl, hb, ok_bind]
  split_ifs
  · exact ⟨_, rfl, hv, hq, hkeep _ _⟩
  · refine ⟨_, update_eq ?_ changes_enableWriting, hv, hq, (hkeep _ _).trans (updated_keeps _)⟩
    exact hreg

/-- A direct write that is not refused: the kernel has a first part of the message, the rest is
still to be buffered. -/
structure Split (c c' : TcpConnection) (data : List UInt8) (d : Direct) : Prop where
  fault : d.faultError = false
  remaining : d.remaining ≤ data.length
  rest : (data.drop d.nwrote).take d.remaining = data.drop d.nwrote
  done : d.remaining = 0 → data.drop d.nwrote = []
  stream : c'.accepted ++ c'.outputBuffer.readable ++ data.drop d.nwrote =
    c.accepted ++ c.outputBuffer.readable ++ data
  output : c'.outputBuffer = c.outputBuffer
  messages : c'.messages = c.messages
  state : c'.state = c.state
  input : c'.inputBuffer = c.inputBuffer
  registered : c'.Registered ↔ c.Registered

theorem direct_eq {len : ℕ} {sent : ℤ} (errno : Errno) (hlen : len < sockets.sizeMod)
    (hsends : sockets.Sends len sent) (hsent : sent ≠ -1) :
    direct len sent errno = ⟨sent.toNat, len - sent.toNat, false⟩ := by
  obtain ⟨hwrite, hle⟩ := hsends.write_eq hsent
  have hremaining : (len + sockets.sizeMod - sent.toNat) % sockets.sizeMod = len - sent.toNat := by
    unfold sockets.sizeMod at *
    omega
  unfold direct
  rw [if_pos (Nat.zero_le _), hwrite, hremaining]

theorem writeDirectly_split (hv : c.outputBuffer.Valid) {data : List UInt8} {sent : ℤ}
    (errno : Errno) (hlen : data.length < sockets.sizeMod)
    (hsends : c.writesDirectly → sockets.Sends data.length sent)
    (hsent : c.writesDirectly → sent ≠ -1) :
    Split c (c.writeDirectly data sent errno).2 data (c.writeDirectly data sent errno).1 := by
  unfold writeDirectly
  by_cases hd : c.writesDirectly
  · have hempty : c.outputBuffer.readable = [] := by
      rw [← List.length_eq_zero_iff, hv.readable_length]
      exact hd.2
    rw [if_pos hd, direct_eq errno hlen (hsends hd) (hsent hd)]
    refine ⟨rfl, Nat.sub_le _ _, ?_, ?_, ?_, rfl, rfl, rfl, rfl, Iff.rfl⟩
    · exact List.take_of_length_le (by rw [List.length_drop])
    · intro h0
      exact List.drop_eq_nil_of_le (Nat.sub_eq_zero_iff_le.mp h0)
    · change c.accepted ++ data.take sent.toNat ++ c.outputBuffer.readable ++ _ = _
      rw [hempty, List.append_nil, List.append_nil, List.append_assoc, List.take_append_drop]
  · rw [if_neg hd]
    refine ⟨rfl, le_rfl, ?_, ?_, rfl, rfl, rfl, rfl, rfl, Iff.rfl⟩
    · exact List.take_of_length_le le_rfl
    · intro h0
      exact List.length_eq_zero_iff.mp h0

theorem Intact.sendInLoop (h : c.Intact) {data : List UInt8} {sent : ℤ} (errno : Errno)
    (hlen : data.length < sockets.sizeMod)
    (hsends : c.writesDirectly → sockets.Sends data.length sent)
    (hsent : c.state ≠ .kDisconnected → c.writesDirectly → sent ≠ -1) :
    ∃ c', c.sendInLoop data sent errno = .ok c' ∧ c'.Intact := by
  unfold TcpConnection.sendInLoop
  by_cases hs : c.state = .kDisconnected
  · simp only [if_pos hs]
    exact ⟨_, rfl, h.input, h.output, h.registered, fun hne => absurd hs hne⟩
  · simp only [if_neg hs]
    have hsplit := writeDirectly_split (c := { c with messages := c.messages ++ data })
      h.output errno hlen hsends (hsent hs)
    generalize { c with messages := c.messages ++ data }.writeDirectly data sent errno = w at hsplit
    obtain ⟨d, w⟩ := w
    have hstream : w.accepted ++ w.outputBuffer.readable ++ data.drop d.nwrote = w.messages := by
      rw [hsplit.stream, hsplit.messages]
      exact congrArg (· ++ data) (h.stream hs)
    dsimp only
    rw [require_bind hsplit.remaining]
    have hin : w.inputBuffer.Valid := by rw [hsplit.input]; exact h.input
    have hout : w.outputBuffer.Valid := by rw [hsplit.output]; exact h.output
    have hreg : w.Registered := hsplit.registered.mpr h.registered
    by_cases hrest : 0 < d.remaining
    · rw [if_pos ⟨hsplit.fault, hrest⟩]
      obtain ⟨b, c', hc', hv, hq, hkeep⟩ := buffer_spec hout hreg data d
      have hmid : Intact { w with outputBuffer := b } := by
        refine ⟨hin, hv, hreg, fun _ => ?_⟩
        change w.accepted ++ b.readable = w.messages
        rw [hq, hsplit.rest, ← List.append_assoc]
        exact hstream
      exact ⟨c', hc', hmid.keeps hkeep⟩
    · rw [if_neg fun hc => hrest hc.2]
      rw [hsplit.done (Nat.eq_zero_of_not_pos hrest), List.append_nil] at hstream
      exact ⟨w, rfl, hin, hout, hreg, fun _ => hstream⟩

theorem Intact.send (h : c.Intact) {data : List UInt8} {sent : ℤ} (errno : Errno)
    (hlen : data.length < sockets.sizeMod)
    (hsends : c.writesDirectly → sockets.Sends data.length sent)
    (hsent : c.state = .kConnected → c.writesDirectly → sent ≠ -1) :
    ∃ c', c.send data sent errno = .ok c' ∧ c'.Intact := by
  unfold TcpConnection.send
  split_ifs with hs
  · exact h.sendInLoop errno hlen hsends fun _ => hsent hs
  · exact ⟨c, rfl, h⟩

theorem Intact.handleWrite (h : c.Intact) {sent : ℤ}
    (hsends : sockets.Sends c.outputBuffer.readableBytes sent)
    (hsent : c.channel.isWriting = true → sent ≠ -1) :
    ∃ c', c.handleWrite sent = .ok c' ∧ c'.Intact := by
  unfold TcpConnection.handleWrite
  by_cases hw : c.channel.isWriting = true
  · obtain ⟨hwrite, hle⟩ := hsends.write_eq (hsent hw)
    obtain ⟨b, hb, hv, hq⟩ := Buffer.retrieve_holds h.output hle
    have htake : ∀ p q : List UInt8, p ++ q.take sent.toNat ++ q.drop sent.toNat = p ++ q := by
      intro p q
      rw [List.append_assoc, List.take_append_drop]
    simp only [if_pos hw, hwrite]
    -- the kernel took what is dropped from the buffer
    have hstream : c.state ≠ .kDisconnected →
        c.accepted ++ c.outputBuffer.readable.take sent.toNat ++ b.readable = c.messages := by
      intro hs
      rw [hq, htake]
      exact h.stream hs
    by_cases hn : 0 < sent.toNat
    · rw [if_pos hn]
      change ∃ c', (c.outputBuffer.retrieve sent.toNat >>= _) = _ ∧ _
      rw [hb, ok_bind]
      have hmid : Intact { c.accept c.outputBuffer.readable sent with outputBuffer := b } :=
        ⟨h.input, hv, h.registered, hstream⟩
      split_ifs with hempty
      · obtain ⟨c', hc', hkeep⟩ := outputDone_keeps hmid.registered
        exact ⟨c', hc', hmid.keeps hkeep⟩
      · exact ⟨_, rfl, hmid⟩
    · have h0 : sent.toNat = 0 := by omega
      rw [if_neg hn]
      refine ⟨_, rfl, h.input, h.output, h.registered, fun hs => ?_⟩
      change c.accepted ++ c.outputBuffer.readable.take sent.toNat ++ _ = _
      rw [h0, List.take_zero, List.append_nil]
      exact h.stream hs
  · simp only [if_neg hw]
    exact ⟨c, rfl, h⟩

theorem Intact.writes (h : c.Intact) {e : Event} (he : machine.enabled c e) (hu : c.Unrefused e)
    (hw : c.Writes e) : ∃ c', machine.step c e = .ok c' ∧ c'.Intact := by
  cases e with
  | call call =>
    obtain ⟨-, -, hpossible⟩ := he
    cases call with
    | send data sent errno => exact h.send errno hpossible.1 hpossible.2 hu
    | sendInLoop data sent errno => exact h.sendInLoop errno hpossible.1 hpossible.2 hu
    | _ => exact hw.elim
  | resume received sent =>
    obtain ⟨-, -, -, hsends⟩ := he
    have htodo : c.todo = .channel .write :: c.todo.tail :=
      List.eq_cons_of_mem_head? (Option.mem_def.mpr hw)
    have hpop : Intact { c with todo := c.todo.tail } :=
      ⟨h.input, h.output, h.registered, h.stream⟩
    obtain ⟨c', hc', hi⟩ := hpop.handleWrite hsends (hu hw)
    refine ⟨c', ?_, hi⟩
    change c.resume received sent = _
    unfold TcpConnection.resume
    rw [htodo]
    exact hc'
  | _ => exact hw.elim

theorem Intact.others (h : c.Intact) {e : Event} (he : machine.enabled c e)
    (hw : ¬ c.Writes e) (hc : machine.step c e = .ok c') : Keeps c c' := by
  cases e with
  | connectEstablished =>
    have hs : c.state = .kConnecting := he.2
    obtain rfl := Except.ok.inj ((connectEstablished_eq h.registered hs).symm.trans hc)
    exact ⟨rfl, rfl, rfl, fun _ => by simp [hs], id, fun _ => updated_registered _ _⟩
  | connectDestroyed =>
    obtain rfl := Except.ok.inj ((connectDestroyed_eq h.registered).symm.trans hc)
    split_ifs
    · exact takenDown_keeps
    · exact ⟨rfl, rfl, rfl, id, id, id⟩
  | call call =>
    cases call with
    | send data sent errno => exact absurd trivial hw
    | sendInLoop data sent errno => exact absurd trivial hw
    | shutdown => exact Except.ok.inj hc ▸ shutdown_keeps
    | forceClose => exact Except.ok.inj hc ▸ forceClose_keeps
    | forceCloseWithDelay => exact Except.ok.inj hc ▸ forceCloseWithDelay_keeps
    | startRead => exact h.startReadInLoop hc
    | stopRead => exact h.stopReadInLoop hc
    | retrieve len =>
      obtain ⟨b, hb, hv, -⟩ := Buffer.retrieve_holds h.input he.2.2
      obtain ⟨b', hb', hc⟩ := bind_eq_ok.mp hc
      obtain rfl := Except.ok.inj (hb.symm.trans hb')
      obtain rfl := Except.ok.inj hc
      exact ⟨rfl, rfl, rfl, id, fun _ => hv, id⟩
  | userDone => exact Except.ok.inj hc ▸ ⟨rfl, rfl, rfl, id, id, id⟩
  | polled revents => exact Except.ok.inj hc ▸ ⟨rfl, rfl, rfl, id, id, id⟩
  | dispatch => exact Except.ok.inj hc ▸ ⟨rfl, rfl, rfl, id, id, id⟩
  | resume received sent =>
    have hpop : Keeps c { c with todo := c.todo.tail } := ⟨rfl, rfl, rfl, id, id, id⟩
    change c.resume received sent = _ at hc
    unfold TcpConnection.resume at hc
    cases htodo : c.todo with
    | nil => exact absurd htodo he.1
    | cons task rest =>
      rw [htodo] at hc hpop
      cases task with
      | channel callback =>
        cases callback with
        | close => exact hpop.trans ((h.keeps hpop).handleClose hc)
        | error => exact Except.ok.inj hc ▸ hpop
        | read => exact hpop.trans ((h.keeps hpop).handleRead hc)
        | write => exact absurd (show c.todo.head? = _ by rw [htodo]; rfl) hw
      | user => exact Except.ok.inj hc ▸ hpop
      | closeCallback => exact Except.ok.inj hc ▸ ⟨rfl, rfl, rfl, id, id, id⟩
      | remove =>
        obtain ⟨-, rfl⟩ := remove_ok hc
        exact hpop.trans removed_keeps
  | runFunctor =>
    change c.runFunctor = _ at hc
    unfold TcpConnection.runFunctor at hc
    have hpop : Keeps c { c with pendingFunctors := c.pendingFunctors.tail } :=
      ⟨rfl, rfl, rfl, id, id, id⟩
    cases hqueue : c.pendingFunctors with
    | nil => exact absurd hqueue he.2
    | cons f rest =>
      rw [hqueue] at hc hpop
      cases f with
      | forceCloseInLoop =>
        change TcpConnection.forceCloseInLoop _ = _ at hc
        unfold TcpConnection.forceCloseInLoop at hc
        split_ifs at hc
        · exact hpop.trans ((h.keeps hpop).handleClose hc)
        · exact Except.ok.inj hc ▸ hpop
      | writeCompleteCallback => exact Except.ok.inj hc ▸ ⟨rfl, rfl, rfl, id, id, id⟩
      | highWaterMarkCallback size => exact Except.ok.inj hc ▸ ⟨rfl, rfl, rfl, id, id, id⟩
  | delayed =>
    have hpop : Keeps c { c with delayed := c.delayed - 1 } := ⟨rfl, rfl, rfl, id, id, id⟩
    exact Except.ok.inj hc ▸ hpop.trans forceClose_keeps

theorem Intact.run (h : c.Intact) {es : List Event} (hrun : machine.Run Unrefused c es c') :
    c'.Intact := by
  refine hrun.invariant Intact h ?_
  intro t e u ht he hu hstep
  by_cases hw : t.Writes e
  · obtain ⟨v, hv, hi⟩ := ht.writes he hu hw
    obtain rfl := Except.ok.inj (hv.symm.trans hstep)
    exact hi
  · exact ht.keeps (ht.others he hw hstep)

/-- As long as no `::send` is refused, the bytes the kernel took followed by the output buffer are
the messages of a connection that is up, and no writing call stops. -/
theorem output_intact {fd highWaterMark : ℕ} {callbacks : Callbacks} {es : List Event}
    {c : TcpConnection} (h : machine.Run Unrefused (create fd callbacks highWaterMark) es c) :
    (c.state = .kConnected ∨ c.state = .kDisconnecting →
      c.accepted ++ c.outputBuffer.readable = c.messages) ∧
    ∀ e, machine.enabled c e → c.Unrefused e → c.Writes e → ∃ c', machine.step c e = .ok c' := by
  have hi := (create_intact fd callbacks highWaterMark).run h
  refine ⟨fun hs => hi.stream ?_, fun e he hu hw => ?_⟩
  · rcases hs with hs | hs <;> simp [hs]
  · obtain ⟨c', hc', -⟩ := hi.writes he hu hw
    exact ⟨c', hc'⟩

instance (c : TcpConnection) : ∀ e, Decidable (c.Unrefused e)
  | .call (.send _ _ _) => inferInstanceAs (Decidable (_ → _ → _))
  | .call (.sendInLoop _ _ _) => inferInstanceAs (Decidable (_ → _ → _))
  | .resume _ _ => inferInstanceAs (Decidable (_ → _ → _))
  | .call .shutdown | .call .forceClose | .call .forceCloseWithDelay | .call .startRead
  | .call .stopRead | .call (.retrieve _) | .connectEstablished | .connectDestroyed | .userDone
  | .polled _ | .dispatch | .runFunctor | .delayed => .isTrue trivial

/-- A message is written in two parts, the second one when the socket is writable. -/
theorem output_intact_partial : ∃ c, machine.Run Unrefused
    (create 3 ⟨true, true, true, true, true⟩ 64)
    [.connectEstablished, .userDone, .call (.send [1, 2, 3] 1 .other),
      .call (.send [4] 1 .other), .polled [POLLOUT], .dispatch, .resume [] 2] c ∧
    c.accepted ++ c.outputBuffer.readable = c.messages := by
  obtain ⟨c, hc, hp⟩ := Machine.exists_run_of_exec machine Unrefused
    (create 3 ⟨true, true, true, true, true⟩ 64)
    [.connectEstablished, .userDone, .call (.send [1, 2, 3] 1 .other),
      .call (.send [4] 1 .other), .polled [POLLOUT], .dispatch, .resume [] 2]
    (fun c => decide (c.state = .kConnected)) (by decide +kernel)
  exact ⟨c, hc, (output_intact hc).1 (.inl (of_decide_eq_true hp))⟩

/-- A refused `::send` fails the assertion of `sendInLoop`, and one in `handleWrite` that of
`Buffer::retrieve`. -/
theorem output_refused :
    (∃ es c, machine.Run Machine.Any (create 3 ⟨true, true, true, true, true⟩ 64) es c ∧
      machine.enabled c (.call (.sendInLoop [1] (-1) .WSAEWOULDBLOCK)) ∧
      machine.step c (.call (.sendInLoop [1] (-1) .WSAEWOULDBLOCK)) =
        .error (.assertion "remaining <= len")) ∧
    ∃ es c, machine.Run Machine.Any (create 3 ⟨true, true, true, true, true⟩ 64) es c ∧
      machine.enabled c (.resume [] (-1)) ∧
      machine.step c (.resume [] (-1)) = .error (.assertion "len <= readableBytes()") := by
  constructor
  · obtain ⟨c, hc, he, hstep⟩ := Machine.exists_fault_of_exec machine Machine.Any
      (create 3 ⟨true, true, true, true, true⟩ 64) [.connectEstablished, .userDone]
      (.call (.sendInLoop [1] (-1) .WSAEWOULDBLOCK)) (.assertion "remaining <= len")
      (by decide +kernel)
    exact ⟨_, c, hc, he, hstep⟩
  · obtain ⟨c, hc, he, hstep⟩ := Machine.exists_fault_of_exec machine Machine.Any
      (create 3 ⟨true, true, true, true, true⟩ 64)
      [.connectEstablished, .userDone, .call (.send [1, 2, 3] 1 .other), .polled [POLLOUT],
        .dispatch] (.resume [] (-1)) (.assertion "len <= readableBytes()") (by decide +kernel)
    exact ⟨_, c, hc, he, hstep⟩

end TcpConnection
end MuduoWindows.Net
