import MuduoWindows.Net.TcpConnection.Closing
import MuduoWindows.Net.TcpConnection.Notifications

/-! # Two connections and the network between them

The ends of a TCP connection, each on its loop thread. The network carries bytes in their order; it
loses none, and `readv` takes what has arrived from the front. An end of stream arrives behind the
last byte, when the peer has called `shutdownWrite()` or is down. No call of `::send` or `readv` is
refused.
-/

namespace MuduoWindows.Net
open Library

namespace TcpConnection
variable {c c' c'' : TcpConnection}

/-- The bytes that the step reads from the socket. -/
def arrived (c : TcpConnection) : Event → List UInt8
  | .resume received _ => if c.todo.head? = some (.channel .read) then received else []
  | _ => []

/-- The bytes that the step takes out of the input buffer. -/
def retrieved (c : TcpConnection) : Event → List UInt8
  | .call (.retrieve len) => c.inputBuffer.readable.take len
  | _ => []

def EndOfStream (c : TcpConnection) : Event → Prop
  | .resume received _ => c.todo.head? = some (.channel .read) ∧ received = []
  | _ => False

instance (c : TcpConnection) : ∀ e, Decidable (c.EndOfStream e)
  | .resume _ _ => inferInstanceAs (Decidable (_ ∧ _))
  | .call _ | .connectEstablished | .connectDestroyed | .userDone | .polled _ | .dispatch
  | .runFunctor | .delayed => .isFalse id

/-- `shutdown` or a close is behind the connection. -/
def Past (c : TcpConnection) : Prop := c.state = .kDisconnecting ∨ c.state = .kDisconnected

/-- A step that leaves the input buffer alone and shuts nothing down. -/
structure Apart (c c' : TcpConnection) : Prop where
  input : c'.inputBuffer = c.inputBuffer
  shutdowns : c'.shutdowns = c.shutdowns
  past : c.Past → c'.Past

theorem Apart.refl : Apart c c := ⟨rfl, rfl, id⟩

theorem Apart.trans (h : Apart c c') (k : Apart c' c'') : Apart c c'' :=
  ⟨k.input.trans h.input, k.shutdowns.trans h.shutdowns, k.past ∘ h.past⟩

theorem updated_apart (change : Channel → Channel) : Apart c (c.updated change) :=
  ⟨rfl, (updated_frame change).shutdowns, id⟩

theorem setState_apart (s : StateE) (hs : s = .kDisconnecting ∨ s = .kDisconnected) :
    Apart c (c.setState s) :=
  ⟨rfl, setState_shutdowns s, fun _ => hs⟩

theorem emit_apart {effect : Effect} (he : effect ≠ .shutdownWrite) : Apart c (c.emit effect) :=
  ⟨rfl, emit_shutdowns he, id⟩

theorem Apart.of_eq (hinput : c'.inputBuffer = c.inputBuffer) (htrace : c'.trace = c.trace)
    (hstate : c'.state = c.state) : Apart c c' := by
  refine ⟨hinput, ?_, ?_⟩
  · unfold TcpConnection.shutdowns
    rw [htrace]
  · unfold Past
    rw [hstate]
    exact id

theorem closed_apart : Apart c c.closed := ⟨rfl, closed_shutdowns, fun _ => .inr rfl⟩

theorem takenDown_apart : Apart c c.takenDown := by
  refine ⟨rfl, ?_, fun _ => .inr rfl⟩
  unfold takenDown
  refine connectionCallback_shutdowns.trans ?_
  exact (updated_frame Channel.disableAll).shutdowns.trans (setState_shutdowns _)

theorem removed_apart : Apart c c.removed := by
  refine ⟨rfl, ?_, id⟩
  unfold removed shutdowns
  dsimp only
  rw [List.count_append]
  split_ifs <;> simp

theorem forceClose_apart : Apart c c.forceClose := by
  unfold forceClose
  split_ifs
  · exact (setState_apart .kDisconnecting (.inl rfl)).trans (.of_eq rfl rfl rfl)
  · exact .refl

theorem forceCloseWithDelay_apart : Apart c c.forceCloseWithDelay := by
  unfold forceCloseWithDelay
  split_ifs
  · exact (setState_apart .kDisconnecting (.inl rfl)).trans (.of_eq rfl rfl rfl)
  · exact .refl

theorem startReadInLoop_apart (hreg : c.Registered) (hc : c.startReadInLoop = .ok c') :
    Apart c c' := by
  rw [startReadInLoop_eq hreg] at hc
  obtain rfl := Except.ok.inj hc
  split_ifs
  · exact (updated_apart _).trans (.of_eq rfl rfl rfl)
  · exact .refl

theorem stopReadInLoop_apart (hreg : c.Registered) (hc : c.stopReadInLoop = .ok c') :
    Apart c c' := by
  rw [stopReadInLoop_eq hreg] at hc
  obtain rfl := Except.ok.inj hc
  split_ifs
  · exact (updated_apart _).trans (.of_eq rfl rfl rfl)
  · exact .refl

theorem connectDestroyed_apart (hreg : c.Registered) (hc : c.connectDestroyed = .ok c') :
    Apart c c' := by
  obtain rfl := Except.ok.inj ((connectDestroyed_eq hreg).symm.trans hc)
  split_ifs
  · exact takenDown_apart
  · exact .of_eq rfl rfl rfl

theorem connectEstablished_apart (hreg : c.Registered) (hs : c.state = .kConnecting)
    (hc : c.connectEstablished = .ok c') : Apart c c' := by
  obtain rfl := Except.ok.inj ((connectEstablished_eq hreg hs).symm.trans hc)
  refine ⟨rfl, ?_, ?_⟩
  · rw [connectionCallback_shutdowns, (updated_frame _).shutdowns, setState_shutdowns]
  · rintro (hd | hd) <;> cases hs.symm.trans hd

theorem runFunctor_apart (hreg : c.Registered) (hc : c.runFunctor = .ok c') : Apart c c' := by
  unfold runFunctor at hc
  have hpop : Apart c { c with pendingFunctors := c.pendingFunctors.tail } := .of_eq rfl rfl rfl
  cases hqueue : c.pendingFunctors with
  | nil =>
    rw [hqueue] at hc hpop
    exact Except.ok.inj hc ▸ hpop
  | cons f rest =>
    rw [hqueue] at hc hpop
    cases f with
    | forceCloseInLoop =>
      change forceCloseInLoop _ = _ at hc
      unfold forceCloseInLoop at hc
      split_ifs at hc
      · obtain ⟨-, rfl⟩ := handleClose_ok (by exact hreg) hc
        exact hpop.trans closed_apart
      · exact Except.ok.inj hc ▸ hpop
    | writeCompleteCallback => exact Except.ok.inj hc ▸ .of_eq rfl rfl rfl
    | highWaterMarkCallback size => exact Except.ok.inj hc ▸ .of_eq rfl rfl rfl

theorem handleRead_input (h : c.Intact) {received : List UInt8}
    (hc : c.handleRead received = .ok c') :
    c'.inputBuffer.readable = c.inputBuffer.readable ++ received ∧
      c'.shutdowns = c.shutdowns ∧ (c.Past → c'.Past) := by
  obtain ⟨b, hread, hcases⟩ := handleRead_cases hc
  obtain ⟨b', hb, -, hq⟩ := Buffer.readFd_eq h.input received
  obtain rfl : b = b' := (Prod.mk.inj (Except.ok.inj (hread.symm.trans hb))).2
  rcases hcases with ⟨-, -, rfl⟩ | ⟨-, -, rfl⟩ | ⟨-, hc⟩
  · exact ⟨hq, emit_shutdowns (by simp), id⟩
  · exact ⟨hq, rfl, id⟩
  · obtain ⟨-, rfl⟩ := handleClose_ok (by exact h.registered) hc
    have hclosed := closed_apart (c := { c with inputBuffer := b })
    exact ⟨(congrArg Buffer.readable hclosed.input).trans hq, hclosed.shutdowns, hclosed.past⟩

theorem sendInLoop_input {data : List UInt8} {sent : ℤ} {errno : Errno} (hreg : c.Registered)
    (hc : c.sendInLoop data sent errno = .ok c') : c'.inputBuffer = c.inputBuffer := by
  rcases sendInLoop_cases hreg hc with hwrote | ⟨-, m, hwrote, rfl⟩
  · obtain ⟨_, _, _, _, rfl⟩ := hwrote
    rfl
  · obtain ⟨_, _, _, _, rfl⟩ := hwrote
    rfl

theorem handleWrite_input {sent : ℤ} (hreg : c.Registered) (hc : c.handleWrite sent = .ok c') :
    c'.inputBuffer = c.inputBuffer := by
  rcases handleWrite_cases hc with hwrote | ⟨-, m, hwrote, hdone⟩
  · obtain ⟨_, _, _, _, rfl⟩ := hwrote
    rfl
  · obtain ⟨_, _, _, _, rfl⟩ := hwrote
    obtain rfl := Except.ok.inj ((outputDone_eq (by exact hreg)).symm.trans hdone)
    split_ifs <;> rfl

theorem step_apart (hreg : c.Registered) {e : Event} (he : machine.enabled c e)
    (hw : ¬ c.Writes e) (hread : ∀ received sent, e = .resume received sent →
      c.todo.head? ≠ some (.channel .read)) (hshut : e ≠ .call .shutdown)
    (hretrieve : ∀ len, e ≠ .call (.retrieve len)) (hc : machine.step c e = .ok c') :
    Apart c c' := by
  cases e with
  | connectEstablished => exact connectEstablished_apart hreg he.2 hc
  | connectDestroyed => exact connectDestroyed_apart hreg hc
  | call call =>
    cases call with
    | send data sent errno => exact absurd trivial hw
    | sendInLoop data sent errno => exact absurd trivial hw
    | shutdown => exact absurd rfl hshut
    | forceClose => exact Except.ok.inj hc ▸ forceClose_apart
    | forceCloseWithDelay => exact Except.ok.inj hc ▸ forceCloseWithDelay_apart
    | startRead => exact startReadInLoop_apart hreg hc
    | stopRead => exact stopReadInLoop_apart hreg hc
    | retrieve len => exact absurd rfl (hretrieve len)
  | userDone => exact Except.ok.inj hc ▸ .of_eq rfl rfl rfl
  | polled revents => exact Except.ok.inj hc ▸ .of_eq rfl rfl rfl
  | dispatch => exact Except.ok.inj hc ▸ .of_eq rfl rfl rfl
  | resume received sent =>
    have hpop : Apart c { c with todo := c.todo.tail } := .of_eq rfl rfl rfl
    change c.resume received sent = _ at hc
    unfold TcpConnection.resume at hc
    cases htodo : c.todo with
    | nil => exact absurd htodo he.1
    | cons task rest =>
      rw [htodo] at hc hpop
      cases task with
      | channel callback =>
        cases callback with
        | close =>
          obtain ⟨-, rfl⟩ := handleClose_ok (by exact hreg) hc
          exact hpop.trans closed_apart
        | error => exact Except.ok.inj hc ▸ hpop
        | read => exact absurd (by rw [htodo]; rfl) (hread received sent rfl)
        | write => exact absurd (show c.todo.head? = _ by rw [htodo]; rfl) hw
      | user => exact Except.ok.inj hc ▸ hpop
      | closeCallback => exact Except.ok.inj hc ▸ hpop.trans (emit_apart (by simp))
      | remove =>
        obtain ⟨-, rfl⟩ := remove_ok hc
        exact hpop.trans removed_apart
  | runFunctor => exact runFunctor_apart hreg hc
  | delayed =>
    have hpop : Apart c { c with delayed := c.delayed - 1 } := .of_eq rfl rfl rfl
    exact Except.ok.inj hc ▸ hpop.trans forceClose_apart

theorem arrived_read {received : List UInt8} {sent : ℤ}
    (hhead : c.todo.head? = some (.channel .read)) :
    c.arrived (.resume received sent) = received := if_pos hhead

theorem writes_input (hreg : c.Registered) {e : Event} (hw : c.Writes e)
    (hc : machine.step c e = .ok c') :
    c.arrived e = [] ∧ c.retrieved e = [] ∧ c'.inputBuffer = c.inputBuffer := by
  cases e with
  | call call =>
    cases call with
    | send data sent errno =>
      change c.send data sent errno = _ at hc
      unfold TcpConnection.send at hc
      split_ifs at hc
      · exact ⟨rfl, rfl, sendInLoop_input hreg hc⟩
      · exact ⟨rfl, rfl, Except.ok.inj hc ▸ rfl⟩
    | sendInLoop data sent errno => exact ⟨rfl, rfl, sendInLoop_input hreg hc⟩
    | _ => exact hw.elim
  | resume received sent =>
    have hhead : c.todo.head? = some (.channel .write) := hw
    have htodo := List.eq_cons_of_mem_head? (Option.mem_def.mpr hhead)
    change c.resume received sent = _ at hc
    unfold TcpConnection.resume at hc
    rw [htodo] at hc
    refine ⟨if_neg (by simp [hhead]), rfl, ?_⟩
    exact handleWrite_input (c := { c with todo := c.todo.tail }) hreg hc
  | _ => exact hw.elim

theorem Intact.step_input (h : c.Intact) {e : Event} (he : machine.enabled c e)
    (hc : machine.step c e = .ok c') :
    c.inputBuffer.readable ++ c.arrived e = c.retrieved e ++ c'.inputBuffer.readable := by
  have hsame : c.arrived e = [] → c.retrieved e = [] → c'.inputBuffer = c.inputBuffer →
      c.inputBuffer.readable ++ c.arrived e = c.retrieved e ++ c'.inputBuffer.readable := by
    intro harrived hretrieved hinput
    rw [harrived, hretrieved, hinput, List.append_nil, List.nil_append]
  by_cases hw : c.Writes e
  · obtain ⟨harrived, hretrieved, hinput⟩ := writes_input h.registered hw hc
    exact hsame harrived hretrieved hinput
  by_cases hread : ∃ received sent, e = .resume received sent ∧
      c.todo.head? = some (.channel .read)
  · obtain ⟨received, sent, rfl, hhead⟩ := hread
    have hpop : Intact { c with todo := c.todo.tail } :=
      ⟨h.input, h.output, h.registered, h.stream⟩
    change c.resume received sent = _ at hc
    unfold TcpConnection.resume at hc
    rw [List.eq_cons_of_mem_head? (Option.mem_def.mpr hhead)] at hc
    rw [arrived_read hhead]
    exact (handleRead_input hpop hc).1.symm
  by_cases hretrieve : ∃ len, e = .call (.retrieve len)
  · obtain ⟨len, rfl⟩ := hretrieve
    obtain ⟨b, hb, -, hq⟩ := Buffer.retrieve_holds h.input he.2.2
    obtain ⟨b', hb', hc⟩ := bind_eq_ok.mp hc
    obtain rfl := Except.ok.inj (hb.symm.trans hb')
    obtain rfl := Except.ok.inj hc
    change c.inputBuffer.readable ++ [] = c.inputBuffer.readable.take len ++ b.readable
    rw [hq, List.append_nil, List.take_append_drop]
  have hnone : c.arrived e = [] := by
    cases e with
    | resume received sent => exact if_neg fun hhead => hread ⟨received, sent, rfl, hhead⟩
    | _ => rfl
  have htake : c.retrieved e = [] := by
    cases e with
    | call call =>
      cases call with
      | retrieve len => exact absurd ⟨len, rfl⟩ hretrieve
      | _ => rfl
    | _ => rfl
  by_cases hshut : e = .call .shutdown
  · obtain rfl := hshut
    obtain rfl := Except.ok.inj hc
    refine hsame rfl rfl ?_
    unfold shutdown
    split_ifs <;> rfl
  · exact hsame hnone htake (step_apart h.registered he hw
      (fun received sent hres hhead => hread ⟨received, sent, hres, hhead⟩) hshut
      (fun len hlen => hretrieve ⟨len, hlen⟩) hc).input

theorem sendInLoop_accepted (h : c.Intact) {data : List UInt8} {sent : ℤ} {errno : Errno}
    (hc : c.sendInLoop data sent errno = .ok c') : c.accepted <+: c'.accepted := by
  unfold TcpConnection.sendInLoop at hc
  by_cases hs : c.state = .kDisconnected
  · simp only [if_pos hs] at hc
    exact Except.ok.inj hc ▸ List.prefix_rfl
  · simp only [if_neg hs] at hc
    have hdirect : c.accepted <+:
        ({ c with messages := c.messages ++ data }.writeDirectly data sent errno).2.accepted ∧
        ({ c with messages := c.messages ++ data }.writeDirectly data sent errno).2.outputBuffer =
          c.outputBuffer ∧
        ({ c with messages := c.messages ++ data }.writeDirectly data sent errno).2.Registered := by
      unfold writeDirectly
      split_ifs
      · exact ⟨List.prefix_append _ _, rfl, h.registered⟩
      · exact ⟨List.prefix_rfl, rfl, h.registered⟩
    generalize { c with messages := c.messages ++ data }.writeDirectly data sent errno = w
      at hc hdirect
    obtain ⟨d, w⟩ := w
    obtain ⟨hfront, hout, hreg⟩ := hdirect
    dsimp only at hc hfront hout hreg
    obtain ⟨-, hc⟩ := require_bind_eq_ok.mp hc
    split_ifs at hc
    · have hvalid : w.outputBuffer.Valid := by rw [hout]; exact h.output
      obtain ⟨b, w', hw', -, -, hkeep⟩ := buffer_spec hvalid hreg data d
      obtain rfl := Except.ok.inj (hw'.symm.trans hc)
      rw [hkeep.accepted]
      exact hfront
    · exact Except.ok.inj hc ▸ hfront

theorem handleWrite_accepted (h : c.Intact) {sent : ℤ} (hc : c.handleWrite sent = .ok c') :
    c.accepted <+: c'.accepted := by
  unfold TcpConnection.handleWrite at hc
  dsimp only at hc
  split_ifs at hc
  · obtain ⟨b, -, hc⟩ := bind_eq_ok.mp hc
    split_ifs at hc
    · obtain ⟨c₁, hc₁, hkeep⟩ := outputDone_keeps
        (c := { c.accept c.outputBuffer.readable sent with outputBuffer := b }) h.registered
      obtain rfl := Except.ok.inj (hc₁.symm.trans hc)
      rw [hkeep.accepted]
      exact List.prefix_append _ _
    · exact Except.ok.inj hc ▸ List.prefix_append _ _
  · exact Except.ok.inj hc ▸ List.prefix_append _ _
  · exact Except.ok.inj hc ▸ List.prefix_rfl

theorem Intact.step_accepted (h : c.Intact) {e : Event} (he : machine.enabled c e)
    (hc : machine.step c e = .ok c') : c.accepted <+: c'.accepted := by
  by_cases hw : c.Writes e
  · cases e with
    | call call =>
      cases call with
      | send data sent errno =>
        change c.send data sent errno = _ at hc
        unfold TcpConnection.send at hc
        split_ifs at hc
        · exact sendInLoop_accepted h hc
        · exact Except.ok.inj hc ▸ List.prefix_rfl
      | sendInLoop data sent errno => exact sendInLoop_accepted h hc
      | _ => exact hw.elim
    | resume received sent =>
      have hpop : Intact { c with todo := c.todo.tail } :=
        ⟨h.input, h.output, h.registered, h.stream⟩
      change c.resume received sent = _ at hc
      unfold TcpConnection.resume at hc
      rw [List.eq_cons_of_mem_head? (Option.mem_def.mpr hw)] at hc
      exact handleWrite_accepted (c := { c with todo := c.todo.tail }) hpop hc
    | _ => exact hw.elim
  · rw [(h.others he hw hc).accepted]

/-- No functor of `send` runs behind `shutdownWrite()`. -/
def Timely (c : TcpConnection) : Event → Prop
  | .call (.sendInLoop _ _ _) => c.shutdowns = 0
  | _ => True

/-- Behind `shutdownWrite()` nothing is said any more, and the kernel has taken all that was. -/
structure Finished (c : TcpConnection) : Prop where
  intact : c.Intact
  poised : c.state ≠ .kDisconnected → c.Poised
  down : c.state = .kDisconnected → c.channel.isWriting = false
  past : 0 < c.shutdowns → c.Past ∧ c.accepted = c.messages
  front : c.accepted <+: c.messages

theorem create_finished (fd : ℕ) (callbacks : Callbacks) (highWaterMark : ℕ) :
    (create fd callbacks highWaterMark).Finished := by
  refine ⟨create_intact _ _ _, fun _ => ?_, nofun, fun h => absurd h (Nat.lt_irrefl 0),
    List.prefix_rfl⟩
  refine iff_of_false ?_ (not_not.mpr (Nat.sub_self _))
  simp [create, Channel.create, Channel.isWriting_iff]

theorem Finished.all_accepted (h : c.Finished) (hs : c.state ≠ .kDisconnected)
    (hw : c.channel.isWriting = false) : c.accepted = c.messages := by
  have hzero : c.outputBuffer.readableBytes = 0 := by
    by_contra hne
    exact Bool.false_ne_true (hw.symm.trans ((h.poised hs).mpr hne))
  have hstream := h.intact.stream hs
  have hnil : c.outputBuffer.readable = [] := by
    rw [← List.length_eq_zero_iff, h.intact.output.readable_length, hzero]
  rwa [hnil, List.append_nil] at hstream

theorem Finished.of_up (hintact : c.Intact) (hs : c.state ≠ .kDisconnected) (hp : c.Poised)
    (hpast : 0 < c.shutdowns → c.Past ∧ c.accepted = c.messages) : c.Finished :=
  ⟨hintact, fun _ => hp, fun hd => absurd hd hs, hpast, ⟨_, hintact.stream hs⟩⟩

theorem Finished.sendInLoop (h : c.Finished) (hzero : c.shutdowns = 0) {data : List UInt8}
    {sent : ℤ} {errno : Errno} (hlen : data.length < sockets.sizeMod)
    (hsends : c.state ≠ .kDisconnected → c.writesDirectly → sockets.Counts data.length sent)
    (hc : c.sendInLoop data sent errno = .ok c') : c'.Finished := by
  by_cases hs : c.state = .kDisconnected
  · unfold TcpConnection.sendInLoop at hc
    simp only [if_pos hs] at hc
    obtain rfl := Except.ok.inj hc
    have hi := h.intact
    exact ⟨⟨hi.input, hi.output, hi.registered, absurd hs⟩, h.poised, h.down,
      fun hpos => absurd hzero hpos.ne', h.front.trans (List.prefix_append _ _)⟩
  · obtain ⟨hintact, hpoised, hframe⟩ :=
      h.intact.sendInLoop_flush (h.poised hs) hs hlen (hsends hs) hc
    refine .of_up hintact (fun hd => hs (hframe.state.symm.trans hd)) hpoised fun hpos => ?_
    exact absurd (hframe.shutdowns.trans hzero) hpos.ne'

theorem Finished.connected (h : c.Finished) (hs : c.state = .kConnected) : c.shutdowns = 0 := by
  by_contra hne
  rcases (h.past (Nat.pos_of_ne_zero hne)).1 with hd | hd <;> cases hs.symm.trans hd

theorem Finished.handleWrite (h : c.Finished) {sent : ℤ}
    (hcount : c.channel.isWriting = true → sockets.Counts c.outputBuffer.readableBytes sent)
    (hc : c.handleWrite sent = .ok c') : c'.Finished := by
  by_cases hw : c.channel.isWriting = true
  · have hs : c.state ≠ .kDisconnected := fun hs => by simp [h.down hs] at hw
    obtain ⟨hintact, hwritten⟩ := h.intact.handleWrite_flush (h.poised hs) (hcount hw) hc
    have hup : c'.state ≠ .kDisconnected := fun hd => hs (hwritten.state.symm.trans hd)
    have hzero : c.shutdowns = 0 := by
      by_contra hne
      obtain ⟨-, hall⟩ := h.past (Nat.pos_of_ne_zero hne)
      have hstream := h.intact.stream hs
      rw [hall] at hstream
      have hnil : c.outputBuffer.readable = [] :=
        List.append_cancel_left (hstream.trans (List.append_nil _).symm)
      refine (h.poised hs).mp hw ?_
      rw [← h.intact.output.readable_length, hnil, List.length_nil]
    refine .of_up hintact hup hwritten.poised fun hpos => ?_
    -- only the write that empties the buffer shuts down
    have hdrains : c.Drains sent := by
      by_contra hnot
      have hshut := hwritten.shutdowns
      rw [if_neg hnot, hzero] at hshut
      omega
    have hstream := hintact.stream hup
    have hnil : c'.outputBuffer.readable = [] := by
      rw [← List.length_eq_zero_iff, hintact.output.readable_length, hwritten.drained hdrains]
    rw [hnil, List.append_nil] at hstream
    exact ⟨.inl (hwritten.state.trans hdrains.2.1), hstream⟩
  · unfold TcpConnection.handleWrite at hc
    rw [if_neg hw] at hc
    exact Except.ok.inj hc ▸ h

theorem Finished.shutdown (h : c.Finished) : c.shutdown.Finished := by
  unfold TcpConnection.shutdown
  split_ifs with hs
  · have hup : c.state ≠ .kDisconnected := by simp [hs]
    have hi := h.intact
    refine .of_up ⟨hi.input, hi.output, hi.registered, fun _ => hi.stream hup⟩
      (by simp [shutdownInLoop, setState, emit]) (h.poised hup) fun hpos => ⟨.inl rfl, ?_⟩
    rw [shutdownInLoop_shutdowns, setState_shutdowns, h.connected hs, Nat.zero_add] at hpos
    refine h.all_accepted hup (Bool.eq_false_iff.mpr fun hw => ?_)
    rw [if_pos (by exact hw)] at hpos
    exact absurd hpos (Nat.lt_irrefl 0)
  · exact h

theorem Finished.others (h : c.Finished) {e : Event} (he : machine.enabled c e)
    (hw : ¬ c.Writes e) (hshut : c'.shutdowns = c.shutdowns) (hpast : c.Past → c'.Past)
    (hc : machine.step c e = .ok c') : c'.Finished := by
  have hkeep := h.intact.others he hw hc
  have hpassive := step_passive h.intact.registered he hw hc
  refine ⟨h.intact.keeps hkeep, fun hs => ?_, fun hs => ?_, fun hpos => ?_, ?_⟩
  · have hup := hkeep.state hs
    have hpoised := h.poised hup
    unfold Poised at *
    rw [hpassive.writing, hkeep.output, ← hpoised]
    exact and_iff_left (.inr hs)
  · by_contra htrue
    obtain ⟨hwriting, hdown⟩ := hpassive.writing.mp (Bool.eq_true_of_not_eq_false htrue)
    rcases hdown with hdown | hup
    · exact Bool.false_ne_true ((h.down hdown).symm.trans hwriting)
    · exact hup hs
  · rw [hshut] at hpos
    obtain ⟨hold, hall⟩ := h.past hpos
    exact ⟨hpast hold, hkeep.accepted.trans (hall.trans hkeep.messages.symm)⟩
  · rw [hkeep.accepted, hkeep.messages]
    exact h.front

theorem counts_of_sends {count : ℕ} {sent : ℤ} (h : sockets.Sends count sent) (hne : sent ≠ -1) :
    sockets.Counts count sent := h.resolve_left hne

theorem Finished.step (h : c.Finished) {e : Event} (he : machine.enabled c e)
    (hu : c.Unrefused e) (ht : c.Timely e) (hc : machine.step c e = .ok c') : c'.Finished := by
  by_cases hw : c.Writes e
  · cases e with
    | call call =>
      obtain ⟨-, -, hpossible⟩ := he
      cases call with
      | send data sent errno =>
        change c.send data sent errno = _ at hc
        unfold TcpConnection.send at hc
        split_ifs at hc with hs
        · exact h.sendInLoop (h.connected hs) hpossible.1
            (fun _ hd => counts_of_sends (hpossible.2 hd) (hu hs hd)) hc
        · exact Except.ok.inj hc ▸ h
      | sendInLoop data sent errno =>
        exact h.sendInLoop ht hpossible.1
          (fun hs hd => counts_of_sends (hpossible.2 hd) (hu hs hd)) hc
      | _ => exact hw.elim
    | resume received sent =>
      obtain ⟨-, -, -, hsends⟩ := he
      have hi := h.intact
      have hpop : Finished { c with todo := c.todo.tail } :=
        ⟨⟨hi.input, hi.output, hi.registered, hi.stream⟩, h.poised, h.down, h.past, h.front⟩
      change c.resume received sent = _ at hc
      unfold TcpConnection.resume at hc
      rw [List.eq_cons_of_mem_head? (Option.mem_def.mpr hw)] at hc
      exact hpop.handleWrite (fun hwriting => counts_of_sends hsends (hu hw hwriting)) hc
    | _ => exact hw.elim
  by_cases hread : ∃ received sent, e = .resume received sent ∧
      c.todo.head? = some (.channel .read)
  · have hstep := hc
    obtain ⟨received, sent, rfl, hhead⟩ := hread
    have hi := h.intact
    have hpop : Intact { c with todo := c.todo.tail } :=
      ⟨hi.input, hi.output, hi.registered, hi.stream⟩
    change c.resume received sent = _ at hc
    unfold TcpConnection.resume at hc
    rw [List.eq_cons_of_mem_head? (Option.mem_def.mpr hhead)] at hc
    obtain ⟨-, hshut, hpast⟩ := handleRead_input hpop hc
    exact h.others he hw hshut hpast hstep
  by_cases hretrieve : ∃ len, e = .call (.retrieve len)
  · have hstep := hc
    obtain ⟨len, rfl⟩ := hretrieve
    obtain ⟨b, -, hc⟩ := bind_eq_ok.mp hc
    obtain rfl := Except.ok.inj hc
    exact h.others he hw rfl id hstep
  by_cases hshut : e = .call .shutdown
  · obtain rfl := hshut
    exact Except.ok.inj hc ▸ h.shutdown
  · have happart := step_apart h.intact.registered he hw
      (fun received sent hres hhead => hread ⟨received, sent, hres, hhead⟩) hshut
      (fun len hlen => hretrieve ⟨len, hlen⟩) hc
    exact h.others he hw happart.shutdowns happart.past hc

end TcpConnection

/-- The two ends, what the network carries towards each, and what the user of each has taken out of
its input buffer. -/
structure Link where
  ends : Bool → TcpConnection
  wire : Bool → List UInt8
  taken : Bool → List UInt8

namespace Link

def create (fd : Bool → ℕ) (callbacks : Bool → Callbacks) (highWaterMark : Bool → ℕ) : Link :=
  { ends := fun i => .create (fd i) (callbacks i) (highWaterMark i)
    wire := fun _ => [], taken := fun _ => [] }

/-- End `i` has become `c` by the event; the kernel of `i` passes on what it took. -/
def moved (s : Link) (i : Bool) (e : TcpConnection.Event) (c : TcpConnection) : Link :=
  { ends := Function.update s.ends i c
    wire := fun j => if j = i then (s.wire i).drop ((s.ends i).arrived e).length
      else s.wire j ++ c.accepted.drop (s.ends i).accepted.length
    taken := Function.update s.taken i (s.taken i ++ (s.ends i).retrieved e) }

def machine : Machine Link (Bool × TcpConnection.Event) Fault where
  enabled s e := TcpConnection.machine.enabled (s.ends e.1) e.2 ∧
    (s.ends e.1).arrived e.2 <+: s.wire e.1 ∧
    ((s.ends e.1).EndOfStream e.2 → s.wire e.1 = [] ∧
      (0 < (s.ends !e.1).shutdowns ∨ (s.ends !e.1).state = .kDisconnected))
  step s e := do
    let c ← TcpConnection.machine.step (s.ends e.1) e.2
    pure (s.moved e.1 e.2 c)

instance (s : Link) (e : Bool × TcpConnection.Event) : Decidable (machine.enabled s e) :=
  inferInstanceAs (Decidable (_ ∧ _ ∧ (_ → _ ∧ (_ ∨ _))))

/-- Neither is a call of `::send` refused, nor does a functor of `send` run behind
`shutdownWrite()`. -/
def Fair (s : Link) (e : Bool × TcpConnection.Event) : Prop :=
  (s.ends e.1).Unrefused e.2 ∧ (s.ends e.1).Timely e.2

/-- What end `i` has got of what the other one said. -/
def got (s : Link) (i : Bool) : List UInt8 := s.taken i ++ (s.ends i).inputBuffer.readable

structure Inv (s : Link) : Prop where
  finished : ∀ i, (s.ends i).Finished
  carried : ∀ i, s.got i ++ s.wire i = (s.ends !i).accepted

variable {s t : Link}

theorem create_inv (fd : Bool → ℕ) (callbacks : Bool → Callbacks) (highWaterMark : Bool → ℕ) :
    (create fd callbacks highWaterMark).Inv :=
  ⟨fun i => TcpConnection.create_finished _ _ _, fun i => by
    change [] ++ (Buffer.ofSize Buffer.kInitialSize).readable ++ [] = []
    rw [Buffer.ofSize_readable]
    rfl⟩

theorem Inv.step (h : s.Inv) {e : Bool × TcpConnection.Event} (he : machine.enabled s e)
    (hp : s.Fair e) (hs : machine.step s e = .ok t) : t.Inv := by
  obtain ⟨i, e⟩ := e
  obtain ⟨henabled, harrived, -⟩ := he
  obtain ⟨c, hc, hs⟩ := bind_eq_ok.mp hs
  obtain rfl := Except.ok.inj hs
  dsimp only at *
  have hi := h.finished i
  have hinput := hi.intact.step_input henabled hc
  have haccepted := hi.intact.step_accepted henabled hc
  refine ⟨fun j => ?_, fun j => ?_⟩
  · change (Function.update s.ends i c j).Finished
    by_cases hj : j = i
    · rw [hj, Function.update_self]
      exact hi.step henabled hp.1 hp.2 hc
    · rw [Function.update_of_ne hj]
      exact h.finished j
  · have hold := h.carried j
    by_cases hj : j = i
    · obtain rfl := hj
      have hother : (s.moved j e c).ends (!j) = s.ends !j :=
        Function.update_of_ne (by cases j <;> simp) _ _
      have hends : (s.moved j e c).ends j = c := Function.update_self _ _ _
      have htaken : (s.moved j e c).taken j = s.taken j ++ (s.ends j).retrieved e :=
        Function.update_self _ _ _
      have hwire : (s.moved j e c).wire j = (s.wire j).drop ((s.ends j).arrived e).length :=
        if_pos rfl
      obtain ⟨rest, hrest⟩ := harrived
      unfold got at *
      rw [hother, hends, htaken, hwire, ← hold, ← hrest, List.drop_left,
        List.append_assoc (s.taken j), ← hinput]
      simp only [List.append_assoc]
    · obtain rfl : j = !i := by cases i <;> cases j <;> simp_all
      have hends : (s.moved i e c).ends (!i) = s.ends !i := Function.update_of_ne hj _ _
      have htaken : (s.moved i e c).taken (!i) = s.taken !i := Function.update_of_ne hj _ _
      have hwire : (s.moved i e c).wire (!i) =
          s.wire (!i) ++ c.accepted.drop (s.ends i).accepted.length := if_neg hj
      have hself : (s.moved i e c).ends (!!i) = c := by
        rw [Bool.not_not]
        exact Function.update_self _ _ _
      rw [Bool.not_not] at hold
      obtain ⟨new, hnew⟩ := haccepted
      unfold got at *
      rw [hself, hends, htaken, hwire, ← hnew, List.drop_left, ← List.append_assoc, hold]

theorem Inv.run (h : s.Inv) {es : List (Bool × TcpConnection.Event)}
    (hrun : machine.Run Fair s es t) : t.Inv :=
  hrun.invariant Inv h fun _ _ _ hu he hp hv => hu.step he hp hv

/-- What end `i` and the other end have to do with each other. -/
structure Delivers (s : Link) (i : Bool) : Prop where
  /-- Nothing is lost, doubled, added or exchanged. -/
  front : s.got i ++ s.wire i <+: (s.ends !i).messages
  whole : (s.ends !i).Up →
    s.got i ++ s.wire i ++ (s.ends !i).outputBuffer.readable = (s.ends !i).messages
  /-- A peer that has shut down has said everything. -/
  shut : 0 < (s.ends !i).shutdowns → s.got i ++ s.wire i = (s.ends !i).messages
  /-- The end of the stream comes behind the last byte. -/
  complete : ∀ sent, machine.enabled s (i, .resume [] sent) →
    (s.ends i).todo.head? = some (.channel .read) →
    0 < (s.ends !i).shutdowns ∨ (s.ends !i).state ≠ .kDisconnected →
    s.got i = (s.ends !i).messages

theorem Inv.delivers (h : s.Inv) (i : Bool) : s.Delivers i := by
  have hcarried := h.carried i
  have hpeer := h.finished !i
  have hshut : 0 < (s.ends !i).shutdowns → s.got i ++ s.wire i = (s.ends !i).messages :=
    fun hpos => hcarried.trans (hpeer.past hpos).2
  refine ⟨hcarried ▸ hpeer.front, fun hup => ?_, hshut, fun sent he hhead hor => ?_⟩
  · rw [hcarried]
    exact hpeer.intact.stream (by rcases hup with hs | hs <;> simp [hs])
  · obtain ⟨-, -, hend⟩ := he
    obtain ⟨hwire, hclosed⟩ := hend ⟨hhead, rfl⟩
    have hall := hshut (hor.elim id fun hs => hclosed.resolve_right hs)
    rwa [hwire, List.append_nil] at hall

/-- Over any network delays and partial writes and reads, each end gets what the other one says. -/
theorem link_delivers {fd : Bool → ℕ} {callbacks : Bool → Callbacks} {highWaterMark : Bool → ℕ}
    {es : List (Bool × TcpConnection.Event)} {s : Link}
    (h : machine.Run Fair (create fd callbacks highWaterMark) es s) (i : Bool) : s.Delivers i :=
  ((create_inv fd callbacks highWaterMark).run h).delivers i

instance (c : TcpConnection) : ∀ e, Decidable (c.Timely e)
  | .call (.sendInLoop _ _ _) => inferInstanceAs (Decidable (c.shutdowns = 0))
  | .call (.send _ _ _) | .call .shutdown | .call .forceClose | .call .forceCloseWithDelay
  | .call .startRead | .call .stopRead | .call (.retrieve _) | .connectEstablished
  | .connectDestroyed | .userDone | .polled _ | .dispatch | .resume _ _ | .runFunctor
  | .delayed => .isTrue trivial

instance (s : Link) (e : Bool × TcpConnection.Event) : Decidable (s.Fair e) :=
  inferInstanceAs (Decidable (_ ∧ _))

/-- Three bytes in two pieces, and `shutdown` while the last one waits: the peer sees the end of the
stream behind them. -/
theorem link_delivers_shutdown : ∃ s, machine.Run Fair
    (create (fun _ => 3) (fun _ => ⟨true, true, true, true, true⟩) fun _ => 64)
    [(false, .connectEstablished), (false, .userDone), (true, .connectEstablished),
      (true, .userDone), (false, .call (.send [1, 2, 3] 2 .other)), (false, .call .shutdown),
      (true, .polled [POLLIN]), (true, .dispatch), (true, .resume [1, 2] 0),
      (true, .call (.retrieve 2)), (true, .userDone), (false, .polled [POLLOUT]),
      (false, .dispatch), (false, .resume [] 1), (true, .polled [POLLIN]), (true, .dispatch),
      (true, .resume [3] 0), (true, .userDone), (true, .polled [POLLIN]), (true, .dispatch)] s ∧
    s.Delivers true ∧ machine.enabled s (true, .resume [] 0) ∧ s.got true = [1, 2, 3] := by
  obtain ⟨s, hs, hp⟩ := Machine.exists_run_of_exec machine Fair
    (create (fun _ => 3) (fun _ => ⟨true, true, true, true, true⟩) fun _ => 64)
    [(false, .connectEstablished), (false, .userDone), (true, .connectEstablished),
      (true, .userDone), (false, .call (.send [1, 2, 3] 2 .other)), (false, .call .shutdown),
      (true, .polled [POLLIN]), (true, .dispatch), (true, .resume [1, 2] 0),
      (true, .call (.retrieve 2)), (true, .userDone), (false, .polled [POLLOUT]),
      (false, .dispatch), (false, .resume [] 1), (true, .polled [POLLIN]), (true, .dispatch),
      (true, .resume [3] 0), (true, .userDone), (true, .polled [POLLIN]), (true, .dispatch)]
    (fun s => decide (machine.enabled s (true, .resume [] 0) ∧ s.got true = [1, 2, 3]))
    (by decide +kernel)
  exact ⟨s, hs, link_delivers hs true, of_decide_eq_true hp⟩

end Link
end MuduoWindows.Net
