import MuduoWindows.Net.Connector.Handing
import MuduoWindows.Net.TcpClient

/-! # One connection at a time

The connector hands the next socket over only after a restart, and the client restarts it when the
connection has ended. So the client has at most one connection that has not ended, and
`connection_` is that one.
-/

namespace MuduoWindows.Net
open Library

namespace TcpConnection
variable {c c' c'' : TcpConnection}

/-! ## The end of a connection -/

/-- The calls of `closeCallback_` to come. -/
def closes (c : TcpConnection) : ℕ := c.todo.count .closeCallback

/-- A step after which the connection is up or down as before. -/
structure Lasts (c c' : TcpConnection) : Prop where
  registered : c.Registered → c'.Registered
  callbacks : c'.callbacks = c.callbacks
  destroyed : c'.destroyed = c.destroyed
  down : c'.state = .kDisconnected ↔ c.state = .kDisconnected
  closes : c'.closes = c.closes

/-- The step takes the connection down. -/
structure Ends (c c' : TcpConnection) : Prop where
  registered : c'.Registered
  callbacks : c'.callbacks = c.callbacks
  destroyed : c'.destroyed = c.destroyed
  up : c.state ≠ .kDisconnected
  down : c'.state = .kDisconnected
  closes : c'.closes = c.closes + if c.callbacks.close then 1 else 0

theorem Lasts.refl : Lasts c c := ⟨id, rfl, rfl, Iff.rfl, rfl⟩

theorem Lasts.trans (h : Lasts c c') (k : Lasts c' c'') : Lasts c c'' :=
  ⟨k.registered ∘ h.registered, k.callbacks.trans h.callbacks, k.destroyed.trans h.destroyed,
    k.down.trans h.down, k.closes.trans h.closes⟩

theorem Lasts.trans_ends (h : Lasts c c') (k : Ends c' c'') : Ends c c'' := by
  refine ⟨k.registered, k.callbacks.trans h.callbacks, k.destroyed.trans h.destroyed,
    mt h.down.mpr k.up, k.down, ?_⟩
  rw [k.closes, h.closes, h.callbacks]

theorem updated_lasts (change : Channel → Channel) : Lasts c (c.updated change) :=
  ⟨fun _ => updated_registered c change, rfl, rfl, Iff.rfl, rfl⟩

theorem Wrote.lasts (h : Wrote c c') : Lasts c c' := by
  obtain ⟨_, _, _, _, rfl⟩ := h
  exact ⟨id, rfl, rfl, Iff.rfl, rfl⟩

theorem setState_lasts (hs : c.state = .kConnected ∨ c.state = .kDisconnecting) :
    Lasts c (c.setState .kDisconnecting) := by
  refine ⟨id, rfl, rfl, iff_of_false nofun ?_, rfl⟩
  rcases hs with hs | hs <;> simp [hs]

theorem shutdown_lasts : Lasts c c.shutdown := by
  unfold shutdown
  split_ifs with hs
  · exact (setState_lasts (.inl hs)).trans ⟨id, rfl, rfl, Iff.rfl, rfl⟩
  · exact .refl

theorem forceClose_lasts : Lasts c c.forceClose := by
  unfold forceClose
  split_ifs with hs
  · exact (setState_lasts hs).trans ⟨id, rfl, rfl, Iff.rfl, rfl⟩
  · exact .refl

theorem forceCloseWithDelay_lasts : Lasts c c.forceCloseWithDelay := by
  unfold forceCloseWithDelay
  split_ifs with hs
  · exact (setState_lasts hs).trans ⟨id, rfl, rfl, Iff.rfl, rfl⟩
  · exact .refl

theorem sendInLoop_lasts {data : List UInt8} {sent : ℤ} {errno : Errno} (hreg : c.Registered)
    (hc : c.sendInLoop data sent errno = .ok c') : Lasts c c' := by
  rcases sendInLoop_cases hreg hc with hwrote | ⟨-, m, hwrote, rfl⟩
  · exact hwrote.lasts
  · exact hwrote.lasts.trans (updated_lasts _)

theorem outputDone_lasts (hreg : c.Registered) (hc : c.outputDone = .ok c') : Lasts c c' := by
  rw [outputDone_eq hreg] at hc
  obtain rfl := Except.ok.inj hc
  have hdrained : Lasts c c.drained := (updated_lasts _).trans ⟨id, rfl, rfl, Iff.rfl, rfl⟩
  split_ifs
  · exact hdrained.trans ⟨id, rfl, rfl, Iff.rfl, rfl⟩
  · exact hdrained

theorem handleWrite_lasts {sent : ℤ} (hreg : c.Registered) (hc : c.handleWrite sent = .ok c') :
    Lasts c c' := by
  rcases handleWrite_cases hc with hwrote | ⟨-, m, hwrote, hdone⟩
  · exact hwrote.lasts
  · exact hwrote.lasts.trans (outputDone_lasts (hwrote.lasts.registered hreg) hdone)

theorem startReadInLoop_lasts (hreg : c.Registered) (hc : c.startReadInLoop = .ok c') :
    Lasts c c' := by
  rw [startReadInLoop_eq hreg] at hc
  obtain rfl := Except.ok.inj hc
  split_ifs
  · exact (updated_lasts _).trans ⟨id, rfl, rfl, Iff.rfl, rfl⟩
  · exact .refl

theorem stopReadInLoop_lasts (hreg : c.Registered) (hc : c.stopReadInLoop = .ok c') :
    Lasts c c' := by
  rw [stopReadInLoop_eq hreg] at hc
  obtain rfl := Except.ok.inj hc
  split_ifs
  · exact (updated_lasts _).trans ⟨id, rfl, rfl, Iff.rfl, rfl⟩
  · exact .refl

theorem call_lasts {call : Call} (hreg : c.Registered) (hc : c.call call = .ok c') :
    Lasts c c' := by
  cases call with
  | send data sent errno =>
    change c.send data sent errno = _ at hc
    unfold send at hc
    split_ifs at hc
    · exact sendInLoop_lasts hreg hc
    · exact Except.ok.inj hc ▸ .refl
  | sendInLoop data sent errno => exact sendInLoop_lasts hreg hc
  | shutdown => exact Except.ok.inj hc ▸ shutdown_lasts
  | forceClose => exact Except.ok.inj hc ▸ forceClose_lasts
  | forceCloseWithDelay => exact Except.ok.inj hc ▸ forceCloseWithDelay_lasts
  | startRead => exact startReadInLoop_lasts hreg hc
  | stopRead => exact stopReadInLoop_lasts hreg hc
  | retrieve len =>
    obtain ⟨b, -, hc⟩ := bind_eq_ok.mp hc
    exact Except.ok.inj hc ▸ ⟨id, rfl, rfl, Iff.rfl, rfl⟩

theorem handleClose_ends (hreg : c.Registered) (hc : c.handleClose = .ok c') : Ends c c' := by
  obtain ⟨hup, rfl⟩ := handleClose_ok hreg hc
  refine ⟨updated_registered _ _, rfl, rfl, ?_, rfl, ?_⟩
  · rcases hup with hs | hs <;> simp [hs]
  · change (if c.callbacks.connection then Task.user ::
        (if c.callbacks.close then Task.closeCallback :: c.todo else c.todo)
      else (if c.callbacks.close then Task.closeCallback :: c.todo else c.todo)).count _ = _
    unfold closes
    split_ifs <;> simp

theorem handleRead_goes {received : List UInt8} (hreg : c.Registered)
    (hc : c.handleRead received = .ok c') : Lasts c c' ∨ Ends c c' := by
  obtain ⟨b, -, ⟨-, -, rfl⟩ | ⟨-, -, rfl⟩ | ⟨-, hclose⟩⟩ := handleRead_cases hc
  · refine .inl ⟨id, rfl, rfl, Iff.rfl, ?_⟩
    change (Task.user :: c.todo).count .closeCallback = c.todo.count .closeCallback
    exact List.count_cons_of_ne (by simp)
  · exact .inl ⟨id, rfl, rfl, Iff.rfl, rfl⟩
  · have hinput : Lasts c { c with inputBuffer := b } := ⟨id, rfl, rfl, Iff.rfl, rfl⟩
    exact .inr (hinput.trans_ends (handleClose_ends (by exact hreg) hclose))

theorem forceCloseInLoop_goes (hreg : c.Registered) (hc : c.forceCloseInLoop = .ok c') :
    Lasts c c' ∨ Ends c c' := by
  unfold forceCloseInLoop at hc
  split_ifs at hc
  · exact .inr (handleClose_ends hreg hc)
  · exact .inl (Except.ok.inj hc ▸ .refl)

theorem pop_lasts {task : Task} {rest : List Task} (htodo : c.todo = task :: rest)
    (hne : task ≠ .closeCallback) : Lasts c { c with todo := c.todo.tail } := by
  refine ⟨id, rfl, rfl, Iff.rfl, ?_⟩
  unfold closes
  rw [htodo, List.count_cons_of_ne hne]
  rfl

theorem remove_lasts (hc : c.remove = .ok c') : Lasts c c' := by
  obtain ⟨-, rfl⟩ := remove_ok hc
  refine ⟨fun _ => ?_, rfl, rfl, Iff.rfl, rfl⟩
  unfold Registered EPollPoller.Registered removed
  rw [if_pos rfl]
  exact Function.update_self _ _ _

theorem runFunctor_goes (hreg : c.Registered) (hc : c.runFunctor = .ok c') :
    Lasts c c' ∨ Ends c c' := by
  have hpop : Lasts c { c with pendingFunctors := c.pendingFunctors.tail } :=
    ⟨id, rfl, rfl, Iff.rfl, rfl⟩
  have huser : Lasts { c with pendingFunctors := c.pendingFunctors.tail }
      { c with pendingFunctors := c.pendingFunctors.tail, todo := .user :: c.todo } := by
    refine ⟨id, rfl, rfl, Iff.rfl, ?_⟩
    change (Task.user :: c.todo).count .closeCallback = c.todo.count .closeCallback
    exact List.count_cons_of_ne (by simp)
  unfold runFunctor at hc
  cases hqueue : c.pendingFunctors with
  | nil =>
    rw [hqueue] at hc hpop
    exact .inl (Except.ok.inj hc ▸ hpop)
  | cons f rest =>
    rw [hqueue] at hc hpop huser
    cases f with
    | forceCloseInLoop =>
      exact (forceCloseInLoop_goes (by exact hreg) hc).imp hpop.trans hpop.trans_ends
    | writeCompleteCallback | highWaterMarkCallback _ =>
      exact .inl (Except.ok.inj hc ▸ hpop.trans huser)

theorem resume_goes (hreg : c.Registered) {received : List UInt8} {sent : ℤ}
    (hcalls : c.todo.head? ≠ some .closeCallback) (hc : c.resume received sent = .ok c') :
    Lasts c c' ∨ Ends c c' := by
  unfold resume at hc
  cases htodo : c.todo with
  | nil =>
    rw [htodo] at hc
    exact .inl (Except.ok.inj hc ▸ ⟨id, rfl, rfl, Iff.rfl, by unfold closes; rw [htodo]; rfl⟩)
  | cons task rest =>
    have hne : task ≠ .closeCallback := by
      rintro rfl
      exact hcalls (by rw [htodo]; rfl)
    have hpop := pop_lasts htodo hne
    rw [htodo] at hc hpop
    cases task with
    | user => exact .inl (Except.ok.inj hc ▸ hpop)
    | channel callback =>
      cases callback with
      | close => exact .inr (hpop.trans_ends (handleClose_ends (by exact hreg) hc))
      | read => exact (handleRead_goes (by exact hreg) hc).imp hpop.trans hpop.trans_ends
      | write => exact .inl (hpop.trans (handleWrite_lasts (by exact hreg) hc))
      | error => exact .inl (Except.ok.inj hc ▸ hpop)
    | closeCallback => exact absurd rfl hne
    | remove => exact .inl (hpop.trans (remove_lasts hc))

/-- A step between the beginning and the end of a connection that is not its close callback. -/
theorem step_goes (hreg : c.Registered) {e : Event} (he : machine.enabled c e)
    (hestablished : e ≠ .connectEstablished) (hdestroyed : e ≠ .connectDestroyed)
    (hcalls : ¬TcpClient.Closes c e) (hc : machine.step c e = .ok c') :
    Lasts c c' ∨ Ends c c' := by
  cases e with
  | connectEstablished => exact absurd rfl hestablished
  | connectDestroyed => exact absurd rfl hdestroyed
  | call call => exact .inl (call_lasts hreg hc)
  | userDone =>
    have htodo := List.eq_cons_of_mem_head? (Option.mem_def.mpr he)
    exact .inl (Except.ok.inj hc ▸ pop_lasts htodo (by simp))
  | polled revents => exact .inl (Except.ok.inj hc ▸ ⟨id, rfl, rfl, Iff.rfl, rfl⟩)
  | dispatch =>
    refine .inl (Except.ok.inj hc ▸ ⟨id, rfl, rfl, Iff.rfl, ?_⟩)
    unfold closes
    rw [he.1, List.count_nil]
    refine List.count_eq_zero_of_not_mem fun hmem => ?_
    obtain ⟨callback, -, hcallback⟩ := List.mem_map.mp hmem
    cases hcallback
  | resume received sent => exact resume_goes hreg hcalls hc
  | runFunctor => exact runFunctor_goes hreg hc
  | delayed =>
    obtain rfl := Except.ok.inj hc
    have htimer : Lasts c { c with delayed := c.delayed - 1 } := ⟨id, rfl, rfl, Iff.rfl, rfl⟩
    exact .inl (htimer.trans forceClose_lasts)

/-! ## Connections of the client -/

/-- The client still has to be told of the end of the connection. -/
def Open (c : TcpConnection) : Prop := c.state ≠ .kDisconnected ∨ 0 < c.closes

/-- A connection of the client ends once, and is destroyed behind its end. -/
structure Mortal (c : TcpConnection) : Prop where
  registered : c.Registered
  close : c.callbacks.close = true
  closes : c.closes ≤ if c.state = .kDisconnected then 1 else 0
  destroyed : c.Open → c.destroyed = false

theorem Lasts.isOpen (h : Lasts c c') : c'.Open ↔ c.Open :=
  or_congr (not_congr h.down) (by rw [h.closes])

theorem Mortal.lasts (h : c.Mortal) (k : Lasts c c') : c'.Mortal := by
  refine ⟨k.registered h.registered, ?_, ?_, fun ho => ?_⟩
  · rw [k.callbacks]
    exact h.close
  · rw [k.closes]
    simp only [k.down]
    exact h.closes
  · rw [k.destroyed]
    exact h.destroyed (k.isOpen.mp ho)

theorem Mortal.ends (h : c.Mortal) (k : Ends c c') : c'.Mortal ∧ c.Open ∧ c'.Open := by
  have hcloses := h.closes
  rw [if_neg k.up] at hcloses
  have hone : c'.closes = 1 := by
    rw [k.closes, h.close, if_pos rfl]
    omega
  have hopen : c.Open := .inl k.up
  refine ⟨⟨k.registered, ?_, ?_, fun _ => ?_⟩, hopen, .inr (by omega)⟩
  · rw [k.callbacks]
    exact h.close
  · rw [if_pos k.down, hone]
  · rw [k.destroyed]
    exact h.destroyed hopen

theorem Mortal.calls (h : c.Mortal) {e : Event} (hcalls : TcpClient.Closes c e)
    (hc : machine.step c e = .ok c') :
    c.Open ∧ c'.Mortal ∧ ¬c'.Open ∧ c'.destroyed = false := by
  cases e with
  | resume received sent =>
    have htodo := List.eq_cons_of_mem_head? (Option.mem_def.mpr hcalls)
    have hpos : c.closes = c.todo.tail.count .closeCallback + 1 := by
      unfold TcpConnection.closes
      rw [htodo, List.count_cons_self]
      rfl
    have hopen : c.Open := .inr (by omega)
    have hcloses := h.closes
    have hs : c.state = .kDisconnected := by
      by_contra hs
      rw [if_neg hs] at hcloses
      omega
    rw [if_pos hs] at hcloses
    have hstep : c' = { c with todo := c.todo.tail }.emit .closeCallback := by
      change c.resume received sent = _ at hc
      unfold resume at hc
      rw [htodo] at hc
      rw [htodo]
      exact (Except.ok.inj hc).symm
    subst hstep
    have hzero : c.todo.tail.count .closeCallback = 0 := by omega
    have hclosed : ¬({ c with todo := c.todo.tail }.emit .closeCallback).Open := by
      rintro (hup | hlater)
      · exact hup hs
      · exact absurd hzero hlater.ne'
    refine ⟨hopen, ⟨h.registered, h.close, ?_, fun ho => absurd ho hclosed⟩, hclosed,
      h.destroyed hopen⟩
    exact hzero.le.trans (Nat.zero_le _)
  | connectEstablished | connectDestroyed | call _ | userDone | polled _ | dispatch | runFunctor
  | delayed => exact hcalls.elim

theorem Mortal.connectDestroyed (h : c.Mortal) (hclosed : ¬c.Open)
    (hc : c.connectDestroyed = .ok c') :
    c'.Mortal ∧ ¬c'.Open ∧ c'.destroyed = true := by
  have hs : c.state = .kDisconnected := by
    by_contra hs
    exact hclosed (.inl hs)
  have hzero : c.closes = 0 := by
    by_contra hne
    exact hclosed (.inr (Nat.pos_of_ne_zero hne))
  rw [connectDestroyed_eq h.registered, if_neg (by rw [hs]; nofun)] at hc
  obtain rfl := Except.ok.inj hc
  have hcloses : ({ c with destroyed := true, todo := .remove :: c.todo } : TcpConnection).closes =
      0 := by
    unfold TcpConnection.closes
    rw [List.count_cons_of_ne (by simp)]
    exact hzero
  have hdown : ¬({ c with destroyed := true, todo := .remove :: c.todo } : TcpConnection).Open := by
    rintro (hup | hlater)
    · exact hup hs
    · exact absurd hcloses hlater.ne'
  exact ⟨⟨h.registered, h.close, hcloses.le.trans (Nat.zero_le _), fun ho => absurd ho hdown⟩,
    hdown, rfl⟩

theorem create_mortal {fd highWaterMark : ℕ} {callbacks : Callbacks}
    (hclose : callbacks.close = true)
    (hc : (create fd callbacks highWaterMark).connectEstablished = .ok c) : c.Mortal ∧ c.Open := by
  have hreg : (create fd callbacks highWaterMark).Registered := rfl
  obtain rfl := Except.ok.inj ((connectEstablished_eq hreg rfl).symm.trans hc)
  have hup : StateE.kConnected ≠ .kDisconnected := nofun
  refine ⟨⟨updated_registered _ _, hclose, ?_, fun _ => rfl⟩, .inl hup⟩
  change (if callbacks.connection then [Task.user] else []).count .closeCallback ≤ _
  split_ifs <;> simp

end TcpConnection

namespace Connector
variable {s t : Connector}

/-! ## A connector that is connected -/

theorem startInLoop_connected (hs : s.state = .kConnected) {savedErrno : ConnectErrno} :
    s.startInLoop savedErrno ≠ .ok t := by
  intro h
  obtain ⟨hd, -⟩ := require_bind_eq_ok.mp h
  cases hs.symm.trans hd

theorem step_connected (hs : s.state = .kConnected) {e : Event} (hown : e.IsOwn)
    (h : machine.step s e = .ok t) : t.state = .kConnected ∧ t.handed = s.handed := by
  have hne : s.state ≠ .kConnecting := by rw [hs]; nofun
  cases e with
  | start | restart | stop => exact hown.elim
  | loop | polled | timersDone | swap | functorsDone => exact Except.ok.inj h ▸ ⟨hs, rfl⟩
  | timer i savedErrno => exact absurd h (startInLoop_connected (by exact hs))
  | handleEvent err isSelfConnect =>
    cases hactive : s.active with
    | none =>
      rw [step_handleEvent_none hactive] at h
      exact Except.ok.inj h ▸ ⟨hs, rfl⟩
    | some revents =>
      rw [step_handleEvent hactive] at h
      obtain rfl := runCallbacks_rest (by exact hne) h
      exact ⟨hs, rfl⟩
  | call savedErrno =>
    cases hqueue : s.queue.functors with
    | nil =>
      rw [step_call_nil hqueue] at h
      exact Except.ok.inj h ▸ ⟨hs, rfl⟩
    | cons f rest =>
      rw [step_call hqueue] at h
      cases f with
      | startInLoop => exact absurd h (startInLoop_connected (by exact hs))
      | stopInLoop =>
        change stopInLoop _ = _ at h
        unfold stopInLoop at h
        rw [if_neg (by exact hne)] at h
        exact Except.ok.inj h ▸ ⟨hs, rfl⟩
      | resetChannel =>
        change resetChannel _ = _ at h
        unfold resetChannel at h
        cases hchannel : s.channel with
        | none =>
          simp only [hchannel] at h
          exact Except.ok.inj h ▸ ⟨hs, rfl⟩
        | some ch =>
          simp only [hchannel] at h
          obtain ⟨-, h⟩ := require_bind_eq_ok.mp h
          exact Except.ok.inj h ▸ ⟨hs, rfl⟩

theorem handleWrite_connected {err isSelfConnect : Bool}
    (h : s.handleWrite err isSelfConnect = .ok t) :
    t.handed = s.handed ∨ t.state = .kConnected := by
  unfold handleWrite at h
  by_cases hs : s.state = .kConnecting
  · rw [if_pos hs] at h
    obtain ⟨⟨fd, u⟩, hremove, h⟩ := bind_eq_ok.mp h
    have hkept := (removeAndResetChannel_ok hremove).1
    dsimp only at h
    split_ifs at h
    · exact .inl (Except.ok.inj h ▸ (hkept.trans retry_kept).handed)
    · exact .inl (Except.ok.inj h ▸ (hkept.trans retry_kept).handed)
    · exact .inr (Except.ok.inj h ▸ rfl)
    · exact .inr (Except.ok.inj h ▸ rfl)
  · rw [if_neg hs] at h
    obtain ⟨-, h⟩ := require_bind_eq_ok.mp h
    exact .inl (Except.ok.inj h ▸ rfl)

theorem handleEvent_connected {revents : Events} {err isSelfConnect : Bool}
    (h : (Channel.handleEventWithGuard revents).foldlM (runCallback err isSelfConnect) s = .ok t) :
    t.handed = s.handed ∨ t.state = .kConnected := by
  obtain ⟨front, u, hfront, hu, hv⟩ := handleEvent_split h
  have hkept := (runCallbacks_kept hfront hu).1
  obtain rfl | hv := hv
  · exact .inl hkept.handed
  · exact (handleWrite_connected hv).imp_left fun hsame => hsame.trans hkept.handed

theorem step_handed {e : Event} (hown : e.IsOwn) (h : machine.step s e = .ok t) :
    t.handed = s.handed ∨ t.state = .kConnected := by
  cases e with
  | start | restart | stop => exact hown.elim
  | loop | polled | timersDone | swap | functorsDone => exact .inl (Except.ok.inj h ▸ rfl)
  | timer i savedErrno => exact .inl (startInLoop_kept h).handed
  | handleEvent err isSelfConnect =>
    cases hactive : s.active with
    | none =>
      rw [step_handleEvent_none hactive] at h
      exact .inl (Except.ok.inj h ▸ rfl)
    | some revents =>
      rw [step_handleEvent hactive] at h
      have hevent := handleEvent_connected h
      exact hevent
  | call savedErrno =>
    cases hqueue : s.queue.functors with
    | nil =>
      rw [step_call_nil hqueue] at h
      exact .inl (Except.ok.inj h ▸ rfl)
    | cons f rest =>
      rw [step_call hqueue] at h
      exact .inl (runFunctor_kept h).handed

end Connector

namespace TcpClient
variable {c c' : TcpClient} {p : ℕ}

instance (c : TcpClient) : ∀ e, Decidable (machine.enabled c e)
  | .connect isInLoopThread savedErrno =>
    inferInstanceAs (Decidable (Connector.machine.enabled _ (.start isInLoopThread savedErrno)))
  | .disconnect | .stop | .enableRetry => .isTrue trivial
  | .connector e => inferInstanceAs (Decidable (e.IsOwn ∧ Connector.machine.enabled _ e))
  | .connection p e _ => inferInstanceAs (Decidable (p < c.created ∧
      c.connector.pc ≠ .polling ∧ e ≠ .connectEstablished ∧ e ≠ .connectDestroyed ∧
      TcpConnection.machine.enabled (c.conn p) e))
  | .connectDestroyed =>
    inferInstanceAs (Decidable (c.connector.pc = .functors ∧ c.pendingFunctors ≠ []))

theorem handed_eq {s t : Connector} {e : Connector.Event} (hown : e.IsOwn)
    (h : Connector.machine.step s e = .ok t) :
    t.handed = match handed s t with
      | some fd => Function.update s.handed fd (s.handed fd + 1)
      | none => s.handed := by
  obtain ⟨-, hkept | ⟨-, -, ch, hch, hover⟩⟩ := Connector.step_hands hown h
  · have hnone : handed s t = none := by
      unfold handed
      cases s.channel with
      | none => rfl
      | some ch => simp [hkept.handed]
    rw [hnone]
    exact hkept.handed
  · have hsome : handed s t = some ch.fd := by
      unfold handed
      rw [hch]
      simp [hover]
    rw [hsome]
    exact hover

theorem handed_eq_none {s t : Connector} (h : t.handed = s.handed) : handed s t = none := by
  unfold handed
  cases s.channel with
  | none => rfl
  | some ch => simp [h]

/-- `connection_` is the connection that has not ended, and the connector is done as long as there
is one. Behind its end a connection is queued once for `connectDestroyed`. -/
structure Inv (c : TcpClient) : Prop where
  mortal : ∀ p < c.created, (c.conn p).Mortal
  current : ∀ p, c.connection = some p ↔ p < c.created ∧ (c.conn p).Open
  connected : c.connection ≠ none → c.connector.state = .kConnected
  queued : ∀ p, p ∈ c.pendingFunctors ↔
    p < c.created ∧ ¬(c.conn p).Open ∧ (c.conn p).destroyed = false
  nodup : c.pendingFunctors.Nodup

theorem create_inv (callbacks : Callbacks) : (create callbacks).Inv := by
  refine ⟨fun p hp => absurd hp (Nat.not_lt_zero p), fun p => iff_of_false nofun ?_, ?_,
    fun p => iff_of_false List.not_mem_nil ?_, List.nodup_nil⟩
  · exact fun h => absurd h.1 (Nat.not_lt_zero p)
  · exact fun h => absurd rfl h
  · exact fun h => absurd h.1 (Nat.not_lt_zero p)

theorem Inv.setConnection (h : c.Inv) {conn : TcpConnection} (hm : conn.Mortal)
    (hopen : conn.Open ↔ (c.conn p).Open) (hd : conn.destroyed = (c.conn p).destroyed) :
    (c.setConnection p conn).Inv := by
  have hsame : ∀ q, ((c.setConnection p conn).conn q).Open ↔ (c.conn q).Open := by
    intro q
    change (Function.update c.conn p conn q).Open ↔ _
    by_cases hq : q = p
    · subst q
      rw [Function.update_self, hopen]
    · rw [Function.update_of_ne hq]
  refine ⟨fun q hq => ?_, fun q => ?_, h.connected, fun q => ?_, h.nodup⟩
  · change (Function.update c.conn p conn q).Mortal
    by_cases hqp : q = p
    · subst q
      rwa [Function.update_self]
    · rw [Function.update_of_ne hqp]
      exact h.mortal q hq
  · rw [hsame]
    exact h.current q
  · rw [hsame]
    change q ∈ c.pendingFunctors ↔
      q < c.created ∧ _ ∧ (Function.update c.conn p conn q).destroyed = false
    rw [h.queued q]
    by_cases hqp : q = p
    · subst q
      rw [Function.update_self, hd]
    · rw [Function.update_of_ne hqp]

theorem Inv.disconnect (h : c.Inv) : c.disconnect.Inv := by
  unfold TcpClient.disconnect
  have hflag : Inv { c with connect_ := false, quiet := true } :=
    ⟨h.mortal, h.current, h.connected, h.queued, h.nodup⟩
  cases hconnection : c.connection with
  | none =>
    rw [hconnection] at hflag
    exact hflag
  | some p =>
    have hp := ((h.current p).mp hconnection).1
    have hlasts : TcpConnection.Lasts (c.conn p) (c.conn p).shutdown :=
      TcpConnection.shutdown_lasts
    have hset := hflag.setConnection ((h.mortal p hp).lasts hlasts) hlasts.isOpen
      hlasts.destroyed
    rw [hconnection] at hset
    exact hset

theorem Inv.connect (h : c.Inv) {isInLoopThread : Bool} {savedErrno : ConnectErrno}
    (hc : c.connect isInLoopThread savedErrno = .ok c') : c'.Inv := by
  obtain ⟨connector, hstart, hc⟩ := bind_eq_ok.mp hc
  refine Except.ok.inj hc ▸ ⟨h.mortal, h.current, fun hne => ?_, h.queued, h.nodup⟩
  have hs := h.connected hne
  change c.connector.start isInLoopThread savedErrno = _ at hstart
  unfold Connector.start at hstart
  dsimp only at hstart
  split_ifs at hstart
  · exact absurd hstart (Connector.startInLoop_connected (by exact hs))
  · exact Except.ok.inj hstart ▸ hs

theorem Inv.newConnection (h : c.Inv) (hnone : c.connection = none)
    (hs : c.connector.state = .kConnected) {sockfd : ℕ} (hc : c.newConnection sockfd = .ok c') :
    c'.Inv := by
  obtain ⟨conn, hconn, hc⟩ := bind_eq_ok.mp hc
  obtain rfl := Except.ok.inj hc
  obtain ⟨hm, hopen⟩ := TcpConnection.create_mortal rfl hconn
  have hclosed : ∀ q < c.created, ¬(c.conn q).Open := by
    intro q hq ho
    have hsome := (h.current q).mpr ⟨hq, ho⟩
    rw [hnone] at hsome
    cases hsome
  refine ⟨fun q hq => ?_, fun q => ?_, fun _ => hs, fun q => ?_, h.nodup⟩
  · change q < c.created + 1 at hq
    change (Function.update c.conn c.created conn q).Mortal
    obtain hlt | rfl := Nat.lt_succ_iff_lt_or_eq.mp hq
    · rw [Function.update_of_ne hlt.ne]
      exact h.mortal q hlt
    · rwa [Function.update_self]
  · change some c.created = some q ↔
      q < c.created + 1 ∧ (Function.update c.conn c.created conn q).Open
    by_cases hq : q = c.created
    · subst q
      rw [Function.update_self]
      exact iff_of_true rfl ⟨Nat.lt_succ_self _, hopen⟩
    · rw [Function.update_of_ne hq]
      refine iff_of_false (fun hsome => hq (Option.some.inj hsome).symm) fun ⟨hlt, ho⟩ => ?_
      exact hclosed q (by omega) ho
  · change q ∈ c.pendingFunctors ↔ q < c.created + 1 ∧
      ¬(Function.update c.conn c.created conn q).Open ∧
        (Function.update c.conn c.created conn q).destroyed = false
    rw [h.queued q]
    by_cases hq : q = c.created
    · subst q
      rw [Function.update_self]
      exact iff_of_false (fun hlt => hlt.1.false) fun hnot => hnot.2.1 hopen
    · rw [Function.update_of_ne hq]
      exact and_congr_left' ⟨fun hlt => by omega, fun hlt => by omega⟩

theorem Inv.onConnector (h : c.Inv) {e : Connector.Event} (hown : e.IsOwn)
    (hc : c.onConnector e = .ok c') : c'.Inv := by
  obtain ⟨connector, hstep, hc⟩ := bind_eq_ok.mp hc
  have hstays : c.connection ≠ none →
      connector.state = .kConnected ∧ connector.handed = c.connector.handed :=
    fun hne => Connector.step_connected (h.connected hne) hown hstep
  have hset : Inv { c with connector := connector } :=
    ⟨h.mortal, h.current, fun hne => (hstays hne).1, h.queued, h.nodup⟩
  cases hhanded : handed c.connector connector with
  | none =>
    simp only [hhanded] at hc
    exact Except.ok.inj hc ▸ hset
  | some sockfd =>
    have hover : connector.handed ≠ c.connector.handed := by
      intro hsame
      rw [handed_eq_none hsame] at hhanded
      cases hhanded
    have hnone : c.connection = none := by
      by_contra hne
      exact hover (hstays hne).2
    simp only [hhanded] at hc
    exact hset.newConnection hnone ((Connector.step_handed hown hstep).resolve_left hover) hc

theorem Inv.current_of_closes (h : c.Inv) (hp : p < c.created) {e : TcpConnection.Event}
    (hcalls : Closes (c.conn p) e) : c.connection = some p := by
  refine (h.current p).mpr ⟨hp, .inr ?_⟩
  cases e with
  | resume received sent =>
    exact List.count_pos_iff.mpr (List.mem_of_mem_head? (Option.mem_def.mpr hcalls))
  | connectEstablished | connectDestroyed | call _ | userDone | polled _ | dispatch | runFunctor
  | delayed => exact hcalls.elim

/-- The end of the connection: it is to be destroyed, and there is none any more. -/
theorem Inv.part (h : c.Inv) {conn : TcpConnection} (hcurrent : c.connection = some p)
    (hm : conn.Mortal) (hclosed : ¬conn.Open) (hd : conn.destroyed = false)
    (connector : Connector) : Inv { c.setConnection p conn with
      connection := none, pendingFunctors := c.pendingFunctors ++ [p]
      connector := connector } := by
  obtain ⟨hp, hopen⟩ := (h.current p).mp hcurrent
  refine ⟨fun q hq => ?_, fun q => ?_, fun hne => absurd rfl hne, fun q => ?_, ?_⟩
  · change (Function.update c.conn p conn q).Mortal
    by_cases hqp : q = p
    · subst q
      rwa [Function.update_self]
    · rw [Function.update_of_ne hqp]
      exact h.mortal q hq
  · change none = some q ↔ q < c.created ∧ (Function.update c.conn p conn q).Open
    refine iff_of_false nofun fun ⟨hq, ho⟩ => ?_
    by_cases hqp : q = p
    · subst q
      rw [Function.update_self] at ho
      exact hclosed ho
    · rw [Function.update_of_ne hqp] at ho
      have hsome := (h.current q).mpr ⟨hq, ho⟩
      rw [hcurrent] at hsome
      exact hqp (Option.some.inj hsome).symm
  · change q ∈ c.pendingFunctors ++ [p] ↔ q < c.created ∧
      ¬(Function.update c.conn p conn q).Open ∧ (Function.update c.conn p conn q).destroyed = false
    rw [List.mem_append, List.mem_singleton, h.queued q]
    by_cases hqp : q = p
    · subst q
      rw [Function.update_self]
      exact iff_of_true (.inr rfl) ⟨hp, hclosed, hd⟩
    · rw [Function.update_of_ne hqp]
      exact or_iff_left hqp
  · refine List.nodup_append.mpr ⟨h.nodup, List.nodup_singleton p, fun q hq r hr => ?_⟩
    obtain rfl := List.mem_singleton.mp hr
    rintro rfl
    exact ((h.queued q).mp hq).2.1 hopen

theorem Inv.onConnection (h : c.Inv) (hp : p < c.created) {e : TcpConnection.Event}
    (hestablished : e ≠ .connectEstablished) (hdestroyed : e ≠ .connectDestroyed)
    (he : TcpConnection.machine.enabled (c.conn p) e) {savedErrno : ConnectErrno}
    (hc : c.onConnection p e savedErrno = .ok c') : c'.Inv := by
  obtain ⟨conn, hstep, hc⟩ := bind_eq_ok.mp hc
  have hmortal := h.mortal p hp
  dsimp only at hc
  by_cases hcalls : Closes (c.conn p) e
  · rw [if_pos hcalls] at hc
    obtain ⟨-, hm, hclosed, hd⟩ := hmortal.calls hcalls hstep
    have hpart := h.part (h.current_of_closes hp hcalls) hm hclosed hd
    unfold TcpClient.removeConnection at hc
    obtain ⟨-, hc⟩ := require_bind_eq_ok.mp hc
    dsimp only at hc
    split_ifs at hc
    · obtain ⟨connector, -, hc⟩ := bind_eq_ok.mp hc
      exact Except.ok.inj hc ▸ hpart connector
    · exact Except.ok.inj hc ▸ hpart c.connector
  · rw [if_neg hcalls] at hc
    obtain rfl := Except.ok.inj hc
    rcases TcpConnection.step_goes hmortal.registered he hestablished hdestroyed hcalls hstep with
      hlasts | hends
    · exact h.setConnection (hmortal.lasts hlasts) hlasts.isOpen hlasts.destroyed
    · obtain ⟨hm, hbefore, hafter⟩ := hmortal.ends hends
      exact h.setConnection hm (iff_of_true hafter hbefore) hends.destroyed

theorem Inv.connectDestroyed (h : c.Inv) (hc : c.connectDestroyed = .ok c') : c'.Inv := by
  unfold TcpClient.connectDestroyed at hc
  cases hqueue : c.pendingFunctors with
  | nil =>
    rw [hqueue] at hc
    exact Except.ok.inj hc ▸ h
  | cons p rest =>
    rw [hqueue] at hc
    obtain ⟨conn, hconn, hc⟩ := bind_eq_ok.mp hc
    obtain rfl := Except.ok.inj hc
    have hmem : p ∈ c.pendingFunctors := hqueue ▸ List.mem_cons_self
    obtain ⟨hp, hclosed, -⟩ := (h.queued p).mp hmem
    obtain ⟨hm, hdown, hd⟩ := (h.mortal p hp).connectDestroyed hclosed hconn
    have hnodup := h.nodup
    rw [hqueue] at hnodup
    obtain ⟨hnot, hrest⟩ := List.nodup_cons.mp hnodup
    refine ⟨fun q hq => ?_, fun q => ?_, h.connected, fun q => ?_, hrest⟩
    · change (Function.update c.conn p conn q).Mortal
      by_cases hqp : q = p
      · subst q
        rwa [Function.update_self]
      · rw [Function.update_of_ne hqp]
        exact h.mortal q hq
    · refine (h.current q).trans (and_congr_right fun _ => ?_)
      change _ ↔ (Function.update c.conn p conn q).Open
      by_cases hqp : q = p
      · subst q
        rw [Function.update_self]
        exact iff_of_false hclosed hdown
      · rw [Function.update_of_ne hqp]
    · have hold := h.queued q
      rw [hqueue, List.mem_cons] at hold
      change q ∈ rest ↔ q < c.created ∧ ¬(Function.update c.conn p conn q).Open ∧
        (Function.update c.conn p conn q).destroyed = false
      by_cases hqp : q = p
      · subst q
        rw [Function.update_self]
        refine iff_of_false hnot fun hq => ?_
        exact Bool.false_ne_true (hq.2.2.symm.trans hd)
      · rw [Function.update_of_ne hqp]
        exact (or_iff_right hqp).symm.trans hold

theorem Inv.step (h : c.Inv) {e : Event} (he : machine.enabled c e)
    (hc : machine.step c e = .ok c') : c'.Inv := by
  cases e with
  | connect isInLoopThread savedErrno => exact h.connect hc
  | disconnect => exact Except.ok.inj hc ▸ h.disconnect
  | stop =>
    exact Except.ok.inj hc ▸ ⟨h.mortal, h.current, fun hne => h.connected hne, h.queued, h.nodup⟩
  | enableRetry => exact Except.ok.inj hc ▸ ⟨h.mortal, h.current, h.connected, h.queued, h.nodup⟩
  | connector e => exact h.onConnector he.1 hc
  | connection p e savedErrno => exact h.onConnection he.1 he.2.2.1 he.2.2.2.1 he.2.2.2.2 hc
  | connectDestroyed => exact h.connectDestroyed hc

theorem inv_run {callbacks : Callbacks} {es : List Event}
    (h : machine.Run Machine.Any (create callbacks) es c) : c.Inv :=
  h.invariant Inv (create_inv callbacks) fun _ _ _ ht he _ hu => ht.step he hu

/-- In every order of the calls and handlers, each of which is one step: `connection_` is the one
connection that has not ended, the connector has no attempt under way beside it, the assertion of
`removeConnection` holds whenever a connection calls it, and every connection that has ended is
destroyed or queued once for that. -/
theorem one_connection {callbacks : Callbacks} {es : List Event}
    (h : machine.Run Machine.Any (create callbacks) es c) :
    (∀ p, c.connection = some p ↔ p < c.created ∧ (c.conn p).Open) ∧
    (c.connection ≠ none → c.connector.state = .kConnected) ∧
    (∀ p e savedErrno, machine.enabled c (.connection p e savedErrno) → Closes (c.conn p) e →
      c.connection = some p) ∧
    c.pendingFunctors.Nodup ∧
    ∀ p < c.created, ((c.conn p).Open → (c.conn p).destroyed = false) ∧
      (p ∈ c.pendingFunctors ↔ ¬(c.conn p).Open ∧ (c.conn p).destroyed = false) := by
  have hinv := inv_run h
  refine ⟨hinv.current, hinv.connected, fun p e _ he hcalls => ?_, hinv.nodup, fun p hp => ?_⟩
  · exact hinv.current_of_closes he.1 hcalls
  · exact ⟨(hinv.mortal p hp).destroyed, (hinv.queued p).trans (and_iff_right hp)⟩

/-- The peer closes, the client connects again, and the first connection is destroyed while the
second one is up. -/
theorem one_connection_again : ∃ c, machine.Run Machine.Any
    (create ⟨true, true, false, false, false⟩)
    [.enableRetry, .connect true .EINPROGRESS, .connector .loop,
      .connector (.polled (some POLLOUT)), .connector .timersDone,
      .connector (.handleEvent false false), .connection 0 .userDone .ok, .connector .swap,
      .connector (.call .ok), .connector .functorsDone, .connector (.polled none),
      .connector .timersDone, .connection 0 (.polled [POLLIN]) .ok, .connection 0 .dispatch .ok,
      .connection 0 (.resume [] 0) .ok, .connection 0 .userDone .ok,
      .connection 0 (.resume [] 0) .EINPROGRESS, .connector .swap, .connectDestroyed,
      .connector .functorsDone, .connector (.polled (some POLLOUT)), .connector .timersDone,
      .connector (.handleEvent false false)] c ∧
    c.connection = some 1 ∧ (c.conn 0).destroyed = true ∧ c.connector.state = .kConnected := by
  obtain ⟨c, hc, hp⟩ := Machine.exists_run_of_exec machine Machine.Any
    (create ⟨true, true, false, false, false⟩)
    [.enableRetry, .connect true .EINPROGRESS, .connector .loop,
      .connector (.polled (some POLLOUT)), .connector .timersDone,
      .connector (.handleEvent false false), .connection 0 .userDone .ok, .connector .swap,
      .connector (.call .ok), .connector .functorsDone, .connector (.polled none),
      .connector .timersDone, .connection 0 (.polled [POLLIN]) .ok, .connection 0 .dispatch .ok,
      .connection 0 (.resume [] 0) .ok, .connection 0 .userDone .ok,
      .connection 0 (.resume [] 0) .EINPROGRESS, .connector .swap, .connectDestroyed,
      .connector .functorsDone, .connector (.polled (some POLLOUT)), .connector .timersDone,
      .connector (.handleEvent false false)]
    (fun c => decide (c.connection = some 1 ∧ (c.conn 0).destroyed = true)) (by decide +kernel)
  obtain ⟨hcurrent, hd⟩ := of_decide_eq_true hp
  exact ⟨c, hc, hcurrent, hd, (one_connection hc).2.1 (by rw [hcurrent]; nofun)⟩

end TcpClient
end MuduoWindows.Net
