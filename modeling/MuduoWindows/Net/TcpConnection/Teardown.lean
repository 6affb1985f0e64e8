import MuduoWindows.Net.TcpConnection

/-! # The teardown of a connection

`connectDestroyed` takes the interest away only in `kConnected`. A connection that has been closed
has none any more, one in `kDisconnecting` may still have it and keeps its state.
-/

namespace MuduoWindows.Net
open Library

namespace TcpConnection

/-- Nobody starts or stops reading on a connection in `kDisconnected`. -/
def Unread (c : TcpConnection) : Event → Prop
  | .call .startRead | .call .stopRead => c.state ≠ .kDisconnected
  | _ => True

/-- What the teardown leaves: `state_` is that of the destructor's assertion, and the user was told
once that the connection is down. -/
structure TornDown (c : TcpConnection) : Prop where
  state : c.state = .kDisconnected
  interest : c.channel.isNoneEvent = true
  index : c.channel.index = .kNew
  channels : c.channels c.channel.fd = none
  callback : c.trace.count (.connectionCallback false) = if c.callbacks.connection then 1 else 0

/-- `connectDestroyed` runs to its end whatever the user calls in the callback: the assertions of
`channel_->remove()` hold, and from then on the connection is torn down. -/
def TearsDown (c : TcpConnection) : Prop :=
  ∃ d, c.connectDestroyed = .ok d ∧
    ∀ es u, machine.Run Unread d es u → u.todo = .remove :: c.todo →
      ∃ f, { u with todo := c.todo }.remove = .ok f ∧
        ∀ gs v, machine.Run Unread f gs v → v.TornDown

/-- A connection in `kDisconnected` has no interest and has said so; the channel is known to the
poller until the call of `remove`, and there is one such call. -/
structure Standing (c : TcpConnection) : Prop where
  registered : c.Registered
  closed : c.state = .kDisconnected → c.channel.events = 0
  known : c.channel.index = .kNew →
    c.state = .kConnecting ∨ c.destroyed = true ∧ .remove ∉ c.todo
  once : c.todo.count .remove ≤ 1
  destroyed : c.destroyed = false → .remove ∉ c.todo
  callback : c.trace.count (.connectionCallback false) =
    if c.state = .kDisconnected ∧ c.callbacks.connection = true then 1 else 0

/-- The step has no part in the teardown. -/
structure Spares (c c' : TcpConnection) : Prop where
  registered : c.Registered → c'.Registered
  disconnected : c'.state = .kDisconnected ↔ c.state = .kDisconnected
  connecting : c.state = .kConnecting → c'.state = .kConnecting
  events : c.state = .kDisconnected → c'.channel.events = c.channel.events
  index : c'.channel.index = .kNew → c.channel.index = .kNew
  known : c.state = .kDisconnected → c'.channel.index = c.channel.index
  todo : c'.todo.count .remove = c.todo.count .remove
  destroyed : c'.destroyed = c.destroyed
  callbacks : c'.callbacks = c.callbacks
  trace : c'.trace.count (.connectionCallback false) = c.trace.count (.connectionCallback false)

variable {c c' c'' : TcpConnection}

theorem Spares.refl : Spares c c :=
  ⟨id, Iff.rfl, id, fun _ => rfl, id, fun _ => rfl, rfl, rfl, rfl, rfl⟩

theorem Spares.trans (h : Spares c c') (k : Spares c' c'') : Spares c c'' where
  registered := k.registered ∘ h.registered
  disconnected := k.disconnected.trans h.disconnected
  connecting := k.connecting ∘ h.connecting
  events hs := (k.events (h.disconnected.mpr hs)).trans (h.events hs)
  index := h.index ∘ k.index
  known hs := (k.known (h.disconnected.mpr hs)).trans (h.known hs)
  todo := k.todo.trans h.todo
  destroyed := k.destroyed.trans h.destroyed
  callbacks := k.callbacks.trans h.callbacks
  trace := k.trace.trans h.trace

theorem Spares.of_eq (hstate : c'.state = c.state) (hchannel : c'.channel = c.channel)
    (hchannels : c'.channels = c.channels)
    (htodo : c'.todo.count .remove = c.todo.count .remove)
    (hdestroyed : c'.destroyed = c.destroyed) (hcallbacks : c'.callbacks = c.callbacks)
    (htrace : c'.trace.count (.connectionCallback false) =
      c.trace.count (.connectionCallback false)) : Spares c c' := by
  constructor
  · intro h
    unfold Registered
    rw [hchannel, hchannels]
    exact h
  · rw [hstate]
  · rw [hstate]
    exact id
  · intro _
    rw [hchannel]
  · rw [hchannel]
    exact id
  · intro _
    rw [hchannel]
  · exact htodo
  · exact hdestroyed
  · exact hcallbacks
  · exact htrace

theorem Standing.spares (h : c.Standing) (k : Spares c c') : c'.Standing := by
  have hmem : .remove ∈ c'.todo ↔ .remove ∈ c.todo := by
    rw [← List.count_pos_iff, ← List.count_pos_iff, k.todo]
  constructor
  · exact k.registered h.registered
  · intro hs
    have hold := k.disconnected.mp hs
    rw [k.events hold]
    exact h.closed hold
  · intro hindex
    rw [k.destroyed, hmem]
    exact (h.known (k.index hindex)).imp k.connecting id
  · rw [k.todo]
    exact h.once
  · rw [k.destroyed, hmem]
    exact h.destroyed
  · rw [k.trace, k.callbacks, h.callback]
    simp only [k.disconnected]

theorem emit_spares {e : Effect} (he : e ≠ .connectionCallback false) : Spares c (c.emit e) :=
  .of_eq rfl rfl rfl rfl rfl rfl (by
    unfold emit
    rw [List.count_append, List.count_singleton]
    simp [he])

theorem updated_spares (hs : c.state ≠ .kDisconnected) (change : Channel → Channel) :
    Spares c (c.updated change) := by
  constructor
  · intro _
    apply updated_registered
  · rfl
  · exact id
  · exact fun hd => absurd hd hs
  · intro hindex
    change EPollPoller.indexOf (change c.channel) = .kNew at hindex
    unfold EPollPoller.indexOf at hindex
    split_ifs at hindex
  · exact fun hd => absurd hd hs
  · rfl
  · rfl
  · rfl
  · unfold updated
    rw [List.count_append, List.count_singleton]
    simp

theorem setState_spares (hs : c.state = .kConnected ∨ c.state = .kDisconnecting) :
    Spares c (c.setState .kDisconnecting) := by
  constructor
  · exact id
  · change StateE.kDisconnecting = _ ↔ _
    rcases hs with hs | hs <;> simp [hs]
  · intro hc
    rcases hs with hs | hs <;> simp [hs] at hc
  · exact fun _ => rfl
  · exact id
  · exact fun _ => rfl
  · rfl
  · rfl
  · rfl
  · unfold setState emit
    rw [List.count_append, List.count_singleton]
    simp

theorem shutdownInLoop_spares : Spares c c.shutdownInLoop :=
  .of_eq rfl rfl rfl rfl rfl rfl (by
    unfold shutdownInLoop
    split_ifs <;> simp)

theorem shutdown_spares : Spares c c.shutdown := by
  unfold shutdown
  split_ifs with hs
  · exact (setState_spares (.inl hs)).trans shutdownInLoop_spares
  · apply Spares.refl

theorem forceClose_spares : Spares c c.forceClose := by
  unfold forceClose
  split_ifs with hs
  · exact (setState_spares hs).trans (.of_eq rfl rfl rfl rfl rfl rfl rfl)
  · apply Spares.refl

theorem forceCloseWithDelay_spares : Spares c c.forceCloseWithDelay := by
  unfold forceCloseWithDelay
  split_ifs with hs
  · exact (setState_spares hs).trans (.of_eq rfl rfl rfl rfl rfl rfl rfl)
  · apply Spares.refl

theorem startReadInLoop_spares (hreg : c.Registered) (hs : c.state ≠ .kDisconnected)
    (hc : c.startReadInLoop = .ok c') : Spares c c' := by
  rw [startReadInLoop_eq hreg] at hc
  obtain rfl := Except.ok.inj hc
  split_ifs
  · exact (updated_spares hs _).trans (.of_eq rfl rfl rfl rfl rfl rfl rfl)
  · apply Spares.refl

theorem stopReadInLoop_spares (hreg : c.Registered) (hs : c.state ≠ .kDisconnected)
    (hc : c.stopReadInLoop = .ok c') : Spares c c' := by
  rw [stopReadInLoop_eq hreg] at hc
  obtain rfl := Except.ok.inj hc
  split_ifs
  · exact (updated_spares hs _).trans (.of_eq rfl rfl rfl rfl rfl rfl rfl)
  · apply Spares.refl

theorem Wrote.spares (h : Wrote c c') : Spares c c' := by
  obtain ⟨_, _, _, _, rfl⟩ := h
  exact .of_eq rfl rfl rfl rfl rfl rfl rfl

theorem sendInLoop_spares {data : List UInt8} {sent : ℤ} {errno : Errno} (hreg : c.Registered)
    (hc : c.sendInLoop data sent errno = .ok c') : Spares c c' := by
  rcases sendInLoop_cases hreg hc with hwrote | ⟨hs, m, hwrote, rfl⟩
  · exact hwrote.spares
  · exact hwrote.spares.trans (updated_spares (mt hwrote.spares.disconnected.mp hs) _)

theorem outputDone_spares (hreg : c.Registered) (hs : c.state ≠ .kDisconnected)
    (hc : c.outputDone = .ok c') : Spares c c' := by
  rw [outputDone_eq hreg] at hc
  obtain rfl := Except.ok.inj hc
  have hqueued : Spares c c.drained :=
    (updated_spares hs _).trans (.of_eq rfl rfl rfl rfl rfl rfl rfl)
  split_ifs
  · exact hqueued.trans shutdownInLoop_spares
  · exact hqueued

theorem Standing.handleWrite (h : c.Standing) {sent : ℤ} (hc : c.handleWrite sent = .ok c') :
    Spares c c' := by
  rcases handleWrite_cases hc with hwrote | ⟨hw, m, hwrote, hc⟩
  · exact hwrote.spares
  · have hs : c.state ≠ .kDisconnected :=
      fun hd => Channel.events_ne_zero (.inr hw) (h.closed hd)
    exact hwrote.spares.trans (outputDone_spares (hwrote.spares.registered h.registered)
      (mt hwrote.spares.disconnected.mp hs) hc)

theorem Standing.call (h : c.Standing) {call : Call} (hp : c.Unread (.call call))
    (hc : c.call call = .ok c') : Spares c c' := by
  cases call with
  | send data sent errno =>
    change c.send data sent errno = _ at hc
    unfold send at hc
    split_ifs at hc
    · exact sendInLoop_spares h.registered hc
    · exact Except.ok.inj hc ▸ .refl
  | sendInLoop data sent errno => exact sendInLoop_spares h.registered hc
  | shutdown => exact Except.ok.inj hc ▸ shutdown_spares
  | forceClose => exact Except.ok.inj hc ▸ forceClose_spares
  | forceCloseWithDelay => exact Except.ok.inj hc ▸ forceCloseWithDelay_spares
  | startRead => exact startReadInLoop_spares h.registered hp hc
  | stopRead => exact stopReadInLoop_spares h.registered hp hc
  | retrieve len =>
    obtain ⟨b, -, hc⟩ := bind_eq_ok.mp hc
    exact Except.ok.inj hc ▸ .of_eq rfl rfl rfl rfl rfl rfl rfl

theorem Standing.goDown (h : c.Standing) (hs : c.state ≠ .kDisconnected) {todo : List Task}
    (hremoves : todo.count .remove ≤ 1) (hdestroyed : c.destroyed = false → .remove ∉ todo) :
    ({ (c.setState .kDisconnected).updated Channel.disableAll with
      todo := todo } : TcpConnection).connectionCallback.Standing := by
  have hup : c.trace.count (.connectionCallback false) = 0 := by
    rw [h.callback, if_neg fun hd => hs hd.1]
  have hmem : .remove ∈ (if c.callbacks.connection then Task.user :: todo else todo) ↔
      .remove ∈ todo := by
    split_ifs <;> simp
  constructor
  · exact updated_registered _ _
  · intro _
    rfl
  · intro hindex
    change EPollPoller.indexOf c.channel.disableAll = .kNew at hindex
    unfold EPollPoller.indexOf at hindex
    split_ifs at hindex
  · change (if c.callbacks.connection then Task.user :: todo else todo).count _ ≤ 1
    split_ifs
    · rw [List.count_cons_of_ne (by simp)]
      exact hremoves
    · exact hremoves
  · exact fun hd => mt hmem.mp (hdestroyed hd)
  · change (c.trace ++ [_] ++ [_] ++ if c.callbacks.connection then
      [Effect.connectionCallback false] else []).count (Effect.connectionCallback false) =
        if StateE.kDisconnected = .kDisconnected ∧ c.callbacks.connection = true then 1 else 0
    rw [List.count_append, List.count_append, List.count_append, hup]
    by_cases hcb : c.callbacks.connection = true <;> simp [hcb]

theorem Standing.handleClose (h : c.Standing) (hc : c.handleClose = .ok c') :
    c'.Standing ∧ c.state ≠ .kDisconnected := by
  obtain ⟨hup, rfl⟩ := handleClose_ok h.registered hc
  have hs : c.state ≠ .kDisconnected := by rcases hup with hs | hs <;> simp [hs]
  have hmem : (if c.callbacks.close then Task.closeCallback :: c.todo else c.todo).count .remove =
      c.todo.count .remove := by
    split_ifs
    · exact List.count_cons_of_ne (by simp)
    · rfl
  refine ⟨h.goDown hs ?_ ?_, hs⟩
  · exact hmem.le.trans h.once
  · intro hd
    rw [← List.count_eq_zero, ← Nat.le_zero]
    exact hmem.le.trans (List.count_eq_zero.mpr (h.destroyed hd)).le

theorem Standing.mark (h : c.Standing) (hd : c.destroyed = false) :
    ({ c with destroyed := true } : TcpConnection).Standing := by
  constructor
  · exact h.registered
  · exact h.closed
  · exact fun hindex => .inl ((h.known hindex).resolve_right fun hk => by simp [hd] at hk)
  · exact h.once
  · exact fun hf => by cases hf
  · exact h.callback

theorem Standing.connectDestroyed (h : c.Standing) (hd : c.destroyed = false)
    (hs : c.state ≠ .kConnecting) (hc : c.connectDestroyed = .ok c') : c'.Standing := by
  rw [connectDestroyed_eq h.registered] at hc
  obtain rfl := Except.ok.inj hc
  have hmark := h.mark hd
  have honce : (Task.remove :: c.todo).count .remove ≤ 1 := by
    rw [List.count_cons_self, List.count_eq_zero.mpr (h.destroyed hd)]
  split_ifs with hconnected
  · have hne : ({ c with destroyed := true } : TcpConnection).state ≠ .kDisconnected := by
      simp [hconnected]
    exact hmark.goDown hne honce fun hf => by cases hf
  · constructor
    · exact h.registered
    · exact h.closed
    · intro hindex
      rcases h.known hindex with hk | hk
      · exact absurd hk hs
      · simp [hd] at hk
    · exact honce
    · exact fun hf => by cases hf
    · exact h.callback

theorem Standing.connectEstablished (h : c.Standing) (hs : c.state = .kConnecting)
    (hc : c.connectEstablished = .ok c') : c'.Standing := by
  obtain rfl := Except.ok.inj ((connectEstablished_eq h.registered hs).symm.trans hc)
  have hup : c.trace.count (.connectionCallback false) = 0 := by
    rw [h.callback, if_neg fun hd => by simp [hs] at hd]
  have hcount : (if c.callbacks.connection then Task.user :: c.todo else c.todo).count .remove =
      c.todo.count .remove := by
    split_ifs
    · exact List.count_cons_of_ne (by simp)
    · rfl
  constructor
  · exact updated_registered _ _
  · exact fun hd => absurd (show StateE.kConnected = .kDisconnected from hd) nofun
  · intro hindex
    change EPollPoller.indexOf c.channel.enableReading = .kNew at hindex
    unfold EPollPoller.indexOf at hindex
    split_ifs at hindex
  · exact hcount.le.trans h.once
  · intro hd
    rw [← List.count_eq_zero, ← Nat.le_zero]
    exact hcount.le.trans (List.count_eq_zero.mpr (h.destroyed hd)).le
  · change (c.trace ++ [_] ++ [_] ++ if c.callbacks.connection then
      [Effect.connectionCallback true] else []).count (Effect.connectionCallback false) =
        if StateE.kConnected = .kDisconnected ∧ c.callbacks.connection = true then 1 else 0
    rw [List.count_append, List.count_append, List.count_append, hup]
    by_cases hcb : c.callbacks.connection = true <;> simp [hcb]

variable {rest : List Task}

theorem Standing.destroyed_of_remove (h : c.Standing) (htodo : c.todo = .remove :: rest) :
    c.destroyed = true ∧ .remove ∉ rest ∧
      (c.channel.index = .kNew → c.state = .kConnecting) := by
  have hmem : .remove ∈ c.todo := by
    rw [htodo]
    exact List.mem_cons_self
  refine ⟨?_, ?_, fun hindex => (h.known hindex).resolve_right fun hk => hk.2 hmem⟩
  · by_contra hd
    exact h.destroyed (Bool.eq_false_iff.mpr hd) hmem
  · have honce := h.once
    rw [htodo, List.count_cons_self] at honce
    exact List.count_eq_zero.mp (by omega)

theorem Standing.remove (h : c.Standing) (htodo : c.todo = .remove :: rest)
    (hc : { c with todo := rest }.remove = .ok c') : c'.Standing := by
  obtain ⟨-, rfl⟩ := remove_ok hc
  obtain ⟨hdestroyed, hrest, -⟩ := h.destroyed_of_remove htodo
  constructor
  · unfold Registered EPollPoller.Registered removed
    rw [if_pos rfl]
    exact Function.update_self _ _ _
  · exact h.closed
  · exact fun _ => .inr ⟨hdestroyed, hrest⟩
  · exact (List.count_eq_zero.mpr hrest).le.trans (Nat.zero_le _)
  · exact fun _ => hrest
  · change (c.trace ++ _).count _ = _
    refine Eq.trans ?_ h.callback
    rw [List.count_append]
    split_ifs <;> simp

theorem Standing.remove_eq (h : c.Standing) (htodo : c.todo = .remove :: rest)
    (hs : c.state = .kDisconnected) :
    { c with todo := rest }.remove = .ok { c with todo := rest }.removed := by
  have hnone : c.channel.isNoneEvent = true := Channel.isNoneEvent_iff.mpr (h.closed hs)
  have hindex : c.channel.index ≠ .kNew := by
    intro hi
    have hconnecting := (h.destroyed_of_remove htodo).2.2 hi
    rw [hs] at hconnecting
    cases hconnecting
  have hchannels : c.channels c.channel.fd = some () := by
    have hreg := h.registered
    unfold Registered EPollPoller.Registered at hreg
    rwa [if_neg hindex] at hreg
  have hknown : c.channel.index = .kAdded ∨ c.channel.index = .kDeleted := by
    cases hi : c.channel.index with
    | kNew => exact absurd hi hindex
    | kAdded => exact .inl rfl
    | kDeleted => exact .inr rfl
  unfold TcpConnection.remove
  rw [require_bind hnone, EPollPoller.removeChannel_eq hchannels hnone hknown, ok_bind, pure_eq_ok]
  unfold applyUpdate removed
  by_cases hi : c.channel.index = .kAdded
  · simp only [if_pos hi]
    rfl
  · simp only [if_neg hi, List.append_nil]

theorem remove_error (h : c.channel.isNoneEvent ≠ true) :
    c.remove = .error (.assertion "isNoneEvent()") := by
  unfold TcpConnection.remove assert
  rw [require_false h, error_bind]

/-- A connection in `kDisconnected` stays there, and once out of the poller, out of it. -/
def StaysDown (c c' : TcpConnection) : Prop :=
  c.state = .kDisconnected →
    c'.state = .kDisconnected ∧ (c.channel.index = .kNew → c'.channel.index = .kNew)

theorem Spares.staysDown (k : Spares c c') : StaysDown c c' := by
  intro hs
  exact ⟨k.disconnected.mpr hs, fun hindex => (k.known hs).trans hindex⟩

theorem Standing.of_spares (h : c.Standing) (k : Spares c c') : c'.Standing ∧ StaysDown c c' :=
  ⟨h.spares k, k.staysDown⟩

theorem Standing.close (h : c.Standing) (hc : c.handleClose = .ok c') :
    c'.Standing ∧ StaysDown c c' := by
  obtain ⟨hstanding, hs⟩ := h.handleClose hc
  exact ⟨hstanding, fun hd => absurd hd hs⟩

theorem Standing.handleRead (h : c.Standing) {received : List UInt8}
    (hc : c.handleRead received = .ok c') : c'.Standing ∧ StaysDown c c' := by
  obtain ⟨b, -, hcases⟩ := handleRead_cases hc
  have hread : Spares c { c with inputBuffer := b } := .of_eq rfl rfl rfl rfl rfl rfl rfl
  rcases hcases with ⟨-, -, rfl⟩ | ⟨-, -, rfl⟩ | ⟨-, hc⟩
  · have huser : Spares c { c with inputBuffer := b, todo := .user :: c.todo } :=
      .of_eq rfl rfl rfl (List.count_cons_of_ne (by simp)) rfl rfl rfl
    exact h.of_spares (huser.trans (emit_spares (by simp)))
  · exact h.of_spares hread
  · exact (h.spares hread).close hc

theorem Standing.resume (h : c.Standing) {received : List UInt8} {sent : ℤ}
    (hc : c.resume received sent = .ok c') : c'.Standing ∧ StaysDown c c' := by
  unfold TcpConnection.resume at hc
  cases htodo : c.todo with
  | nil =>
    rw [htodo] at hc
    obtain rfl := Except.ok.inj hc
    exact h.of_spares (.of_eq rfl rfl rfl (by rw [htodo]; rfl) rfl rfl rfl)
  | cons task rest =>
    rw [htodo] at hc
    have hpop : task ≠ .remove → Spares c { c with todo := rest } := by
      intro hne
      refine .of_eq rfl rfl rfl ?_ rfl rfl rfl
      rw [htodo, List.count_cons_of_ne hne]
    cases task with
    | channel callback =>
      have hrest := hpop (by simp)
      cases callback with
      | close => exact (h.spares hrest).close hc
      | error => exact Except.ok.inj hc ▸ h.of_spares hrest
      | read => exact (h.spares hrest).handleRead hc
      | write => exact h.of_spares (hrest.trans ((h.spares hrest).handleWrite hc))
    | user => exact Except.ok.inj hc ▸ h.of_spares (hpop (by simp))
    | closeCallback =>
      exact Except.ok.inj hc ▸ h.of_spares ((hpop (by simp)).trans (emit_spares (by simp)))
    | remove =>
      refine ⟨h.remove htodo hc, fun hs => ?_⟩
      obtain ⟨-, rfl⟩ := remove_ok hc
      exact ⟨hs, fun _ => rfl⟩

theorem Standing.runFunctor (h : c.Standing) (hc : c.runFunctor = .ok c') :
    c'.Standing ∧ StaysDown c c' := by
  have hpop : Spares c { c with pendingFunctors := c.pendingFunctors.tail } :=
    .of_eq rfl rfl rfl rfl rfl rfl rfl
  have huser : Spares c
      { c with pendingFunctors := c.pendingFunctors.tail, todo := .user :: c.todo } :=
    .of_eq rfl rfl rfl (List.count_cons_of_ne (by simp)) rfl rfl rfl
  unfold TcpConnection.runFunctor at hc
  cases hqueue : c.pendingFunctors with
  | nil =>
    rw [hqueue] at hc hpop
    exact Except.ok.inj hc ▸ h.of_spares hpop
  | cons f rest =>
    rw [hqueue] at hc hpop huser
    cases f with
    | forceCloseInLoop =>
      change TcpConnection.forceCloseInLoop _ = _ at hc
      unfold TcpConnection.forceCloseInLoop at hc
      split_ifs at hc
      · exact (h.spares hpop).close hc
      · exact Except.ok.inj hc ▸ h.of_spares hpop
    | writeCompleteCallback => exact Except.ok.inj hc ▸ h.of_spares huser
    | highWaterMarkCallback size => exact Except.ok.inj hc ▸ h.of_spares huser

theorem Standing.step (h : c.Standing) {e : Event} (he : machine.enabled c e) (hp : c.Unread e)
    (hc : machine.step c e = .ok c') : c'.Standing ∧ StaysDown c c' := by
  cases e with
  | connectEstablished =>
    refine ⟨h.connectEstablished he.2 hc, fun hd => ?_⟩
    exact absurd (he.2.symm.trans hd) nofun
  | connectDestroyed =>
    obtain ⟨-, hs, hdestroyed⟩ := he
    refine ⟨h.connectDestroyed hdestroyed hs hc, fun hd => ?_⟩
    obtain rfl := Except.ok.inj ((connectDestroyed_eq h.registered).symm.trans hc)
    rw [if_neg (by simp [hd])]
    exact ⟨hd, id⟩
  | call call => exact h.of_spares (h.call hp hc)
  | userDone =>
    refine Except.ok.inj hc ▸ h.of_spares (.of_eq rfl rfl rfl ?_ rfl rfl rfl)
    rw [List.eq_cons_of_mem_head? (Option.mem_def.mpr he)]
    exact (List.count_cons_of_ne (by simp)).symm
  | polled revents => exact Except.ok.inj hc ▸ h.of_spares (.of_eq rfl rfl rfl rfl rfl rfl rfl)
  | dispatch =>
    obtain rfl := Except.ok.inj hc
    have hnone : ((Channel.handleEventWithGuard (c.active.headD 0)).map Task.channel).count
        .remove = c.todo.count .remove := by
      rw [he.1, List.count_nil, List.count_eq_zero]
      simp
    exact h.of_spares ⟨id, Iff.rfl, id, fun _ => rfl, id, fun _ => rfl, hnone, rfl, rfl, rfl⟩
  | resume received sent => exact h.resume hc
  | runFunctor => exact h.runFunctor hc
  | delayed =>
    have hpop : Spares c { c with delayed := c.delayed - 1 } :=
      .of_eq rfl rfl rfl rfl rfl rfl rfl
    exact Except.ok.inj hc ▸ h.of_spares (hpop.trans forceClose_spares)

theorem create_standing (fd : ℕ) (callbacks : Callbacks) (highWaterMark : ℕ) :
    (create fd callbacks highWaterMark).Standing := by
  constructor
  · rfl
  · intro hd
    cases hd
  · exact fun _ => .inl rfl
  · exact Nat.zero_le _
  · exact fun _ => List.not_mem_nil
  · rfl

theorem Standing.run (h : c.Standing) {es : List Event} (hrun : machine.Run Unread c es c') :
    c'.Standing ∧ StaysDown c c' := by
  refine hrun.invariant (fun t => t.Standing ∧ StaysDown c t) ⟨h, fun hs => ⟨hs, id⟩⟩ ?_
  rintro t e u ⟨ht, hdown⟩ he hp hu
  obtain ⟨hstanding, hstays⟩ := ht.step he hp hu
  refine ⟨hstanding, fun hs => ?_⟩
  obtain ⟨hstate, hindex⟩ := hdown hs
  exact ⟨(hstays hstate).1, (hstays hstate).2 ∘ hindex⟩

theorem Standing.tornDown (h : c.Standing) (hs : c.state = .kDisconnected)
    (hindex : c.channel.index = .kNew) : c.TornDown := by
  constructor
  · exact hs
  · exact Channel.isNoneEvent_iff.mpr (h.closed hs)
  · exact hindex
  · have hreg := h.registered
    unfold Registered EPollPoller.Registered at hreg
    rwa [if_pos hindex] at hreg
  · rw [h.callback]
    simp [hs]

theorem Standing.tearsDown (h : c.Standing) (hs : c.state = .kDisconnected)
    (htodo : c.todo = .remove :: rest) :
    ∃ f, { c with todo := rest }.remove = .ok f ∧
      ∀ gs v, machine.Run Unread f gs v → v.TornDown := by
  have hremove := h.remove_eq htodo hs
  refine ⟨_, hremove, fun gs v hrun => ?_⟩
  obtain ⟨hstanding, hdown⟩ := (h.remove htodo hremove).run hrun
  obtain ⟨hstate, hindex⟩ := hdown hs
  exact hstanding.tornDown hstate (hindex rfl)

/-- In `kDisconnecting` `connectDestroyed` leaves state and interest alone. -/
theorem not_tearsDown (hreg : c.Registered) (hs : c.state = .kDisconnecting) : ¬ c.TearsDown := by
  rintro ⟨d, hd, htear⟩
  obtain rfl := Except.ok.inj ((connectDestroyed_eq hreg).symm.trans hd)
  rw [if_neg (by simp [hs])] at htear
  obtain ⟨f, hf, hdown⟩ := htear [] _ .nil rfl
  obtain ⟨-, rfl⟩ := remove_ok hf
  exact absurd (hs.symm.trans (hdown [] _ .nil).state) nofun

/-- `connectDestroyed` tears an established connection down exactly when it is not in
`kDisconnecting`. -/
theorem connectDestroyed_tearsDown {fd highWaterMark : ℕ} {callbacks : Callbacks}
    {es : List Event} {c : TcpConnection}
    (h : machine.Run Unread (create fd callbacks highWaterMark) es c)
    (hs : c.state ≠ .kConnecting) (hdestroyed : c.destroyed = false) :
    c.TearsDown ↔ c.state ≠ .kDisconnecting := by
  have hc := ((create_standing fd callbacks highWaterMark).run h).1
  constructor
  · exact fun htear hstate => not_tearsDown hc.registered hstate htear
  · intro hne
    refine ⟨_, connectDestroyed_eq hc.registered, fun fs u hrun htodo => ?_⟩
    have hd := hc.connectDestroyed hdestroyed hs (connectDestroyed_eq hc.registered)
    obtain ⟨hu, hdown⟩ := hd.run hrun
    refine hu.tearsDown (hdown ?_).1 htodo
    split_ifs with hconnected
    · rfl
    · cases hstate : c.state with
      | kDisconnected => rfl
      | kConnecting => exact absurd hstate hs
      | kConnected => exact absurd hstate hconnected
      | kDisconnecting => exact absurd hstate hne

instance (c : TcpConnection) : ∀ e, Decidable (c.Unread e)
  | .call .startRead | .call .stopRead => inferInstanceAs (Decidable (c.state ≠ .kDisconnected))
  | .call (.send _ _ _) | .call (.sendInLoop _ _ _) | .call .shutdown | .call .forceClose
  | .call .forceCloseWithDelay | .call (.retrieve _) | .connectEstablished | .connectDestroyed
  | .userDone | .polled _ | .dispatch | .resume _ _ | .runFunctor | .delayed => .isTrue trivial

/-- A connection that is up is torn down. -/
theorem connectDestroyed_tearsDown_up : ∃ c, machine.Run Unread
    (create 3 ⟨true, true, true, true, true⟩ 64) [.connectEstablished, .userDone] c ∧
      c.TearsDown := by
  obtain ⟨c, hc, hp⟩ := Machine.exists_run_of_exec machine Unread
    (create 3 ⟨true, true, true, true, true⟩ 64) [.connectEstablished, .userDone]
    (fun c => decide (c.state = .kConnected ∧ c.destroyed = false)) (by decide +kernel)
  obtain ⟨hs, hdestroyed⟩ := of_decide_eq_true hp
  exact ⟨c, hc, (connectDestroyed_tearsDown hc (by simp [hs]) hdestroyed).mpr (by simp [hs])⟩

/-- The server is destroyed while the connection waits for the end of its peer: the assertion of
`channel_->remove()` fails, and the user was not told. -/
theorem connectDestroyed_after_shutdown : ∃ es c d, machine.Run Unread
    (create 3 ⟨true, true, true, true, true⟩ 64) es c ∧ c.state = .kDisconnecting ∧
      c.destroyed = false ∧ c.connectDestroyed = .ok d ∧
      { d with todo := c.todo }.remove = .error (.assertion "isNoneEvent()") ∧
      .connectionCallback false ∉ d.trace ∧ ¬ c.TearsDown := by
  obtain ⟨c, hc, hp⟩ := Machine.exists_run_of_exec machine Unread
    (create 3 ⟨true, true, true, true, true⟩ 64)
    [.connectEstablished, .userDone, .call .shutdown]
    (fun c => decide (c.state = .kDisconnecting ∧ c.destroyed = false ∧
      c.channel.isNoneEvent ≠ true ∧ .connectionCallback false ∉ c.trace)) (by decide +kernel)
  obtain ⟨hs, hdestroyed, hinterest, htrace⟩ := of_decide_eq_true hp
  have hreg := ((create_standing _ _ _).run hc).1.registered
  have hd := connectDestroyed_eq hreg
  rw [if_neg (by simp [hs])] at hd
  exact ⟨_, c, _, hc, hs, hdestroyed, hd, remove_error hinterest, htrace, not_tearsDown hreg hs⟩

end TcpConnection
end MuduoWindows.Net
