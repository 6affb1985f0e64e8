import MuduoWindows.Net.Connector.Handing
import MuduoWindows.Net.TcpClient.Threads

/-! # The client between `disconnect` or `stop` and `connect`

`stop` clears both flags, `disconnect` only that of the client. The connector does not see it, so
`disconnect` works if the connector has no attempt to make. Neither undoes a test that the loop's
thread has made.
-/

namespace MuduoWindows.Net
open Library

namespace Connector

/-- No attempt is under way and none is to come. -/
structure AtRest (s : Connector) : Prop where
  state : s.state ≠ .kConnecting
  timers : s.timers = []
  start : .startInLoop ∉ s.queue.all

variable {s t : Connector}

theorem AtRest.of_eq (h : s.AtRest) (hstate : t.state = s.state) (htimers : t.timers = s.timers)
    (hqueue : t.queue.all ⊆ s.queue.all) : t.AtRest := by
  constructor
  · rw [hstate]
    exact h.state
  · rw [htimers]
    exact h.timers
  · exact fun hmem => h.start (hqueue hmem)

end Connector

namespace ConnectorThreads

/-- The connector is told not to connect, or has no attempt to make: nor does a function or a call
on its way make one. -/
def Barred (s : ConnectorThreads) : Prop :=
  s.connector.connect_ = false ∨
    s.connector.AtRest ∧ s.pause = none ∧ .startInLoop ∉ s.calling

variable {s t : ConnectorThreads} {fd : ℕ}

/-- The loop's functions keep `connect_`, and stand in front of `newConnectionCallback_` only if it
was set. -/
structure Keeping (s t : ConnectorThreads) : Prop where
  connect_ : t.connector.connect_ = s.connector.connect_
  hands : ∀ fd, t.pause = some (.newConnectionCallback fd) → s.connector.connect_ = true

theorem keeping_of_none (hconnect : t.connector.connect_ = s.connector.connect_)
    (hpause : t.pause = none) : Keeping s t := by
  refine ⟨hconnect, fun fd hfd => ?_⟩
  rw [hpause] at hfd
  cases hfd

theorem retry_keeping {connector : Connector}
    (hconnect : connector.connect_ = s.connector.connect_) :
    Keeping s ({ s with connector := connector }.retry fd) := ⟨hconnect, nofun⟩

theorem connect_keeping (hpause : s.pause = none) {savedErrno : ConnectErrno}
    (h : s.connect savedErrno = .ok t) : Keeping s t := by
  unfold connect at h
  cases savedErrno with
  | ok | EINPROGRESS | WSAEINTR | EISCONN | WSAEWOULDBLOCK =>
    obtain ⟨connector, hconnecting, h⟩ := bind_eq_ok.mp h
    obtain rfl := Except.ok.inj h
    unfold Connector.connecting at hconnecting
    obtain ⟨-, hconnecting⟩ := require_bind_eq_ok.mp hconnecting
    obtain ⟨u, -, hconnecting⟩ := bind_eq_ok.mp hconnecting
    obtain rfl := Except.ok.inj hconnecting
    exact keeping_of_none rfl hpause
  | EAGAIN | EADDRINUSE | EADDRNOTAVAIL | ECONNREFUSED | ENETUNREACH =>
    exact Except.ok.inj h ▸ ⟨rfl, nofun⟩
  | EACCES | EPERM | EAFNOSUPPORT | EALREADY | EBADF | EFAULT | ENOTSOCK | unexpected =>
    exact Except.ok.inj h ▸ keeping_of_none rfl hpause

theorem startInLoop_keeping {savedErrno : ConnectErrno} (h : s.startInLoop savedErrno = .ok t) :
    Keeping s t := by
  obtain ⟨-, h⟩ := require_bind_eq_ok.mp h
  exact Except.ok.inj h ▸ ⟨rfl, nofun⟩

theorem handleError_keeping (hpause : s.pause = none) (h : s.handleError = .ok t) :
    Keeping s t := by
  unfold handleError at h
  split_ifs at h
  · obtain ⟨⟨fd, connector⟩, hremove, h⟩ := bind_eq_ok.mp h
    exact Except.ok.inj h ▸ retry_keeping (Connector.removeAndResetChannel_ok hremove).1.connect_
  · exact Except.ok.inj h ▸ keeping_of_none rfl hpause

theorem handleWrite_keeping (hpause : s.pause = none) {err isSelfConnect : Bool}
    (h : s.handleWrite err isSelfConnect = .ok t) : Keeping s t := by
  unfold handleWrite at h
  by_cases hs : s.connector.state = .kConnecting
  · rw [if_pos hs] at h
    obtain ⟨⟨fd, connector⟩, hremove, h⟩ := bind_eq_ok.mp h
    have hconnect := (Connector.removeAndResetChannel_ok hremove).1.connect_
    dsimp only at h
    split_ifs at h
    · exact Except.ok.inj h ▸ retry_keeping hconnect
    · exact Except.ok.inj h ▸ retry_keeping hconnect
    · exact Except.ok.inj h ▸ ⟨hconnect, nofun⟩
  · rw [if_neg hs] at h
    obtain ⟨-, h⟩ := require_bind_eq_ok.mp h
    exact Except.ok.inj h ▸ keeping_of_none rfl hpause

theorem runFunctor_keeping (hpause : s.pause = none) {f : ConnectorFunctor}
    {savedErrno : ConnectErrno} (h : s.runFunctor savedErrno f = .ok t) : Keeping s t := by
  cases f with
  | startInLoop => exact startInLoop_keeping h
  | stopInLoop =>
    change s.stopInLoop = _ at h
    unfold stopInLoop at h
    split_ifs at h
    · obtain ⟨⟨fd, connector⟩, hremove, h⟩ := bind_eq_ok.mp h
      exact Except.ok.inj h ▸ retry_keeping (Connector.removeAndResetChannel_ok hremove).1.connect_
    · exact Except.ok.inj h ▸ keeping_of_none rfl hpause
  | resetChannel =>
    obtain ⟨connector, hreset, h⟩ := bind_eq_ok.mp h
    obtain rfl := Except.ok.inj h
    exact keeping_of_none (Connector.resetChannel_kept hreset).connect_ hpause

theorem resume_keeping {pause : Pause} (h : s.resume pause = .ok t) : Keeping s t := by
  cases pause with
  | startInLoop | retry =>
    obtain rfl := Except.ok.inj h
    refine ⟨rfl, fun fd hfd => ?_⟩
    dsimp only at hfd
    split_ifs at hfd
    cases hfd
  | connect savedErrno =>
    have hkeeping : Keeping { s with pause := none } t := connect_keeping rfl h
    exact ⟨hkeeping.connect_, hkeeping.hands⟩
  | runAfter => exact Except.ok.inj h ▸ keeping_of_none rfl rfl
  | handleWrite sockfd =>
    unfold resume at h
    split_ifs at h with hconnect
    · exact Except.ok.inj h ▸ ⟨rfl, fun _ _ => hconnect⟩
    · exact Except.ok.inj h ▸ keeping_of_none rfl rfl
  | newConnectionCallback sockfd => exact Except.ok.inj h ▸ keeping_of_none rfl rfl

theorem goesOn_own {e : Connector.Event} (h : GoesOn e) : e.IsOwn := by
  cases e <;> trivial

theorem step_keeping {e : Event} (hown : TcpClientThreads.IsOwn e) (he : machine.enabled s e)
    (h : machine.step s e = .ok t) : Keeping s t := by
  cases e with
  | start | restart | stop | queue => exact hown.elim
  | goOn e =>
    obtain ⟨connector, hstep, h⟩ := bind_eq_ok.mp h
    obtain rfl := Except.ok.inj h
    exact keeping_of_none (Connector.step_hands (goesOn_own he.1) hstep).1 he.2.1.1
  | timer i savedErrno =>
    have hkeeping := startInLoop_keeping h
    exact ⟨hkeeping.connect_, hkeeping.hands⟩
  | handleEvent => exact Except.ok.inj h ▸ keeping_of_none rfl he.1.1
  | callback err isSelfConnect =>
    obtain ⟨hpause, hne⟩ := he
    obtain ⟨callback, callbacks, hc⟩ := List.exists_cons_of_ne_nil hne
    rw [step_callback hc] at h
    have hkeeping : Keeping { s with callbacks := callbacks } t := by
      cases callback with
      | write => exact handleWrite_keeping hpause h
      | error => exact handleError_keeping hpause h
      | close | read => exact Except.ok.inj h ▸ keeping_of_none rfl hpause
    exact ⟨hkeeping.connect_, hkeeping.hands⟩
  | call savedErrno =>
    obtain ⟨⟨hpause, -⟩, -, hne⟩ := he
    obtain ⟨f, rest, hq⟩ := List.exists_cons_of_ne_nil hne
    rw [step_call hq] at h
    have hkeeping := runFunctor_keeping (s := { s with connector := { s.connector with
      queue := { s.connector.queue with functors := rest } } }) hpause h
    exact ⟨hkeeping.connect_, hkeeping.hands⟩
  | resume =>
    obtain ⟨pause, hpause⟩ := Option.ne_none_iff_exists'.mp he
    rw [step_resume hpause] at h
    exact resume_keeping h

theorem rest_step {e : Event} (hown : TcpClientThreads.IsOwn e) (he : machine.enabled s e)
    (hrest : s.connector.AtRest) (hpause : s.pause = none) (h : machine.step s e = .ok t) :
    t.connector.AtRest ∧ t.pause = none ∧ t.calling = s.calling := by
  cases e with
  | start | restart | stop | queue => exact hown.elim
  | goOn e =>
    obtain ⟨hgoes, -⟩ := he
    obtain ⟨connector, hstep, -, -, hstate, htimers, hall⟩ := step_goesOn s.connector hgoes
    obtain ⟨connector', hstep', h⟩ := bind_eq_ok.mp h
    obtain rfl := Except.ok.inj (hstep.symm.trans hstep')
    obtain rfl := Except.ok.inj h
    exact ⟨hrest.of_eq hstate htimers hall, hpause, rfl⟩
  | timer i savedErrno =>
    have hi : i < s.connector.timers.length := he.2.2
    rw [hrest.timers] at hi
    exact absurd hi (Nat.not_lt_zero i)
  | handleEvent =>
    obtain rfl := Except.ok.inj h
    exact ⟨hrest.of_eq rfl rfl (List.Subset.refl _), hpause, rfl⟩
  | callback err isSelfConnect =>
    obtain ⟨callback, callbacks, hc⟩ := List.exists_cons_of_ne_nil he.2
    rw [step_callback hc] at h
    cases callback with
    | write =>
      change handleWrite _ _ _ = _ at h
      unfold handleWrite at h
      rw [if_neg hrest.state] at h
      obtain ⟨-, h⟩ := require_bind_eq_ok.mp h
      exact Except.ok.inj h ▸ ⟨hrest, hpause, rfl⟩
    | error =>
      change handleError _ = _ at h
      unfold handleError at h
      rw [if_neg hrest.state] at h
      exact Except.ok.inj h ▸ ⟨hrest, hpause, rfl⟩
    | close | read => exact Except.ok.inj h ▸ ⟨hrest, hpause, rfl⟩
  | call savedErrno =>
    obtain ⟨f, rest, hq⟩ := List.exists_cons_of_ne_nil he.2.2
    rw [step_call hq] at h
    have hall := FunctorQueue.all_cons hq
    have hpop : Connector.AtRest { s.connector with
        queue := { s.connector.queue with functors := rest } } := by
      refine hrest.of_eq rfl rfl ?_
      rw [hall]
      exact List.subset_cons_self _ _
    cases f with
    | startInLoop =>
      refine absurd ?_ hrest.start
      rw [hall]
      exact List.mem_cons_self
    | stopInLoop =>
      change stopInLoop _ = _ at h
      unfold stopInLoop at h
      rw [if_neg hpop.state] at h
      exact Except.ok.inj h ▸ ⟨hpop, hpause, rfl⟩
    | resetChannel =>
      obtain ⟨connector, hreset, h⟩ := bind_eq_ok.mp h
      obtain rfl := Except.ok.inj h
      obtain rfl := Connector.resetChannel_ok hreset
      exact ⟨hpop.of_eq rfl rfl (List.Subset.refl _), hpause, rfl⟩
  | resume => exact absurd hpause he

/-- A barred connector stays barred and comes to no `newConnectionCallback_`. -/
theorem Barred.step (hbarred : s.Barred) {e : Event} (hown : TcpClientThreads.IsOwn e)
    (he : machine.enabled s e) (h : machine.step s e = .ok t) :
    t.Barred ∧ ∀ fd, t.pause ≠ some (.newConnectionCallback fd) := by
  obtain ⟨hconnect, hhands⟩ := step_keeping hown he h
  rcases hbarred with hoff | ⟨hrest, hpause, hcalling⟩
  · refine ⟨.inl (hconnect.trans hoff), fun fd hfd => ?_⟩
    exact Bool.false_ne_true (hoff.symm.trans (hhands fd hfd))
  · obtain ⟨hrest', hpause', hcalling'⟩ := rest_step hown he hrest hpause h
    refine ⟨.inr ⟨hrest', hpause', ?_⟩, fun fd hfd => ?_⟩
    · rw [hcalling']
      exact hcalling
    · rw [hpause'] at hfd
      cases hfd

theorem Barred.queue (hbarred : s.Barred) {f : ConnectorFunctor} (hf : f ∈ s.calling) :
    (s.queue f).Barred := by
  refine hbarred.imp id ?_
  rintro ⟨hrest, hpause, hcalling⟩
  refine ⟨⟨hrest.state, hrest.timers, ?_⟩, hpause,
    fun hmem => hcalling (List.mem_of_mem_erase hmem)⟩
  have hne : f ≠ .startInLoop := by
    rintro rfl
    exact hcalling hf
  change .startInLoop ∉ (s.connector.queue.queueInLoop f).all
  rw [FunctorQueue.all_queueInLoop]
  simpa [Ne.symm hne] using hrest.start

end ConnectorThreads

namespace TcpClientThreads

/-- Some thread stands in front of the call. -/
def UnderWay (c : TcpClientThreads) (call : ConnectorCall) : Prop :=
  ∃ isInLoopThread, c.Calls isInLoopThread call

/-- No thread is about to make a connection: the loop's thread stands neither in front of
`newConnectionCallback_` nor of `restart()`, and no thread in `connect()`. -/
structure Untested (c : TcpClientThreads) : Prop where
  hands : ∀ fd, c.pause ≠ some (.newConnectionCallback fd)
  restart : ¬ c.UnderWay .restart
  start : ¬ c.UnderWay .start

/-- `disconnect` finds the connector without an attempt, or told not to connect. Neither it nor
`stop` comes behind a test or in a `connect`, and no `connect` in a `stop`. -/
def Idly (c : TcpClientThreads) : Event → Prop
  | .connect _ => ¬ c.UnderWay .stop
  | .disconnect => c.Untested ∧ c.connector.Barred
  | .stopConnector _ => c.Untested
  | _ => True

/-- Between `disconnect` or `stop` and `connect` both the client and the connector keep still. -/
structure Respected (c : TcpClientThreads) : Prop where
  connect_ : c.client.quiet = true → c.client.connect_ = false
  barred : c.client.quiet = true → c.connector.Barred
  untested : c.client.quiet = true → c.Untested
  stopping : c.UnderWay .stop → c.client.connect_ = false
  late : c.client.late = []

variable {c c' : TcpClientThreads} {isInLoopThread : Bool} {call call' : ConnectorCall}

theorem underWay_iff : c.UnderWay call ↔ c.next = some call ∨ call ∈ c.others := by
  unfold UnderWay
  rw [Bool.exists_bool]
  exact or_comm

theorem underWay_of_before (h : (c.before isInLoopThread call').UnderWay call) :
    call = call' ∨ c.UnderWay call := by
  rw [underWay_iff] at h ⊢
  cases isInLoopThread with
  | true => exact h.imp (fun hnext => (Option.some.inj hnext).symm) .inr
  | false =>
    change c.next = some call ∨ call ∈ c.others ++ [call'] at h
    rw [List.mem_append, List.mem_singleton] at h
    tauto

theorem underWay_of_behind (h : (c.behind isInLoopThread call').UnderWay call) :
    c.UnderWay call := by
  rw [underWay_iff] at h ⊢
  cases isInLoopThread with
  | true => exact h.imp nofun id
  | false => exact h.imp_right List.mem_of_mem_erase

theorem Untested.setClient (h : c.Untested) (client : TcpClient) :
    Untested { c with client := client } := ⟨h.hands, h.restart, h.start⟩

theorem respected_of_wanted (hquiet : c.client.quiet = false)
    (hstopping : c.UnderWay .stop → c.client.connect_ = false) (hlate : c.client.late = []) :
    c.Respected := by
  have hno {p : Prop} (hq : c.client.quiet = true) : p :=
    absurd (hquiet.symm.trans hq) Bool.false_ne_true
  exact ⟨hno, hno, hno, hstopping, hlate⟩

theorem Respected.disconnect (h : c.Respected) (huntested : c.Untested)
    (hbarred : c.connector.Barred) : c.disconnect.Respected := by
  unfold TcpClientThreads.disconnect TcpClient.disconnect
  cases hconnection : c.client.connection with
  | some p =>
    exact ⟨fun _ => rfl, fun _ => hbarred, fun _ => huntested.setClient _, fun _ => rfl, h.late⟩
  | none =>
    exact ⟨fun _ => rfl, fun _ => hbarred, fun _ => huntested.setClient _, fun _ => rfl, h.late⟩

/-- A call of `connect` that no `stop` is in makes everything possible. -/
theorem Respected.connect (h : c.Respected) (hstop : ¬ c.UnderWay .stop) :
    (c.connect isInLoopThread).Respected := by
  refine respected_of_wanted ?_ (fun hs => ?_) ?_
  · cases isInLoopThread <;> rfl
  · exact absurd ((underWay_of_before hs).resolve_left nofun) hstop
  · cases isInLoopThread <;> exact h.late

theorem Respected.stop (h : c.Respected) : (c.stop isInLoopThread).Respected := by
  have huntested (hq : c.client.quiet = true) : (c.stop isInLoopThread).Untested := by
    obtain ⟨hhands, hrestart, hstart⟩ := h.untested hq
    refine ⟨?_, fun hr => ?_, fun hs => ?_⟩
    · cases isInLoopThread <;> exact hhands
    · exact hrestart ((underWay_of_before hr).resolve_left nofun)
    · exact hstart ((underWay_of_before hs).resolve_left nofun)
  cases isInLoopThread with
  | true => exact ⟨fun _ => rfl, h.barred, huntested, fun _ => rfl, h.late⟩
  | false => exact ⟨fun _ => rfl, h.barred, huntested, fun _ => rfl, h.late⟩

theorem Respected.stopConnector (h : c.Respected) (hstop : c.UnderWay .stop)
    (huntested : c.Untested) : (c.stopConnector isInLoopThread).Respected := by
  have hconnect := h.stopping hstop
  have huntested' : (c.stopConnector isInLoopThread).Untested := by
    refine ⟨?_, fun hr => huntested.restart ?_, fun hs => huntested.start ?_⟩
    · cases isInLoopThread <;> exact huntested.hands
    · exact underWay_of_behind (c := { c with client := { c.client with quiet := true } }) hr
    · exact underWay_of_behind (c := { c with client := { c.client with quiet := true } }) hs
  cases isInLoopThread with
  | true =>
    exact ⟨fun _ => hconnect, fun _ => .inl rfl, fun _ => huntested', fun _ => hconnect, h.late⟩
  | false =>
    exact ⟨fun _ => hconnect, fun _ => .inl rfl, fun _ => huntested', fun _ => hconnect, h.late⟩

/-- What the connector has done is not seen by the client before the callback. -/
theorem Respected.setConnector (h : c.Respected) {s : ConnectorThreads}
    (hbarred : c.client.quiet = true →
      s.Barred ∧ ∀ fd, s.pause ≠ some (.newConnectionCallback fd)) :
    (c.setConnector s).Respected :=
  ⟨h.connect_, fun hq => (hbarred hq).1,
    fun hq => ⟨(hbarred hq).2, (h.untested hq).restart, (h.untested hq).start⟩, h.stopping, h.late⟩

/-- A thread goes on to `restart()` or `start()` while somebody wants a connection. -/
theorem Respected.goOn (h : c.Respected) (hquiet : c.client.quiet = false)
    (s : ConnectorThreads) : ((c.behind isInLoopThread call).setConnector s).Respected := by
  refine respected_of_wanted ?_ (fun hs => ?_) ?_
  · cases isInLoopThread <;> exact hquiet
  · have hconnect := h.stopping (underWay_of_behind hs)
    cases isInLoopThread <;> exact hconnect
  · cases isInLoopThread <;> exact h.late

theorem pause_of_handed {e : ConnectorThreads.Event} {fd : ℕ} (h : c.handed e = some fd) :
    c.pause = some (.newConnectionCallback fd) := by
  unfold handed at h
  split at h
  · obtain rfl := Option.some.inj h
    assumption
  · cases h

theorem Respected.onConnector (h : c.Respected) {e : ConnectorThreads.Event} (hown : IsOwn e)
    (he : ConnectorThreads.machine.enabled c.connector e) (hc : c.onConnector e = .ok c') :
    c'.Respected := by
  obtain ⟨s, hs, hc⟩ := bind_eq_ok.mp hc
  have hset := h.setConnector fun hq => (h.barred hq).step hown he hs
  cases hhanded : c.handed e with
  | none =>
    rw [hhanded] at hc
    exact Except.ok.inj hc ▸ hset
  | some fd =>
    rw [hhanded] at hc
    have hquiet : c.client.quiet = false := by
      by_contra hq
      exact (h.untested (eq_true_of_ne_false hq)).hands fd (pause_of_handed hhanded)
    obtain ⟨client, hnew, hc⟩ := bind_eq_ok.mp hc
    obtain ⟨conn, -, hnew⟩ := bind_eq_ok.mp hnew
    obtain rfl := Except.ok.inj hnew
    obtain rfl := Except.ok.inj hc
    refine respected_of_wanted hquiet h.stopping ?_
    change (if c.client.quiet = true then c.client.late ++ [fd] else c.client.late) = []
    rw [hquiet]
    exact h.late

/-- A connection that closes restarts the connector only if the client is to connect. -/
theorem Respected.removeConnection (h : c.Respected) {p : ℕ} (hc : c.removeConnection p = .ok c') :
    c'.Respected := by
  obtain ⟨-, hc⟩ := require_bind_eq_ok.mp hc
  obtain rfl := Except.ok.inj hc
  have hothers {call : ConnectorCall} (hmem : call ∈ c.others) : c.UnderWay call :=
    underWay_iff.mpr (.inr hmem)
  refine ⟨h.connect_, h.barred, fun hq => ⟨(h.untested hq).hands, fun hr => ?_, fun hs => ?_⟩,
    fun hs => ?_, h.late⟩
  · obtain hnext | hmem := underWay_iff.mp hr
    · dsimp only at hnext
      split_ifs at hnext with hboth
      exact Bool.false_ne_true ((h.connect_ hq).symm.trans hboth.2)
    · exact (h.untested hq).restart (hothers hmem)
  · obtain hnext | hmem := underWay_iff.mp hs
    · dsimp only at hnext
      split_ifs at hnext
      cases hnext
    · exact (h.untested hq).start (hothers hmem)
  · obtain hnext | hmem := underWay_iff.mp hs
    · dsimp only at hnext
      split_ifs at hnext
      cases hnext
    · exact h.stopping (hothers hmem)

theorem Respected.onConnection (h : c.Respected) {p : ℕ} {e : TcpConnection.Event}
    (hc : c.onConnection p e = .ok c') : c'.Respected := by
  obtain ⟨conn, -, hc⟩ := bind_eq_ok.mp hc
  have hset : Respected { c with client := c.client.setConnection p conn } :=
    ⟨h.connect_, h.barred, fun hq => (h.untested hq).setClient _, h.stopping, h.late⟩
  dsimp only at hc
  split_ifs at hc
  · exact hset.removeConnection hc
  · exact Except.ok.inj hc ▸ hset

theorem connectDestroyed_ok {client client' : TcpClient}
    (hc : client.connectDestroyed = .ok client') : ∃ conn pendingFunctors,
      client' = { client with conn := conn, pendingFunctors := pendingFunctors } := by
  unfold TcpClient.connectDestroyed at hc
  cases hqueue : client.pendingFunctors with
  | nil =>
    rw [hqueue] at hc
    obtain rfl := Except.ok.inj hc
    exact ⟨_, _, rfl⟩
  | cons p rest =>
    rw [hqueue] at hc
    obtain ⟨conn, -, hc⟩ := bind_eq_ok.mp hc
    exact ⟨_, _, (Except.ok.inj hc).symm⟩

theorem Respected.step (h : c.Respected) {e : Event} (he : machine.enabled c e) (hp : c.Idly e)
    (hc : machine.step c e = .ok c') : c'.Respected := by
  cases e with
  | connect isInLoopThread => exact Except.ok.inj hc ▸ h.connect hp
  | startConnector isInLoopThread savedErrno =>
    have hquiet : c.client.quiet = false := by
      by_contra hq
      exact (h.untested (eq_true_of_ne_false hq)).start ⟨isInLoopThread, he⟩
    obtain ⟨s, -, hc⟩ := bind_eq_ok.mp hc
    exact Except.ok.inj hc ▸ h.goOn hquiet s
  | disconnect => exact Except.ok.inj hc ▸ h.disconnect hp.1 hp.2
  | stop isInLoopThread => exact Except.ok.inj hc ▸ h.stop
  | stopConnector isInLoopThread =>
    exact Except.ok.inj hc ▸ h.stopConnector ⟨isInLoopThread, he⟩ hp
  | enableRetry =>
    exact Except.ok.inj hc ▸ ⟨h.connect_, h.barred, fun hq => (h.untested hq).setClient _,
      h.stopping, h.late⟩
  | queue f =>
    exact Except.ok.inj hc ▸ h.setConnector fun hq =>
      ⟨(h.barred hq).queue he, (h.untested hq).hands⟩
  | connector e => exact h.onConnector he.1 he.2.2 hc
  | connection p e => exact h.onConnection hc
  | restart savedErrno =>
    have hquiet : c.client.quiet = false := by
      by_contra hq
      exact (h.untested (eq_true_of_ne_false hq)).restart ⟨true, he⟩
    obtain ⟨s, -, hc⟩ := bind_eq_ok.mp hc
    exact Except.ok.inj hc ▸ h.goOn hquiet s
  | connectDestroyed =>
    obtain ⟨client, hclient, hc⟩ := bind_eq_ok.mp hc
    obtain ⟨conn, pendingFunctors, rfl⟩ := connectDestroyed_ok hclient
    exact Except.ok.inj hc ▸ ⟨h.connect_, h.barred, fun hq => (h.untested hq).setClient _,
      h.stopping, h.late⟩

theorem Respected.created (h : c.Respected) (hquiet : c.client.quiet = true) {e : Event}
    (hc : machine.step c e = .ok c') : c'.client.created = c.client.created := by
  cases e with
  | connect isInLoopThread | stop isInLoopThread | stopConnector isInLoopThread =>
    obtain rfl := Except.ok.inj hc
    cases isInLoopThread <;> rfl
  | startConnector isInLoopThread savedErrno =>
    obtain ⟨s, -, hc⟩ := bind_eq_ok.mp hc
    obtain rfl := Except.ok.inj hc
    cases isInLoopThread <;> rfl
  | disconnect =>
    obtain rfl := Except.ok.inj hc
    unfold TcpClientThreads.disconnect TcpClient.disconnect
    cases hconnection : c.client.connection <;> rfl
  | enableRetry | queue => exact Except.ok.inj hc ▸ rfl
  | connector e =>
    obtain ⟨s, -, hc⟩ := bind_eq_ok.mp hc
    cases hhanded : c.handed e with
    | none =>
      rw [hhanded] at hc
      exact Except.ok.inj hc ▸ rfl
    | some fd => exact absurd (pause_of_handed hhanded) ((h.untested hquiet).hands fd)
  | connection p e =>
    obtain ⟨conn, -, hc⟩ := bind_eq_ok.mp hc
    dsimp only at hc
    split_ifs at hc
    · obtain ⟨-, hc⟩ := require_bind_eq_ok.mp hc
      exact Except.ok.inj hc ▸ rfl
    · exact Except.ok.inj hc ▸ rfl
  | restart savedErrno =>
    obtain ⟨s, -, hc⟩ := bind_eq_ok.mp hc
    exact Except.ok.inj hc ▸ rfl
  | connectDestroyed =>
    obtain ⟨client, hclient, hc⟩ := bind_eq_ok.mp hc
    obtain ⟨conn, pendingFunctors, rfl⟩ := connectDestroyed_ok hclient
    exact Except.ok.inj hc ▸ rfl

instance : ∀ e : ConnectorThreads.Event, Decidable (IsOwn e)
  | .start _ _ | .restart _ | .stop _ | .queue _ => .isFalse id
  | .goOn _ | .timer _ _ | .handleEvent | .callback _ _ | .call _ | .resume => .isTrue trivial

instance (c : TcpClientThreads) : ∀ e, Decidable (machine.enabled c e)
  | .connect isInLoopThread | .stop isInLoopThread => inferInstanceAs (Decidable
      (isInLoopThread = true → c.Idle ∧ c.client.connector.pc ≠ .polling))
  | .startConnector isInLoopThread _ =>
    inferInstanceAs (Decidable (c.Calls isInLoopThread .start))
  | .stopConnector isInLoopThread => inferInstanceAs (Decidable (c.Calls isInLoopThread .stop))
  | .disconnect | .enableRetry => .isTrue trivial
  | .queue f => inferInstanceAs (Decidable (f ∈ c.calling))
  | .connector e => inferInstanceAs (Decidable (IsOwn e ∧ c.next = none ∧
      ConnectorThreads.machine.enabled c.connector e))
  | .connection p e => inferInstanceAs (Decidable (c.Idle ∧ p < c.client.created ∧
      c.client.connector.pc ≠ .polling ∧ e ≠ .connectEstablished ∧ e ≠ .connectDestroyed ∧
      TcpConnection.machine.enabled (c.client.conn p) e))
  | .restart _ => inferInstanceAs (Decidable (c.Calls true .restart))
  | .connectDestroyed => inferInstanceAs (Decidable (c.Idle ∧ c.client.connector.pc = .functors ∧
      c.client.pendingFunctors ≠ []))

instance (s : Connector) : Decidable s.AtRest :=
  decidable_of_iff (s.state ≠ .kConnecting ∧ s.timers = [] ∧ .startInLoop ∉ s.queue.all)
    ⟨fun h => ⟨h.1, h.2.1, h.2.2⟩, fun h => ⟨h.state, h.timers, h.start⟩⟩

instance (s : ConnectorThreads) : Decidable s.Barred := inferInstanceAs (Decidable (_ ∨ _))

instance (c : TcpClientThreads) (call : ConnectorCall) : Decidable (c.UnderWay call) :=
  decidable_of_iff _ underWay_iff.symm

instance (c : TcpClientThreads) : Decidable c.Untested :=
  match hpause : c.pause with
  | some (.newConnectionCallback fd) => .isFalse fun h => h.hands fd hpause
  | some (.startInLoop _) | some (.connect _) | some .retry | some .runAfter
  | some (.handleWrite _) | none =>
    decidable_of_iff (¬ c.UnderWay .restart ∧ ¬ c.UnderWay .start)
      ⟨fun h => ⟨by simp [hpause], h.1, h.2⟩, fun h => ⟨h.restart, h.start⟩⟩

instance (c : TcpClientThreads) : ∀ e, Decidable (c.Idly e)
  | .connect _ => inferInstanceAs (Decidable (¬ c.UnderWay .stop))
  | .disconnect => inferInstanceAs (Decidable (c.Untested ∧ c.connector.Barred))
  | .stopConnector _ => inferInstanceAs (Decidable c.Untested)
  | .startConnector _ _ | .stop _ | .enableRetry | .queue _ | .connector _ | .connection _ _
  | .restart _ | .connectDestroyed => .isTrue trivial

end TcpClientThreads
end MuduoWindows.Net
