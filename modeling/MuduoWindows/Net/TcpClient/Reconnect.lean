import MuduoWindows.Net.Connector.Backoff
import MuduoWindows.Net.TcpClient.OneConnection

/-! # A client that goes on

The client restarts its connector when a connection has ended, and the connector retries what has
failed. A client without a connection has an attempt under way or one to come, unless the last
attempt was given up or the last connection let go.
-/

namespace MuduoWindows.Net
open Library

namespace Connector
variable {s t : Connector} {savedErrno : ConnectErrno}

/-- A connector that is done has been told not to connect, or is told to start again. -/
def Unwanted (s : Connector) : Prop :=
  s.state = .kConnected → s.connect_ = false ∨ .startInLoop ∈ s.queue.all

theorem unwanted_of_ne (hs : s.state ≠ .kConnected) : s.Unwanted := fun h => absurd h hs

theorem retry_unwanted (fd : ℕ) : (s.retry fd).Unwanted := by
  refine unwanted_of_ne ?_
  rw [(retry_armed s fd).2.2.1]
  nofun

theorem connect_unwanted (hs : s.state = .kDisconnected) (h : s.connect savedErrno = .ok t) :
    t.Unwanted := by
  unfold connect at h
  cases savedErrno with
  | ok | EINPROGRESS | WSAEINTR | EISCONN | WSAEWOULDBLOCK =>
    obtain ⟨-, h⟩ := require_bind_eq_ok.mp h
    obtain ⟨u, -, h⟩ := bind_eq_ok.mp h
    exact Except.ok.inj h ▸ unwanted_of_ne nofun
  | EAGAIN | EADDRINUSE | EADDRNOTAVAIL | ECONNREFUSED | ENETUNREACH =>
    exact Except.ok.inj h ▸ retry_unwanted _
  | EACCES | EPERM | EAFNOSUPPORT | EALREADY | EBADF | EFAULT | ENOTSOCK | unexpected =>
    refine Except.ok.inj h ▸ unwanted_of_ne ?_
    change s.state ≠ _
    rw [hs]
    nofun

theorem startInLoop_unwanted (h : s.startInLoop savedErrno = .ok t) : t.Unwanted := by
  obtain ⟨hs, h⟩ := require_bind_eq_ok.mp h
  split_ifs at h
  · exact connect_unwanted hs h
  · exact Except.ok.inj h ▸ unwanted_of_ne (by rw [hs]; nofun)

theorem handleError_unwanted (hs : s.Unwanted) (h : s.handleError = .ok t) : t.Unwanted := by
  unfold handleError at h
  split_ifs at h
  · obtain ⟨⟨fd, u⟩, -, h⟩ := bind_eq_ok.mp h
    exact Except.ok.inj h ▸ retry_unwanted _
  · exact Except.ok.inj h ▸ hs

/-- A connector that connects hands its socket over, or closes it unwanted. -/
theorem handleWrite_unwanted {err isSelfConnect : Bool} (hs : s.Unwanted)
    (h : s.handleWrite err isSelfConnect = .ok t) (hhanded : t.handed = s.handed) :
    t.Unwanted := by
  unfold handleWrite at h
  by_cases hc : s.state = .kConnecting
  · rw [if_pos hc] at h
    obtain ⟨⟨fd, u⟩, hremove, h⟩ := bind_eq_ok.mp h
    have hkept := (removeAndResetChannel_ok hremove).1
    dsimp only at h
    split_ifs at h with herr hself hconnect
    · exact Except.ok.inj h ▸ retry_unwanted _
    · exact Except.ok.inj h ▸ retry_unwanted _
    · obtain rfl := Except.ok.inj h
      have hcount := congrFun hhanded fd
      rw [← hkept.handed] at hcount
      change Function.update u.handed fd (u.handed fd + 1) fd = _ at hcount
      rw [Function.update_self] at hcount
      omega
    · exact Except.ok.inj h ▸ fun _ => .inl (Bool.eq_false_iff.mpr hconnect)
  · rw [if_neg hc] at h
    obtain ⟨-, h⟩ := require_bind_eq_ok.mp h
    exact Except.ok.inj h ▸ hs

theorem runCallbacks_unwanted {err isSelfConnect : Bool} {callbacks : List Channel.Callback}
    (hwrite : .write ∉ callbacks) (hs : s.Unwanted)
    (h : callbacks.foldlM (runCallback err isSelfConnect) s = .ok t) : t.Unwanted := by
  induction callbacks generalizing s with
  | nil => exact Except.ok.inj h ▸ hs
  | cons callback callbacks ih =>
    rw [List.foldlM_cons] at h
    obtain ⟨u, hu, h⟩ := bind_eq_ok.mp h
    refine ih (fun hmem => hwrite (List.mem_cons_of_mem _ hmem)) ?_ h
    cases callback with
    | write => exact absurd List.mem_cons_self hwrite
    | error => exact handleError_unwanted hs hu
    | close | read => exact Except.ok.inj hu ▸ hs

theorem handleEvent_unwanted {revents : Events} {err isSelfConnect : Bool} (hs : s.Unwanted)
    (h : (Channel.handleEventWithGuard revents).foldlM (runCallback err isSelfConnect) s = .ok t)
    (hhanded : t.handed = s.handed) : t.Unwanted := by
  obtain ⟨front, u, hfront, hu, hv⟩ := handleEvent_split h
  have hkept := (runCallbacks_kept hfront hu).1
  have hbefore := runCallbacks_unwanted hfront hs hu
  obtain rfl | hv := hv
  · exact hbefore
  · exact handleWrite_unwanted hbefore hv (hhanded.trans hkept.handed.symm)

theorem Unwanted.pop (h : s.Unwanted) {f : ConnectorFunctor} {rest : List ConnectorFunctor}
    (hqueue : s.queue.functors = f :: rest) (hf : f ≠ .startInLoop) :
    Unwanted { s with queue := { s.queue with functors := rest } } := by
  refine fun hs => (h hs).imp_right fun hmem => ?_
  rw [FunctorQueue.all_cons hqueue] at hmem
  exact (List.mem_cons.mp hmem).resolve_left hf.symm

theorem stopInLoop_unwanted (hs : s.Unwanted) (h : s.stopInLoop = .ok t) : t.Unwanted := by
  unfold stopInLoop at h
  split_ifs at h
  · obtain ⟨⟨fd, u⟩, -, h⟩ := bind_eq_ok.mp h
    exact Except.ok.inj h ▸ retry_unwanted _
  · exact Except.ok.inj h ▸ hs

theorem resetChannel_unwanted (hs : s.Unwanted) (h : s.resetChannel = .ok t) : t.Unwanted := by
  unfold resetChannel at h
  cases hchannel : s.channel with
  | none =>
    rw [hchannel] at h
    exact Except.ok.inj h ▸ hs
  | some ch =>
    rw [hchannel] at h
    obtain ⟨-, h⟩ := require_bind_eq_ok.mp h
    exact Except.ok.inj h ▸ hs

theorem step_unwanted (hs : s.Unwanted) (htaken : s.Taken) {e : Event} (he : machine.enabled s e)
    (h : machine.step s e = .ok t) (hhanded : t.handed = s.handed) : t.Unwanted := by
  cases e with
  | start isInLoopThread savedErrno =>
    change s.start isInLoopThread savedErrno = _ at h
    unfold start at h
    dsimp only at h
    split_ifs at h
    · exact startInLoop_unwanted h
    · refine Except.ok.inj h ▸ fun _ => .inr ?_
      change _ ∈ (s.queue.queueInLoop .startInLoop).all
      rw [FunctorQueue.all_queueInLoop]
      exact List.mem_append_right _ List.mem_cons_self
  | restart savedErrno => exact startInLoop_unwanted h
  | stop => exact Except.ok.inj h ▸ fun _ => .inl rfl
  | loop | polled revents | timersDone | functorsDone => exact Except.ok.inj h ▸ hs
  | timer i savedErrno => exact startInLoop_unwanted h
  | handleEvent err isSelfConnect =>
    cases hactive : s.active with
    | none => exact absurd hactive he.2
    | some revents =>
      rw [step_handleEvent hactive] at h
      exact handleEvent_unwanted (s := { s with active := none }) hs h hhanded
  | swap =>
    have hpc : s.pc = .handlers := he.1
    refine Except.ok.inj h ▸ fun hc => (hs hc).imp_right fun hmem => ?_
    change _ ∈ s.queue.swap.all
    rwa [FunctorQueue.all_swap (htaken (by rw [hpc]; nofun))]
  | call savedErrno =>
    cases hqueue : s.queue.functors with
    | nil => exact absurd hqueue he.2
    | cons f rest =>
      rw [step_call hqueue] at h
      cases f with
      | startInLoop => exact startInLoop_unwanted h
      | stopInLoop => exact stopInLoop_unwanted (hs.pop hqueue nofun) h
      | resetChannel => exact resetChannel_unwanted (hs.pop hqueue nofun) h

end Connector

/-- The `savedErrno` of an attempt made in the step. -/
def TcpClient.Event.savedErrno : TcpClient.Event → ConnectErrno
  | .connect _ savedErrno | .connection _ _ savedErrno => savedErrno
  | .connector e => e.savedErrno
  | .disconnect | .stop | .enableRetry | .connectDestroyed => .ok

/-- A client, whether the last attempt was given up, and whether the last connection was let go,
without a restart. -/
structure Reconnects where
  client : TcpClient
  gaveUp : Bool
  letGo : Bool

namespace Reconnects
open TcpClient

def create (callbacks : Callbacks) : Reconnects :=
  { client := .create callbacks, gaveUp := false, letGo := false }

/-- The client has become `c` by the event. -/
def noted (s : Reconnects) (e : TcpClient.Event) (c : TcpClient) : Reconnects :=
  { client := c
    gaveUp := if s.client.connector.sockets < c.connector.sockets then e.savedErrno.abandons
      else s.gaveUp
    letGo := if s.client.connection ≠ none ∧ c.connection = none then
      !(s.client.retry_ && s.client.connect_) else s.letGo }

def machine : Machine Reconnects TcpClient.Event Fault where
  enabled s e := TcpClient.machine.enabled s.client e
  step s e := do
    let c ← TcpClient.machine.step s.client e
    pure (s.noted e c)

instance (s : Reconnects) (e : TcpClient.Event) : Decidable (machine.enabled s e) :=
  inferInstanceAs (Decidable (TcpClient.machine.enabled s.client e))

structure Inv (s : Reconnects) : Prop where
  client : s.client.Inv
  taken : s.client.connector.Taken
  awaits : s.gaveUp = false → s.client.connector.Awaits
  unwanted : s.client.connection = none → s.letGo = false → s.client.connector.Unwanted

variable {s t : Reconnects} {c : TcpClient} {e : TcpClient.Event}

theorem create_inv (callbacks : Callbacks) : (create callbacks).Inv := by
  refine ⟨TcpClient.create_inv callbacks, fun _ => rfl, fun _ => ?_, fun _ _ => ?_⟩
  · exact fun hc => absurd hc Bool.false_ne_true
  · exact Connector.unwanted_of_ne nofun

/-- What becomes of the connector in a step of the client. -/
structure Moves (s : Reconnects) (e : TcpClient.Event) (c : TcpClient) : Prop where
  taken : c.connector.Taken
  settled : c.connector.sockets ≤ s.client.connector.sockets → s.client.connector.Awaits →
    c.connector.Awaits
  attempted : s.client.connector.sockets < c.connector.sockets → e.savedErrno.abandons = false →
    c.connector.Awaits
  unwanted : c.connection = none → (s.noted e c).letGo = false → c.connector.Unwanted

theorem Inv.moves (h : s.Inv) (hclient : c.Inv) (hmoves : Moves s e c) : (s.noted e c).Inv := by
  refine ⟨hclient, hmoves.taken, fun hgave => ?_, hmoves.unwanted⟩
  change (if s.client.connector.sockets < c.connector.sockets then _ else _) = false at hgave
  split_ifs at hgave with hlt
  · exact hmoves.attempted hlt hgave
  · exact hmoves.settled (Nat.le_of_not_lt hlt) (h.awaits hgave)

theorem noted_letGo (hconnection : c.connection = s.client.connection) :
    (s.noted e c).letGo = s.letGo := by
  change (if _ ∧ _ then _ else _) = _
  rw [hconnection, if_neg fun hc => hc.1 hc.2]

theorem Inv.idle (h : s.Inv) (hconnector : c.connector = s.client.connector)
    (hconnection : c.connection = s.client.connection) : Moves s e c := by
  refine ⟨?_, fun _ => ?_, fun hlt => ?_, fun hnone hgo => ?_⟩
  · rw [hconnector]
    exact h.taken
  · rw [hconnector]
    exact id
  · rw [hconnector] at hlt
    exact absurd hlt (lt_irrefl _)
  · rw [noted_letGo hconnection] at hgo
    rw [hconnector]
    exact h.unwanted (hconnection.symm.trans hnone) hgo

theorem Inv.connector (h : s.Inv) {e' : Connector.Event}
    (he : Connector.machine.enabled s.client.connector e')
    (hstep : Connector.machine.step s.client.connector e' = .ok c.connector)
    (herrno : e.savedErrno = e'.savedErrno)
    (hunwanted : c.connection = none → (s.noted e c).letGo = false → c.connector.Unwanted) :
    Moves s e c := by
  have hplans := Connector.step_plans h.taken he hstep
  refine ⟨hplans.taken, hplans.settled, fun hlt => ?_, hunwanted⟩
  rw [herrno]
  exact hplans.attempted hlt

theorem Inv.unhanded (h : s.Inv) {e' : Connector.Event}
    (he : Connector.machine.enabled s.client.connector e')
    (hstep : Connector.machine.step s.client.connector e' = .ok c.connector)
    (hhanded : c.connector.handed = s.client.connector.handed)
    (hconnection : c.connection = s.client.connection) :
    c.connection = none → (s.noted e c).letGo = false → c.connector.Unwanted := by
  intro hnone hgo
  rw [noted_letGo hconnection] at hgo
  exact Connector.step_unwanted (h.unwanted (hconnection.symm.trans hnone) hgo) h.taken he hstep
    hhanded

theorem Inv.onConnector (h : s.Inv) {e : Connector.Event}
    (he : Connector.machine.enabled s.client.connector e) (hown : e.IsOwn)
    (hc : s.client.onConnector e = .ok c) : Moves s (.connector e) c := by
  obtain ⟨connector, hstep, hc⟩ := bind_eq_ok.mp hc
  have hover := handed_eq hown hstep
  cases hhanded : handed s.client.connector connector with
  | none =>
    simp only [hhanded] at hc hover
    obtain rfl := Except.ok.inj hc
    exact h.connector he hstep rfl (h.unhanded he hstep hover rfl)
  | some sockfd =>
    simp only [hhanded] at hc
    obtain ⟨conn, -, hc⟩ := bind_eq_ok.mp hc
    obtain rfl := Except.ok.inj hc
    exact h.connector he hstep rfl fun hnone => by cases hnone

theorem Inv.onConnection (h : s.Inv) {p : ℕ} {e : TcpConnection.Event} {savedErrno : ConnectErrno}
    (hp : p < s.client.created) (hpc : s.client.connector.pc ≠ .polling)
    (hc : s.client.onConnection p e savedErrno = .ok c) :
    Moves s (.connection p e savedErrno) c := by
  obtain ⟨conn, -, hc⟩ := bind_eq_ok.mp hc
  dsimp only at hc
  by_cases hcalls : Closes (s.client.conn p) e
  · rw [if_pos hcalls] at hc
    have hcurrent := h.client.current_of_closes hp hcalls
    unfold TcpClient.removeConnection at hc
    obtain ⟨-, hc⟩ := require_bind_eq_ok.mp hc
    dsimp only at hc
    split_ifs at hc with hretry
    · obtain ⟨connector, hrestart, hc⟩ := bind_eq_ok.mp hc
      obtain rfl := Except.ok.inj hc
      have hstep : Connector.machine.step s.client.connector (.restart savedErrno) =
          .ok connector := hrestart
      have henabled : Connector.machine.enabled s.client.connector (.restart savedErrno) := hpc
      exact h.connector henabled hstep rfl fun _ _ => Connector.startInLoop_unwanted hrestart
    · obtain rfl := Except.ok.inj hc
      refine ⟨h.taken, fun _ => id, fun hlt => absurd hlt (lt_irrefl _), fun _ hgo => ?_⟩
      -- the client did not want another connection
      change (if s.client.connection ≠ none ∧ none = none then _ else _) = false at hgo
      rw [if_pos ⟨by rw [hcurrent]; nofun, rfl⟩] at hgo
      refine absurd ?_ hretry
      change s.client.retry_ = true ∧ s.client.connect_ = true
      simpa using hgo
  · rw [if_neg hcalls] at hc
    exact Except.ok.inj hc ▸ h.idle rfl rfl

theorem Inv.step (h : s.Inv) (he : machine.enabled s e) (hs : machine.step s e = .ok t) :
    t.Inv := by
  obtain ⟨c, hc, hs⟩ := bind_eq_ok.mp hs
  obtain rfl := Except.ok.inj hs
  refine h.moves (h.client.step he hc) ?_
  cases e with
  | connect isInLoopThread savedErrno =>
    obtain ⟨connector, hstart, hc⟩ := bind_eq_ok.mp hc
    obtain rfl := Except.ok.inj hc
    have hstep : Connector.machine.step s.client.connector (.start isInLoopThread savedErrno) =
        .ok connector := hstart
    have henabled : Connector.machine.enabled s.client.connector
        (.start isInLoopThread savedErrno) := he
    have hhanded : connector.handed = s.client.connector.handed := by
      change s.client.connector.start isInLoopThread savedErrno = _ at hstart
      unfold Connector.start at hstart
      dsimp only at hstart
      split_ifs at hstart
      · exact (Connector.startInLoop_kept hstart).handed
      · exact Except.ok.inj hstart ▸ rfl
    exact h.connector henabled hstep rfl (h.unhanded henabled hstep hhanded rfl)
  | disconnect =>
    obtain rfl := Except.ok.inj hc
    unfold TcpClient.disconnect
    cases hconnection : s.client.connection with
    | none => exact h.idle rfl hconnection.symm
    | some p => exact h.idle rfl hconnection.symm
  | stop =>
    obtain rfl := Except.ok.inj hc
    have hstep : Connector.machine.step s.client.connector .stop = .ok s.client.connector.stop :=
      rfl
    have henabled : Connector.machine.enabled s.client.connector .stop := trivial
    exact h.connector henabled hstep rfl (h.unhanded henabled hstep rfl rfl)
  | enableRetry => exact Except.ok.inj hc ▸ h.idle rfl rfl
  | connector e => exact h.onConnector he.2 he.1 hc
  | connection p e savedErrno => exact h.onConnection he.1 he.2.1 hc
  | connectDestroyed =>
    change s.client.connectDestroyed = _ at hc
    unfold TcpClient.connectDestroyed at hc
    cases hqueue : s.client.pendingFunctors with
    | nil =>
      rw [hqueue] at hc
      exact Except.ok.inj hc ▸ h.idle rfl rfl
    | cons p rest =>
      rw [hqueue] at hc
      obtain ⟨conn, -, hc⟩ := bind_eq_ok.mp hc
      exact Except.ok.inj hc ▸ h.idle rfl rfl

/-- A client without a connection whose connector is to connect is connecting, waits for a retry or
has `startInLoop` queued, unless its last attempt was given up or its last connection let go. -/
theorem client_goes_on {callbacks : Callbacks} {es : List TcpClient.Event}
    (h : machine.Run Machine.Any (create callbacks) es s)
    (hnone : s.client.connection = none) (hconnect : s.client.connector.connect_ = true)
    (hgave : s.gaveUp = false) (hgo : s.letGo = false) :
    s.client.connector.state = .kConnecting ∨ s.client.connector.timers ≠ [] ∨
      .startInLoop ∈ s.client.connector.queue.all := by
  have hinv := h.invariant Inv (create_inv callbacks) fun _ _ _ ht he _ hu => ht.step he hu
  cases hs : s.client.connector.state with
  | kConnecting => exact .inl rfl
  | kDisconnected => exact .inr (hinv.awaits hgave hconnect hs)
  | kConnected =>
    refine .inr (.inr ((hinv.unwanted hnone hgo hs).resolve_left ?_))
    rw [hconnect]
    nofun

/-- The peer closes, and the next attempt is refused: the client waits for its retry. -/
theorem client_goes_on_refused : ∃ s, machine.Run Machine.Any
    (create ⟨true, true, false, false, false⟩)
    [.enableRetry, .connect true .EINPROGRESS, .connector .loop,
      .connector (.polled (some POLLOUT)), .connector .timersDone,
      .connector (.handleEvent false false), .connection 0 .userDone .ok, .connector .swap,
      .connector (.call .ok), .connector .functorsDone, .connector (.polled none),
      .connector .timersDone, .connection 0 (.polled [POLLIN]) .ok, .connection 0 .dispatch .ok,
      .connection 0 (.resume [] 0) .ok, .connection 0 .userDone .ok,
      .connection 0 (.resume [] 0) .ECONNREFUSED] s ∧ s.client.connector.timers ≠ [] := by
  obtain ⟨s, hs, hp⟩ := Machine.exists_run_of_exec machine Machine.Any
    (create ⟨true, true, false, false, false⟩)
    [.enableRetry, .connect true .EINPROGRESS, .connector .loop,
      .connector (.polled (some POLLOUT)), .connector .timersDone,
      .connector (.handleEvent false false), .connection 0 .userDone .ok, .connector .swap,
      .connector (.call .ok), .connector .functorsDone, .connector (.polled none),
      .connector .timersDone, .connection 0 (.polled [POLLIN]) .ok, .connection 0 .dispatch .ok,
      .connection 0 (.resume [] 0) .ok, .connection 0 .userDone .ok,
      .connection 0 (.resume [] 0) .ECONNREFUSED]
    (fun s => decide (s.client.connection = none ∧ s.client.connector.connect_ = true ∧
      s.gaveUp = false ∧ s.letGo = false ∧ s.client.connector.state = .kDisconnected ∧
      s.client.connector.queue.all = [])) (by decide +kernel)
  obtain ⟨hnone, hconnect, hgave, hgo, hstate, hqueue⟩ := of_decide_eq_true hp
  rcases client_goes_on hs hnone hconnect hgave hgo with hconnecting | htimers | hstart
  · cases hstate.symm.trans hconnecting
  · exact ⟨s, hs, htimers⟩
  · rw [hqueue] at hstart
    cases hstart

end Reconnects
end MuduoWindows.Net
