import MuduoWindows.Net.Connector

/-! # What a connector hands over

Only `handleWrite` calls `newConnectionCallback_`, with the socket of the channel, and only with
`connect_` set. The loop's functions do not change that flag.
-/

namespace MuduoWindows.Net
open Library

namespace Connector

/-- The step neither changes `connect_` nor hands a socket over. -/
structure Kept (s t : Connector) : Prop where
  connect_ : t.connect_ = s.connect_
  handed : t.handed = s.handed

def HandsOver (s t : Connector) : Prop :=
  ∃ ch, s.channel = some ch ∧
    t.handed = Function.update s.handed ch.fd (s.handed ch.fd + 1)

variable {s t u : Connector} {fd : ℕ}

theorem Kept.refl : Kept s s := ⟨rfl, rfl⟩

theorem Kept.trans (h : Kept s t) (k : Kept t u) : Kept s u :=
  ⟨k.connect_.trans h.connect_, k.handed.trans h.handed⟩

theorem removeAndResetChannel_ok (h : s.removeAndResetChannel = .ok (fd, t)) :
    Kept s t ∧ ∃ ch, s.channel = some ch ∧ fd = ch.fd := by
  unfold removeAndResetChannel at h
  cases hchannel : s.channel with
  | none =>
    rw [hchannel] at h
    cases h
  | some ch =>
    rw [hchannel] at h
    obtain ⟨u, -, h⟩ := bind_eq_ok.mp h
    obtain ⟨r, -, h⟩ := bind_eq_ok.mp h
    obtain ⟨rfl, rfl⟩ := Prod.mk.inj (Except.ok.inj h)
    exact ⟨⟨rfl, rfl⟩, ch, rfl, rfl⟩

theorem retry_kept : Kept s (s.retry fd) := by
  unfold retry
  dsimp only
  split_ifs <;> exact ⟨rfl, rfl⟩

theorem connect_kept {savedErrno : ConnectErrno} (h : s.connect savedErrno = .ok t) :
    Kept s t := by
  have hnext : Kept s { s with sockets := s.sockets + 1 } := ⟨rfl, rfl⟩
  unfold connect at h
  cases savedErrno with
  | ok | EINPROGRESS | WSAEINTR | EISCONN | WSAEWOULDBLOCK =>
    unfold connecting at h
    obtain ⟨-, h⟩ := require_bind_eq_ok.mp h
    obtain ⟨w, -, h⟩ := bind_eq_ok.mp h
    exact Except.ok.inj h ▸ ⟨rfl, rfl⟩
  | EAGAIN | EADDRINUSE | EADDRNOTAVAIL | ECONNREFUSED | ENETUNREACH =>
    exact Except.ok.inj h ▸ hnext.trans retry_kept
  | EACCES | EPERM | EAFNOSUPPORT | EALREADY | EBADF | EFAULT | ENOTSOCK | unexpected =>
    exact Except.ok.inj h ▸ ⟨rfl, rfl⟩

theorem startInLoop_kept {savedErrno : ConnectErrno} (h : s.startInLoop savedErrno = .ok t) :
    Kept s t := by
  unfold startInLoop at h
  obtain ⟨-, h⟩ := require_bind_eq_ok.mp h
  split_ifs at h
  · exact connect_kept h
  · exact Except.ok.inj h ▸ .refl

theorem stopInLoop_kept (h : s.stopInLoop = .ok t) : Kept s t := by
  unfold stopInLoop at h
  split_ifs at h
  · obtain ⟨⟨fd, u⟩, hremove, h⟩ := bind_eq_ok.mp h
    obtain ⟨hkept, -⟩ := removeAndResetChannel_ok hremove
    have hstate : Kept s (s.setState .kDisconnected) := ⟨rfl, rfl⟩
    exact Except.ok.inj h ▸ (hstate.trans hkept).trans retry_kept
  · exact Except.ok.inj h ▸ .refl

theorem resetChannel_ok (h : s.resetChannel = .ok t) : t = { s with channel := none } := by
  unfold resetChannel at h
  cases hchannel : s.channel with
  | none =>
    rw [hchannel] at h
    obtain rfl := Except.ok.inj h
    rw [← hchannel]
  | some ch =>
    rw [hchannel] at h
    obtain ⟨-, h⟩ := require_bind_eq_ok.mp h
    exact (Except.ok.inj h).symm

theorem resetChannel_kept (h : s.resetChannel = .ok t) : Kept s t := by
  obtain rfl := resetChannel_ok h
  exact ⟨rfl, rfl⟩

theorem handleError_kept (h : s.handleError = .ok t) :
    Kept s t ∧ (t.state = .kConnecting → t = s) := by
  unfold handleError at h
  split_ifs at h
  · obtain ⟨⟨fd, u⟩, hremove, h⟩ := bind_eq_ok.mp h
    obtain ⟨hkept, -⟩ := removeAndResetChannel_ok hremove
    obtain rfl := Except.ok.inj h
    refine ⟨hkept.trans retry_kept, fun hs => ?_⟩
    unfold retry at hs
    dsimp only at hs
    split_ifs at hs <;> cases hs
  · exact Except.ok.inj h ▸ ⟨.refl, fun _ => rfl⟩

/-- `handleWrite` hands a socket over only with `connect_` set and during an attempt. -/
theorem handleWrite_kept {err isSelfConnect : Bool} (h : s.handleWrite err isSelfConnect = .ok t) :
    t.connect_ = s.connect_ ∧ (Kept s t ∨
      s.connect_ = true ∧ s.state = .kConnecting ∧ HandsOver s t) := by
  unfold handleWrite at h
  by_cases hs : s.state = .kConnecting
  · rw [if_pos hs] at h
    obtain ⟨⟨fd, u⟩, hremove, h⟩ := bind_eq_ok.mp h
    obtain ⟨hkept, ch, hch, rfl⟩ := removeAndResetChannel_ok hremove
    dsimp only at h
    split_ifs at h with herr hself hconnect
    · exact Except.ok.inj h ▸ ⟨(hkept.trans retry_kept).connect_, .inl (hkept.trans retry_kept)⟩
    · exact Except.ok.inj h ▸ ⟨(hkept.trans retry_kept).connect_, .inl (hkept.trans retry_kept)⟩
    · obtain rfl := Except.ok.inj h
      refine ⟨hkept.connect_, .inr ⟨hkept.connect_.symm.trans hconnect, hs, ch, hch, ?_⟩⟩
      rw [← hkept.handed]
      rfl
    · obtain rfl := Except.ok.inj h
      have hclose : Kept u ((u.setState .kConnected).close ch.fd) := ⟨rfl, rfl⟩
      exact ⟨hkept.connect_, .inl (hkept.trans hclose)⟩
  · rw [if_neg hs] at h
    obtain ⟨-, h⟩ := require_bind_eq_ok.mp h
    exact Except.ok.inj h ▸ ⟨rfl, .inl .refl⟩

/-- What a step of the loop can do: it keeps `connect_`, and hands over only with it. -/
def Hands (s t : Connector) : Prop :=
  t.connect_ = s.connect_ ∧ (Kept s t ∨
    s.connect_ = true ∧ s.state = .kConnecting ∧ HandsOver s t)

theorem Kept.hands (h : Kept s t) : Hands s t := ⟨h.connect_, .inl h⟩

theorem Kept.trans_hands (h : Kept s t) (hstate : t.state = s.state)
    (hchannel : t.channel = s.channel) (k : Hands t u) : Hands s u := by
  refine ⟨k.1.trans h.connect_, k.2.imp h.trans ?_⟩
  rintro ⟨hset, hs, ch, hch, hover⟩
  refine ⟨h.connect_.symm.trans hset, hstate.symm.trans hs, ch, hchannel.symm.trans hch, ?_⟩
  rw [← h.handed]
  exact hover

theorem runCallbacks_kept {err isSelfConnect : Bool} {callbacks : List Channel.Callback}
    (hwrite : .write ∉ callbacks)
    (h : callbacks.foldlM (runCallback err isSelfConnect) s = .ok t) :
    Kept s t ∧ (t.state = .kConnecting → t = s) := by
  induction callbacks generalizing s with
  | nil => exact Except.ok.inj h ▸ ⟨.refl, fun _ => rfl⟩
  | cons callback callbacks ih =>
    rw [List.foldlM_cons] at h
    obtain ⟨u, hu, h⟩ := bind_eq_ok.mp h
    obtain ⟨hkept, hback⟩ := ih (fun hmem => hwrite (List.mem_cons_of_mem _ hmem)) h
    obtain ⟨hfirst, hsame⟩ : Kept s u ∧ (u.state = .kConnecting → u = s) := by
      cases callback with
      | write => exact absurd List.mem_cons_self hwrite
      | error => exact handleError_kept hu
      | close | read => exact Except.ok.inj hu ▸ ⟨.refl, fun _ => rfl⟩
    refine ⟨hfirst.trans hkept, fun hs => ?_⟩
    obtain rfl := hback hs
    exact hsame hs

/-- What the callbacks before the write callback do, and then that callback if it is called. -/
theorem handleEvent_split {revents : Events} {err isSelfConnect : Bool}
    (h : (Channel.handleEventWithGuard revents).foldlM (runCallback err isSelfConnect) s = .ok t) :
    ∃ (front : List Channel.Callback) (u : Connector), .write ∉ front ∧
      front.foldlM (runCallback err isSelfConnect) s = .ok u ∧
      (u = t ∨ u.handleWrite err isSelfConnect = .ok t) := by
  obtain ⟨front, heq, hfront⟩ := Channel.exists_handleEventWithGuard_eq revents
  rw [heq, List.foldlM_append] at h
  obtain ⟨u, hu, h⟩ := bind_eq_ok.mp h
  refine ⟨front, u, hfront, hu, ?_⟩
  split_ifs at h
  · rw [List.foldlM_cons] at h
    obtain ⟨v, hv, h⟩ := bind_eq_ok.mp h
    exact .inr (Except.ok.inj h ▸ hv)
  · exact .inl (Except.ok.inj h)

theorem handleEvent_hands {revents : Events} {err isSelfConnect : Bool}
    (h : (Channel.handleEventWithGuard revents).foldlM (runCallback err isSelfConnect) s = .ok t) :
    Hands s t := by
  obtain ⟨front, u, hfront, hu, rfl | hv⟩ := handleEvent_split h
  · exact (runCallbacks_kept hfront hu).1.hands
  · obtain ⟨hkept, hback⟩ := runCallbacks_kept hfront hu
    obtain ⟨hconnect, hv | ⟨hset, hs, hover⟩⟩ := handleWrite_kept hv
    · exact (hkept.trans hv).hands
    · obtain rfl := hback hs
      exact ⟨hconnect, .inr ⟨hset, hs, hover⟩⟩

theorem runFunctor_kept {f : ConnectorFunctor} {savedErrno : ConnectErrno}
    (h : s.runFunctor savedErrno f = .ok t) : Kept s t := by
  cases f with
  | startInLoop => exact startInLoop_kept h
  | stopInLoop => exact stopInLoop_kept h
  | resetChannel => exact resetChannel_kept h

theorem step_hands {e : Event} (hown : e.IsOwn) (h : machine.step s e = .ok t) : Hands s t := by
  cases e with
  | start | restart | stop => exact hown.elim
  | loop => exact Except.ok.inj h ▸ Kept.hands ⟨rfl, rfl⟩
  | polled revents => exact Except.ok.inj h ▸ Kept.hands ⟨rfl, rfl⟩
  | timer i savedErrno =>
    have hpop : Kept s { s with timers := s.timers.eraseIdx i } := ⟨rfl, rfl⟩
    exact (hpop.trans (startInLoop_kept h)).hands
  | timersDone => exact Except.ok.inj h ▸ Kept.hands ⟨rfl, rfl⟩
  | handleEvent err isSelfConnect =>
    cases hactive : s.active with
    | none =>
      rw [step_handleEvent_none hactive] at h
      exact Except.ok.inj h ▸ Kept.refl.hands
    | some revents =>
      rw [step_handleEvent hactive] at h
      have htaken : Kept s { s with active := none } := ⟨rfl, rfl⟩
      exact htaken.trans_hands rfl rfl (handleEvent_hands h)
  | swap => exact Except.ok.inj h ▸ Kept.hands ⟨rfl, rfl⟩
  | call savedErrno =>
    cases hqueue : s.queue.functors with
    | nil =>
      rw [step_call_nil hqueue] at h
      exact Except.ok.inj h ▸ Kept.refl.hands
    | cons f rest =>
      rw [step_call hqueue] at h
      have hpop : Kept s { s with queue := { s.queue with functors := rest } } := ⟨rfl, rfl⟩
      exact (hpop.trans (runFunctor_kept h)).hands
  | functorsDone => exact Except.ok.inj h ▸ Kept.hands ⟨rfl, rfl⟩

theorem runCallbacks_rest (hs : s.state ≠ .kConnecting) {err isSelfConnect : Bool}
    {callbacks : List Channel.Callback}
    (h : callbacks.foldlM (runCallback err isSelfConnect) s = .ok t) : t = s := by
  induction callbacks generalizing s with
  | nil => exact (Except.ok.inj h).symm
  | cons callback callbacks ih =>
    rw [List.foldlM_cons] at h
    obtain ⟨u, hu, hrest⟩ := bind_eq_ok.mp h
    obtain rfl : u = s := by
      cases callback with
      | write =>
        change s.handleWrite err isSelfConnect = _ at hu
        unfold handleWrite at hu
        rw [if_neg hs] at hu
        exact (Except.ok.inj (require_bind_eq_ok.mp hu).2).symm
      | error =>
        change s.handleError = _ at hu
        unfold handleError at hu
        rw [if_neg hs] at hu
        exact (Except.ok.inj hu).symm
      | close | read => exact (Except.ok.inj hu).symm
    exact ih hs hrest

end Connector
end MuduoWindows.Net
