import MuduoWindows.Net.EPollPoller.Delivery
import MuduoWindows.Net.Epoll.Deletion

/-! # Channels that are removed

A removed channel gets no event, also when polls of its socket are still in flight or its file
descriptor belongs to a new channel.
-/

namespace MuduoWindows.Net
open Library

namespace EPollPoller
variable {P : Type} [DecidableEq P] {s t : EPollPoller P} {p : P}

theorem Updated.sound (h : s.Inv) (hsound : s.port.Sound) (hu : Updated s p t) : t.port.Sound := by
  cases hu with
  | joined _ _ _ _ hport => exact hsound.registers h.port hport
  | departed => exact hsound.delete h.port _

theorem sound_step (h : s.Inv) (hsound : s.port.Sound) {e : Event P} (he : machine.enabled s e)
    (ht : machine.step s e = .ok t) : t.port.Sound := by
  cases e with
  | newChannel p fd =>
    obtain rfl := Except.ok.inj ht
    exact hsound
  | change p change => exact (h.changed ht).sound h hsound
  | remove p => exact (h.removed ht).sound h hsound
  | poll =>
    obtain rfl := Except.ok.inj ht
    exact hsound.submitAll h.port
  | entry entry =>
    obtain ⟨port, event, hout, hprocess⟩ := h.processed he.2.2.1
    obtain rfl := Except.ok.inj (hprocess.symm.trans ht)
    exact hsound.dequeued h.port he.2.2.1 hout
  | polled =>
    rw [(polled_filled ht).1.port]
    exact hsound

theorem run_sound {Q : EPollPoller P → Event P → Prop} {refused : ℕ → Bool} {es : List (Event P)}
    (h : machine.Run Q (create refused) es s) : s.port.Sound :=
  (h.invariant (fun s => s.Inv ∧ s.port.Sound) ⟨create_inv, EpollPort.create_sound⟩
    fun _ _ _ hs he _ ht => ⟨hs.1.step he ht, sound_step hs.1 hs.2 he ht⟩).2

/-- Every event is for a channel that is in `channels_` under its own file descriptor, so that the
assertions of `fillActiveChannels` hold; no poll in flight belongs to a deleted socket data. -/
theorem no_stray_event {refused : ℕ → Bool} {es : List (Event P)}
    (h : machine.Run Machine.Any (create refused) es s) :
    (s.waiting = true →
      (∀ event ∈ s.events, ∃ p, event.data = some p ∧ s.channels (s.channel p).fd = some p) ∧
      s.events.length ≤ s.eventsSize ∧ (∃ t, machine.step s .polled = .ok t) ∧
      ∀ entry, machine.enabled s (.entry entry) → ∃ t, machine.step s (.entry entry) = .ok t) ∧
    ∀ o ∈ s.port.inFlight, (s.port.op o).sockData ∉ s.port.deleted := by
  obtain ⟨hinv, hdelivering⟩ := run_delivering h
  constructor
  · intro hwait
    have hd := hdelivering hwait
    refine ⟨?_, ?_, ?_, ?_⟩
    · intro event hmem
      obtain ⟨p, hp, hindex⟩ := hd.added event hmem
      exact ⟨p, hp, hinv.known p (by rw [hindex]; nofun)⟩
    · calc s.events.length ≤ s.entries := hd.written
        _ ≤ s.maxEntries := hd.bounded
        _ ≤ s.eventsSize := min_le_right _ _
    · obtain ⟨t, ht, -⟩ := hd.polled hinv
      exact ⟨t, ht⟩
    · intro entry he
      obtain ⟨port, event, -, hprocess⟩ := hinv.processed he.2.2.1
      exact ⟨_, hprocess⟩
  · intro o ho hdeleted
    exact (run_sound h _ hdeleted).flight o ho rfl

/-- A channel is removed while its socket is polled, a new channel takes over its file descriptor,
and the old poll completes. -/
theorem no_stray_event_reused :
    ∃ s, machine.Run Machine.Any (create fun _ => false : EPollPoller Bool)
      [.newChannel false 5, .change false .enableReading, .change false .disableAll, .remove false,
        .newChannel true 5, .change true .enableReading, .poll,
        .entry ⟨0, true, 1, AFD_POLL_RECEIVE⟩, .entry ⟨1, true, 1, AFD_POLL_RECEIVE⟩] s ∧
    s.events = [⟨EPOLLIN, some true⟩] ∧ s.port.deleted = [0] ∧
    (∃ t, machine.step s .polled = .ok t) ∧
    ∀ o ∈ s.port.inFlight, (s.port.op o).sockData ∉ s.port.deleted := by
  obtain ⟨s, hs, hp⟩ := Machine.exists_run_of_exec machine Machine.Any
    (create fun _ => false : EPollPoller Bool)
    [.newChannel false 5, .change false .enableReading, .change false .disableAll, .remove false,
      .newChannel true 5, .change true .enableReading, .poll,
      .entry ⟨0, true, 1, AFD_POLL_RECEIVE⟩, .entry ⟨1, true, 1, AFD_POLL_RECEIVE⟩]
    (fun s => decide (s.waiting = true ∧ s.events = [⟨EPOLLIN, some true⟩] ∧
      s.port.deleted = [0])) (by decide)
  obtain ⟨hwait, hevents, hdeleted⟩ := of_decide_eq_true hp
  obtain ⟨hdelivered, hpolls⟩ := no_stray_event hs
  exact ⟨s, hs, hevents, hdeleted, (hdelivered hwait).2.2.1, hpolls⟩

end EPollPoller
end MuduoWindows.Net
