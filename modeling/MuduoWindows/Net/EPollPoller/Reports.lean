import MuduoWindows.Net.EPollPoller.Delivery
import MuduoWindows.Net.Epoll.Generations

/-! # One event for each channel

A call of `poll` reports a channel at most once, and only from the last poll of its socket, if no
poll that outlives a newer one is reported or left in flight by an update of the channel.
-/

namespace MuduoWindows.Net
open Library

namespace EPollPoller
variable {P : Type} [DecidableEq P] {s t : EPollPoller P} {p : P} {entry : Completion}
  {port' : EpollPort P} {event : Option (EpollEvent P)}

/-- A registered socket is polled anew only if no poll has outlived its newest one, and its
generation does not overflow; an entry for a poll that has outlived the newest one has nothing to
report. -/
def Orderly (s : EPollPoller P) : Event P → Prop
  | .change p change => ∀ d ∈ s.port.sockDataTree (s.channel p).fd,
      (change.apply (s.channel p)).isNoneEvent = false →
        ¬ s.port.Stale d ∧ (s.port.sockData d).opGeneration + 1 < 2 ^ 32
  | .entry entry => s.port.Stale (s.port.op entry.op).sockData → ¬ EpollPort.Reports entry
  | _ => True

instance (s : EPollPoller P) : ∀ e, Decidable (Orderly s e)
  | .change _ _ => inferInstanceAs (Decidable (∀ d ∈ _, _ → _))
  | .entry _ => inferInstanceAs (Decidable (_ → _))
  | .newChannel _ _ | .remove _ | .poll | .polled => .isTrue trivial

/-- No channel has two events, and the generation of a channel with an event has been reset. -/
structure Once (s : EPollPoller P) : Prop where
  nodup : (targets s.events).Nodup
  reset : ∀ p ∈ targets s.events, ∀ d, s.port.sockDataTree (s.channel p).fd = some d →
    (s.port.sockData d).opGeneration = 0

theorem Updated.ordered (h : s.Inv) (hordered : s.port.Ordered) (hu : Updated s p t)
    (hfree : ∀ d, s.port.sockDataTree (s.channel p).fd = some d → (t.channel p).index = .kAdded →
      ¬ s.port.Stale d ∧ (s.port.sockData d).opGeneration + 1 < 2 ^ 32) : t.port.Ordered := by
  cases hu with
  | @joined c d port hfd hown hindex hregular hport =>
    have hself : (s.joined p c port).channel p = c := setChannel_self
    apply hordered.registers h.port hport
    intro hd
    rw [hfd] at hd
    exact hfree d hd (by rw [hself, hindex])
  | departed => exact hordered.delete h.port _

theorem applyUpdate_channel {u : Update P} (ht : s.applyUpdate p u = .ok t) :
    t.channel p = u.channel := by
  unfold applyUpdate at ht
  cases hctl : u.ctl with
  | none =>
    rw [hctl] at ht
    obtain rfl := Except.ok.inj ht
    exact setChannel_self
  | some operation =>
    rw [hctl] at ht
    obtain ⟨port, -, ht⟩ := bind_eq_ok.mp ht
    obtain rfl := Except.ok.inj ht
    exact setChannel_self

/-- A change that leaves a registered channel added has left it an interest. -/
theorem Inv.changed_added (h : s.Inv) {change : Change} (ht : s.change p change = .ok t) {d : ℕ}
    (hd : s.port.sockDataTree (s.channel p).fd = some d) (hindex : (t.channel p).index = .kAdded) :
    (change.apply (s.channel p)).isNoneEvent = false := by
  obtain ⟨u, hu, ht⟩ := bind_eq_ok.mp ht
  have hagree := registered_of_updateChannel hu
  rw [updateChannel_eq hagree] at hu
  obtain rfl := Except.ok.inj hu
  rw [applyUpdate_channel ht] at hindex
  unfold Registered at hagree
  rw [Change.apply_index, Change.apply_fd] at hagree
  have hadded : (s.channel p).index = .kAdded := by
    by_contra hne
    rw [h.unregistered hne hagree] at hd
    cases hd
  change indexOf (change.apply (s.channel p)) = .kAdded at hindex
  unfold indexOf at hindex
  rw [Change.apply_index] at hindex
  cases hnone : (change.apply (s.channel p)).isNoneEvent with
  | false => rfl
  | true =>
    rw [if_pos ⟨hadded, hnone⟩] at hindex
    cases hindex

omit [DecidableEq P] in
theorem Orderly.generation_ne (horderly : Orderly s (.entry entry))
    (hentry : entry.op ∈ s.port.inFlight) (hout : s.port.Outcome entry port' event)
    {ev : EpollEvent P} (hev : event = some ev) : (s.port.owner entry.op).opGeneration ≠ 0 := by
  obtain ⟨hfind, -, -, hreports⟩ := hout.reports hev
  intro hzero
  exact horderly ⟨hfind, hzero, entry.op, hentry, rfl⟩ hreports

omit [DecidableEq P] in
theorem Once.processed (h : s.Inv) (ho : s.Once) (hentry : entry.op ∈ s.port.inFlight)
    (horderly : Orderly s (.entry entry)) (hout : s.port.Outcome entry port' event)
    (lost : P → Interest → Bool) :
    Once { s with
      port := port', entries := s.entries + 1, events := s.events ++ event.toList,
      lost := lost } := by
  -- a generation that has been reset stays so
  have hkept : ∀ d, (s.port.sockData d).opGeneration = 0 → (port'.sockData d).opGeneration = 0 := by
    intro d hzero
    by_cases hd : d = (s.port.op entry.op).sockData
    · subst d
      rcases hout.generation with ⟨-, hsame⟩ | hreset
      · exact hsame.trans hzero
      · exact hreset
    · rw [(hout.spares hd).data]
      exact hzero
  have hold : ∀ p ∈ targets s.events, ∀ d, port'.sockDataTree (s.channel p).fd = some d →
      (port'.sockData d).opGeneration = 0 :=
    fun p hp d hd => hkept d (ho.reset p hp d (hout.frame.1 _ _ hd))
  cases hev : event with
  | none =>
    constructor
    · change (targets (s.events ++ [])).Nodup
      rw [List.append_nil]
      exact ho.nodup
    · change ∀ p ∈ targets (s.events ++ []), _
      rw [List.append_nil]
      exact hold
  | some ev =>
    obtain ⟨p, hdata, -, hregistered⟩ := h.reported hout hev
    have hgen := horderly.generation_ne hentry hout hev
    have htargets : targets (s.events ++ [ev]) = targets s.events ++ [p] := by
      unfold targets
      rw [List.filterMap_append, List.filterMap_cons_some hdata, List.filterMap_nil]
    have hfresh : p ∉ targets s.events := fun hp => hgen (ho.reset p hp _ hregistered)
    constructor
    · change (targets (s.events ++ [ev])).Nodup
      rw [htargets, List.nodup_append_comm]
      exact List.nodup_cons.mpr ⟨hfresh, ho.nodup⟩
    · change ∀ q ∈ targets (s.events ++ [ev]), _
      rw [htargets]
      intro q hq d hd
      change port'.sockDataTree (s.channel q).fd = some d at hd
      rcases List.mem_append.mp hq with hq | hq
      · exact hold q hq d hd
      · obtain rfl := List.mem_singleton.mp hq
        obtain rfl := Option.some.inj ((hout.frame.1 _ _ hd).symm.trans hregistered)
        obtain ⟨-, hle, -⟩ := hout.reports hev
        rcases hout.generation with ⟨hlt, -⟩ | hreset
        · exact absurd hlt (not_lt.mpr hle)
        · exact hreset

theorem ordered_step (h : s.Inv) (hordered : s.port.Ordered) {e : Event P}
    (he : machine.enabled s e) (horderly : Orderly s e) (ht : machine.step s e = .ok t) :
    t.port.Ordered := by
  cases e with
  | newChannel p fd =>
    obtain rfl := Except.ok.inj ht
    exact hordered
  | change p change =>
    apply (h.changed ht).ordered h hordered
    intro d hd hindex
    exact horderly d hd (h.changed_added ht hd hindex)
  | remove p =>
    apply (h.removed ht).ordered h hordered
    intro d _ hindex
    obtain ⟨-, ht⟩ := require_bind_eq_ok.mp ht
    obtain ⟨u, hu, ht⟩ := bind_eq_ok.mp ht
    obtain ⟨hp, hnone, hadded⟩ := removeChannel_ok hu
    rw [removeChannel_eq hp hnone hadded] at hu
    obtain rfl := Except.ok.inj hu
    rw [applyUpdate_channel ht] at hindex
    cases hindex
  | poll =>
    obtain rfl := Except.ok.inj ht
    exact hordered.submitAll h.port
  | entry entry =>
    obtain ⟨port, event, hout, hprocess⟩ := h.processed he.2.2.1
    obtain rfl := Except.ok.inj (hprocess.symm.trans ht)
    exact hordered.dequeued h.port he.2.2.1 hout
  | polled =>
    rw [(polled_filled ht).1.port]
    exact hordered

theorem once_step (h : s.Inv) (hd : s.waiting = true → s.Once) {e : Event P}
    (he : machine.enabled s e) (horderly : Orderly s e) (ht : machine.step s e = .ok t)
    (hwait : t.waiting = true) : t.Once := by
  cases e with
  | newChannel p fd =>
    obtain rfl := Except.ok.inj ht
    change s.waiting = true at hwait
    cases he.1.symm.trans hwait
  | change p change =>
    rw [(h.changed ht).waiting] at hwait
    cases he.symm.trans hwait
  | remove p =>
    rw [(h.removed ht).waiting] at hwait
    cases he.symm.trans hwait
  | poll =>
    obtain rfl := Except.ok.inj ht
    exact ⟨List.nodup_nil, nofun⟩
  | entry entry =>
    obtain ⟨port, event, hout, hprocess⟩ := h.processed he.2.2.1
    obtain rfl := Except.ok.inj (hprocess.symm.trans ht)
    exact (hd he.1).processed h he.2.2.1 horderly hout _
  | polled => cases (polled_filled ht).2.symm.trans hwait

theorem run_once {refused : ℕ → Bool} {es : List (Event P)}
    (h : machine.Run Orderly (create refused) es s) :
    s.Inv ∧ s.port.Ordered ∧ (s.waiting = true → s.Once) :=
  h.invariant (fun s => s.Inv ∧ s.port.Ordered ∧ (s.waiting = true → s.Once))
    ⟨create_inv, EpollPort.create_ordered, nofun⟩
    fun _ _ _ hs he hq ht => ⟨hs.1.step he ht, ordered_step hs.1 hs.2.1 he hq ht,
      once_step hs.1 hs.2.2 he hq ht⟩

/-- What a call of `poll` reports: each channel at most once, with all that its events say, and
nothing from a poll that has been superseded. -/
theorem reports_once {refused : ℕ → Bool} {es : List (Event P)}
    (h : machine.Run Orderly (create refused) es s) (hwait : s.waiting = true) :
    (∃ t, machine.step s .polled = .ok t ∧ t.activeChannels.Nodup ∧
      (∀ p, p ∈ t.activeChannels ↔ ∃ event ∈ s.events, event.data = some p) ∧
      ∀ p ∈ t.activeChannels, (t.channel p).revents = reportedTo s.events p) ∧
    ∀ entry, machine.enabled s (.entry entry) → Orderly s (.entry entry) →
      s.port.Superseded entry.op →
      ∃ t, machine.step s (.entry entry) = .ok t ∧ t.events = s.events := by
  obtain ⟨hinv, hordered, honce⟩ := run_once h
  have hnodup := (honce hwait).nodup
  constructor
  · obtain ⟨t, ht, hactive, hrevents⟩ := ((run_delivering h).2 hwait).polled hinv
    refine ⟨t, ht, ?_, ?_, hrevents hnodup⟩
    · rw [hactive]
      exact hnodup
    · intro p
      rw [hactive]
      exact mem_targets
  · intro entry he horderly hsuperseded
    obtain ⟨port, event, hout, hprocess⟩ := hinv.processed he.2.2.1
    refine ⟨_, hprocess, ?_⟩
    cases hev : event with
    | none => exact List.append_nil _
    | some ev =>
      obtain ⟨hfind, hle, -⟩ := hout.reports hev
      have hgen := horderly.generation_ne he.2.2.1 hout hev
      exact absurd (hordered.generation_lt hfind hgen he.2.2.1 hsuperseded) (not_lt.mpr hle)

/-- The socket is polled anew before its first poll has completed. -/
theorem reports_once_superseded :
    ∃ s, machine.Run Orderly (create fun _ => false : EPollPoller Unit)
      [.newChannel () 5, .change () .enableReading, .change () .enableWriting, .poll] s ∧
    (∃ t, machine.step s .polled = .ok t ∧ t.activeChannels.Nodup) ∧
    ∃ t, machine.step s (.entry ⟨0, true, 1, AFD_POLL_RECEIVE⟩) = .ok t ∧ t.events = s.events := by
  obtain ⟨s, hs, hp⟩ := Machine.exists_run_of_exec machine Orderly
    (create fun _ => false : EPollPoller Unit)
    [.newChannel () 5, .change () .enableReading, .change () .enableWriting, .poll]
    (fun s => decide (s.waiting = true ∧ machine.enabled s (.entry ⟨0, true, 1, AFD_POLL_RECEIVE⟩) ∧
      Orderly s (.entry ⟨0, true, 1, AFD_POLL_RECEIVE⟩) ∧ s.port.Superseded 0)) (by decide)
  obtain ⟨hwait, henabled, horderly, hsuperseded⟩ := of_decide_eq_true hp
  obtain ⟨⟨t, ht, hnodup, -⟩, hentries⟩ := reports_once hs hwait
  exact ⟨s, hs, ⟨t, ht, hnodup⟩, hentries _ henabled horderly hsuperseded⟩

/-- The newest poll completes first, and resets the generation: the older one is reported too, the
channel is active twice, and its last event overwrites the first. -/
theorem channel_reported_twice :
    ∃ s, machine.Run Machine.Any (create fun _ => false : EPollPoller Unit)
      [.newChannel () 5, .change () .enableReading, .change () .enableWriting, .poll,
        .entry ⟨1, true, 1, AFD_POLL_SEND⟩, .entry ⟨0, true, 1, AFD_POLL_RECEIVE⟩, .polled] s ∧
    s.port.Superseded 0 ∧ s.activeChannels = [(), ()] ∧ (s.channel ()).revents = EPOLLIN ∧
    reportedTo s.events () = EPOLLOUT ||| EPOLLIN := by
  obtain ⟨s, hs, hp⟩ := Machine.exists_run_of_exec machine Machine.Any
    (create fun _ => false : EPollPoller Unit)
    [.newChannel () 5, .change () .enableReading, .change () .enableWriting, .poll,
      .entry ⟨1, true, 1, AFD_POLL_SEND⟩, .entry ⟨0, true, 1, AFD_POLL_RECEIVE⟩, .polled]
    (fun s => decide (s.port.Superseded 0 ∧ s.activeChannels = [(), ()] ∧
      (s.channel ()).revents = EPOLLIN ∧ reportedTo s.events () = EPOLLOUT ||| EPOLLIN)) (by decide)
  exact ⟨s, hs, of_decide_eq_true hp⟩

end EPollPoller
end MuduoWindows.Net
