import MuduoWindows.Net.EPollPoller.Registrations

/-! # Delivery of events

What `epoll_wait` writes to `events_` is for channels that are added. So `fillActiveChannels` cannot
fail, and makes each channel active once for each of its events.
-/

namespace MuduoWindows.Net
open Library

namespace EPollPoller
variable {P : Type} [DecidableEq P] {s t : EPollPoller P} {p q : P}

/-- The poll in progress has written at most one event for each entry, each for an added
channel. -/
structure Delivering (s : EPollPoller P) : Prop where
  added : ∀ event ∈ s.events, ∃ p, event.data = some p ∧ (s.channel p).index = .kAdded
  written : s.events.length ≤ s.entries
  bounded : s.entries ≤ s.maxEntries
  inactive : s.activeChannels = []

variable {entry : Completion} {port' : EpollPort P} {event : Option (EpollEvent P)}

omit [DecidableEq P] in
theorem Inv.reported (h : s.Inv) (hout : s.port.Outcome entry port' event) {ev : EpollEvent P}
    (hev : event = some ev) : ∃ p, ev.data = some p ∧ (s.channel p).index = .kAdded ∧
      s.port.sockDataTree (s.channel p).fd = some (s.port.op entry.op).sockData := by
  obtain ⟨hfind, -, hdata, -⟩ := hout.reports hev
  obtain ⟨p, huser, hfd, hindex, -⟩ := h.tree _ _ hfind
  refine ⟨p, hdata.trans huser, hindex, ?_⟩
  rw [hfd]
  exact hfind

omit [DecidableEq P] in
theorem Delivering.processed (h : s.Inv) (hd : s.Delivering) (hentries : s.entries < s.maxEntries)
    (hout : s.port.Outcome entry port' event) (lost : P → Interest → Bool) :
    Delivering { s with
      port := port', entries := s.entries + 1, events := s.events ++ event.toList,
      lost := lost } := by
  refine ⟨?_, ?_, hentries, hd.inactive⟩
  · intro ev hmem
    rcases List.mem_append.mp hmem with hold | hnew
    · exact hd.added ev hold
    · obtain ⟨p, hdata, hindex, -⟩ := h.reported hout (Option.mem_toList.mp hnew)
      exact ⟨p, hdata, hindex⟩
  · change (s.events ++ event.toList).length ≤ s.entries + 1
    rw [List.length_append]
    have hone : event.toList.length ≤ 1 := by cases event <;> simp
    have hwritten := hd.written
    omega

theorem Inv.delivering_step (h : s.Inv) (hd : s.waiting = true → s.Delivering) {e : Event P}
    (he : machine.enabled s e) (ht : machine.step s e = .ok t) (hwait : t.waiting = true) :
    t.Delivering := by
  cases e with
  | newChannel p fd =>
    obtain rfl := Except.ok.inj ht
    change s.waiting = true at hwait
    cases he.1.symm.trans hwait
  | change p change =>
    rw [(h.changed ht).waiting] at hwait
    cases he.symm.trans hwait
  | remove p =>
    rw [(h.removed ht).waiting] at hwait
    cases he.symm.trans hwait
  | poll =>
    obtain rfl := Except.ok.inj ht
    exact ⟨nofun, Nat.zero_le _, Nat.zero_le _, rfl⟩
  | entry entry =>
    obtain ⟨port, event, hout, hprocess⟩ := h.processed he.2.2.1
    obtain rfl := Except.ok.inj (hprocess.symm.trans ht)
    exact (hd he.1).processed h he.2.1 hout _
  | polled => cases (polled_filled ht).2.symm.trans hwait

theorem run_delivering {Q : EPollPoller P → Event P → Prop} {refused : ℕ → Bool}
    {es : List (Event P)} (h : machine.Run Q (create refused) es s) :
    s.Inv ∧ (s.waiting = true → s.Delivering) :=
  h.invariant (fun s => s.Inv ∧ (s.waiting = true → s.Delivering)) ⟨create_inv, nofun⟩
    fun _ _ _ hs he _ ht => ⟨hs.1.step he ht, hs.1.delivering_step hs.2 he ht⟩

/-- The channels that the events are for, in order. -/
def targets (events : List (EpollEvent P)) : List P := events.filterMap EpollEvent.data

omit [DecidableEq P] in
theorem mem_targets {events : List (EpollEvent P)} :
    p ∈ targets events ↔ ∃ event ∈ events, event.data = some p := List.mem_filterMap

theorem fillActiveChannel_eq {event : EpollEvent P} (hp : event.data = some p)
    (hknown : s.channels (s.channel p).fd = some p) :
    s.fillActiveChannel event = .ok (s.activate p event.events) := by
  have hne : s.channels (s.channel p).fd ≠ none := by rw [hknown]; nofun
  unfold fillActiveChannel
  rw [hp]
  dsimp only
  rw [require_bind hne, require_bind hknown, pure_eq_ok]

theorem activate_channel_of_ne {events : Events} (hq : q ≠ p) :
    (s.activate p events).channel q = s.channel q := Function.update_of_ne hq ..

/-- The channels of the events are known to the poller. -/
def Known (s : EPollPoller P) (events : List (EpollEvent P)) : Prop :=
  ∀ event ∈ events, ∃ p, event.data = some p ∧ s.channels (s.channel p).fd = some p

theorem Known.activate {events : List (EpollEvent P)} {event : EpollEvent P}
    (h : s.Known (event :: events)) (p : P) : (s.activate p event.events).Known events := by
  have hfilled := activate_filled (s := s) p event.events
  intro event' hmem
  obtain ⟨q, hq, hknown⟩ := h event' (List.mem_cons_of_mem _ hmem)
  refine ⟨q, hq, ?_⟩
  rw [hfilled.channels, (hfilled.channel q).2.1]
  exact hknown

theorem foldlM_fillActiveChannel {events : List (EpollEvent P)} (h : s.Known events) :
    ∃ t, events.foldlM fillActiveChannel s = .ok t ∧
      t.activeChannels = s.activeChannels ++ targets events ∧
      ∀ q, q ∉ targets events → t.channel q = s.channel q := by
  induction events generalizing s with
  | nil => exact ⟨s, rfl, (List.append_nil _).symm, fun _ _ => rfl⟩
  | cons event events ih =>
    obtain ⟨p, hp, hknown⟩ := h event List.mem_cons_self
    obtain ⟨t, ht, hactive, hothers⟩ := ih (h.activate p)
    have htargets : targets (event :: events) = p :: targets events :=
      List.filterMap_cons_some hp
    refine ⟨t, ?_, ?_, ?_⟩
    · rw [List.foldlM_cons, fillActiveChannel_eq hp hknown, ok_bind]
      exact ht
    · rw [hactive, htargets]
      exact List.append_assoc s.activeChannels [p] _
    · intro q hq
      rw [htargets, List.mem_cons, not_or] at hq
      rw [hothers q hq.2, activate_channel_of_ne hq.1]

def reportedTo (events : List (EpollEvent P)) (p : P) : Events :=
  (events.filter fun event => event.data = some p).foldr
    (fun event union => event.events ||| union) 0

theorem reportedTo_eq_zero {events : List (EpollEvent P)} (hp : p ∉ targets events) :
    reportedTo events p = 0 := by
  have hnone : (events.filter fun event => event.data = some p) = [] := by
    apply List.filter_eq_nil_iff.mpr
    intro event hmem hdata
    exact hp (mem_targets.mpr ⟨event, hmem, of_decide_eq_true hdata⟩)
  unfold reportedTo
  rw [hnone]
  rfl

theorem foldlM_revents {events : List (EpollEvent P)} (h : s.Known events)
    (hnodup : (targets events).Nodup) (ht : events.foldlM fillActiveChannel s = .ok t)
    (hp : p ∈ targets events) : (t.channel p).revents = reportedTo events p := by
  induction events generalizing s with
  | nil => cases hp
  | cons event events ih =>
    obtain ⟨q, hq, hknown⟩ := h event List.mem_cons_self
    have htargets : targets (event :: events) = q :: targets events :=
      List.filterMap_cons_some hq
    rw [htargets] at hnodup hp
    obtain ⟨hfresh, hnodup⟩ := List.nodup_cons.mp hnodup
    rw [List.foldlM_cons, fillActiveChannel_eq hq hknown, ok_bind] at ht
    unfold reportedTo
    by_cases hpq : p = q
    · subst p
      obtain ⟨u, hu, -, hothers⟩ := foldlM_fillActiveChannel (h.activate q)
      obtain rfl := Except.ok.inj (ht.symm.trans hu)
      have hzero := reportedTo_eq_zero hfresh
      unfold reportedTo at hzero
      have hself : (s.activate q event.events).channel q =
          { s.channel q with revents := event.events } := Function.update_self ..
      rw [hothers q hfresh, hself, List.filter_cons_of_pos (by simpa using hq), List.foldr_cons,
        hzero]
      exact BitVec.or_zero.symm
    · have hother : event.data ≠ some p := by
        rw [hq]
        exact fun heq => hpq (Option.some.inj heq).symm
      rw [List.filter_cons_of_neg (by simpa using hother)]
      exact ih (h.activate q) hnodup ht ((List.mem_cons.mp hp).resolve_left hpq)

theorem Delivering.polled (h : s.Inv) (hd : s.Delivering) : ∃ t, s.polled = .ok t ∧
    t.activeChannels = targets s.events ∧
    ((targets s.events).Nodup →
      ∀ p ∈ t.activeChannels, (t.channel p).revents = reportedTo s.events p) := by
  have hknown : s.Known s.events := by
    intro event hmem
    obtain ⟨p, hp, hindex⟩ := hd.added event hmem
    exact ⟨p, hp, h.known p (by rw [hindex]; nofun)⟩
  have hsize : s.events.length ≤ s.eventsSize :=
    hd.written.trans (hd.bounded.trans (min_le_right _ _))
  unfold EPollPoller.polled
  split_ifs with hsome
  · obtain ⟨t, ht, hactive, -⟩ := foldlM_fillActiveChannel hknown
    rw [hd.inactive, List.nil_append] at hactive
    unfold fillActiveChannels
    rw [require_bind hsize, ht, ok_bind]
    refine ⟨_, rfl, hactive, ?_⟩
    intro hnodup p hp
    change p ∈ t.activeChannels at hp
    rw [hactive] at hp
    change (t.channel p).revents = _
    exact foldlM_revents hknown hnodup ht hp
  · have hnil : s.events = [] := List.length_eq_zero_iff.mp (by omega)
    have hinactive := hd.inactive
    refine ⟨_, rfl, ?_, ?_⟩
    · change s.activeChannels = _
      rw [hinactive, hnil]
      rfl
    · intro _ p hp
      change p ∈ s.activeChannels at hp
      rw [hinactive] at hp
      cases hp

end EPollPoller
end MuduoWindows.Net
