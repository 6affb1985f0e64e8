import MuduoWindows.Net.Poller.Sockets

/-! # The pollers agree

The select poller does what the abstract one does, so that both classes keep the same
registrations. What a poll of the select poller makes of its entries is another matter.
-/

namespace MuduoWindows.Net
open Library

namespace SelectPoller
variable {P : Type} [DecidableEq P] {s t : SelectPoller P} {w : Poller P} {fd : P → ℕ} {p q : P}

omit [DecidableEq P] in
def Event.seen : Event P → Poller.Event P
  | .change p c => .change p c
  | .remove p => .remove p

/-- A channel that is not known has no events, and has no position yet or has been removed. -/
structure Shows (fd : P → ℕ) (s : SelectPoller P) (w : Poller P) : Prop where
  neat : s.Neat
  fds : ∀ p, (s.channel p).fd = fd p
  plain : ∀ p, Plain (s.channel p)
  known : ∀ p, s.Registered p ↔ w.HasChannel p
  events : ∀ p, (s.channel p).events = w.events p
  position : ∀ p, s.index p < 0 ↔ ¬ w.HasChannel p ∧ p ∉ w.retired

omit [DecidableEq P] in
theorem create_shows (hinj : Function.Injective fd) : Shows fd (create fd) .create := by
  refine ⟨?_, fun _ => rfl, fun _ => plain_zero rfl, fun p => ?_, fun _ => rfl, fun p => ?_⟩
  · exact ⟨[], fun _ => ⟨0, 0⟩, create_layout hinj _, fun p hp => absurd hp List.not_mem_nil⟩
  · exact iff_of_false nofun fun hne => hne rfl
  · exact iff_of_true (show (-1 : ℤ) < 0 by decide) ⟨fun hne => hne rfl, Finset.notMem_empty p⟩

theorem Plain.signExtend {c : Channel} (h : Plain c) :
    (c.events.setWidth 16).signExtend 32 = c.events := by
  apply BitVec.eq_of_getLsbD_eq
  intro i hi
  rw [BitVec.getLsbD_signExtend, BitVec.msb_eq_getLsbD_last, BitVec.getLsbD_setWidth,
    BitVec.getLsbD_setWidth, h (16 - 1) (by norm_num)]
  by_cases hsmall : i < 16
  · simp [hi, hsmall]
  · rw [h i (by omega)]
    simp [hsmall]

omit [DecidableEq P] in
theorem Shows.watches (h : Shows fd s w) {n : ℕ} {mask : Events} :
    ({ fd := n, events := mask.setWidth 16 } ∈ s.pollfds ∧ s.channels n = some p ∧
      (mask.setWidth 16).signExtend 32 = mask) ↔ w.Watches fd n mask p := by
  obtain ⟨ps, f, hlayout, hneg⟩ := h.neat
  unfold Poller.Watches
  constructor
  · rintro ⟨hpfd, hp, hmask⟩
    rw [hlayout.pollfds] at hpfd
    obtain ⟨q, hq, hentry⟩ := List.mem_map.mp hpfd
    rw [hneg q hq] at hentry
    obtain ⟨hfd, hevents⟩ := Pollfd.mk.inj hentry
    have hwaits : (s.channel q).isNoneEvent = false := by
      by_contra hnone
      rw [if_pos (Bool.eq_true_of_not_eq_false hnone)] at hfd
      omega
    rw [if_neg (by rw [hwaits]; nofun)] at hfd
    obtain ⟨hmem, hpn⟩ := (hlayout.channels _ _).mp hp
    obtain rfl := hlayout.eq_of_fd (hfd.trans hpn)
    have hsame : (s.channel q).events = mask := by
      rw [← (h.plain q).signExtend, hevents, hmask]
    have hknown := (h.known q).mp (hlayout.registered_iff.mpr hq)
    refine ⟨?_, ?_, ?_⟩
    · rw [hknown.interest, ← h.events, hsame]
    · rw [← hsame]
      exact fun hzero => Bool.false_ne_true (hwaits.symm.trans (Channel.isNoneEvent_iff.mpr hzero))
    · rw [← h.fds q]
      exact_mod_cast hfd
  · rintro ⟨hinterest, hne, rfl⟩
    have hknown : w.HasChannel p := by
      unfold Poller.HasChannel
      rw [hinterest]
      nofun
    have hevents : (s.channel p).events = mask := by
      rw [h.events, Poller.events, hinterest, Option.getD_some]
    have hregistered := (h.known p).mpr hknown
    have hmem := hlayout.registered_iff.mp hregistered
    have hwaits : ¬ (s.channel p).isNoneEvent = true := by
      rw [Channel.isNoneEvent_iff, hevents]
      exact hne
    refine ⟨?_, ?_, ?_⟩
    · rw [hlayout.pollfds]
      refine List.mem_map.mpr ⟨p, hmem, ?_⟩
      rw [hneg p hmem]
      unfold entry
      rw [if_neg hwaits, hevents, h.fds]
    · rw [← h.fds p]
      exact hregistered
    · rw [← hevents]
      exact (h.plain p).signExtend

omit [DecidableEq P] in
theorem Shows.removable (h : Shows fd s w) :
    s.Registered p ∧ (s.channel p).isNoneEvent = true ↔ w.interest p = some 0 := by
  rw [h.known, Channel.isNoneEvent_iff, h.events p, Poller.interest_eq_some_zero]

theorem Neat.change_seen (h : s.Neat) {change : Change} (ht : s.change p change = .ok t) :
    t.channel = Function.update s.channel p (change.apply (s.channel p)) ∧
    (∀ q, t.Registered q ↔ q = p ∨ s.Registered q) ∧
    ∀ q, t.index q < 0 ↔ q ≠ p ∧ s.index q < 0 := by
  obtain ⟨ps, f, hlayout, hneg⟩ := h
  rcases hlayout.change_cases ht with ⟨hindex, hp, rfl⟩ | ⟨hp, rfl⟩
  · have hadded := (hlayout.changed change hp).added hp
    refine ⟨rfl, fun q => ?_, fun q => ?_⟩
    · rw [hadded.registered_iff, hlayout.registered_iff, List.mem_append, List.mem_singleton,
        or_comm]
    · change Function.update s.index p (s.pollfds.length : ℤ) q < 0 ↔ _
      by_cases hq : q = p
      · rw [hq, Function.update_self]
        exact iff_of_false (by omega) fun hand => hand.1 rfl
      · rw [Function.update_of_ne hq]
        exact (and_iff_right hq).symm
  · have hupdated : ((s.changed p change).updated p).Layout ps _ := hlayout.updated hp
    refine ⟨rfl, fun q => ?_, fun q => ?_⟩
    · rw [hupdated.registered_iff, hlayout.registered_iff]
      refine ⟨.inr, fun hor => ?_⟩
      obtain rfl | hq := hor
      · exact hp
      · exact hq
    · change s.index q < 0 ↔ _
      refine ⟨fun hneg' => ⟨?_, hneg'⟩, And.right⟩
      rintro rfl
      exact hlayout.numbered.not_mem_of_neg hneg' hp

theorem Neat.remove_seen (h : s.Neat) (he : machine.enabled s (.remove p))
    (ht : s.remove p = .ok t) : t.channel = s.channel ∧
    (∀ q, t.Registered q ↔ s.Registered q ∧ q ≠ p) ∧ ∀ q, t.index q < 0 ↔ s.index q < 0 := by
  obtain ⟨ps, f, hlayout, hneg⟩ := h
  have hp := hlayout.registered_iff.mp he.1
  obtain ⟨last, hlast, heq⟩ := hlayout.remove_eq hp he.2 (hneg p hp)
  obtain ⟨i, hi, hindex, -⟩ := hlayout.position hp
  obtain rfl := Except.ok.inj (heq.symm.trans ht)
  have hremoved := hlayout.removed hi hlast
  refine ⟨rfl, fun q => ?_, fun q => ?_⟩
  · rw [hremoved.registered_iff, hlayout.registered_iff]
    exact hlayout.numbered.mem_swapRemove hi
  · change Function.update s.index last (s.index p) q < 0 ↔ _
    by_cases hq : q = last
    · obtain ⟨j, -, hjindex, -⟩ := hlayout.position (List.mem_of_getElem? hlast)
      rw [hq, Function.update_self, hindex, hjindex]
      exact iff_of_false (by omega) (by omega)
    · rw [Function.update_of_ne hq]

theorem Shows.change (h : Shows fd s w) {change : Change} (hproper : s.Proper (.change p change)) :
    ∃ t, machine.step s (.change p change) = .ok t ∧ Shows fd t (w.changed p change) := by
  obtain ⟨t, ht, hneat⟩ := h.neat.step (e := .change p change) trivial hproper
  obtain ⟨hchannel, hregistered, hindex⟩ := h.neat.change_seen ht
  have hself : t.channel p = change.apply (s.channel p) := by rw [hchannel, Function.update_self]
  have hother : ∀ q, q ≠ p → t.channel q = s.channel q := by
    intro q hq
    rw [hchannel, Function.update_of_ne hq]
  have hlaid : s.Laid := by
    obtain ⟨ps, f, hlayout, -⟩ := h.neat
    exact ⟨ps, f, hlayout⟩
  refine ⟨t, ht, hneat, fun q => ?_, step_plain (e := .change p change) hlaid h.plain ht,
    fun q => ?_, fun q => ?_, fun q => ?_⟩
  · by_cases hq : q = p
    · rw [hq, hself, Change.apply_fd, h.fds]
    · rw [hother q hq, h.fds]
  · rw [hregistered, h.known, Poller.hasChannel_changed]
  · by_cases hq : q = p
    · rw [hq, hself, Change.apply_events, Poller.events_changed_self, h.events]
    · rw [hother q hq, Poller.events_changed_of_ne hq, h.events]
  · rw [hindex, h.position, Poller.hasChannel_changed, not_or, and_assoc]
    rfl

theorem Shows.remove (h : Shows fd s w) (he : machine.enabled s (.remove p)) :
    ∃ t, machine.step s (.remove p) = .ok t ∧ Shows fd t (w.removed p) := by
  obtain ⟨t, ht, hneat⟩ := h.neat.step (e := .remove p) he trivial
  obtain ⟨hchannel, hregistered, hindex⟩ := h.neat.remove_seen he ht
  refine ⟨t, ht, hneat, fun q => ?_, fun q => ?_, fun q => ?_, fun q => ?_, fun q => ?_⟩
  · rw [hchannel, h.fds]
  · rw [hchannel]
    exact h.plain q
  · rw [hregistered, h.known, Poller.hasChannel_removed]
  · rw [hchannel]
    by_cases hq : q = p
    · rw [hq, Poller.events_removed_self]
      exact Channel.isNoneEvent_iff.mp he.2
    · rw [Poller.events_removed_of_ne hq, h.events]
  · have hretired : q ∉ (w.removed p).retired ↔ q ≠ p ∧ q ∉ w.retired := by
      change q ∉ insert p w.retired ↔ _
      rw [Finset.mem_insert, not_or]
    rw [hindex, h.position, Poller.hasChannel_removed, hretired]
    have hp : w.HasChannel p := (h.known p).mp he.1
    constructor
    · rintro ⟨hnot, hkept⟩
      refine ⟨fun hand => hnot hand.1, ?_, hkept⟩
      rintro rfl
      exact hnot hp
    · rintro ⟨hnot, hne, hkept⟩
      exact ⟨fun hq => hnot ⟨hq, hne⟩, hkept⟩

theorem simulates : machine.Simulates Poller.machine Proper Machine.Any (fun e => [e.seen])
    (Shows fd) := by
  refine Machine.simulates_of_step fun s w e t h he hproper ht => ?_
  cases e with
  | change p change =>
    obtain ⟨t', ht', hshows⟩ := h.change hproper
    obtain rfl := Except.ok.inj (ht'.symm.trans ht)
    exact ⟨trivial, trivial, _, rfl, hshows⟩
  | remove p =>
    obtain ⟨t', ht', hshows⟩ := h.remove he
    obtain rfl := Except.ok.inj (ht'.symm.trans ht)
    exact ⟨h.removable.mp he, trivial, _, rfl, hshows⟩

end SelectPoller

namespace Poller
variable {P : Type} [DecidableEq P] {w : Poller P} {fd : P → ℕ}

omit [DecidableEq P] in
def Event.toInterests : Event P → Interests.Event P
  | .change p c => .change p c
  | .remove p => .remove p

omit [DecidableEq P] in
def Event.toSelect : Event P → SelectPoller.Event P
  | .change p c => .change p c
  | .remove p => .remove p

theorem simulates_interests (hinj : Function.Injective fd) :
    machine.Simulates Interests.machine Orderly Interests.Interested
      (fun e => [e.toInterests]) (fun w s => Interests.Shows fd s w) := by
  refine Machine.simulates_of_step fun w s e t h he horderly ht => ?_
  cases e with
  | change p change =>
    have hkept : Interests.Interested s (.change p change) := by
      intro hindex
      have hzero : (s.channel p).events = 0 := by
        by_contra hne
        exact hindex ((h.seen.added p).mpr hne)
      rw [Bool.eq_false_iff, Ne, Channel.isNoneEvent_iff, Change.apply_events, hzero]
      exact horderly.1 (by rw [h.seen.events, hzero])
    obtain ⟨t', ht', hshows⟩ := h.change hinj hkept
    obtain rfl := Except.ok.inj ht
    exact ⟨trivial, hkept, t', ht', hshows⟩
  | remove p =>
    have he' := h.removable.mpr he
    obtain ⟨t', ht', hshows⟩ := h.remove hinj he'
    obtain rfl := Except.ok.inj ht
    exact ⟨he', trivial, t', ht', hshows⟩

theorem simulates_select : machine.Simulates SelectPoller.machine Orderly SelectPoller.Proper
    (fun e => [e.toSelect]) (fun w s => SelectPoller.Shows fd s w) := by
  refine Machine.simulates_of_step fun w s e t h he horderly ht => ?_
  cases e with
  | change p change =>
    have hproper : s.Proper (.change p change) := by
      refine ⟨fun hneg => ?_, fun hpos => ?_⟩
      · have hnot := ((h.position p).mp hneg).1
        have hzero : w.events p = 0 := by
          rw [events, not_not.mp hnot, Option.getD_none]
        rw [Bool.eq_false_iff, Ne, Channel.isNoneEvent_iff, Change.apply_events, h.events, hzero]
        exact horderly.1 hzero
      · rw [h.known]
        by_contra hnot
        exact not_lt_of_ge hpos ((h.position p).mpr ⟨hnot, horderly.2⟩)
    obtain ⟨t', ht', hshows⟩ := h.change hproper
    obtain rfl := Except.ok.inj ht
    exact ⟨trivial, hproper, t', ht', hshows⟩
  | remove p =>
    have he' := h.removable.mpr he
    obtain ⟨t', ht', hshows⟩ := h.remove he'
    obtain rfl := Except.ok.inj ht
    exact ⟨he', trivial, t', ht', hshows⟩

/-- What the epoll poller and the select poller do is what the abstract poller does: they know its
channels, and watch the descriptors that it watches. The epoll poller does so over an abstract epoll
set, and over the sockets of net/epoll.cpp in any order of its polls and their completions. -/
theorem pollers_refine (hinj : Function.Injective fd) :
    (∀ es s, Interests.machine.Run Interests.Interested (Interests.create fd) es s → ∃ w,
      machine.Run Machine.Any create (es.map Interests.Event.seen) w ∧
      (∀ p, s.channels (s.channel p).fd = some p ↔ w.HasChannel p) ∧
      ∀ n mask p, s.epoll n = some (mask, p) ↔ w.Watches fd n mask p) ∧
    (∀ refused es s, (EPollPoller.machine (P := P)).Run EPollPoller.Tended (.create refused) es s →
      ∃ w,
      machine.Run Machine.Any create (es.flatMap EPollPoller.Event.seen) w ∧
      (∀ p, s.channels (s.channel p).fd = some p ↔ w.HasChannel p) ∧
      ∀ n p, (∃ d, s.port.sockDataTree n = some d ∧ (s.port.sockData d).userData = some p) ↔
        ∃ mask, w.Watches (fun p => (s.channel p).fd) n mask p) ∧
    ∀ es s, SelectPoller.machine.Run SelectPoller.Proper (SelectPoller.create fd) es s → ∃ w,
      machine.Run Machine.Any create (es.map SelectPoller.Event.seen) w ∧
      (∀ p, s.Registered p ↔ w.HasChannel p) ∧
      ∀ (n : ℕ) mask p, ({ fd := n, events := mask.setWidth 16 } ∈ s.pollfds ∧
        s.channels n = some p ∧ (mask.setWidth 16).signExtend 32 = mask) ↔
          w.Watches fd n mask p := by
  refine ⟨fun es s h => ?_, fun refused es s h => ?_, fun es s h => ?_⟩
  · obtain ⟨w, hw, hshows⟩ := (Interests.simulates hinj).run (Interests.create_shows fd) h
    rw [← List.map_eq_flatMap] at hw
    exact ⟨w, hw, fun p => hshows.hasChannel, fun n mask p => hshows.watches⟩
  · obtain ⟨w, hw, hshows⟩ := EPollPoller.simulates.run EPollPoller.create_shows h
    exact ⟨w, hw, fun p => hshows.hasChannel, fun n p => hshows.watches⟩
  · obtain ⟨w, hw, hshows⟩ := SelectPoller.simulates.run (SelectPoller.create_shows hinj) h
    rw [← List.map_eq_flatMap] at hw
    exact ⟨w, hw, hshows.known, fun n mask p => hshows.watches⟩

/-- Two channels wait, the first is readable, and the second is not waited for any more. -/
theorem pollers_refine_readable : ∃ (s : EPollPoller Bool) (w : Poller Bool),
    EPollPoller.machine.Run EPollPoller.Tended (.create fun _ => false)
      [.newChannel true 6, .newChannel false 5, .change true .enableReading,
        .change false .enableWriting, .poll, .entry ⟨0, true, 1, AFD_POLL_RECEIVE⟩, .polled,
        .change false .disableAll] s ∧
    s.activeChannels = [true] ∧
    machine.Run Machine.Any create [.change true .enableReading, .change false .enableWriting,
      .change false .disableAll] w ∧
    ∀ n p, (∃ d, s.port.sockDataTree n = some d ∧ (s.port.sockData d).userData = some p) ↔
      ∃ mask, w.Watches (fun p => (s.channel p).fd) n mask p := by
  obtain ⟨s, hs, hp⟩ := Machine.exists_run_of_exec EPollPoller.machine
    EPollPoller.Tended (.create fun _ => false)
    [.newChannel true 6, .newChannel false 5, .change true .enableReading,
      .change false .enableWriting, .poll, .entry ⟨0, true, 1, AFD_POLL_RECEIVE⟩, .polled,
      .change false .disableAll]
    (fun s => decide (s.activeChannels = [true])) (by decide +kernel)
  have hinj : Function.Injective fun p : Bool => if p then 6 else 5 := by decide
  obtain ⟨w, hw, -, hwatches⟩ := (pollers_refine hinj).2.1 _ _ s hs
  exact ⟨s, w, hs, of_decide_eq_true hp, hw, hwatches⟩

/-- Whatever is asked for in order is done by both classes, and then they know the same channels,
with the same events, and the epoll set and `pollfds_` hold the same entries. -/
theorem pollers_agree (hinj : Function.Injective fd) {es : List (Event P)}
    (h : machine.Run Orderly create es w) : ∃ s t,
    Interests.machine.Run Interests.Interested (Interests.create fd)
      (es.map Event.toInterests) s ∧
    SelectPoller.machine.Run SelectPoller.Proper (SelectPoller.create fd)
      (es.map Event.toSelect) t ∧
    (∀ p, s.channels (s.channel p).fd = some p ↔ t.Registered p) ∧
    (∀ p, (s.channel p).events = (t.channel p).events) ∧
    ∀ (n : ℕ) mask p, s.epoll n = some (mask, p) ↔
      ({ fd := n, events := mask.setWidth 16 } ∈ t.pollfds ∧ t.channels n = some p ∧
        (mask.setWidth 16).signExtend 32 = mask) := by
  obtain ⟨s, hs, hepoll⟩ := (simulates_interests hinj).run (Interests.create_shows fd) h
  obtain ⟨t, ht, hselect⟩ := simulates_select.run (SelectPoller.create_shows hinj) h
  rw [← List.map_eq_flatMap] at hs ht
  refine ⟨s, t, hs, ht, fun p => ?_, fun p => ?_, fun n mask p => ?_⟩
  · rw [hepoll.hasChannel, hselect.known]
  · rw [← hepoll.seen.events, hselect.events]
  · rw [hepoll.watches, hselect.watches]

/-- A connection is served, closed and removed, while another one is read from. -/
theorem pollers_agree_closed :
    ∃ (s : Interests Bool) (t : SelectPoller Bool),
      (∀ p, s.channels (s.channel p).fd = some p ↔ t.Registered p) ∧
      (∀ (n : ℕ) mask p, s.epoll n = some (mask, p) ↔
        ({ fd := n, events := mask.setWidth 16 } ∈ t.pollfds ∧ t.channels n = some p ∧
          (mask.setWidth 16).signExtend 32 = mask)) ∧
      SelectPoller.machine.Run SelectPoller.Proper (SelectPoller.create fun p => if p then 6 else 5)
        [.change true .enableReading, .change false .enableReading, .change true .enableWriting,
          .change true .disableAll, .remove true] t := by
  obtain ⟨w, hw, -⟩ := Machine.exists_run_of_exec machine Orderly (create : Poller Bool)
    [.change true .enableReading, .change false .enableReading, .change true .enableWriting,
      .change true .disableAll, .remove true] (fun _ => true) (by decide +kernel)
  have hinj : Function.Injective fun p : Bool => if p then 6 else 5 := by decide
  obtain ⟨s, t, -, ht, hknown, -, hwatches⟩ := pollers_agree hinj hw
  exact ⟨s, t, hknown, hwatches, ht⟩

end Poller
end MuduoWindows.Net
