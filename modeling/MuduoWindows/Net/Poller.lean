import MuduoWindows.Library.Simulation
import MuduoWindows.Net.EPollPoller.EpollSet
import MuduoWindows.Net.SelectPoller.Poll

/-! # net/poller.h and the classes behind it

A poller knows channels and what each of them waits for. Both classes that implement it do what this
says: the epoll set, the sockets of net/epoll.cpp and `pollfds_` hold the channels with an interest.
-/

namespace MuduoWindows.Net
open Library

def Change.on (change : Change) (events : Events) : Events :=
  (change.apply { Channel.create 0 with events := events }).events

theorem Change.apply_events (change : Change) (c : Channel) :
    (change.apply c).events = change.on c.events := by
  cases change <;> rfl

/-- What a poller is for: the channels that it knows, each with the events that it waits for, and
those that it has known before. -/
structure Poller (P : Type) where
  interest : P → Option Events
  retired : Finset P

namespace Poller
variable {P : Type} [DecidableEq P]

omit [DecidableEq P] in
def create : Poller P := { interest := fun _ => none, retired := ∅ }

omit [DecidableEq P] in
/-- `hasChannel` -/
def HasChannel (w : Poller P) (p : P) : Prop := w.interest p ≠ none

omit [DecidableEq P] in
/-- The events of the channel, which a channel that is not known has not. -/
def events (w : Poller P) (p : P) : Events := (w.interest p).getD 0

omit [DecidableEq P] in
theorem HasChannel.interest {w : Poller P} {p : P} (h : w.HasChannel p) :
    w.interest p = some (w.events p) := by
  obtain ⟨events, hevents⟩ := Option.ne_none_iff_exists'.mp h
  rw [Poller.events, hevents, Option.getD_some]

/-- `updateChannel` after a change of the channel. -/
def changed (w : Poller P) (p : P) (change : Change) : Poller P :=
  { w with interest := Function.update w.interest p (some (change.on (w.events p))) }

/-- `removeChannel` -/
def removed (w : Poller P) (p : P) : Poller P :=
  { interest := Function.update w.interest p none, retired := insert p w.retired }

inductive Event (P : Type) where
  | change (p : P) (c : Change)
  | remove (p : P)
  deriving DecidableEq

/-- Only a channel that is known and waits for nothing is removed. -/
def machine : Machine (Poller P) (Event P) Fault where
  enabled w
    | .change _ _ => True
    | .remove p => w.interest p = some 0
  step w
    | .change p c => pure (w.changed p c)
    | .remove p => pure (w.removed p)

instance (w : Poller P) : ∀ e, Decidable (machine.enabled w e)
  | .change _ _ => .isTrue trivial
  | .remove _ => inferInstanceAs (Decidable (_ = _))

omit [DecidableEq P] in
/-- A channel that waits for nothing is only updated to wait for something, and a channel that has
been removed does not come back. -/
def Orderly (w : Poller P) : Event P → Prop
  | .change p c => (w.events p = 0 → c.on 0 ≠ 0) ∧ p ∉ w.retired
  | .remove _ => True

instance (w : Poller P) : ∀ e, Decidable (Orderly w e)
  | .change _ _ => inferInstanceAs (Decidable ((_ → _) ∧ _))
  | .remove _ => .isTrue trivial

/-- The descriptor `n` is watched for `mask`, on behalf of `p`. -/
def Watches (w : Poller P) (fd : P → ℕ) (n : ℕ) (mask : Events) (p : P) : Prop :=
  w.interest p = some mask ∧ mask ≠ 0 ∧ fd p = n

section Steps
variable {w : Poller P} {p q : P} {change : Change}

theorem changed_interest : (w.changed p change).interest =
    Function.update w.interest p (some (change.on (w.events p))) := rfl

theorem removed_interest : (w.removed p).interest = Function.update w.interest p none := rfl

theorem hasChannel_changed : (w.changed p change).HasChannel q ↔ q = p ∨ w.HasChannel q := by
  unfold HasChannel
  rw [changed_interest]
  by_cases hq : q = p
  · rw [hq, Function.update_self]
    exact iff_of_true nofun (.inl rfl)
  · rw [Function.update_of_ne hq, or_iff_right hq]

theorem events_changed_self : (w.changed p change).events p = change.on (w.events p) := by
  rw [events, changed_interest, Function.update_self, Option.getD_some]

theorem events_changed_of_ne (hq : q ≠ p) : (w.changed p change).events q = w.events q := by
  rw [events, changed_interest, Function.update_of_ne hq, events]

theorem hasChannel_removed : (w.removed p).HasChannel q ↔ w.HasChannel q ∧ q ≠ p := by
  unfold HasChannel
  rw [removed_interest]
  by_cases hq : q = p
  · rw [hq, Function.update_self]
    exact iff_of_false (fun hne => hne rfl) fun hand => hand.2 rfl
  · rw [Function.update_of_ne hq, and_iff_left hq]

theorem events_removed_self : (w.removed p).events p = 0 := by
  rw [events, removed_interest, Function.update_self, Option.getD_none]

theorem events_removed_of_ne (hq : q ≠ p) : (w.removed p).events q = w.events q := by
  rw [events, removed_interest, Function.update_of_ne hq, events]

omit [DecidableEq P] in
theorem interest_eq_some_zero : w.interest p = some 0 ↔ w.HasChannel p ∧ w.events p = 0 := by
  unfold HasChannel events
  cases w.interest p with
  | none => exact iff_of_false nofun fun hand => hand.1 rfl
  | some events =>
    exact ⟨fun hsome => ⟨nofun, Option.some.inj hsome⟩, fun hand => congrArg some hand.2⟩

end Steps

/-- The channels say what the poller knows; the added ones are those that wait. -/
structure Seen (channel : P → Channel) (w : Poller P) : Prop where
  interest : ∀ p, w.interest p =
    if (channel p).index = .kNew then none else some (channel p).events
  added : ∀ p, (channel p).index = .kAdded ↔ (channel p).events ≠ 0

variable {w : Poller P} {channel : P → Channel} {p : P}

omit [DecidableEq P] in
theorem Seen.events (h : w.Seen channel) (p : P) : w.events p = (channel p).events := by
  unfold Poller.events
  rw [h.interest]
  split_ifs with hnew
  · by_contra hne
    have hadded := (h.added p).mpr fun hzero => hne hzero.symm
    rw [hnew] at hadded
    cases hadded
  · rfl

omit [DecidableEq P] in
theorem Seen.watches (h : w.Seen channel) {fd : P → ℕ} {n : ℕ} {mask : Events} :
    w.Watches fd n mask p ↔
      fd p = n ∧ (channel p).events ≠ 0 ∧ mask = (channel p).events := by
  unfold Watches
  rw [h.interest]
  constructor
  · rintro ⟨hmask, hne, hn⟩
    split_ifs at hmask
    obtain rfl := Option.some.inj hmask
    exact ⟨hn, hne, rfl⟩
  · rintro ⟨hn, hne, rfl⟩
    have hadded := (h.added p).mpr hne
    exact ⟨if_neg (by rw [hadded]; nofun), hne, hn⟩

theorem Seen.update (h : w.Seen channel) {c : Channel} {known : Option Events} {r : Finset P}
    (hknown : known = if c.index = .kNew then none else some c.events)
    (hadded : c.index = .kAdded ↔ c.events ≠ 0) :
    Seen (Function.update channel p c)
      { interest := Function.update w.interest p known, retired := r } := by
  refine ⟨fun q => ?_, fun q => ?_⟩
  · dsimp only
    by_cases hq : q = p
    · rw [hq, Function.update_self, Function.update_self]
      exact hknown
    · rw [Function.update_of_ne hq, Function.update_of_ne hq]
      exact h.interest q
  · by_cases hq : q = p
    · rw [hq, Function.update_self]
      exact hadded
    · rw [Function.update_of_ne hq]
      exact h.added q

/-- What `updateChannel` makes of a channel. -/
def changedChannel (c : Channel) (change : Change) : Channel :=
  { change.apply c with index := EPollPoller.indexOf (change.apply c) }

theorem Seen.change (h : w.Seen channel) {change : Change}
    (hkept : (channel p).index ≠ .kAdded → (change.apply (channel p)).isNoneEvent = false) :
    Seen (Function.update channel p (changedChannel (channel p) change)) (w.changed p change) := by
  have hindex := Change.apply_index change (channel p)
  refine h.update ?_ ?_
  · have hnew : (changedChannel (channel p) change).index ≠ .kNew := by
      unfold changedChannel EPollPoller.indexOf
      dsimp only
      split_ifs <;> nofun
    rw [if_neg hnew, h.events p, ← Change.apply_events]
    rfl
  · change EPollPoller.indexOf (change.apply (channel p)) = .kAdded ↔
      (change.apply (channel p)).events ≠ 0
    rw [← hindex] at hkept
    generalize change.apply (channel p) = c at hkept
    unfold EPollPoller.indexOf
    by_cases hnone : c.isNoneEvent = true
    · have hadded : c.index = .kAdded := by
        by_contra hne
        rw [hkept hne] at hnone
        cases hnone
      rw [if_pos ⟨hadded, hnone⟩]
      exact ⟨nofun, fun hne => absurd (Channel.isNoneEvent_iff.mp hnone) hne⟩
    · rw [if_neg fun hc => hnone hc.2]
      exact ⟨fun _ hzero => hnone (Channel.isNoneEvent_iff.mpr hzero), fun _ => rfl⟩

theorem Seen.remove (h : w.Seen channel) (hnone : (channel p).isNoneEvent = true) :
    Seen (Function.update channel p { channel p with index := .kNew }) (w.removed p) :=
  h.update rfl ⟨nofun, fun hne => absurd (Channel.isNoneEvent_iff.mp hnone) hne⟩

omit [DecidableEq P] in
theorem Seen.congr (h : w.Seen channel) {channel' : P → Channel}
    (hsame : ∀ p, (channel' p).index = (channel p).index ∧
      (channel' p).events = (channel p).events) : w.Seen channel' := by
  refine ⟨fun p => ?_, fun p => ?_⟩
  · rw [(hsame p).1, (hsame p).2]
    exact h.interest p
  · rw [(hsame p).1, (hsame p).2]
    exact h.added p

end Poller

namespace Interests
variable {P : Type} [DecidableEq P] {s t : Interests P} {w : Poller P} {fd : P → ℕ} {p : P}

def Event.seen : Event P → Poller.Event P
  | .change p c => .change p c
  | .remove p => .remove p

structure Shows (fd : P → ℕ) (s : Interests P) (w : Poller P) : Prop where
  settled : s.Settled fd
  seen : w.Seen s.channel

theorem applyUpdate_channel {u : EPollPoller.Update P} (h : s.applyUpdate p u = .ok t) :
    t.channel = Function.update s.channel p u.channel := by
  unfold applyUpdate at h
  cases hctl : u.ctl with
  | none =>
    rw [hctl] at h
    obtain rfl := Except.ok.inj h
    rfl
  | some operation =>
    rw [hctl] at h
    obtain ⟨epoll, -, h⟩ := bind_eq_ok.mp h
    obtain rfl := Except.ok.inj h
    rfl

theorem step_change_channel {change : Change} (h : machine.step s (.change p change) = .ok t) :
    t.channel = Function.update s.channel p (Poller.changedChannel (s.channel p) change) := by
  obtain ⟨u, hu, h⟩ := bind_eq_ok.mp h
  rw [EPollPoller.updateChannel_eq (EPollPoller.registered_of_updateChannel hu)] at hu
  obtain rfl := Except.ok.inj hu
  exact applyUpdate_channel h

theorem step_remove_channel (h : machine.step s (.remove p) = .ok t) :
    t.channel = Function.update s.channel p { s.channel p with index := .kNew } := by
  obtain ⟨-, h⟩ := require_bind_eq_ok.mp h
  obtain ⟨u, hu, h⟩ := bind_eq_ok.mp h
  obtain ⟨hp, hnone, hindex⟩ := EPollPoller.removeChannel_ok hu
  rw [EPollPoller.removeChannel_eq hp hnone hindex] at hu
  obtain rfl := Except.ok.inj hu
  exact applyUpdate_channel h

omit [DecidableEq P] in
theorem create_shows (fd : P → ℕ) : Shows fd (create fd) .create :=
  ⟨create_settled fd, fun _ => rfl, fun _ => ⟨nofun, fun hne => absurd rfl hne⟩⟩

omit [DecidableEq P] in
theorem Shows.hasChannel (h : Shows fd s w) :
    s.channels (s.channel p).fd = some p ↔ w.HasChannel p := by
  unfold Poller.HasChannel
  rw [h.settled.exact.channels, h.seen.interest]
  cases (s.channel p).index with
  | kNew => exact iff_of_false nofun fun hne => hne rfl
  | kAdded => exact iff_of_true (.inl rfl) nofun
  | kDeleted => exact iff_of_true (.inr rfl) nofun

omit [DecidableEq P] in
theorem Shows.watches (h : Shows fd s w) {n : ℕ} {mask : Events} :
    s.epoll n = some (mask, p) ↔ w.Watches fd n mask p := by
  rw [h.settled.exact.epoll, h.seen.watches, h.settled.fds]

theorem Shows.change (h : Shows fd s w) {change : Change} (hinj : Function.Injective fd)
    (hkept : Interested s (.change p change)) :
    ∃ t, machine.step s (.change p change) = .ok t ∧ Shows fd t (w.changed p change) := by
  obtain ⟨t, ht, hsettled⟩ := h.settled.change hinj hkept
  refine ⟨t, ht, hsettled, ?_⟩
  rw [step_change_channel ht]
  exact h.seen.change hkept

theorem Shows.remove (h : Shows fd s w) (hinj : Function.Injective fd)
    (he : machine.enabled s (.remove p)) :
    ∃ t, machine.step s (.remove p) = .ok t ∧ Shows fd t (w.removed p) := by
  obtain ⟨t, ht, hsettled⟩ := h.settled.remove hinj he
  refine ⟨t, ht, hsettled, ?_⟩
  rw [step_remove_channel ht]
  exact h.seen.remove he.2

omit [DecidableEq P] in
/-- A channel can be removed from the one exactly when it can be removed from the other. -/
theorem Shows.removable (h : Shows fd s w) :
    s.channels (s.channel p).fd = some p ∧ (s.channel p).isNoneEvent = true ↔
      w.interest p = some 0 := by
  rw [h.hasChannel, Channel.isNoneEvent_iff, ← h.seen.events p, Poller.interest_eq_some_zero]

theorem simulates (hinj : Function.Injective fd) :
    machine.Simulates Poller.machine Interested Machine.Any (fun e => [e.seen]) (Shows fd) := by
  refine Machine.simulates_of_step fun s w e t h he hkept ht => ?_
  cases e with
  | change p change =>
    obtain ⟨t', ht', hshows⟩ := h.change hinj hkept
    obtain rfl := Except.ok.inj (ht'.symm.trans ht)
    exact ⟨trivial, trivial, _, rfl, hshows⟩
  | remove p =>
    obtain ⟨t', ht', hshows⟩ := h.remove hinj he
    obtain rfl := Except.ok.inj (ht'.symm.trans ht)
    exact ⟨h.removable.mp he, trivial, _, rfl, hshows⟩

end Interests
end MuduoWindows.Net
