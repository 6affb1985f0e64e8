import MuduoWindows.Net.EPollPoller.Registrations

/-! # The poller over an abstract epoll set

`epoll_ctl` is taken as a set of file descriptors, each with the mask and the user data that were
last given for it. The set is exactly the channels that are interested in something, as long as no
channel that is not added is updated without an interest.
-/

namespace MuduoWindows.Net
open Library

abbrev EpollSet (P : Type) := ℕ → Option (Events × P)

/-- A call of `epoll_ctl`: a present file descriptor cannot be added, and an absent one neither
modified nor deleted (which the source only logs). -/
def EpollSet.ctl {P : Type} (epoll : EpollSet P) (fd : ℕ) (event : Events × P) :
    EpollCtl → Result (EpollSet P)
  | .add => do
    require (epoll fd = none) (.sysFatal "epoll_ctl op = ADD")
    pure (Function.update epoll fd (some event))
  | .mod => do
    require (epoll fd ≠ none) (.sysFatal "epoll_ctl op = MOD")
    pure (Function.update epoll fd (some event))
  | .del => do
    require (epoll fd ≠ none) (.sysFatal "epoll_ctl op = DEL")
    pure (Function.update epoll fd none)

/-- The channels of a loop with `channels_` and the epoll set. -/
structure Interests (P : Type) where
  channels : EPollPoller.ChannelMap P
  channel : P → Channel
  epoll : EpollSet P

namespace Interests
variable {P : Type} [DecidableEq P]

def create (fd : P → ℕ) : Interests P :=
  { channels := fun _ => none, channel := fun p => .create (fd p), epoll := fun _ => none }

/-- `update(operation, channel)` for what `updateChannel` or `removeChannel` has decided. -/
def applyUpdate (s : Interests P) (p : P) (u : EPollPoller.Update P) : Result (Interests P) := do
  let epoll ← match u.ctl with
    | some operation => s.epoll.ctl u.channel.fd (u.channel.events, p) operation
    | none => pure s.epoll
  pure { channels := u.channels, channel := Function.update s.channel p u.channel, epoll := epoll }

inductive Event (P : Type) where
  | change (p : P) (c : Change)
  | remove (p : P)
  deriving DecidableEq

def machine : Machine (Interests P) (Event P) Fault where
  enabled s
    | .change _ _ => True
    | .remove p => s.channels (s.channel p).fd = some p ∧ (s.channel p).isNoneEvent = true
  step s
    | .change p c => do
      let u ← EPollPoller.updateChannel s.channels p (c.apply (s.channel p))
      s.applyUpdate p u
    | .remove p => do
      assert ((s.channel p).isNoneEvent) "isNoneEvent()"
      let u ← EPollPoller.removeChannel s.channels p (s.channel p)
      s.applyUpdate p u

instance (s : Interests P) : ∀ e, Decidable (machine.enabled s e)
  | .change _ _ => .isTrue trivial
  | .remove _ => inferInstanceAs (Decidable (_ ∧ _))

/-- A channel that is not added is updated with an interest only. -/
def Interested (s : Interests P) : Event P → Prop
  | .change p c => (s.channel p).index ≠ .kAdded → (c.apply (s.channel p)).isNoneEvent = false
  | .remove _ => True

instance (s : Interests P) : ∀ e, Decidable (Interested s e)
  | .change _ _ => inferInstanceAs (Decidable (_ → _))
  | .remove _ => .isTrue trivial

/-- `channels_` and the epoll set are what the channels say. -/
structure Exact (s : Interests P) : Prop where
  channels : ∀ p, s.channels (s.channel p).fd = some p ↔
    (s.channel p).index = .kAdded ∨ (s.channel p).index = .kDeleted
  epoll : ∀ fd mask p, s.epoll fd = some (mask, p) ↔
    (s.channel p).fd = fd ∧ (s.channel p).events ≠ 0 ∧ mask = (s.channel p).events

variable {fd : P → ℕ} {s t : Interests P} {p : P} {c : Channel}

structure Settled (fd : P → ℕ) (s : Interests P) : Prop where
  fds : ∀ p, (s.channel p).fd = fd p
  registered : ∀ p, EPollPoller.Registered s.channels p (s.channel p)
  epoll : ∀ p, s.epoll (fd p) =
    if (s.channel p).index = .kAdded then some ((s.channel p).events, p) else none
  interested : ∀ p, (s.channel p).index = .kAdded ↔ (s.channel p).events ≠ 0
  others : ∀ n, (∀ p, fd p ≠ n) → s.epoll n = none

omit [DecidableEq P] in
theorem create_settled (fd : P → ℕ) : (create fd).Settled fd := by
  refine ⟨fun _ => rfl, fun _ => rfl, fun _ => rfl, ?_, fun _ _ => rfl⟩
  intro p
  constructor
  · intro hp
    cases hp
  · intro hp
    exact absurd rfl hp

omit [DecidableEq P] in
theorem Settled.exact (h : s.Settled fd) : s.Exact := by
  constructor
  · intro p
    have hp := h.registered p
    unfold EPollPoller.Registered at hp
    cases hindex : (s.channel p).index with
    | kNew =>
      rw [if_pos hindex] at hp
      rw [hp]
      constructor <;> nofun
    | kAdded =>
      rw [if_neg (by rw [hindex]; nofun)] at hp
      exact ⟨fun _ => .inl rfl, fun _ => hp⟩
    | kDeleted =>
      rw [if_neg (by rw [hindex]; nofun)] at hp
      exact ⟨fun _ => .inr rfl, fun _ => hp⟩
  · intro n mask p
    constructor
    · intro hn
      have hq : ∃ q, fd q = n := by
        by_contra hnone
        rw [h.others n fun q hq => hnone ⟨q, hq⟩] at hn
        cases hn
      obtain ⟨q, rfl⟩ := hq
      rw [h.epoll q] at hn
      split_ifs at hn with hindex
      obtain ⟨rfl, rfl⟩ := Prod.mk.inj (Option.some.inj hn)
      exact ⟨h.fds q, (h.interested q).mp hindex, rfl⟩
    · rintro ⟨rfl, hevents, rfl⟩
      rw [h.fds p, h.epoll p, if_pos ((h.interested p).mpr hevents)]

/-- One channel is updated, with `channels_` and the epoll set as its index says. -/
theorem Settled.update (h : s.Settled fd) (hinj : Function.Injective fd) (hc : c.fd = fd p)
    (hchannel : t.channel = Function.update s.channel p c)
    (hchannels : t.channels = Function.update s.channels (fd p)
      (if c.index = .kNew then none else some p))
    (hepoll : t.epoll = Function.update s.epoll (fd p)
      (if c.index = .kAdded then some (c.events, p) else none))
    (hinterested : c.index = .kAdded ↔ c.events ≠ 0) : t.Settled fd := by
  have hself : t.channel p = c := by rw [hchannel, Function.update_self]
  have hother : ∀ q, q ≠ p → t.channel q = s.channel q := by
    intro q hq
    rw [hchannel, Function.update_of_ne hq]
  refine ⟨?_, ?_, ?_, ?_, ?_⟩
  · intro q
    by_cases hq : q = p
    · subst q
      rw [hself]
      exact hc
    · rw [hother q hq]
      exact h.fds q
  · intro q
    unfold EPollPoller.Registered
    by_cases hq : q = p
    · subst q
      rw [hself, hchannels, hc, Function.update_self]
      split_ifs <;> rfl
    · have hne : (s.channel q).fd ≠ fd p := by
        rw [h.fds q]
        exact hinj.ne hq
      rw [hother q hq, hchannels, Function.update_of_ne hne]
      exact h.registered q
  · intro q
    by_cases hq : q = p
    · subst q
      rw [hepoll, Function.update_self, hself]
    · rw [hepoll, Function.update_of_ne (hinj.ne hq), hother q hq]
      exact h.epoll q
  · intro q
    by_cases hq : q = p
    · subst q
      rw [hself]
      exact hinterested
    · rw [hother q hq]
      exact h.interested q
  · intro n hn
    rw [hepoll, Function.update_of_ne (Ne.symm (hn p))]
    exact h.others n hn

omit [DecidableEq P] in
theorem Settled.ctl (h : s.Settled fd) (hindex : c.index = (s.channel p).index) :
    s.epoll.ctl (fd p) (c.events, p) (EPollPoller.ctlOf c) = .ok (Function.update s.epoll (fd p)
      (if EPollPoller.ctlOf c = .del then none else some (c.events, p))) := by
  have hold := h.epoll p
  rw [← hindex] at hold
  unfold EPollPoller.ctlOf
  by_cases hadded : c.index = .kAdded
  · have hne : s.epoll (fd p) ≠ none := by
      rw [hold, if_pos hadded]
      nofun
    rw [if_neg (not_not_intro hadded)]
    by_cases hnone : c.isNoneEvent = true
    · rw [if_pos hnone, if_pos rfl]
      exact require_bind hne _
    · rw [if_neg hnone, if_neg nofun]
      exact require_bind hne _
  · have hfree : s.epoll (fd p) = none := by rw [hold, if_neg hadded]
    rw [if_pos hadded, if_neg nofun]
    exact require_bind hfree _

theorem Settled.change (h : s.Settled fd) (hinj : Function.Injective fd) {change : Change}
    (hkept : Interested s (.change p change)) :
    ∃ t, machine.step s (.change p change) = .ok t ∧ t.Settled fd := by
  have hfd : (change.apply (s.channel p)).fd = fd p :=
    (Change.apply_fd change _).trans (h.fds p)
  have hindex := Change.apply_index change (s.channel p)
  have hagree : EPollPoller.Registered s.channels p (change.apply (s.channel p)) := by
    unfold EPollPoller.Registered
    rw [hindex, hfd, ← h.fds p]
    exact h.registered p
  have hctl := h.ctl hindex
  have hupdate := EPollPoller.updateChannel_eq hagree
  change (s.channel p).index ≠ .kAdded → (change.apply (s.channel p)).isNoneEvent = false at hkept
  change ∃ t,
    (EPollPoller.updateChannel s.channels p (change.apply (s.channel p)) >>= _) = .ok t ∧ _
  rw [← hindex] at hkept
  rw [hupdate, ok_bind]
  generalize change.apply (s.channel p) = c at hfd hctl hkept
  have hdel : EPollPoller.ctlOf c = .del ↔ EPollPoller.indexOf c ≠ .kAdded := by
    unfold EPollPoller.ctlOf EPollPoller.indexOf
    by_cases hadded : c.index = .kAdded
    · by_cases hnone : c.isNoneEvent = true <;> simp [hadded, hnone]
    · simp [hadded]
  have hinterested : EPollPoller.indexOf c = .kAdded ↔ c.events ≠ 0 := by
    unfold EPollPoller.indexOf
    by_cases hnone : c.isNoneEvent = true
    · have hadded : c.index = .kAdded := by
        by_contra hne
        rw [hkept hne] at hnone
        cases hnone
      rw [if_pos ⟨hadded, hnone⟩]
      exact ⟨nofun, fun hne => absurd (Channel.isNoneEvent_iff.mp hnone) hne⟩
    · rw [if_neg fun hc => hnone hc.2]
      exact ⟨fun _ hzero => hnone (Channel.isNoneEvent_iff.mpr hzero), fun _ => rfl⟩
  have hnew : EPollPoller.indexOf c ≠ .kNew := by
    unfold EPollPoller.indexOf
    split_ifs <;> nofun
  refine ⟨{ channels := Function.update s.channels (fd p) (some p)
            channel := Function.update s.channel p { c with index := EPollPoller.indexOf c }
            epoll := Function.update s.epoll (fd p)
              (if EPollPoller.ctlOf c = .del then none else some (c.events, p)) }, ?_, ?_⟩
  · unfold applyUpdate
    dsimp only
    rw [hfd, hctl, ok_bind, pure_eq_ok]
  · apply h.update (p := p) (c := { c with index := EPollPoller.indexOf c }) hinj hfd rfl
    · rw [if_neg hnew]
    · dsimp only
      congr 1
      by_cases hadded : EPollPoller.indexOf c = .kAdded
      · rw [if_neg fun hc => hdel.mp hc hadded, if_pos hadded]
      · rw [if_pos (hdel.mpr hadded), if_neg hadded]
    · exact hinterested

theorem Settled.remove (h : s.Settled fd) (hinj : Function.Injective fd)
    (he : machine.enabled s (.remove p)) :
    ∃ t, machine.step s (.remove p) = .ok t ∧ t.Settled fd := by
  obtain ⟨hknown, hnone⟩ := he
  have hindex := ((h.exact.channels p).mp hknown)
  have hzero := Channel.isNoneEvent_iff.mp hnone
  have hdeleted : (s.channel p).index ≠ .kAdded := fun hadded => (h.interested p).mp hadded hzero
  change ∃ t, (assert _ _ >>= _) = .ok t ∧ _
  rw [require_bind hnone, EPollPoller.removeChannel_eq hknown hnone hindex, ok_bind,
    if_neg hdeleted]
  refine ⟨_, rfl, ?_⟩
  apply h.update (p := p) (c := { s.channel p with index := .kNew }) hinj (h.fds p) rfl
  · dsimp only
    rw [h.fds p]
    rfl
  · have hold := h.epoll p
    rw [if_neg hdeleted] at hold
    exact (Function.update_eq_self_iff.mpr hold.symm).symm
  · exact ⟨nofun, fun hne => absurd hzero hne⟩

theorem Settled.step (h : s.Settled fd) (hinj : Function.Injective fd) {e : Event P}
    (he : machine.enabled s e) (hkept : Interested s e) :
    ∃ t, machine.step s e = .ok t ∧ t.Settled fd := by
  cases e with
  | change p change => exact h.change hinj hkept
  | remove p => exact h.remove hinj he

/-- The epoll set is exactly the interested channels, and no call of `epoll_ctl` is refused. -/
theorem exact_set (hinj : Function.Injective fd) {es : List (Event P)}
    (h : machine.Run Interested (create fd) es s) : s.Exact ∧
      ∀ e, machine.enabled s e → Interested s e → ∃ t, machine.step s e = .ok t := by
  have hsettled : s.Settled fd := by
    apply h.invariant (fun s => s.Settled fd) (create_settled fd)
    intro s e t hs he hkept ht
    obtain ⟨t', ht', hsettled⟩ := hs.step hinj he hkept
    obtain rfl := Except.ok.inj (ht.symm.trans ht')
    exact hsettled
  refine ⟨hsettled.exact, ?_⟩
  intro e he hkept
  obtain ⟨t, ht, -⟩ := hsettled.step hinj he hkept
  exact ⟨t, ht⟩

/-- A connection reads, writes, is closed and removed; another channel stays. -/
theorem exact_set_closed : ∃ s, machine.Run Interested (create fun p : Bool => if p then 6 else 5)
      [.change true .enableReading, .change true .enableWriting, .change false .enableReading,
        .change true .disableAll, .change true .enableReading, .change true .disableAll,
        .remove true] s ∧
    s.epoll 5 = some (Channel.kReadEvent, false) ∧ s.epoll 6 = none ∧ s.Exact := by
  obtain ⟨s, hs, hp⟩ := Machine.exists_run_of_exec machine Interested
    (create fun p : Bool => if p then 6 else 5)
    [.change true .enableReading, .change true .enableWriting, .change false .enableReading,
      .change true .disableAll, .change true .enableReading, .change true .disableAll, .remove true]
    (fun s => decide (s.epoll 5 = some (Channel.kReadEvent, false) ∧ s.epoll 6 = none)) (by decide)
  obtain ⟨hfive, hsix⟩ := of_decide_eq_true hp
  have hinj : Function.Injective fun p : Bool => if p then 6 else 5 := by decide
  exact ⟨s, hs, hfive, hsix, (exact_set hinj hs).1⟩

/-- `disableAll` on a fresh channel adds it, with an empty mask; so it does on a deleted one. -/
theorem disableAll_adds : ∃ s t, machine.Run Machine.Any (create fun _ : Unit => 5)
      [.change () .disableAll] s ∧
    s.epoll 5 = some (0, ()) ∧ (s.channel ()).events = 0 ∧ ¬ s.Exact ∧
    machine.Run Machine.Any (create fun _ : Unit => 5)
      [.change () .enableReading, .change () .disableAll, .change () .disableAll] t ∧
    t.epoll 5 = some (0, ()) ∧ (t.channel ()).events = 0 ∧ ¬ t.Exact := by
  have hwrong : ∀ s : Interests Unit, s.epoll 5 = some (0, ()) → (s.channel ()).events = 0 →
      ¬ s.Exact := fun s hs hzero h => ((h.epoll 5 0 ()).mp hs).2.1 hzero
  obtain ⟨s, hs, hp⟩ := Machine.exists_run_of_exec machine Machine.Any
    (create fun _ : Unit => 5) [.change () .disableAll]
    (fun s => decide (s.epoll 5 = some (0, ()) ∧ (s.channel ()).events = 0)) (by decide)
  obtain ⟨t, ht, hq⟩ := Machine.exists_run_of_exec machine Machine.Any
    (create fun _ : Unit => 5)
    [.change () .enableReading, .change () .disableAll, .change () .disableAll]
    (fun s => decide (s.epoll 5 = some (0, ()) ∧ (s.channel ()).events = 0)) (by decide)
  obtain ⟨hepoll, hzero⟩ := of_decide_eq_true hp
  obtain ⟨hepoll', hzero'⟩ := of_decide_eq_true hq
  exact ⟨s, t, hs, hepoll, hzero, hwrong s hepoll hzero, ht, hepoll', hzero',
    hwrong t hepoll' hzero'⟩

end Interests
end MuduoWindows.Net
