import MuduoWindows.Net.Epoll.Interests
import MuduoWindows.Net.Poller

/-! # What net/epoll.cpp watches

The poller over the sockets and polls of net/epoll.cpp. Submitting polls, processing entries and
filling in the active channels change nothing that the abstract poller sees, as long as no poll
reports that its socket has been closed underneath.
-/

namespace MuduoWindows.Net.EPollPoller
open Library
variable {P : Type} [DecidableEq P] {s t : EPollPoller P} {w : Poller P} {p : P}

omit [DecidableEq P] in
/-- The functions of net/poller.h, without `poll`. -/
def Event.seen : Event P → List (Poller.Event P)
  | .change p c => [.change p c]
  | .remove p => [.remove p]
  | .newChannel _ _ | .poll | .entry _ | .polled => []

omit [DecidableEq P] in
/-- A channel that is not added is updated with an interest only, and no socket is closed before its
channel has been removed. -/
def Tended (s : EPollPoller P) : Event P → Prop
  | .change p c => (s.channel p).index ≠ .kAdded → (c.apply (s.channel p)).isNoneEvent = false
  | .entry entry => ¬ (entry.success = true ∧ has entry.afdEvents AFD_POLL_LOCAL_CLOSE = true)
  | .newChannel _ _ | .remove _ | .poll | .polled => True

instance (s : EPollPoller P) : ∀ e, Decidable (Tended s e)
  | .change _ _ => inferInstanceAs (Decidable (_ → _))
  | .entry _ => inferInstanceAs (Decidable (¬ (_ ∧ _)))
  | .newChannel _ _ | .remove _ | .poll | .polled => .isTrue trivial

structure Shows (s : EPollPoller P) (w : Poller P) : Prop where
  inv : s.Inv
  seen : w.Seen s.channel
  sockets : ∀ p, (s.channel p).index = .kAdded →
    ∃ d, s.port.sockDataTree (s.channel p).fd = some d

omit [DecidableEq P] in
theorem create_shows {refused : ℕ → Bool} : Shows (create refused : EPollPoller P) .create := by
  refine ⟨create_inv, ⟨fun _ => rfl, fun _ => ⟨nofun, fun hne => absurd rfl hne⟩⟩, ?_⟩
  intro p hp
  cases hp

omit [DecidableEq P] in
theorem Shows.hasChannel (h : Shows s w) :
    s.channels (s.channel p).fd = some p ↔ w.HasChannel p := by
  unfold Poller.HasChannel
  rw [h.seen.interest]
  constructor
  · intro hp
    rw [if_neg (h.inv.channels _ p hp).2]
    nofun
  · intro hne
    refine h.inv.known p fun hnew => hne ?_
    rw [if_pos hnew]

omit [DecidableEq P] in
theorem Shows.watches (h : Shows s w) {n : ℕ} :
    (∃ d, s.port.sockDataTree n = some d ∧ (s.port.sockData d).userData = some p) ↔
      ∃ mask, w.Watches (fun p => (s.channel p).fd) n mask p := by
  simp only [h.seen.watches]
  constructor
  · rintro ⟨d, hd, huser⟩
    obtain ⟨q, hq, hfd, hadded, -⟩ := h.inv.tree n d hd
    obtain rfl := Option.some.inj (hq.symm.trans huser)
    exact ⟨_, hfd, (h.seen.added q).mp hadded, rfl⟩
  · rintro ⟨mask, rfl, hne, -⟩
    have hadded := (h.seen.added p).mpr hne
    obtain ⟨d, hd⟩ := h.sockets p hadded
    obtain ⟨q, hq, hfd, hq', -⟩ := h.inv.tree _ d hd
    have hknown := h.inv.known p (by rw [hadded]; nofun)
    have hknown' := h.inv.known q (by rw [hq']; nofun)
    rw [hfd, hknown] at hknown'
    obtain rfl := Option.some.inj hknown'
    exact ⟨d, hd, hq⟩

theorem applyUpdate_setChannel {u : Update P} (h : s.applyUpdate p u = .ok t) :
    t.channel = Function.update s.channel p u.channel := by
  unfold applyUpdate at h
  cases hctl : u.ctl with
  | none =>
    rw [hctl] at h
    obtain rfl := Except.ok.inj h
    rfl
  | some operation =>
    rw [hctl] at h
    obtain ⟨port, -, h⟩ := bind_eq_ok.mp h
    obtain rfl := Except.ok.inj h
    rfl

theorem change_channel {change : Change} (h : s.change p change = .ok t) :
    t.channel = Function.update s.channel p (Poller.changedChannel (s.channel p) change) := by
  obtain ⟨u, hu, h⟩ := bind_eq_ok.mp h
  rw [updateChannel_eq (registered_of_updateChannel hu)] at hu
  obtain rfl := Except.ok.inj hu
  exact applyUpdate_setChannel h

theorem remove_channel (h : s.remove p = .ok t) :
    (s.channel p).isNoneEvent = true ∧ s.channels (s.channel p).fd = some p ∧
      t.channel = Function.update s.channel p { s.channel p with index := .kNew } := by
  obtain ⟨hnone, h⟩ := require_bind_eq_ok.mp h
  obtain ⟨u, hu, h⟩ := bind_eq_ok.mp h
  obtain ⟨hp, -, hindex⟩ := removeChannel_ok hu
  rw [removeChannel_eq hp hnone hindex] at hu
  obtain rfl := Except.ok.inj hu
  exact ⟨hnone, hp, applyUpdate_setChannel h⟩

/-- A channel that stays added keeps its socket, and one that joins gets one. -/
theorem Shows.updated (h : Shows s w) (hu : Updated s p t) :
    ∀ q, (t.channel q).index = .kAdded → ∃ d, t.port.sockDataTree (t.channel q).fd = some d := by
  intro q hq
  cases hu with
  | @joined c d port hfd hown hindex hregular hport =>
    change ∃ d, port.sockDataTree ((s.setChannel p c).channel q).fd = some d
    change ((s.setChannel p c).channel q).index = .kAdded at hq
    rw [hport.tree]
    by_cases hc : ((s.setChannel p c).channel q).fd = c.fd
    · rw [hc, Function.update_self]
      exact ⟨d, rfl⟩
    · have hqp : q ≠ p := by
        rintro rfl
        rw [setChannel_self] at hc
        exact hc rfl
      rw [Function.update_of_ne hc]
      rw [setChannel_of_ne hqp] at hq ⊢
      exact h.sockets q hq
  | @departed c hfd hown hindex hregular =>
    change ∃ d, (s.port.delete c.fd).sockDataTree ((s.setChannel p c).channel q).fd = some d
    change ((s.setChannel p c).channel q).index = .kAdded at hq
    have hqp : q ≠ p := by
      rintro rfl
      rw [setChannel_self] at hq
      exact hindex hq
    rw [setChannel_of_ne hqp] at hq ⊢
    have hne : (s.channel q).fd ≠ c.fd := by
      intro heq
      refine hqp (hown q ?_)
      rw [← heq]
      exact h.inv.known q (by rw [hq]; nofun)
    rw [h.inv.port.delete_tree, Function.update_of_ne hne]
    exact h.sockets q hq

theorem Shows.change (h : Shows s w) {change : Change} (hkept : Tended s (.change p change))
    (ht : s.change p change = .ok t) : Shows t (w.changed p change) := by
  have hu := h.inv.changed ht
  refine ⟨hu.inv h.inv, ?_, h.updated hu⟩
  rw [change_channel ht]
  exact h.seen.change hkept

theorem Shows.remove (h : Shows s w) (ht : s.remove p = .ok t) :
    w.interest p = some 0 ∧ Shows t (w.removed p) := by
  have hu := h.inv.removed ht
  obtain ⟨hnone, hknown, hchannel⟩ := remove_channel ht
  refine ⟨?_, hu.inv h.inv, ?_, h.updated hu⟩
  · rw [h.seen.interest, if_neg (h.inv.channels _ p hknown).2, Channel.isNoneEvent_iff.mp hnone]
  · rw [hchannel]
    exact h.seen.remove hnone

theorem Shows.newChannel (h : Shows s w) (hp : (s.channel p).index = .kNew) (fd : ℕ)
    (hs : machine.step s (.newChannel p fd) = .ok t) : Shows t w := by
  obtain rfl := Except.ok.inj hs
  refine ⟨h.inv.newChannel hp fd rfl rfl rfl, ?_, fun q hq => ?_⟩
  · have hnone : w.interest p = none := by rw [h.seen.interest, if_pos hp]
    have hseen : Poller.Seen (Function.update s.channel p (.create fd))
        { interest := Function.update w.interest p none, retired := w.retired } :=
      h.seen.update rfl ⟨nofun, fun hne => absurd rfl hne⟩
    have hsame : Function.update w.interest p none = w.interest :=
      Function.update_eq_self_iff.mpr hnone.symm
    rwa [hsame] at hseen
  · change ∃ d, s.port.sockDataTree ((s.setChannel p (.create fd)).channel q).fd = some d
    change ((s.setChannel p (.create fd)).channel q).index = .kAdded at hq
    by_cases hqp : q = p
    · rw [hqp, setChannel_self] at hq
      cases hq
    · rw [setChannel_of_ne hqp] at hq ⊢
      exact h.sockets q hq

theorem Shows.poll (h : Shows s w) (he : machine.enabled s .poll)
    (ht : machine.step s .poll = .ok t) : Shows t w := by
  have hinv := h.inv.step he ht
  obtain rfl := Except.ok.inj ht
  refine ⟨hinv, h.seen, fun q hq => ?_⟩
  change ∃ d, s.port.submitAll.sockDataTree (s.channel q).fd = some d
  rw [h.inv.port.submitAll.2.1]
  exact h.sockets q hq

theorem Shows.entry (h : Shows s w) {entry : Completion} (he : machine.enabled s (.entry entry))
    (hopen : Tended s (.entry entry)) (ht : machine.step s (.entry entry) = .ok t) :
    Shows t w := by
  have hinv := h.inv.step he ht
  obtain ⟨port, event, hout, hprocess⟩ := h.inv.processed he.2.2.1
  obtain rfl := Except.ok.inj (hprocess.symm.trans ht)
  refine ⟨hinv, h.seen, fun q hq => ?_⟩
  obtain ⟨d, hd⟩ := h.sockets q hq
  exact ⟨d, hout.tree hd fun _ => hopen⟩

theorem Shows.polled (h : Shows s w) (ht : s.polled = .ok t) : Shows t w := by
  have hf := (polled_filled ht).1
  refine ⟨h.inv.filled hf, ?_, fun q hq => ?_⟩
  · exact h.seen.congr fun q => ⟨(hf.channel q).1, (hf.channel q).2.2⟩
  · rw [(hf.channel q).1] at hq
    rw [hf.port, (hf.channel q).2.1]
    exact h.sockets q hq

theorem simulates : (machine (P := P)).Simulates Poller.machine Tended Machine.Any Event.seen
    Shows := by
  intro s w e t h he hkept ht
  cases e with
  | newChannel p fd => exact ⟨w, .nil, h.newChannel he.2 fd ht⟩
  | change p change =>
    exact ⟨_, .single (e := Poller.Event.change p change) trivial trivial rfl, h.change hkept ht⟩
  | remove p =>
    obtain ⟨hremovable, hshows⟩ := h.remove ht
    exact ⟨_, .single (e := Poller.Event.remove p) hremovable trivial rfl, hshows⟩
  | poll => exact ⟨w, .nil, h.poll he ht⟩
  | entry entry => exact ⟨w, .nil, h.entry he hkept ht⟩
  | polled => exact ⟨w, .nil, h.polled ht⟩

end MuduoWindows.Net.EPollPoller
