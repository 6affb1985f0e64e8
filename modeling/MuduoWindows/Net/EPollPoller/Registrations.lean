import MuduoWindows.Net.EPollPoller
import MuduoWindows.Net.Epoll.Entries

/-! # Channels and their registrations

A registered socket belongs to a channel that the poller has added. The functions of the poller
either register the socket of a channel anew or take it out, and every step keeps the invariant.
-/

namespace MuduoWindows.Net
open Library

/-- An interest in reading comes with `EPOLLIN`. -/
def Channel.Regular (c : Channel) : Prop := c.isReading = true → has c.events EPOLLIN = true

theorem create_regular {fd : ℕ} : (Channel.create fd).Regular := by
  intro h
  rw [Channel.isReading_iff] at h
  exact absurd BitVec.zero_and h

theorem Change.apply_regular {c : Channel} (h : c.Regular) (change : Change) :
    (change.apply c).Regular := by
  cases change with
  | enableReading => exact fun _ => has_or_right (by decide)
  | disableReading =>
    intro hread
    rw [Channel.isReading_iff] at hread
    refine absurd ?_ hread
    change (c.events &&& ~~~Channel.kReadEvent) &&& Channel.kReadEvent = 0
    rw [BitVec.and_assoc, show ~~~Channel.kReadEvent &&& Channel.kReadEvent = 0#32 from rfl]
    exact BitVec.and_zero
  | enableWriting =>
    intro hread
    rw [show (Change.apply .enableWriting c).isReading = c.isReading from
      Channel.isReading_enableWriting] at hread
    exact has_or_left (h hread)
  | disableWriting =>
    intro hread
    rw [show (Change.apply .disableWriting c).isReading = c.isReading from
      Channel.isReading_disableWriting] at hread
    exact (has_and rfl).trans (h hread)
  | disableAll =>
    intro hread
    rw [Channel.isReading_iff] at hread
    exact absurd BitVec.zero_and hread

theorem Change.apply_fd (change : Change) (c : Channel) : (change.apply c).fd = c.fd := by
  cases change <;> rfl

theorem Change.apply_index (change : Change) (c : Channel) : (change.apply c).index = c.index := by
  cases change <;> rfl

theorem afdEvents_reading {events : Events} (h : has events EPOLLIN = true) :
    has (EpollPort.afdEvents events) AFD_POLL_RECEIVE = true := by
  unfold EpollPort.afdEvents
  rw [if_pos (has_mask h)]
  exact has_or_left (has_or_left (has_or_right (has_or_left (by decide))))

theorem afdEvents_writing {events : Events} (h : has events EPOLLOUT = true) :
    has (EpollPort.afdEvents events) AFD_POLL_SEND = true := by
  unfold EpollPort.afdEvents
  rw [if_pos (c := has events (EPOLLOUT ||| EPOLLWRNORM ||| EPOLLRDBAND) = true)
    (has_mask (has_mask h))]
  exact has_or_right (by decide)

theorem Interest.wanted_afdEvents {c : Channel} (h : c.Regular) {i : Interest}
    (hi : i.wanted c = true) :
    has (EpollPort.afdEvents (c.events ||| EPOLLERR ||| EPOLLHUP)) i.afdEvents = true := by
  cases i with
  | reading => exact afdEvents_reading (has_or_left (has_or_left (h hi)))
  | writing => exact afdEvents_writing (has_or_left (has_or_left hi))

namespace EPollPoller
variable {P : Type} [DecidableEq P] {s t : EPollPoller P} {p : P} {c : Channel}

structure Inv (s : EPollPoller P) : Prop where
  port : s.port.Valid
  known : ∀ p, (s.channel p).index ≠ .kNew → s.channels (s.channel p).fd = some p
  channels : ∀ fd p, s.channels fd = some p →
    (s.channel p).fd = fd ∧ (s.channel p).index ≠ .kNew
  regular : ∀ p, (s.channel p).Regular
  tree : ∀ fd d, s.port.sockDataTree fd = some d → ∃ p, (s.port.sockData d).userData = some p ∧
    (s.channel p).fd = fd ∧ (s.channel p).index = .kAdded ∧
    ((s.channel p).isReading = true → has (s.port.sockData d).registeredEvents EPOLLIN = true)

omit [DecidableEq P] in
theorem create_inv {refused : ℕ → Bool} : (create refused : EPollPoller P).Inv := by
  refine ⟨EpollPort.create_valid, ?_, ?_, fun _ => create_regular, ?_⟩
  · intro p hp
    exact absurd rfl hp
  · intro fd p hp
    cases hp
  · intro fd d hd
    cases hd

/-- The channel becomes `c` and its socket is registered. -/
def joined (s : EPollPoller P) (p : P) (c : Channel) (port : EpollPort P) : EPollPoller P :=
  { s.setChannel p c with
    channels := Function.update s.channels c.fd (some p), port := port
    lost := Function.update s.lost p fun _ => false }

/-- The channel becomes `c` and its socket is not registered. -/
def departed (s : EPollPoller P) (p : P) (c : Channel) : EPollPoller P :=
  { s.setChannel p c with
    channels := Function.update s.channels c.fd (if c.index = .kNew then none else some p)
    port := s.port.delete c.fd
    lost := Function.update s.lost p fun _ => false }

/-- What a change or a removal does. -/
inductive Updated (s : EPollPoller P) (p : P) : EPollPoller P → Prop
  | joined {c : Channel} {d : ℕ} {port : EpollPort P} : c.fd = (s.channel p).fd →
      (∀ q, s.channels c.fd = some q → q = p) → c.index = .kAdded → c.Regular →
      s.port.Registers c.fd c.events p d port → Updated s p (s.joined p c port)
  | departed {c : Channel} : c.fd = (s.channel p).fd →
      (∀ q, s.channels c.fd = some q → q = p) → c.index ≠ .kAdded → c.Regular →
      Updated s p (s.departed p c)

theorem Updated.waiting (hu : Updated s p t) : t.waiting = s.waiting := by
  cases hu <;> rfl

theorem setChannel_self : (s.setChannel p c).channel p = c := Function.update_self ..

theorem setChannel_of_ne {q : P} (h : q ≠ p) : (s.setChannel p c).channel q = s.channel q :=
  Function.update_of_ne h ..

omit [DecidableEq P] in
theorem Inv.unregistered (h : s.Inv) (hp : (s.channel p).index ≠ .kAdded)
    (hagree : Registered s.channels p (s.channel p)) :
    s.port.sockDataTree (s.channel p).fd = none := by
  cases hd : s.port.sockDataTree (s.channel p).fd with
  | none => rfl
  | some d =>
    obtain ⟨q, -, hfd, hadded, -⟩ := h.tree _ d hd
    have hq := h.known q (by rw [hadded]; nofun)
    unfold Registered at hagree
    rw [hfd] at hq
    rw [hq] at hagree
    split_ifs at hagree
    obtain rfl := Option.some.inj hagree
    exact absurd hadded hp

theorem applyUpdate_eq {u : Update P} {operation : EpollCtl} {port : EpollPort P}
    (hctl : u.ctl = some operation) (hport : update s.port p u.channel operation = .ok port) :
    s.applyUpdate p u = .ok { s.setChannel p u.channel with
      channels := u.channels, port := port
      lost := Function.update s.lost p fun _ => false } := by
  unfold applyUpdate
  rw [hctl]
  dsimp only
  rw [hport, ok_bind, pure_eq_ok]

theorem applyUpdate_ok {u : Update P} {operation : EpollCtl} (hctl : u.ctl = some operation)
    (ht : s.applyUpdate p u = .ok t) :
    ∃ port, update s.port p u.channel operation = .ok port ∧
      t = { s.setChannel p u.channel with
        channels := u.channels, port := port
        lost := Function.update s.lost p fun _ => false } := by
  unfold applyUpdate at ht
  rw [hctl] at ht
  obtain ⟨port, hport, ht⟩ := bind_eq_ok.mp ht
  exact ⟨port, hport, (Except.ok.inj ht).symm⟩

omit [DecidableEq P] in
theorem Inv.registers_mod (h : s.Inv) {port : EpollPort P}
    (hport : update s.port p c .mod = .ok port) :
    ∃ d, s.port.Registers c.fd c.events p d port := by
  unfold update at hport
  obtain hnone | ⟨d, port', hport', hregisters⟩ := h.port.epollMod c.fd c.events p
  · rw [hnone] at hport
    cases hport
  · rw [hport'] at hport
    obtain rfl := Except.ok.inj hport
    exact ⟨d, hregisters⟩

omit [DecidableEq P] in
theorem Inv.registers_add (h : s.Inv) (hfree : s.port.sockDataTree c.fd = none)
    {port : EpollPort P} (hport : update s.port p c .add = .ok port) :
    s.port.Registers c.fd c.events p s.port.allocated port := by
  unfold update at hport
  obtain hnone | ⟨port', hport', hregisters⟩ := h.port.epollAdd c.events p hfree
  · rw [hnone] at hport
    cases hport
  · rw [hport'] at hport
    obtain rfl := Except.ok.inj hport
    exact hregisters

theorem Inv.changed (h : s.Inv) {change : Change} (ht : s.change p change = .ok t) :
    Updated s p t := by
  obtain ⟨u, hu, ht⟩ := bind_eq_ok.mp ht
  have hagree := registered_of_updateChannel hu
  have hregular := Change.apply_regular (h.regular p) change
  have hfd := Change.apply_fd change (s.channel p)
  have hindex := Change.apply_index change (s.channel p)
  rw [updateChannel_eq hagree] at hu
  obtain rfl := Except.ok.inj hu
  have hown : ∀ q, s.channels (change.apply (s.channel p)).fd = some q → q = p := by
    intro q hq
    unfold Registered at hagree
    split_ifs at hagree
    · rw [hagree] at hq
      cases hq
    · exact Option.some.inj (hq.symm.trans hagree)
  generalize change.apply (s.channel p) = c at ht hagree hregular hfd hindex hown
  by_cases hadded : c.index = .kAdded
  · by_cases hnone : c.isNoneEvent = true
    · have hctl : ctlOf c = .del := by
        unfold ctlOf
        rw [if_neg (not_not_intro hadded), if_pos hnone]
      have hdeleted : indexOf c = .kDeleted := if_pos ⟨hadded, hnone⟩
      rw [hctl, hdeleted, applyUpdate_eq rfl rfl] at ht
      obtain rfl := Except.ok.inj ht
      exact Updated.departed (c := { c with index := .kDeleted }) hfd hown nofun hregular
    · have hctl : ctlOf c = .mod := by
        unfold ctlOf
        rw [if_neg (not_not_intro hadded), if_neg hnone]
      have hkept : indexOf c = .kAdded := if_neg fun hc => hnone hc.2
      rw [hctl, hkept] at ht
      obtain ⟨port, hupdate, ht⟩ := applyUpdate_ok rfl ht
      obtain ⟨d, hregisters⟩ := h.registers_mod hupdate
      rw [ht]
      exact Updated.joined (c := { c with index := .kAdded }) hfd hown rfl hregular hregisters
  · have hctl : ctlOf c = .add := if_pos hadded
    have hkept : indexOf c = .kAdded := if_neg fun hc => hadded hc.1
    have hfree : s.port.sockDataTree c.fd = none := by
      rw [hfd]
      apply h.unregistered
      · rwa [← hindex]
      · unfold Registered at hagree ⊢
        rwa [hindex, hfd] at hagree
    rw [hctl, hkept] at ht
    obtain ⟨port, hupdate, ht⟩ := applyUpdate_ok rfl ht
    rw [ht]
    exact Updated.joined (c := { c with index := .kAdded }) hfd hown rfl hregular
      (h.registers_add hfree hupdate)

theorem Inv.removed (h : s.Inv) (ht : s.remove p = .ok t) : Updated s p t := by
  obtain ⟨hnone, ht⟩ := require_bind_eq_ok.mp ht
  obtain ⟨u, hu, ht⟩ := bind_eq_ok.mp ht
  obtain ⟨hp, -, hindex⟩ := removeChannel_ok hu
  rw [removeChannel_eq hp hnone hindex] at hu
  obtain rfl := Except.ok.inj hu
  have hdeparted : Updated s p (s.departed p { s.channel p with index := .kNew }) :=
    .departed rfl (fun q hq => Option.some.inj (hq.symm.trans hp)) nofun (h.regular p)
  by_cases hadded : (s.channel p).index = .kAdded
  · rw [if_pos hadded, applyUpdate_eq rfl rfl] at ht
    obtain rfl := Except.ok.inj ht
    exact hdeparted
  · have hfree : s.port.sockDataTree (s.channel p).fd = none := by
      apply h.unregistered hadded
      unfold Registered
      rwa [if_neg (by rcases hindex with hi | hi <;> rw [hi] <;> nofun)]
    have hport : s.port.delete (s.channel p).fd = s.port := by
      unfold EpollPort.delete EpollPort.epollDel
      rw [hfree]
      rfl
    unfold departed at hdeparted
    dsimp only at hdeparted
    rw [hport] at hdeparted
    rw [if_neg hadded] at ht
    obtain rfl := Except.ok.inj ht
    exact hdeparted

omit [DecidableEq P] in
/-- The tree after a registration: the socket's own entry, and the others as they were. -/
theorem registers_tree {fd fd' d d' : ℕ} {events : Events} {port : EpollPort P}
    (h : s.port.Valid) (hport : s.port.Registers fd events p d port)
    (hd : port.sockDataTree fd' = some d') : (fd' = fd ∧ d' = d) ∨
      (fd' ≠ fd ∧ d' ≠ d ∧ s.port.sockDataTree fd' = some d' ∧
        port.sockData d' = s.port.sockData d') := by
  rw [hport.tree] at hd
  by_cases hfd : fd' = fd
  · subst fd'
    rw [Function.update_self] at hd
    exact .inl ⟨rfl, (Option.some.inj hd).symm⟩
  · rw [Function.update_of_ne hfd] at hd
    obtain ⟨hlt, hsock⟩ := h.tree fd' d' hd
    have hne : d' ≠ d := by
      rintro rfl
      rcases hport.known with hknown | ⟨-, hfresh⟩
      · exact hfd (hsock.symm.trans (h.tree fd d' hknown).2)
      · exact hlt.ne hfresh
    obtain ⟨data, hdata, -⟩ := hport.data
    exact .inr ⟨hfd, hne, hd, by rw [hdata, Function.update_of_ne hne]⟩

theorem Inv.registry (h : s.Inv) (hfd : c.fd = (s.channel p).fd)
    (hown : ∀ q, s.channels c.fd = some q → q = p) (hregular : c.Regular) (known : Option P)
    (hknown : known = if c.index = .kNew then none else some p) :
    (∀ q, ((s.setChannel p c).channel q).index ≠ .kNew →
      Function.update s.channels c.fd known ((s.setChannel p c).channel q).fd = some q) ∧
    (∀ fd q, Function.update s.channels c.fd known fd = some q →
      ((s.setChannel p c).channel q).fd = fd ∧ ((s.setChannel p c).channel q).index ≠ .kNew) ∧
    ∀ q, ((s.setChannel p c).channel q).Regular := by
  refine ⟨?_, ?_, ?_⟩
  · intro q hq
    by_cases hqp : q = p
    · subst q
      rw [setChannel_self] at hq ⊢
      rw [Function.update_self, hknown, if_neg hq]
    · rw [setChannel_of_ne hqp] at hq ⊢
      have hold := h.known q hq
      rw [Function.update_of_ne]
      · exact hold
      · intro heq
        rw [heq] at hold
        exact hqp (hown q hold)
  · intro fd q hq
    by_cases hfd' : fd = c.fd
    · subst fd
      rw [Function.update_self, hknown] at hq
      split_ifs at hq with hindex
      obtain rfl := Option.some.inj hq
      rw [setChannel_self]
      exact ⟨rfl, hindex⟩
    · rw [Function.update_of_ne hfd'] at hq
      obtain ⟨hqfd, hqindex⟩ := h.channels fd q hq
      have hqp : q ≠ p := by
        rintro rfl
        exact hfd' (hqfd.symm.trans hfd.symm)
      rw [setChannel_of_ne hqp]
      exact ⟨hqfd, hqindex⟩
  · intro q
    by_cases hqp : q = p
    · subst q
      rw [setChannel_self]
      exact hregular
    · rw [setChannel_of_ne hqp]
      exact h.regular q

theorem Inv.tree_other (h : s.Inv) (hfd : c.fd = (s.channel p).fd) {fd d : ℕ} (hne : fd ≠ c.fd)
    (hd : s.port.sockDataTree fd = some d) : ∃ q, (s.port.sockData d).userData = some q ∧
      ((s.setChannel p c).channel q).fd = fd ∧ ((s.setChannel p c).channel q).index = .kAdded ∧
      (((s.setChannel p c).channel q).isReading = true →
        has (s.port.sockData d).registeredEvents EPOLLIN = true) := by
  obtain ⟨q, huser, hqfd, hq⟩ := h.tree fd d hd
  have hqp : q ≠ p := by
    rintro rfl
    exact hne (hqfd.symm.trans hfd.symm)
  rw [← setChannel_of_ne (c := c) hqp] at hqfd hq
  exact ⟨q, huser, hqfd, hq⟩

theorem Updated.inv (h : s.Inv) (hu : Updated s p t) : t.Inv := by
  cases hu with
  | @joined c d port hfd hown hindex hregular hport =>
    obtain ⟨hknown, hchannels, hregulars⟩ := h.registry hfd hown hregular (some p)
      (by rw [if_neg (by rw [hindex]; nofun)])
    refine ⟨hport.valid, hknown, hchannels, hregulars, ?_⟩
    intro fd d' hd'
    rcases registers_tree h.port hport hd' with ⟨rfl, rfl⟩ | ⟨hne, -, hold, hdata⟩
    · obtain ⟨data, hdata, -, huser, hevents, -⟩ := hport.data
      have hself : (s.joined p c port).channel p = c := setChannel_self
      have hd : (s.joined p c port).port.sockData d' = EpollPort.polling data := by
        change port.sockData d' = _
        rw [hdata, Function.update_self]
      refine ⟨p, ?_, ?_, ?_, ?_⟩
      · rw [hd]
        exact huser
      · rw [hself]
      · rw [hself, hindex]
      · rw [hself, hd]
        intro hread
        change has data.registeredEvents EPOLLIN = true
        rw [hevents]
        exact has_or_left (has_or_left (hregular hread))
    · have hsame : (s.joined p c port).port.sockData d' = s.port.sockData d' := hdata
      rw [hsame]
      exact h.tree_other hfd hne hold
  | @departed c hfd hown hindex hregular =>
    obtain ⟨hknown, hchannels, hregulars⟩ := h.registry hfd hown hregular _ rfl
    refine ⟨h.port.delete c.fd, hknown, hchannels, hregulars, ?_⟩
    intro fd d hd
    change (s.port.delete c.fd).sockDataTree fd = some d at hd
    rw [h.port.delete_tree] at hd
    have hne : fd ≠ c.fd := by
      rintro rfl
      rw [Function.update_self] at hd
      cases hd
    rw [Function.update_of_ne hne] at hd
    have hsame : (s.departed p c).port.sockData d = s.port.sockData d :=
      congrFun (EpollPort.delete_sockData c.fd) d
    rw [hsame]
    exact h.tree_other hfd hne hd

omit [DecidableEq P] in
/-- Only the port has changed, and registered sockets have kept their channels. -/
theorem Inv.setPort (h : s.Inv) {port : EpollPort P} (hvalid : port.Valid)
    (htree : ∀ fd d, port.sockDataTree fd = some d → s.port.sockDataTree fd = some d)
    (hdata : ∀ d, (port.sockData d).userData = (s.port.sockData d).userData ∧
      has (port.sockData d).registeredEvents EPOLLIN =
        has (s.port.sockData d).registeredEvents EPOLLIN) (ht : t.channel = s.channel)
    (hchannels : t.channels = s.channels) (hport : t.port = port) : t.Inv := by
  rw [← hport] at hvalid htree hdata
  refine ⟨hvalid, ?_, ?_, ?_, ?_⟩
  · rw [ht, hchannels]
    exact h.known
  · rw [ht, hchannels]
    exact h.channels
  · rw [ht]
    exact h.regular
  · intro fd d hd
    rw [ht, (hdata d).1, (hdata d).2]
    exact h.tree fd d (htree fd d hd)

theorem Inv.processed (h : s.Inv) {entry : Completion} (ho : entry.op ∈ s.port.inFlight) :
    ∃ port event, s.port.Outcome entry port event ∧ s.processEntry entry = .ok { s with
      port := port, entries := s.entries + 1, events := s.events ++ event.toList
      lost := s.lostBy entry } := by
  obtain ⟨port, event, hdequeue, hout⟩ := h.port.dequeue ho
  refine ⟨port, event, hout, ?_⟩
  unfold processEntry
  rw [hdequeue, ok_bind]
  rfl

theorem fillActiveChannel_ok {event : EpollEvent P} (ht : s.fillActiveChannel event = .ok t) :
    ∃ p, event.data = some p ∧ t = s.activate p event.events := by
  unfold fillActiveChannel at ht
  cases hp : event.data with
  | none =>
    rw [hp] at ht
    cases ht
  | some p =>
    rw [hp] at ht
    obtain ⟨-, ht⟩ := require_bind_eq_ok.mp ht
    obtain ⟨-, ht⟩ := require_bind_eq_ok.mp ht
    exact ⟨p, rfl, (Except.ok.inj ht).symm⟩

/-- Filling in the active channels leaves everything but the events that have arrived. -/
structure Filled (s t : EPollPoller P) : Prop where
  channel : ∀ p, (t.channel p).index = (s.channel p).index ∧
    (t.channel p).fd = (s.channel p).fd ∧ (t.channel p).events = (s.channel p).events
  channels : t.channels = s.channels
  port : t.port = s.port
  lost : t.lost = s.lost

omit [DecidableEq P] in
theorem Filled.refl (s : EPollPoller P) : Filled s s :=
  ⟨fun _ => ⟨rfl, rfl, rfl⟩, rfl, rfl, rfl⟩

omit [DecidableEq P] in
theorem Filled.trans {u : EPollPoller P} (h : Filled s t) (k : Filled t u) : Filled s u := by
  refine ⟨?_, k.channels.trans h.channels, k.port.trans h.port, k.lost.trans h.lost⟩
  intro p
  rw [← (h.channel p).1, ← (h.channel p).2.1, ← (h.channel p).2.2]
  exact k.channel p

theorem activate_filled (p : P) (events : Events) : Filled s (s.activate p events) := by
  refine ⟨?_, rfl, rfl, rfl⟩
  intro q
  have hsame : (s.activate p events).channel = Function.update s.channel p
      { s.channel p with revents := events } := rfl
  by_cases hq : q = p
  · subst q
    rw [hsame, Function.update_self]
    exact ⟨rfl, rfl, rfl⟩
  · rw [hsame, Function.update_of_ne hq]
    exact ⟨rfl, rfl, rfl⟩

theorem fillActiveChannels_filled {events : List (EpollEvent P)}
    (ht : events.foldlM fillActiveChannel s = .ok t) : Filled s t := by
  induction events generalizing s with
  | nil =>
    obtain rfl := Except.ok.inj ht
    exact .refl s
  | cons event events ih =>
    rw [List.foldlM_cons] at ht
    obtain ⟨u, hu, ht⟩ := bind_eq_ok.mp ht
    obtain ⟨p, -, rfl⟩ := fillActiveChannel_ok hu
    exact (activate_filled p event.events).trans (ih ht)

theorem polled_filled (ht : s.polled = .ok t) : Filled s t ∧ t.waiting = false := by
  unfold polled at ht
  split_ifs at ht
  · obtain ⟨u, hu, ht⟩ := bind_eq_ok.mp ht
    obtain ⟨-, hu⟩ := require_bind_eq_ok.mp hu
    obtain rfl := Except.ok.inj ht
    have hfilled := fillActiveChannels_filled hu
    exact ⟨⟨hfilled.channel, hfilled.channels, hfilled.port, hfilled.lost⟩, rfl⟩
  · obtain rfl := Except.ok.inj ht
    exact ⟨⟨fun _ => ⟨rfl, rfl, rfl⟩, rfl, rfl, rfl⟩, rfl⟩

omit [DecidableEq P] in
theorem Inv.filled (h : s.Inv) (hf : Filled s t) : t.Inv := by
  have hread : ∀ p, (t.channel p).isReading = (s.channel p).isReading := by
    intro p
    unfold Channel.isReading
    rw [(hf.channel p).2.2]
  refine ⟨?_, ?_, ?_, ?_, ?_⟩
  · rw [hf.port]
    exact h.port
  · intro p
    rw [(hf.channel p).1, (hf.channel p).2.1, hf.channels]
    exact h.known p
  · intro fd p
    rw [(hf.channel p).1, (hf.channel p).2.1, hf.channels]
    exact h.channels fd p
  · intro p
    unfold Channel.Regular
    rw [hread, (hf.channel p).2.2]
    exact h.regular p
  · intro fd d hd
    rw [hf.port] at hd ⊢
    obtain ⟨p, huser, hfd, hindex, hp⟩ := h.tree fd d hd
    refine ⟨p, huser, (hf.channel p).2.1.trans hfd, (hf.channel p).1.trans hindex, ?_⟩
    rw [hread]
    exact hp

theorem Inv.newChannel (h : s.Inv) (hp : (s.channel p).index = .kNew) (fd : ℕ)
    (ht : t.channel = Function.update s.channel p (.create fd))
    (hchannels : t.channels = s.channels) (hport : t.port = s.port) : t.Inv := by
  have hself : t.channel p = .create fd := by rw [ht, Function.update_self]
  have hother : ∀ q, q ≠ p → t.channel q = s.channel q := by
    intro q hq
    rw [ht, Function.update_of_ne hq]
  refine ⟨?_, ?_, ?_, ?_, ?_⟩
  · rw [hport]
    exact h.port
  · intro q hq
    by_cases hqp : q = p
    · subst q
      rw [hself] at hq
      exact absurd rfl hq
    · rw [hother q hqp, hchannels] at *
      exact h.known q hq
  · intro fd' q hq
    rw [hchannels] at hq
    have hold := h.channels fd' q hq
    have hqp : q ≠ p := by
      rintro rfl
      exact hold.2 hp
    rw [hother q hqp]
    exact hold
  · intro q
    by_cases hqp : q = p
    · subst q
      rw [hself]
      exact create_regular
    · rw [hother q hqp]
      exact h.regular q
  · intro fd' d hd
    rw [hport] at hd ⊢
    obtain ⟨q, huser, hfd, hindex, hq⟩ := h.tree fd' d hd
    have hqp : q ≠ p := by
      rintro rfl
      rw [hp] at hindex
      cases hindex
    refine ⟨q, huser, ?_⟩
    rw [hother q hqp]
    exact ⟨hfd, hindex, hq⟩

theorem Inv.step (h : s.Inv) {e : Event P} (he : machine.enabled s e)
    (ht : machine.step s e = .ok t) : t.Inv := by
  cases e with
  | newChannel p fd =>
    obtain rfl := Except.ok.inj ht
    exact h.newChannel he.2 fd rfl rfl rfl
  | change p change => exact (h.changed ht).inv h
  | remove p => exact (h.removed ht).inv h
  | poll =>
    obtain rfl := Except.ok.inj ht
    obtain ⟨hvalid, htree, hdata⟩ := h.port.submitAll
    refine h.setPort hvalid (fun fd d hd => by rwa [htree] at hd) ?_ rfl rfl rfl
    intro d
    rw [(hdata d).1, (hdata d).2]
    exact ⟨rfl, rfl⟩
  | entry entry =>
    obtain ⟨port, event, hout, hprocess⟩ := h.processed he.2.2.1
    obtain rfl := Except.ok.inj (hprocess.symm.trans ht)
    obtain ⟨htree, hdata⟩ := hout.frame
    exact h.setPort (hout.valid h.port he.2.2.1) htree hdata rfl rfl rfl
  | polled => exact h.filled (polled_filled ht).1

end EPollPoller
end MuduoWindows.Net
