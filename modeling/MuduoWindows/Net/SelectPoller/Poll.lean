import MuduoWindows.Net.SelectPoller.IndexTable

/-! # `SelectPoller::poll` and the events of channels

selectPoller.cpp sees the `POLL` macros of winsock2.h, while channel.cpp, which sets and reads the
events, has those of poll.h. The scan over the entries is right wherever the three sets hold
descriptors of registered channels.
-/

namespace MuduoWindows.Net
open Library

namespace winsock2

def POLLIN : Events := 0x300
def POLLPRI : Events := 0x400
def POLLOUT : Events := 0x010
def POLLERR : Events := 0x001

/-- net/types.h sets it before winsock2.h is included. -/
def FD_SETSIZE : ℕ := 2048

/-- `fd_count` and `fd_array` -/
abbrev fd_set := List ℤ

def FD_SET (fd : ℤ) (set : fd_set) : fd_set :=
  if fd ∈ set then set else if set.length < FD_SETSIZE then set ++ [fd] else set

def FD_ISSET (fd : ℤ) (set : fd_set) : Bool := decide (fd ∈ set)

end winsock2

open winsock2

/-- The arguments of `select`. -/
structure FdSets where
  rfds : fd_set
  wfds : fd_set
  efds : fd_set

namespace FdSets

def zero : FdSets := ⟨[], [], []⟩

/-- The loop body of `poll`. -/
def add (sets : FdSets) (pfd : Pollfd) : FdSets :=
  { rfds := if has (pfd.events.signExtend 32) (winsock2.POLLIN ||| winsock2.POLLPRI) then
      FD_SET pfd.fd sets.rfds else sets.rfds
    wfds := if has (pfd.events.signExtend 32) winsock2.POLLOUT then
      FD_SET pfd.fd sets.wfds else sets.wfds
    efds := FD_SET pfd.fd sets.efds }

/-- The number of descriptors in the three sets. -/
def total (sets : FdSets) : ℤ := sets.rfds.length + sets.wfds.length + sets.efds.length

/-- The `revents` that `fillActiveChannels` computes for a descriptor. -/
def revents (sets : FdSets) (fd : ℤ) : Events :=
  (if FD_ISSET fd sets.rfds then winsock2.POLLIN else 0) |||
    (if FD_ISSET fd sets.wfds then winsock2.POLLOUT else 0) |||
    (if FD_ISSET fd sets.efds then winsock2.POLLERR else 0)

def Ready (sets : FdSets) (fd : ℤ) : Prop := fd ∈ sets.rfds ∨ fd ∈ sets.wfds ∨ fd ∈ sets.efds

instance (sets : FdSets) (fd : ℤ) : Decidable (sets.Ready fd) :=
  inferInstanceAs (Decidable (_ ∨ _ ∨ _))

/-- What `select` can leave of the sets. -/
structure Left (sets left : FdSets) : Prop where
  rfds : left.rfds.Sublist sets.rfds
  wfds : left.wfds.Sublist sets.wfds
  efds : left.efds.Sublist sets.efds

theorem revents_pos {sets : FdSets} {fd : ℤ} :
    0 < (sets.revents fd).toInt ↔ sets.Ready fd := by
  unfold revents Ready FD_ISSET
  by_cases hr : fd ∈ sets.rfds <;> by_cases hw : fd ∈ sets.wfds <;>
    by_cases he : fd ∈ sets.efds <;> simp [hr, hw, he] <;> decide

end FdSets

namespace SelectPoller
variable {P : Type} [DecidableEq P]

/-- The sets that `poll` passes to `select`. -/
def fdSets (s : SelectPoller P) : FdSets := s.pollfds.foldl FdSets.add .zero

/-- The loop of `fillActiveChannels` over the entries. -/
def fill (sets : FdSets) :
    List Pollfd → ℤ → SelectPoller P → List P → Result (SelectPoller P × List P)
  | [], _, s, activeChannels => pure (s, activeChannels)
  | pfd :: pollfds, numEvents, s, activeChannels =>
    if 0 < numEvents then
      if 0 < (sets.revents pfd.fd).toInt then
        match s.channels pfd.fd with
        | none => .error (.assertion "ch != channels_.end()")
        | some p => do
          assert ((s.channel p).fd = pfd.fd) "channel->fd() == pfd->fd"
          let channel := { s.channel p with revents := sets.revents pfd.fd }
          fill sets pollfds (numEvents - 1)
            { s with channel := Function.update s.channel p channel } (activeChannels ++ [p])
      else fill sets pollfds numEvents s activeChannels
    else pure (s, activeChannels)

def fillActiveChannels (s : SelectPoller P) (sets : FdSets) (numEvents : ℤ) :
    Result (SelectPoller P × List P) :=
  fill sets s.pollfds numEvents s []

/-- `select` leaves `left` and returns `numEvents`. -/
def poll (s : SelectPoller P) (left : FdSets) (numEvents : ℤ) :
    Result (SelectPoller P × List P) :=
  if 0 < numEvents then s.fillActiveChannels left numEvents else pure (s, [])

/-- The poll asks `select` for what the channels are interested in, and hands every channel with a
ready descriptor to the loop once, with events on which it reads and writes accordingly. -/
structure Agrees (s : SelectPoller P) : Prop where
  reading : ∀ p, s.Registered p →
    (((s.channel p).fd : ℤ) ∈ s.fdSets.rfds ↔ (s.channel p).isReading = true)
  writing : ∀ p, s.Registered p →
    (((s.channel p).fd : ℤ) ∈ s.fdSets.wfds ↔ (s.channel p).isWriting = true)
  only : ∀ fd, s.fdSets.Ready fd →
    ∃ p, s.Registered p ∧ (s.channel p).isNoneEvent = false ∧ fd = (s.channel p).fd
  filled : ∀ left, s.fdSets.Left left → ∃ s' activeChannels,
    s.poll left left.total = .ok (s', activeChannels) ∧ activeChannels.Nodup ∧
      (∀ p, p ∈ activeChannels ↔ s.Registered p ∧ left.Ready (s.channel p).fd) ∧
      ∀ p ∈ activeChannels,
        (.read ∈ Channel.handleEventWithGuard (s'.channel p).revents ↔
          ((s.channel p).fd : ℤ) ∈ left.rfds) ∧
        (.write ∈ Channel.handleEventWithGuard (s'.channel p).revents ↔
          ((s.channel p).fd : ℤ) ∈ left.wfds)

/-- A channel has no events but those of poll.h. -/
def Plain (c : Channel) : Prop := ∀ i, 3 ≤ i → c.events.getLsbD i = false

theorem getLsbD_of_lt {m : Events} (hm : m.toNat < 8) {i : ℕ} (hi : 3 ≤ i) :
    m.getLsbD i = false := by
  rw [← BitVec.testBit_toNat]
  exact Nat.testBit_lt_two_pow (hm.trans_le (Nat.pow_le_pow_right two_pos hi))

theorem plain_zero {c : Channel} (h : c.events = 0) : Plain c := by
  intro i hi
  rw [h]
  exact getLsbD_of_lt (by decide) hi

theorem Plain.apply {c : Channel} (h : Plain c) (change : Change) : Plain (change.apply c) := by
  intro i hi
  cases change with
  | enableReading =>
    change (c.events ||| Channel.kReadEvent).getLsbD i = false
    rw [BitVec.getLsbD_or, h i hi, getLsbD_of_lt (by decide) hi, Bool.or_false]
  | disableReading =>
    change (c.events &&& ~~~Channel.kReadEvent).getLsbD i = false
    rw [BitVec.getLsbD_and, h i hi, Bool.false_and]
  | enableWriting =>
    change (c.events ||| Channel.kWriteEvent).getLsbD i = false
    rw [BitVec.getLsbD_or, h i hi, getLsbD_of_lt (by decide) hi, Bool.or_false]
  | disableWriting =>
    change (c.events &&& ~~~Channel.kWriteEvent).getLsbD i = false
    rw [BitVec.getLsbD_and, h i hi, Bool.false_and]
  | disableAll => exact plain_zero (c := c.disableAll) rfl i hi

theorem Plain.has_eq_false {c : Channel} (h : Plain c) {pfd : Pollfd} (hpfd : Encodes pfd c)
    {m : Events} (hm : m &&& 7 = 0) : has (pfd.events.signExtend 32) m = false := by
  refine Bool.eq_false_iff.mpr fun hhas => ?_
  obtain ⟨i, hi, hmi⟩ := has_iff.mp hhas
  have hlarge : 3 ≤ i := by
    by_contra hlt
    have hseven : (7 : Events).getLsbD i = true := by
      interval_cases i <;> rfl
    have hbit : (m &&& 7).getLsbD i = true := by
      rw [BitVec.getLsbD_and, hmi, hseven, Bool.and_self]
    rw [hm] at hbit
    exact Bool.false_ne_true (BitVec.getLsbD_zero.symm.trans hbit)
  have hevents : ∀ j, 3 ≤ j → pfd.events.getLsbD j = false := by
    intro j hj
    rw [hpfd.2, BitVec.getLsbD_setWidth, h j hj, Bool.and_false]
  rw [BitVec.getLsbD_signExtend, BitVec.msb_eq_getLsbD_last] at hi
  split_ifs at hi
  · rw [hevents i hlarge, Bool.and_false] at hi
    cases hi
  · rw [hevents (16 - 1) (by norm_num), Bool.and_false] at hi
    cases hi

theorem Plain.isNoneEvent {c : Channel} (h : Plain c) (hr : c.isReading = false)
    (hw : c.isWriting = false) : c.isNoneEvent = true := by
  refine Channel.isNoneEvent_iff.mpr (BitVec.eq_of_getLsbD_eq fun i _ => ?_)
  change c.events.getLsbD i = (0#32).getLsbD i
  rw [BitVec.getLsbD_zero]
  by_contra hbit
  rw [Bool.not_eq_false] at hbit
  have hsmall : i < 3 := by
    by_contra hlarge
    rw [h i (not_lt.mp hlarge)] at hbit
    cases hbit
  have hmask : (Channel.kReadEvent ||| Channel.kWriteEvent).getLsbD i = true := by
    interval_cases i <;> rfl
  rw [BitVec.getLsbD_or, Bool.or_eq_true] at hmask
  rcases hmask with hread | hwrite
  · exact Bool.false_ne_true (hr.symm.trans (has_iff.mpr ⟨i, hbit, hread⟩))
  · exact Bool.false_ne_true (hw.symm.trans (has_iff.mpr ⟨i, hbit, hwrite⟩))

variable {s s' : SelectPoller P} {ps : List P} {f : P → Pollfd}

theorem step_plain (h : s.Laid) (hplain : ∀ p, Plain (s.channel p)) {e : Event P}
    (hs : machine.step s e = .ok s') (p : P) : Plain (s'.channel p) := by
  obtain ⟨ps, f, h⟩ := h
  have hchanged : ∀ q change, Plain ((s.changed q change).channel p) := by
    intro q change
    by_cases hp : p = q
    · rw [hp, changed_channel_self]
      exact (hplain q).apply change
    · rw [changed_channel_of_ne change hp]
      exact hplain p
  cases e with
  | change q change =>
    rcases h.change_cases hs with ⟨-, -, rfl⟩ | ⟨-, rfl⟩
    · exact hchanged q change
    · exact hchanged q change
  | remove q =>
    obtain ⟨hq, hnone, hneg⟩ := h.negated_of_remove hs
    obtain ⟨last, -, heq⟩ := h.remove_eq hq hnone hneg
    obtain rfl := Except.ok.inj (heq.symm.trans hs)
    exact hplain p

theorem foldl_rfds {l : List Pollfd} {sets : FdSets}
    (h : ∀ pfd ∈ l, has (pfd.events.signExtend 32) (winsock2.POLLIN ||| winsock2.POLLPRI) = false ∧
      has (pfd.events.signExtend 32) winsock2.POLLOUT = false) :
    (l.foldl FdSets.add sets).rfds = sets.rfds ∧ (l.foldl FdSets.add sets).wfds = sets.wfds := by
  induction l generalizing sets with
  | nil => exact ⟨rfl, rfl⟩
  | cons pfd l ih =>
    obtain ⟨hr, hw⟩ := h pfd List.mem_cons_self
    obtain ⟨ihr, ihw⟩ := @ih (sets.add pfd) fun p hp => h p (List.mem_cons_of_mem _ hp)
    rw [List.foldl_cons, ihr, ihw]
    unfold FdSets.add
    rw [hr, hw]
    exact ⟨rfl, rfl⟩

theorem mem_FD_SET_of_mem {fd x : ℤ} {set : fd_set} (h : x ∈ set) : x ∈ FD_SET fd set := by
  unfold FD_SET
  split_ifs
  · exact h
  · exact List.mem_append_left _ h
  · exact h

theorem mem_foldl_efds {l : List Pollfd} {sets : FdSets} {x : ℤ} (h : x ∈ sets.efds) :
    x ∈ (l.foldl FdSets.add sets).efds := by
  induction l generalizing sets with
  | nil => exact h
  | cons pfd l ih => exact ih (mem_FD_SET_of_mem h)

omit [DecidableEq P] in
theorem Layout.fdSets_empty (h : s.Layout ps f) (hplain : ∀ p, Plain (s.channel p)) :
    s.fdSets.rfds = [] ∧ s.fdSets.wfds = [] := by
  refine foldl_rfds fun pfd hpfd => ?_
  rw [h.pollfds] at hpfd
  obtain ⟨p, hp, rfl⟩ := List.mem_map.mp hpfd
  exact ⟨(hplain p).has_eq_false (h.encodes p hp) (by decide),
    (hplain p).has_eq_false (h.encodes p hp) (by decide)⟩

omit [DecidableEq P] in
theorem Layout.first_mem (h : s.Layout ps f) {p : P} (hp : ps.head? = some p) :
    (f p).fd ∈ s.fdSets.efds := by
  unfold fdSets
  rw [h.pollfds, List.eq_cons_of_mem_head? (Option.mem_def.mpr hp), List.map_cons, List.foldl_cons]
  refine mem_foldl_efds ?_
  unfold FdSets.add FdSets.zero FD_SET
  simp [FD_SETSIZE]

/-- A poller that knows a channel asks for something else than the channel is interested in. -/
theorem Layout.not_agrees (h : s.Layout ps f) (hplain : ∀ p, Plain (s.channel p)) {p : P}
    (hp : ps.head? = some p) : ¬ s.Agrees := by
  intro hagrees
  have hmem : p ∈ ps := List.mem_of_mem_head? (Option.mem_def.mpr hp)
  have hreg := h.registered_iff.mpr hmem
  obtain ⟨hr, hw⟩ := h.fdSets_empty hplain
  cases hread : (s.channel p).isReading with
  | true =>
    have hin := (hagrees.reading p hreg).mpr hread
    rw [hr] at hin
    cases hin
  | false =>
    cases hwrite : (s.channel p).isWriting with
    | true =>
      have hin := (hagrees.writing p hreg).mpr hwrite
      rw [hw] at hin
      cases hin
    | false =>
      -- the channel has no interest, but its entry is asked for
      obtain ⟨q, hq, hsome, hfd⟩ := hagrees.only _ (.inr (.inr (h.first_mem hp)))
      rcases (h.encodes p hmem).1 with hself | hneg
      · have hqp : q = p := h.eq_of_fd (by rw [hself] at hfd; exact hfd.symm)
        rw [hqp, (hplain p).isNoneEvent hread hwrite] at hsome
        cases hsome
      · omega

theorem Layout.agrees_nil (h : s.Layout [] f) : s.Agrees := by
  have hnone : ∀ p, ¬ s.Registered p := fun p hp => List.not_mem_nil (h.registered_iff.mp hp)
  have hpollfds : s.pollfds = [] := h.pollfds
  have hsets : s.fdSets = .zero := by
    unfold fdSets
    rw [hpollfds]
    rfl
  refine ⟨fun p hp => absurd hp (hnone p), fun p hp => absurd hp (hnone p), fun fd hfd => ?_,
    fun left hleft => ?_⟩
  · rw [hsets] at hfd
    rcases hfd with hfd | hfd | hfd <;> cases hfd
  · rw [hsets] at hleft
    have hr : left.rfds = [] := List.sublist_nil.mp hleft.rfds
    have hw : left.wfds = [] := List.sublist_nil.mp hleft.wfds
    have he : left.efds = [] := List.sublist_nil.mp hleft.efds
    have htotal : left.total = 0 := by
      unfold FdSets.total
      rw [hr, hw, he]
      rfl
    refine ⟨s, [], ?_, List.nodup_nil, fun p => ?_, fun p hp => absurd hp List.not_mem_nil⟩
    · unfold poll
      rw [htotal, if_neg (lt_irrefl _)]
      rfl
    · exact iff_of_false List.not_mem_nil fun hp => hnone p hp.1

/-- `poll` agrees with the channels exactly while none is registered. -/
theorem poll_agrees {fd : P → ℕ} (hfd : Function.Injective fd) {es : List (Event P)}
    {s : SelectPoller P} (h : machine.Run Machine.Any (create fd) es s) :
    s.Agrees ↔ ∀ p, ¬ s.Registered p := by
  obtain ⟨⟨ps, f, hlayout⟩, hplain⟩ : s.Laid ∧ ∀ p, Plain (s.channel p) := by
    refine h.invariant (fun s => s.Laid ∧ ∀ p, Plain (s.channel p)) ?_ ?_
    · exact ⟨⟨[], fun _ => ⟨0, 0⟩, create_layout hfd _⟩, fun _ => plain_zero rfl⟩
    · rintro t e u ⟨hlaid, hplain⟩ - - hu
      exact ⟨hlaid.step hu, fun p => step_plain hlaid hplain hu p⟩
  constructor
  · intro hagrees p hp
    cases hps : ps with
    | nil =>
      rw [hps] at hlayout
      exact List.not_mem_nil (hlayout.registered_iff.mp hp)
    | cons q rest => exact hlayout.not_agrees hplain (p := q) (by rw [hps]; rfl) hagrees
  · intro hnone
    have hnil : ps = [] := by
      refine List.eq_nil_iff_forall_not_mem.mpr fun p hp => ?_
      exact hnone p (hlayout.registered_iff.mpr hp)
    rw [hnil] at hlayout
    exact hlayout.agrees_nil

/-- A channel that reads is not in the first set. When `select` leaves it in the third one, the
event for errors makes it read. -/
theorem poll_disagrees :
    (∃ es, ∃ s : SelectPoller Unit, machine.Run Machine.Any (create fun _ => 5) es s ∧
      s.Registered () ∧ (s.channel ()).isReading = true ∧ 5 ∉ s.fdSets.rfds ∧ ¬ s.Agrees) ∧
    .read ∈ Channel.handleEventWithGuard ((⟨[], [], [5]⟩ : FdSets).revents 5) := by
  obtain ⟨s, hs, hp⟩ := Machine.exists_run_of_exec machine Machine.Any
    (create fun _ : Unit => 5) [.change () .enableReading]
    (fun s => decide (s.Registered () ∧ (s.channel ()).isReading = true ∧ 5 ∉ s.fdSets.rfds ∧
      (s.channel ()).fd = 5)) (by decide +kernel)
  obtain ⟨hreg, hread, hout, hfd⟩ := of_decide_eq_true hp
  refine ⟨⟨_, s, hs, hreg, hread, hout, fun hagrees => hout ?_⟩, by decide⟩
  have hin := (hagrees.reading () hreg).mpr hread
  rwa [hfd] at hin

/-- A poller without channels, and one whose only channel has been removed. -/
theorem poll_agrees_empty : ∃ s : SelectPoller Unit, machine.Run Machine.Any (create fun _ => 5)
    [.change () .enableReading, .change () .disableAll, .remove ()] s ∧ s.Agrees := by
  obtain ⟨s, hs, hp⟩ := Machine.exists_run_of_exec machine Machine.Any
    (create fun _ : Unit => 5) [.change () .enableReading, .change () .disableAll, .remove ()]
    (fun s => decide (¬ s.Registered ())) (by decide +kernel)
  refine ⟨s, hs, (poll_agrees (fun _ _ _ => rfl) hs).mpr fun p => ?_⟩
  exact of_decide_eq_true hp

section Steps
variable {sets : FdSets} {pfd : Pollfd} {pollfds : List Pollfd} {numEvents : ℤ} {active : List P}

theorem fill_end (h : ¬ 0 < numEvents) :
    fill sets pollfds numEvents s active = .ok (s, active) := by
  cases pollfds with
  | nil => rfl
  | cons pfd pollfds => rw [fill, if_neg h, pure_eq_ok]

theorem fill_ready {p : P} (hpos : 0 < numEvents) (hready : sets.Ready pfd.fd)
    (hp : s.channels pfd.fd = some p) (hfd : (s.channel p).fd = pfd.fd) :
    fill sets (pfd :: pollfds) numEvents s active = fill sets pollfds (numEvents - 1)
      { s with
        channel := Function.update s.channel p { s.channel p with revents := sets.revents pfd.fd } }
      (active ++ [p]) := by
  rw [fill, if_pos hpos, if_pos (FdSets.revents_pos.mpr hready), hp]
  exact require_bind hfd _

theorem fill_skip (hpos : 0 < numEvents) (hready : ¬ sets.Ready pfd.fd) :
    fill sets (pfd :: pollfds) numEvents s active = fill sets pollfds numEvents s active := by
  rw [fill, if_pos hpos, if_neg fun h => hready (FdSets.revents_pos.mp h)]

end Steps

/-- The scan over the entries of `qs` when each ready entry is the descriptor of its channel. The
counter does not end it before the last ready entry. -/
theorem fill_scan {fd : P → ℕ} {sets : FdSets} {qs : List P} {s : SelectPoller P} {numEvents : ℤ}
    (active : List P) (hfd : ∀ p, (s.channel p).fd = fd p)
    (hreg : ∀ p ∈ qs, s.channels (fd p) = some p) (hnodup : qs.Nodup)
    (hentry : ∀ p ∈ qs, (sets.Ready (f p).fd ↔ sets.Ready (fd p)) ∧
      (sets.Ready (fd p) → (f p).fd = fd p))
    (hcount : (qs.filter fun p => sets.Ready (fd p)).length ≤ numEvents) :
    ∃ s', fill sets (qs.map f) numEvents s active =
        .ok (s', active ++ qs.filter fun p => sets.Ready (fd p)) ∧
      ∀ p, (s'.channel p).revents = if p ∈ qs ∧ sets.Ready (fd p) then sets.revents (fd p)
        else (s.channel p).revents := by
  induction qs generalizing s numEvents active with
  | nil => exact ⟨s, by simp [fill], fun p => by simp⟩
  | cons q qs ih =>
    obtain ⟨hiff, hself⟩ := hentry q List.mem_cons_self
    obtain ⟨hq, hnodup⟩ := List.nodup_cons.mp hnodup
    have hreg' : ∀ p ∈ qs, s.channels (fd p) = some p :=
      fun p hp => hreg p (List.mem_cons_of_mem _ hp)
    have hentry' := fun p (hp : p ∈ qs) => hentry p (List.mem_cons_of_mem _ hp)
    rw [List.map_cons]
    by_cases hready : sets.Ready (fd q)
    · rw [List.filter_cons_of_pos (p := fun p => decide (sets.Ready (fd p)))
        (decide_eq_true hready)] at hcount ⊢
      have hcount' : ((qs.filter fun p => sets.Ready (fd p)).length : ℤ) ≤ numEvents - 1 := by
        rw [List.length_cons] at hcount
        push_cast at hcount
        omega
      have hlookup : s.channels (f q).fd = some q := by
        rw [hself hready]
        exact hreg q List.mem_cons_self
      let channel := Function.update s.channel q
        { s.channel q with revents := sets.revents (f q).fd }
      have hfd₁ : ∀ p, (channel p).fd = fd p := by
        intro p
        unfold channel
        by_cases hp : p = q
        · rw [hp, Function.update_self]
          exact hfd q
        · rw [Function.update_of_ne hp]
          exact hfd p
      obtain ⟨s', hs', hrev⟩ :=
        ih (s := { s with channel }) (active ++ [q]) hfd₁ hreg' hnodup hentry' hcount'
      refine ⟨s', ?_, fun p => ?_⟩
      · rw [fill_ready (by omega) (hiff.mpr hready) hlookup (by rw [hfd q, hself hready]), hs',
          List.append_assoc]
        rfl
      · rw [hrev p]
        by_cases hp : p = q
        · rw [hp, if_neg fun hmem => hq hmem.1, if_pos ⟨List.mem_cons_self, hready⟩]
          change (Function.update s.channel q _ q).revents = _
          rw [Function.update_self, hself hready]
        · change (if _ then _ else (Function.update s.channel q _ p).revents) = _
          rw [Function.update_of_ne hp]
          simp only [List.mem_cons, hp, false_or]
    · rw [List.filter_cons_of_neg (p := fun p => decide (sets.Ready (fd p)))
        (by rwa [decide_eq_true_iff])] at hcount ⊢
      by_cases hpos : 0 < numEvents
      · obtain ⟨s', hs', hrev⟩ := ih active hfd hreg' hnodup hentry' hcount
        refine ⟨s', ?_, fun p => ?_⟩
        · rw [fill_skip hpos (mt hiff.mp hready), hs']
        · rw [hrev p]
          by_cases hp : p = q
          · rw [hp, if_neg fun h => hready h.2, if_neg fun h => hready h.2]
          · simp only [List.mem_cons, hp, false_or]
      · have hnil : (qs.filter fun p => sets.Ready (fd p)) = [] :=
          List.eq_nil_of_length_eq_zero (by omega)
        refine ⟨s, ?_, fun p => ?_⟩
        · rw [fill_end hpos, hnil, List.append_nil]
        · rw [if_neg]
          rintro ⟨hmem, hp⟩
          rcases List.mem_cons.mp hmem with rfl | hmem
          · exact hready hp
          · exact List.not_mem_nil (hnil ▸ List.mem_filter.mpr ⟨hmem, decide_eq_true hp⟩)

omit [DecidableEq P] in
theorem ready_length_le (hdistinct : ∀ p q, (s.channel p).fd = (s.channel q).fd → p = q)
    (hnodup : ps.Nodup) (sets : FdSets) :
    ((ps.filter fun p => sets.Ready (s.channel p).fd).length : ℤ) ≤ sets.total := by
  have hinj : Function.Injective fun p => ((s.channel p).fd : ℤ) :=
    fun p q hpq => hdistinct p q (Int.ofNat_inj.mp hpq)
  have hmap : ((ps.filter fun p => sets.Ready (s.channel p).fd).map
      fun p => ((s.channel p).fd : ℤ)).Nodup := (hnodup.filter _).map hinj
  have hsub : ((ps.filter fun p => sets.Ready (s.channel p).fd).map
      fun p => ((s.channel p).fd : ℤ)) ⊆ sets.rfds ++ sets.wfds ++ sets.efds := by
    intro x hx
    obtain ⟨p, hp, rfl⟩ := List.mem_map.mp hx
    have hr : sets.Ready (s.channel p).fd := of_decide_eq_true (List.mem_filter.mp hp).2
    rw [List.mem_append, List.mem_append, or_assoc]
    exact hr
  have hle := (hmap.subperm hsub).length_le
  rw [List.length_map, List.length_append, List.length_append] at hle
  unfold FdSets.total
  exact_mod_cast hle

/-- When the sets hold descriptors of registered channels with interest only, every channel with a
ready one is found once, with the events for it. -/
theorem fillActiveChannels_complete {fd : P → ℕ} (hfd : Function.Injective fd)
    {es : List (Event P)} {s : SelectPoller P} (h : machine.Run Proper (create fd) es s)
    {sets : FdSets} (hsets : ∀ x, sets.Ready x →
      ∃ p, s.Registered p ∧ (s.channel p).isNoneEvent = false ∧ x = (s.channel p).fd) :
    ∃ s' activeChannels,
      s.fillActiveChannels sets sets.total = .ok (s', activeChannels) ∧ activeChannels.Nodup ∧
      (∀ p, p ∈ activeChannels ↔ s.Registered p ∧ sets.Ready (s.channel p).fd) ∧
      ∀ p ∈ activeChannels, (s'.channel p).revents = sets.revents (s.channel p).fd := by
  obtain ⟨ps, f, hlayout, hneg⟩ := neat_of_run hfd h
  have hself : ∀ p ∈ ps, (s.channel p).isNoneEvent = false → (f p).fd = (s.channel p).fd := by
    intro p hp hsome
    rw [hneg p hp]
    unfold entry
    rw [if_neg (by rw [hsome]; nofun)]
  have hready : ∀ p ∈ ps, sets.Ready (s.channel p).fd → (f p).fd = (s.channel p).fd := by
    intro p hp hr
    obtain ⟨q, -, hsome, heq⟩ := hsets _ hr
    obtain rfl := hlayout.eq_of_fd heq
    exact hself p hp hsome
  have hentry : ∀ p ∈ ps, (sets.Ready (f p).fd ↔ sets.Ready (s.channel p).fd) ∧
      (sets.Ready (s.channel p).fd → (f p).fd = (s.channel p).fd) := by
    intro p hp
    refine ⟨⟨fun hr => ?_, fun hr => by rwa [hready p hp hr]⟩, hready p hp⟩
    rcases (hlayout.encodes p hp).1 with heq | heq
    · rwa [heq] at hr
    · obtain ⟨q, -, -, hq⟩ := hsets _ hr
      omega
  obtain ⟨s', hs', hrev⟩ := fill_scan [] (fun _ => rfl)
    (fun p hp => hlayout.registered_iff.mpr hp) hlayout.numbered.nodup hentry
    (ready_length_le hlayout.distinct hlayout.numbered.nodup sets)
  refine ⟨s', ps.filter fun p => sets.Ready (s.channel p).fd, ?_, hlayout.numbered.nodup.filter _,
    fun p => ?_, fun p hp => ?_⟩
  · unfold fillActiveChannels
    rw [hlayout.pollfds, hs', List.nil_append]
  · rw [List.mem_filter, decide_eq_true_iff, hlayout.registered_iff]
  · obtain ⟨hmem, hr⟩ := List.mem_filter.mp hp
    rw [hrev p, if_pos ⟨hmem, of_decide_eq_true hr⟩]

end SelectPoller
end MuduoWindows.Net
