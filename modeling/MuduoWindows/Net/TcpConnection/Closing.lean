import MuduoWindows.Library.Trace
import MuduoWindows.Net.TcpConnection

/-! # What a closed connection still does

`handleClose` and `connectDestroyed` set `kDisconnected` and take the interest away. Most functions
look at the state first; `startReadInLoop`, `stopReadInLoop` and `handleRead` do not, and
`disableAll` of a channel without interest registers it.
-/

namespace MuduoWindows.Net
open Library

/-- What a connection may show behind `setState(kDisconnected)`. -/
def Effect.quiet : Effect → Prop
  | .setState _ | .messageCallback => False
  | .epollCtl op events => op ≠ .add ∧ events = 0
  | .connectionCallback _ | .closeCallback | .shutdownWrite => True

/-- Neither a mark of the close nor one of its callbacks. -/
def Effect.calm (e : Effect) : Prop :=
  e ≠ .setState .kDisconnected ∧ e ≠ .connectionCallback false ∧ e ≠ .closeCallback

/-- Nothing happens behind the close but its own callbacks, and these at most once. -/
structure StaysClosed (trace : List Effect) : Prop where
  quiet : ∀ e ∈ after (.setState .kDisconnected) trace, e.quiet
  down : trace.count (.connectionCallback false) ≤ 1
  close : trace.count .closeCallback ≤ 1

namespace TcpConnection

def Up (c : TcpConnection) : Prop := c.state = .kConnected ∨ c.state = .kDisconnecting

instance (c : TcpConnection) : Decidable c.Up := inferInstanceAs (Decidable (_ ∨ _))

/-- A connection that closes has an interest; a closed one is not told to start or stop reading,
the latter unless it had stopped before, and reads nothing for a message callback. -/
def Careful (c : TcpConnection) : Event → Prop
  | .call .startRead => c.state ≠ .kDisconnected
  | .call .stopRead => c.state = .kDisconnected → c.reading = false
  | .connectDestroyed => c.state = .kConnected → c.channel.isNoneEvent = false
  | .resume received _ =>
      (c.todo.head? = some (.channel .close) → c.Up → c.channel.isNoneEvent = false) ∧
      (c.todo.head? = some (.channel .read) →
        (received = [] → c.Up → c.channel.isNoneEvent = false) ∧
        (received ≠ [] → c.callbacks.message = true → c.state ≠ .kDisconnected))
  | .runFunctor => c.pendingFunctors.head? = some .forceCloseInLoop → c.Up →
      c.channel.isNoneEvent = false
  | _ => True

/-- The channel is registered exactly with an interest, reads when the connection reads, and has
no interest once the connection is closed. -/
structure Interest (c : TcpConnection) : Prop where
  registered : c.Registered
  added : c.channel.index = .kAdded ↔ c.channel.events ≠ 0
  reading : c.Up → c.reading = true → c.channel.isReading = true
  closed : c.state = .kDisconnected → c.channel.events = 0

/-- The trace so far. -/
structure Quieted (c : TcpConnection) : Prop where
  up : c.state ≠ .kDisconnected → .setState .kDisconnected ∉ c.trace ∧
    .connectionCallback false ∉ c.trace ∧ .closeCallback ∉ c.trace ∧ .closeCallback ∉ c.todo
  down : c.state = .kDisconnected → .setState .kDisconnected ∈ c.trace ∧
    (∀ e ∈ after (.setState .kDisconnected) c.trace, e.quiet) ∧
    c.trace.count (.connectionCallback false) ≤ 1 ∧
    c.trace.count .closeCallback + c.todo.count .closeCallback ≤ 1

structure Settled (c : TcpConnection) : Prop where
  interest : c.Interest
  quieted : c.Quieted

/-- The step shows only calm effects, quiet ones once closed, and closes nothing. -/
structure Calm (c c' : TcpConnection) : Prop where
  effects : ∃ u, c'.trace = c.trace ++ u ∧
    ∀ e ∈ u, e.calm ∧ (c.state = .kDisconnected → e.quiet)
  state : c'.state = .kDisconnected ↔ c.state = .kDisconnected
  todo : c'.todo.count .closeCallback ≤ c.todo.count .closeCallback

/-- A calm step that leaves the interest alone. -/
structure Still (c c' : TcpConnection) : Prop extends Calm c c' where
  events : c'.channel.events = c.channel.events
  index : c'.channel.index = c.channel.index
  reading : c'.reading = c.reading
  registered : c.Registered → c'.Registered
  up : c'.Up → c.Up

variable {c c' c'' : TcpConnection}

theorem Quieted.staysClosed (h : c.Quieted) : StaysClosed c.trace := by
  by_cases hs : c.state = .kDisconnected
  · obtain ⟨-, hquiet, hdown, hclose⟩ := h.down hs
    exact ⟨hquiet, hdown, by omega⟩
  · obtain ⟨hmark, hdown, hclose, -⟩ := h.up hs
    refine ⟨?_, ?_, ?_⟩
    · rw [after_eq_nil hmark]
      exact fun e he => absurd he List.not_mem_nil
    · rw [List.count_eq_zero_of_not_mem hdown]
      exact Nat.zero_le _
    · rw [List.count_eq_zero_of_not_mem hclose]
      exact Nat.zero_le _

theorem Calm.refl : Calm c c := ⟨⟨[], by simp, by simp⟩, Iff.rfl, le_rfl⟩

theorem Calm.trans (h : Calm c c') (k : Calm c' c'') : Calm c c'' := by
  obtain ⟨u, hu, hcalm⟩ := h.effects
  obtain ⟨v, hv, kcalm⟩ := k.effects
  refine ⟨⟨u ++ v, by rw [hv, hu, List.append_assoc], ?_⟩, k.state.trans h.state,
    k.todo.trans h.todo⟩
  intro e he
  rcases List.mem_append.mp he with he | he
  · exact hcalm e he
  · exact ⟨(kcalm e he).1, fun hs => (kcalm e he).2 (h.state.mpr hs)⟩

theorem Still.refl : Still c c := ⟨.refl, rfl, rfl, rfl, id, id⟩

theorem Still.trans (h : Still c c') (k : Still c' c'') : Still c c'' :=
  ⟨h.toCalm.trans k.toCalm, k.events.trans h.events, k.index.trans h.index,
    k.reading.trans h.reading, k.registered ∘ h.registered, h.up ∘ k.up⟩

theorem Still.of_eq (htrace : c'.trace = c.trace) (hstate : c'.state = c.state)
    (htodo : c'.todo.count .closeCallback ≤ c.todo.count .closeCallback)
    (hchannel : c'.channel = c.channel) (hchannels : c'.channels = c.channels)
    (hreading : c'.reading = c.reading) : Still c c' := by
  refine ⟨⟨⟨[], by rw [htrace, List.append_nil], by simp⟩, by rw [hstate], htodo⟩,
    by rw [hchannel], by rw [hchannel], hreading, ?_, ?_⟩
  · intro h
    unfold Registered
    rw [hchannel, hchannels]
    exact h
  · intro h
    unfold Up at h
    rw [hstate] at h
    exact h

theorem Quieted.calm (h : c.Quieted) (k : Calm c c') : c'.Quieted := by
  obtain ⟨u, hu, hcalm⟩ := k.effects
  have hmark : .setState .kDisconnected ∉ u := fun he => (hcalm _ he).1.1 rfl
  have hdown : .connectionCallback false ∉ u := fun he => (hcalm _ he).1.2.1 rfl
  have hclose : .closeCallback ∉ u := fun he => (hcalm _ he).1.2.2 rfl
  constructor
  · intro hs
    obtain ⟨h1, h2, h3, h4⟩ := h.up (mt k.state.mpr hs)
    rw [hu]
    refine ⟨by simp [h1, hmark], by simp [h2, hdown], by simp [h3, hclose], ?_⟩
    have htodo := k.todo
    rw [List.count_eq_zero_of_not_mem h4] at htodo
    exact List.count_eq_zero.mp (Nat.le_zero.mp htodo)
  · intro hs
    have hold := k.state.mp hs
    obtain ⟨h1, h2, h3, h4⟩ := h.down hold
    rw [hu, List.count_append, List.count_append, List.count_eq_zero_of_not_mem hdown,
      List.count_eq_zero_of_not_mem hclose, after_append_of_mem h1]
    have htodo := k.todo
    refine ⟨List.mem_append_left _ h1, ?_, by omega, by omega⟩
    intro e he
    rcases List.mem_append.mp he with he | he
    · exact h2 e he
    · exact (hcalm e he).2 hold

theorem Interest.still (h : c.Interest) (k : Still c c') : c'.Interest := by
  refine ⟨k.registered h.registered, by rw [k.index, k.events]; exact h.added, ?_, ?_⟩
  · intro hup hread
    have hisReading := h.reading (k.up hup) (by rw [← k.reading]; exact hread)
    rw [Channel.isReading_iff] at hisReading ⊢
    rw [k.events]
    exact hisReading
  · intro hs
    rw [k.events]
    exact h.closed (k.state.mp hs)

theorem Settled.still (h : c.Settled) (k : Still c c') : c'.Settled :=
  ⟨h.interest.still k, h.quieted.calm k.toCalm⟩

/-- The interest of an open connection may change, to nothing only from something. -/
theorem Quieted.updated (h : c.Quieted) (hs : c.state ≠ .kDisconnected)
    (hadded : c.channel.index = .kAdded ↔ c.channel.events ≠ 0)
    {change : Channel → Channel} (hchange : ChangesInterest change)
    (hevents : c.channel.events ≠ 0 ∨ (change c.channel).events ≠ 0)
    (hread : c.Up → c.reading = true → (change c.channel).isReading = true) :
    (c.updated change).Settled := by
  refine ⟨⟨updated_registered _ _, ?_, hread, fun hd => absurd hd hs⟩, h.calm ?_⟩
  · change EPollPoller.indexOf (change c.channel) = .kAdded ↔ (change c.channel).events ≠ 0
    unfold EPollPoller.indexOf
    simp only [(hchange _).2, Channel.isNoneEvent_iff]
    by_cases h0 : (change c.channel).events = 0
    · have hindex := hadded.mpr (hevents.resolve_right (not_not.mpr h0))
      rw [if_pos ⟨hindex, h0⟩]
      simp [h0]
    · rw [if_neg fun hc => h0 hc.2]
      exact iff_of_true rfl h0
  · refine ⟨⟨_, rfl, ?_⟩, Iff.rfl, le_rfl⟩
    intro e he
    rw [List.mem_singleton.mp he]
    exact ⟨⟨by simp, by simp, by simp⟩, fun hd => absurd hd hs⟩

theorem Quieted.close (h : c.Quieted) (hs : c.state ≠ .kDisconnected) (rest : List Effect)
    (htrace : c'.trace = c.trace ++ .setState .kDisconnected :: rest)
    (hstate : c'.state = .kDisconnected) (hquiet : ∀ e ∈ rest, e.quiet)
    (hdown : rest.count (.connectionCallback false) ≤ 1) (hclose : .closeCallback ∉ rest)
    (htodo : c'.todo.count .closeCallback ≤ 1) : c'.Quieted := by
  obtain ⟨h1, h2, h3, -⟩ := h.up hs
  refine ⟨fun hd => absurd hstate hd, fun _ => ?_⟩
  have hdown' := List.count_eq_zero_of_not_mem h2
  have hclose' := List.count_eq_zero_of_not_mem h3
  rw [htrace, after_append_of_not_mem h1, after, if_pos rfl]
  refine ⟨by simp, hquiet, ?_, ?_⟩
  · rw [List.count_append, hdown', List.count_cons_of_ne (by simp)]
    omega
  · rw [List.count_append, hclose', List.count_cons_of_ne (by simp),
      List.count_eq_zero_of_not_mem hclose]
    omega

theorem Interest.ctlOf_disableAll (h : c.Interest) (hne : c.channel.isNoneEvent = false) :
    EPollPoller.ctlOf c.channel.disableAll = .del ∧
      EPollPoller.indexOf c.channel.disableAll = .kDeleted := by
  have hevents : c.channel.events ≠ 0 := by
    intro h0
    rw [Channel.isNoneEvent_iff.mpr h0] at hne
    cases hne
  have hadded : c.channel.disableAll.index = .kAdded := h.added.mpr hevents
  have hnone : c.channel.disableAll.isNoneEvent = true := Channel.isNoneEvent_iff.mpr rfl
  unfold EPollPoller.ctlOf EPollPoller.indexOf
  simp [hadded, hnone]

theorem Settled.goDown (h : c.Settled) (hs : c.state ≠ .kDisconnected)
    (hne : c.channel.isNoneEvent = false) {todo : List Task}
    (htodo : todo.count .closeCallback ≤ 1) :
    ({ (c.setState .kDisconnected).updated Channel.disableAll with
      todo := todo } : TcpConnection).connectionCallback.Settled := by
  obtain ⟨hctl, hindex⟩ := h.interest.ctlOf_disableAll hne
  constructor
  · refine ⟨updated_registered _ _, ?_, ?_, fun _ => rfl⟩
    · change EPollPoller.indexOf c.channel.disableAll = .kAdded ↔ (0 : Events) ≠ 0
      simp [hindex]
    · rintro (hu | hu) <;> cases hu
  · refine h.quieted.close hs (.epollCtl (EPollPoller.ctlOf c.channel.disableAll) 0 ::
      if c.callbacks.connection then [.connectionCallback false] else []) ?_ rfl ?_ ?_ ?_ ?_
    · change c.trace ++ [_] ++ [_] ++ _ = _
      simp only [List.append_assoc, List.cons_append, List.nil_append]
      rfl
    · intro e he
      rcases List.mem_cons.mp he with rfl | he
      · exact ⟨by rw [hctl]; simp, rfl⟩
      · split_ifs at he
        · rw [List.mem_singleton.mp he]
          trivial
        · exact absurd he List.not_mem_nil
    · split_ifs <;> simp
    · split_ifs <;> simp
    · change (if c.callbacks.connection then Task.user :: todo else todo).count _ ≤ 1
      split_ifs
      · rw [List.count_cons_of_ne (by simp)]
        exact htodo
      · exact htodo

theorem Settled.handleClose (h : c.Settled) (hne : c.Up → c.channel.isNoneEvent = false)
    (hc : c.handleClose = .ok c') : c'.Settled := by
  obtain ⟨hup, rfl⟩ := handleClose_ok h.interest.registered hc
  have hs : c.state ≠ .kDisconnected := by rcases hup with hs | hs <;> simp [hs]
  refine h.goDown hs (hne hup) ?_
  have hnone := List.count_eq_zero_of_not_mem (h.quieted.up hs).2.2.2
  change (if c.callbacks.close then Task.closeCallback :: c.todo else c.todo).count _ ≤ 1
  split_ifs
  · rw [List.count_cons_self, hnone]
  · rw [hnone]
    exact Nat.zero_le _

theorem Settled.connectDestroyed (h : c.Settled)
    (hne : c.state = .kConnected → c.channel.isNoneEvent = false)
    (hc : c.connectDestroyed = .ok c') : c'.Settled := by
  rw [connectDestroyed_eq h.interest.registered] at hc
  obtain rfl := Except.ok.inj hc
  split_ifs with hs
  · have hmark : Settled { c with destroyed := true } :=
      h.still (.of_eq rfl rfl le_rfl rfl rfl rfl)
    have hup : c.state ≠ .kDisconnected := by simp [hs]
    have hnone := List.count_eq_zero_of_not_mem (h.quieted.up hup).2.2.2
    refine hmark.goDown hup (hne hs) ?_
    rw [List.count_cons_of_ne (by simp)]
    exact hnone.le.trans (Nat.zero_le _)
  · exact h.still (.of_eq rfl rfl (by rw [List.count_cons_of_ne (by simp)]) rfl rfl rfl)

theorem Settled.remove (h : c.Settled) (hc : c.remove = .ok c') : c'.Settled := by
  obtain ⟨h0, rfl⟩ := remove_ok hc
  have hindex : c.channel.index ≠ .kAdded := fun hi => h.interest.added.mp hi h0
  have htrace : c.removed.trace = c.trace := by
    unfold removed
    simp [hindex]
  refine ⟨⟨?_, ?_, ?_, fun _ => h0⟩, h.quieted.calm ⟨⟨[], by simp [htrace], by simp⟩, Iff.rfl,
    le_rfl⟩⟩
  · unfold Registered EPollPoller.Registered removed
    rw [if_pos rfl]
    exact Function.update_self _ _ _
  · change Index.kNew = .kAdded ↔ c.channel.events ≠ 0
    simp [h0]
  · exact fun hup hread => absurd h0 (Channel.events_ne_zero (.inl (h.interest.reading hup hread)))

theorem Settled.connectEstablished (h : c.Settled) (hs : c.state = .kConnecting)
    (hc : c.connectEstablished = .ok c') : c'.Settled := by
  obtain rfl := Except.ok.inj ((connectEstablished_eq h.interest.registered hs).symm.trans hc)
  have hopen : (c.setState .kConnected).Quieted := by
    refine h.quieted.calm ⟨⟨_, rfl, ?_⟩, by simp [setState, emit, hs], le_rfl⟩
    intro e he
    rw [List.mem_singleton.mp he]
    exact ⟨⟨by simp, by simp, by simp⟩, fun hd => by rw [hs] at hd; cases hd⟩
  have hread := hopen.updated (by simp [setState, emit]) h.interest.added changes_enableReading
    (.inr (Channel.events_ne_zero (.inl Channel.isReading_enableReading)))
    fun _ _ => Channel.isReading_enableReading
  refine hread.still ⟨⟨⟨_, rfl, ?_⟩, Iff.rfl, ?_⟩, rfl, rfl, rfl, id, id⟩
  · intro e he
    split_ifs at he
    · rw [List.mem_singleton.mp he]
      exact ⟨⟨by simp, by simp [updated, setState, emit], by simp⟩, fun _ => trivial⟩
    · exact absurd he List.not_mem_nil
  · change (if c.callbacks.connection then Task.user :: c.todo else c.todo).count _ ≤ _
    split_ifs
    · rw [List.count_cons_of_ne (by simp)]
      exact le_rfl
    · exact le_rfl

theorem setState_still (hs : c.Up) {s : StateE} (hne : s ≠ .kDisconnected) :
    Still c (c.setState s) := by
  have hup : c.state ≠ .kDisconnected := by rcases hs with hs | hs <;> simp [hs]
  refine ⟨⟨⟨_, rfl, ?_⟩, iff_of_false hne hup, le_rfl⟩, rfl, rfl, rfl, id, fun _ => hs⟩
  intro e he
  rw [List.mem_singleton.mp he]
  exact ⟨⟨by simp [hne], by simp, by simp⟩, fun hd => absurd hd hup⟩

theorem shutdownInLoop_still : Still c c.shutdownInLoop := by
  refine ⟨⟨⟨_, rfl, ?_⟩, Iff.rfl, le_rfl⟩, rfl, rfl, rfl, id, id⟩
  intro e he
  split_ifs at he
  · exact absurd he List.not_mem_nil
  · rw [List.mem_singleton.mp he]
    exact ⟨⟨by simp, by simp, by simp⟩, fun _ => trivial⟩

theorem shutdown_still : Still c c.shutdown := by
  unfold shutdown
  split_ifs with hs
  · exact (setState_still (.inl hs) (by simp)).trans shutdownInLoop_still
  · exact .refl

theorem forceClose_still : Still c c.forceClose := by
  unfold forceClose
  split_ifs with hs
  · exact (setState_still hs (by simp)).trans (.of_eq rfl rfl le_rfl rfl rfl rfl)
  · exact .refl

theorem forceCloseWithDelay_still : Still c c.forceCloseWithDelay := by
  unfold forceCloseWithDelay
  split_ifs with hs
  · exact (setState_still hs (by simp)).trans (.of_eq rfl rfl le_rfl rfl rfl rfl)
  · exact .refl

theorem Settled.startReadInLoop (h : c.Settled) (hs : c.state ≠ .kDisconnected)
    (hc : c.startReadInLoop = .ok c') : c'.Settled := by
  rw [startReadInLoop_eq h.interest.registered] at hc
  obtain rfl := Except.ok.inj hc
  split_ifs
  · have hread := h.quieted.updated hs h.interest.added changes_enableReading
      (.inr (Channel.events_ne_zero (.inl Channel.isReading_enableReading)))
      fun _ _ => Channel.isReading_enableReading
    exact ⟨⟨hread.interest.registered, hread.interest.added,
      fun _ _ => Channel.isReading_enableReading, hread.interest.closed⟩,
      hread.quieted.up, hread.quieted.down⟩
  · exact h

theorem Settled.stopReadInLoop (h : c.Settled)
    (hs : c.state = .kDisconnected → c.reading = false)
    (hstart : c.state ≠ .kConnecting) (hc : c.stopReadInLoop = .ok c') : c'.Settled := by
  rw [stopReadInLoop_eq h.interest.registered] at hc
  obtain rfl := Except.ok.inj hc
  split_ifs with hread
  · have hopen : c.state ≠ .kDisconnected := by
      intro hd
      rcases hread with hread | hread
      · rw [hs hd] at hread
        cases hread
      · exact Channel.events_ne_zero (.inl hread) (h.interest.closed hd)
    have hup : c.Up := by
      unfold Up
      cases hstate : c.state <;> simp_all
    have hisReading : c.channel.isReading = true :=
      hread.elim (h.interest.reading hup) id
    have hstopped : Quieted { c with reading := false } := ⟨h.quieted.up, h.quieted.down⟩
    exact hstopped.updated hopen h.interest.added changes_disableReading
      (.inl (Channel.events_ne_zero (.inl hisReading)))
      fun _ hf => absurd hf Bool.false_ne_true
  · exact h

theorem Settled.handleRead (h : c.Settled) {received : List UInt8}
    (hnone : received = [] → c.Up → c.channel.isNoneEvent = false)
    (hsome : received ≠ [] → c.callbacks.message = true → c.state ≠ .kDisconnected)
    (hc : c.handleRead received = .ok c') : c'.Settled := by
  obtain ⟨b, -, hcases⟩ := handleRead_cases hc
  have hstill : Still c { c with inputBuffer := b } := .of_eq rfl rfl le_rfl rfl rfl rfl
  rcases hcases with ⟨hne, hmessage, rfl⟩ | ⟨-, -, rfl⟩ | ⟨hempty, hc⟩
  · refine h.still ⟨⟨⟨_, rfl, ?_⟩, Iff.rfl, ?_⟩, rfl, rfl, rfl, id, id⟩
    · intro e he
      rw [List.mem_singleton.mp he]
      exact ⟨⟨by simp, by simp, by simp⟩, fun hd => absurd hd (hsome hne hmessage)⟩
    · change (Task.user :: c.todo).count _ ≤ _
      rw [List.count_cons_of_ne (by simp)]
  · exact h.still hstill
  · exact (h.still hstill).handleClose (hnone hempty) hc

theorem Wrote.still (h : Wrote c c') : Still c c' := by
  obtain ⟨_, _, _, _, rfl⟩ := h
  exact .of_eq rfl rfl le_rfl rfl rfl rfl

theorem Settled.sendInLoop (h : c.Settled) {data : List UInt8} {sent : ℤ} {errno : Errno}
    (hc : c.sendInLoop data sent errno = .ok c') : c'.Settled := by
  rcases sendInLoop_cases h.interest.registered hc with hwrote | ⟨hs, m, hwrote, rfl⟩
  · exact h.still hwrote.still
  · have hm := h.still hwrote.still
    refine hm.quieted.updated (mt hwrote.still.state.mp hs) hm.interest.added changes_enableWriting
      (.inr (Channel.events_ne_zero (.inr Channel.isWriting_enableWriting))) ?_
    intro hup hread
    rw [Channel.isReading_enableWriting]
    exact hm.interest.reading hup hread

theorem Settled.outputDone (h : c.Settled) (hw : c.channel.isWriting = true)
    (hc : c.outputDone = .ok c') : c'.Settled := by
  have hevents := Channel.events_ne_zero (.inr hw)
  rw [outputDone_eq h.interest.registered] at hc
  obtain rfl := Except.ok.inj hc
  have hdone := h.quieted.updated (fun hd => hevents (h.interest.closed hd)) h.interest.added
    changes_disableWriting (.inl hevents) fun hup hread => by
      rw [Channel.isReading_disableWriting]
      exact h.interest.reading hup hread
  have hqueued : c.drained.Settled := hdone.still (.of_eq rfl rfl le_rfl rfl rfl rfl)
  split_ifs
  · exact hqueued.still shutdownInLoop_still
  · exact hqueued

theorem Settled.handleWrite (h : c.Settled) {sent : ℤ} (hc : c.handleWrite sent = .ok c') :
    c'.Settled := by
  rcases handleWrite_cases hc with hwrote | ⟨hw, m, hwrote, hc⟩
  · exact h.still hwrote.still
  · refine (h.still hwrote.still).outputDone ?_ hc
    obtain ⟨_, _, _, _, rfl⟩ := hwrote
    exact hw

theorem create_settled (fd : ℕ) (callbacks : Callbacks) (highWaterMark : ℕ) :
    (create fd callbacks highWaterMark).Settled := by
  refine ⟨⟨rfl, by simp [create, Channel.create], ?_, fun _ => rfl⟩, ⟨?_, ?_⟩⟩
  · rintro (hup | hup) <;> cases hup
  · intro _
    simp [create]
  · intro hd
    cases hd

theorem Settled.call (h : c.Settled) {call : Call} (hs : c.state ≠ .kConnecting)
    (hp : c.Careful (.call call)) (hc : c.call call = .ok c') : c'.Settled := by
  cases call with
  | send data sent errno =>
    change c.send data sent errno = _ at hc
    unfold send at hc
    split_ifs at hc
    · exact h.sendInLoop hc
    · exact Except.ok.inj hc ▸ h
  | sendInLoop data sent errno => exact h.sendInLoop hc
  | shutdown => exact Except.ok.inj hc ▸ h.still shutdown_still
  | forceClose => exact Except.ok.inj hc ▸ h.still forceClose_still
  | forceCloseWithDelay => exact Except.ok.inj hc ▸ h.still forceCloseWithDelay_still
  | startRead => exact h.startReadInLoop hp hc
  | stopRead => exact h.stopReadInLoop hp hs hc
  | retrieve len =>
    obtain ⟨b, -, hc⟩ := bind_eq_ok.mp hc
    exact Except.ok.inj hc ▸ h.still (.of_eq rfl rfl le_rfl rfl rfl rfl)

theorem Settled.resume (h : c.Settled) {received : List UInt8} {sent : ℤ}
    (hp : c.Careful (.resume received sent)) (hc : c.resume received sent = .ok c') :
    c'.Settled := by
  unfold TcpConnection.resume at hc
  cases htodo : c.todo with
  | nil =>
    rw [htodo] at hc
    exact Except.ok.inj hc ▸ h.still (.of_eq rfl rfl (Nat.zero_le _) rfl rfl rfl)
  | cons task rest =>
    rw [htodo] at hc
    have hpop : Still c { c with todo := rest } := by
      refine .of_eq rfl rfl ?_ rfl rfl rfl
      rw [htodo]
      exact List.count_le_count_cons
    have hhead : c.todo.head? = some task := by rw [htodo]; rfl
    cases task with
    | channel callback =>
      cases callback with
      | close => exact (h.still hpop).handleClose (hp.1 hhead) hc
      | error => exact Except.ok.inj hc ▸ h.still hpop
      | read => exact (h.still hpop).handleRead (hp.2 hhead).1 (hp.2 hhead).2 hc
      | write => exact (h.still hpop).handleWrite hc
    | user => exact Except.ok.inj hc ▸ h.still hpop
    | remove => exact (h.still hpop).remove hc
    | closeCallback =>
      obtain rfl := Except.ok.inj hc
      have hinterest := h.interest.still hpop
      refine ⟨⟨hinterest.registered, hinterest.added, hinterest.reading, hinterest.closed⟩, ?_⟩
      have hmem : Task.closeCallback ∈ c.todo := by rw [htodo]; exact List.mem_cons_self
      refine ⟨fun hs => absurd hmem (h.quieted.up hs).2.2.2, fun hs => ?_⟩
      obtain ⟨hmark, hquiet, hdown, hclose⟩ := h.quieted.down hs
      change _ ∈ c.trace ++ [_] ∧ (∀ e ∈ after _ (c.trace ++ [_]), _) ∧
        (c.trace ++ [_]).count _ ≤ 1 ∧ (c.trace ++ [_]).count _ + rest.count _ ≤ 1
      rw [htodo, List.count_cons_self] at hclose
      rw [after_append_of_mem hmark, List.count_append, List.count_append]
      refine ⟨List.mem_append_left _ hmark, ?_, ?_, ?_⟩
      · intro e he
        rcases List.mem_append.mp he with he | he
        · exact hquiet e he
        · rw [List.mem_singleton.mp he]
          trivial
      · simpa using hdown
      · rw [List.count_singleton_self]
        omega

theorem Settled.runFunctor (h : c.Settled) (hp : c.Careful .runFunctor)
    (hc : c.runFunctor = .ok c') : c'.Settled := by
  have hpop : Still c { c with pendingFunctors := c.pendingFunctors.tail } :=
    .of_eq rfl rfl le_rfl rfl rfl rfl
  have huser : Still c
      { c with pendingFunctors := c.pendingFunctors.tail, todo := .user :: c.todo } :=
    .of_eq rfl rfl (by rw [List.count_cons_of_ne (by simp)]) rfl rfl rfl
  unfold TcpConnection.runFunctor at hc
  cases hqueue : c.pendingFunctors with
  | nil =>
    rw [hqueue] at hc hpop
    exact Except.ok.inj hc ▸ h.still hpop
  | cons f rest =>
    have hhead : c.pendingFunctors.head? = some f := by rw [hqueue]; rfl
    rw [hqueue] at hc hpop huser
    cases f with
    | forceCloseInLoop =>
      change TcpConnection.forceCloseInLoop _ = _ at hc
      unfold TcpConnection.forceCloseInLoop at hc
      split_ifs at hc
      · exact (h.still hpop).handleClose (hp hhead) hc
      · exact Except.ok.inj hc ▸ h.still hpop
    | writeCompleteCallback => exact Except.ok.inj hc ▸ h.still huser
    | highWaterMarkCallback size => exact Except.ok.inj hc ▸ h.still huser

theorem Settled.step (h : c.Settled) {e : Event} (he : machine.enabled c e) (hp : c.Careful e)
    (hc : machine.step c e = .ok c') : c'.Settled := by
  cases e with
  | connectEstablished => exact h.connectEstablished he.2 hc
  | connectDestroyed => exact h.connectDestroyed hp hc
  | call call => exact h.call he.2.1 hp hc
  | userDone =>
    refine Except.ok.inj hc ▸ h.still (.of_eq rfl rfl ?_ rfl rfl rfl)
    exact (List.tail_sublist _).count_le _
  | polled revents => exact Except.ok.inj hc ▸ h.still (.of_eq rfl rfl le_rfl rfl rfl rfl)
  | dispatch =>
    refine Except.ok.inj hc ▸ h.still ⟨⟨⟨[], (List.append_nil _).symm, by simp⟩, Iff.rfl, ?_⟩,
      rfl, rfl, rfl, id, id⟩
    refine (List.count_eq_zero_of_not_mem ?_).le.trans (Nat.zero_le _)
    rw [List.mem_map]
    rintro ⟨callback, -, hcallback⟩
    cases hcallback
  | resume received sent => exact h.resume hp hc
  | runFunctor => exact h.runFunctor hp hc
  | delayed =>
    have hpop : Still c { c with delayed := c.delayed - 1 } :=
      .of_eq rfl rfl le_rfl rfl rfl rfl
    exact Except.ok.inj hc ▸ h.still (hpop.trans forceClose_still)

theorem Settled.run (h : c.Settled) {es : List Event} (hrun : machine.Run Careful c es c') :
    c'.Settled :=
  hrun.invariant Settled h fun _ _ _ ht he hp hu => ht.step he hp hu

/-- In careful runs a closed connection shows nothing but its close. -/
theorem closed_stays_closed {fd highWaterMark : ℕ} {callbacks : Callbacks} {es : List Event}
    {c : TcpConnection} (h : machine.Run Careful (create fd callbacks highWaterMark) es c) :
    StaysClosed c.trace ∧
      (c.state = .kDisconnected ↔ .setState .kDisconnected ∈ c.trace) ∧
      (c.state = .kDisconnected → c.channel.events = 0 ∧ c.channel.index ≠ .kAdded) := by
  have hc := (create_settled fd callbacks highWaterMark).run h
  refine ⟨hc.quieted.staysClosed, ⟨fun hs => (hc.quieted.down hs).1, ?_⟩, fun hs => ?_⟩
  · intro hmark
    by_contra hs
    exact (hc.quieted.up hs).1 hmark
  · have h0 := hc.interest.closed hs
    exact ⟨h0, fun hindex => hc.interest.added.mp hindex h0⟩

instance (c : TcpConnection) : ∀ e, Decidable (c.Careful e)
  | .call .startRead => inferInstanceAs (Decidable (c.state ≠ .kDisconnected))
  | .call .stopRead => inferInstanceAs (Decidable (_ → _))
  | .connectDestroyed => inferInstanceAs (Decidable (_ → _))
  | .resume received _ => inferInstanceAs (Decidable ((_ → _ → _) ∧
      (_ → (received = [] → _ → _) ∧ (received ≠ [] → _ → _))))
  | .runFunctor => inferInstanceAs (Decidable (_ → _ → _))
  | .call (.send _ _ _) | .call (.sendInLoop _ _ _) | .call .shutdown | .call .forceClose
  | .call .forceCloseWithDelay | .call (.retrieve _) | .connectEstablished | .userDone
  | .polled _ | .dispatch | .delayed => .isTrue trivial

/-- The peer closes, then the connection is destroyed. -/
theorem closed_stays_closed_destroyed : ∃ c, machine.Run Careful
    (create 3 ⟨true, true, true, true, true⟩ 64)
    [.connectEstablished, .userDone, .polled [POLLIN], .dispatch, .resume [] 0, .call .forceClose,
      .userDone, .resume [] 0, .connectDestroyed, .resume [] 0] c ∧ StaysClosed c.trace := by
  obtain ⟨c, hc, -⟩ := Machine.exists_run_of_exec machine Careful
    (create 3 ⟨true, true, true, true, true⟩ 64)
    [.connectEstablished, .userDone, .polled [POLLIN], .dispatch, .resume [] 0, .call .forceClose,
      .userDone, .resume [] 0, .connectDestroyed, .resume [] 0] (fun _ => true)
    (by decide +kernel)
  exact ⟨c, hc, (closed_stays_closed hc).1⟩

/-- A connection told to start reading by its own down callback is registered again and delivers
messages. -/
theorem closed_reads_again : ∃ es c,
    machine.Run Machine.Any (create 3 ⟨true, true, true, true, true⟩ 64) es c ∧
      .epollCtl .add Channel.kReadEvent ∈ after (.setState .kDisconnected) c.trace ∧
      .messageCallback ∈ after (.setState .kDisconnected) c.trace ∧ ¬ StaysClosed c.trace := by
  obtain ⟨c, hc, hp⟩ := Machine.exists_run_of_exec machine Machine.Any
    (create 3 ⟨true, true, true, true, true⟩ 64)
    [.connectEstablished, .userDone, .polled [POLLIN], .dispatch, .resume [] 0, .call .startRead,
      .userDone, .resume [] 0, .polled [POLLIN], .dispatch, .resume [1] 0]
    (fun c => decide
      (.epollCtl .add Channel.kReadEvent ∈ after (.setState .kDisconnected) c.trace ∧
        .messageCallback ∈ after (.setState .kDisconnected) c.trace)) (by decide +kernel)
  obtain ⟨hadd, hmessage⟩ := of_decide_eq_true hp
  exact ⟨_, c, hc, hadd, hmessage, fun h => h.quiet _ hmessage⟩

end TcpConnection
end MuduoWindows.Net
