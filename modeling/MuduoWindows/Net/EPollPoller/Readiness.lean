import MuduoWindows.Net.EPollPoller.Registrations
import MuduoWindows.Net.Epoll.Interests

/-! # Readiness

While the loop is blocked, every interest of an added channel has a poll in flight, unless the
last entry of the channel has lost it. That is so in every run in which no interest is lost when
`poll` is called and no poll is refused.
-/

namespace MuduoWindows.Net
open Library

namespace EPollPoller
variable {P : Type} [DecidableEq P] {s t : EPollPoller P} {p q : P} {i : Interest}

/-- A poll in flight for the registration of the channel asks for the event. -/
def Armed (s : EPollPoller P) (p : P) (mask : AfdEvents) : Prop :=
  ∃ o ∈ s.port.inFlight, s.port.sockDataTree (s.channel p).fd = some (s.port.op o).sockData ∧
    (s.port.sockData (s.port.op o).sockData).userData = some p ∧
    has (s.port.op o).events mask = true

def NothingLost (s : EPollPoller P) : Prop :=
  ∀ p i, (s.channel p).index = .kAdded → i.wanted (s.channel p) = true → s.lost p i = false

/-- The kernel refuses the new poll that `poll` makes for the socket of the channel. -/
def Refuses (s : EPollPoller P) (p : P) : Prop :=
  ∃ d ∈ s.port.refusedPolls s.port.attnList, (s.port.sockData d).userData = some p

instance (s : EPollPoller P) (p : P) : Decidable (s.Refuses p) :=
  inferInstanceAs (Decidable (∃ d ∈ _, _))

/-- No new poll is refused for a channel that is interested in something. -/
def NothingRefused (s : EPollPoller P) : Prop :=
  ∀ p (i : Interest), (s.channel p).index = .kAdded → i.wanted (s.channel p) = true → ¬ s.Refuses p

/-- `poll` is called when no interest of an added channel is lost, and its new polls are taken. -/
def Keeping (s : EPollPoller P) (e : Event P) : Prop :=
  e = .poll → s.NothingLost ∧ s.NothingRefused

instance : Fintype Interest := ⟨{.reading, .writing}, fun i => by cases i <;> decide⟩

instance [Fintype P] (s : EPollPoller P) (e : Event P) : Decidable (Keeping s e) :=
  inferInstanceAs (Decidable (_ → (∀ _, ∀ _, _) ∧ ∀ _, ∀ _, _))

/-- The socket of the channel keeps the interest. -/
def KeptFor (s : EPollPoller P) (p : P) (i : Interest) : Prop :=
  ∃ d, s.port.sockDataTree (s.channel p).fd = some d ∧ (s.port.sockData d).userData = some p ∧
    s.port.Kept d i.afdEvents

structure Watched (s : EPollPoller P) : Prop where
  kept : ∀ p i, (s.channel p).index = .kAdded → i.wanted (s.channel p) = true →
    s.lost p i = false → s.KeptFor p i
  blocked : s.waiting = true → s.entries = 0 → s.port.attnList = [] ∧ s.NothingLost

omit [DecidableEq P] in
theorem KeptFor.spared (h : s.KeptFor p i) (hfd : (t.channel p).fd = (s.channel p).fd)
    (htree : t.port.sockDataTree (s.channel p).fd = s.port.sockDataTree (s.channel p).fd)
    (hs : ∀ d, s.port.sockDataTree (s.channel p).fd = some d → s.port.Spares d t.port) :
    t.KeptFor p i := by
  obtain ⟨d, hd, huser, hkept⟩ := h
  have hspares := hs d hd
  refine ⟨d, ?_, ?_, hkept.spared hspares⟩
  · rw [hfd, htree]
    exact hd
  · rw [hspares.data]
    exact huser

omit [DecidableEq P] in
theorem Inv.owner (h : s.Inv) (hp : (s.channel p).index = .kAdded) {d : ℕ}
    (hd : s.port.sockDataTree (s.channel p).fd = some d) :
    (s.port.sockData d).userData = some p := by
  obtain ⟨q, huser, hfd, hq, -⟩ := h.tree _ d hd
  have hknown := h.known p (by rw [hp]; nofun)
  have hown := h.known q (by rw [hq]; nofun)
  rw [hfd, hknown] at hown
  obtain rfl := Option.some.inj hown
  exact huser

omit [DecidableEq P] in
theorem setChannel_added_ne {c : Channel} (h : s.Inv)
    (hown : ∀ q, s.channels c.fd = some q → q = p) (hqp : q ≠ p)
    (hq : (s.channel q).index = .kAdded) : (s.channel q).fd ≠ c.fd := by
  intro hfd
  have hknown := h.known q (by rw [hq]; nofun)
  rw [hfd] at hknown
  exact hqp (hown q hknown)

theorem Updated.other (hu : Updated s p t) (hqp : q ≠ p) :
    t.channel q = s.channel q ∧ t.lost q = s.lost q := by
  cases hu with
  | joined => exact ⟨setChannel_of_ne hqp, Function.update_of_ne hqp ..⟩
  | departed => exact ⟨setChannel_of_ne hqp, Function.update_of_ne hqp ..⟩

theorem Updated.spares (h : s.Inv) (hu : Updated s p t) (hqp : q ≠ p)
    (hq : (s.channel q).index = .kAdded) :
    t.port.sockDataTree (s.channel q).fd = s.port.sockDataTree (s.channel q).fd ∧
      ∀ d, s.port.sockDataTree (s.channel q).fd = some d → s.port.Spares d t.port := by
  cases hu with
  | @joined c d port hfd hown hindex hregular hport =>
    have hne := setChannel_added_ne h hown hqp hq
    constructor
    · change port.sockDataTree _ = _
      rw [hport.tree, Function.update_of_ne hne]
    · intro d' hd'
      apply hport.spares h.port
      rintro rfl
      have hsock := (h.port.tree _ _ hd').2
      rcases hport.known with hknown | ⟨-, hfresh⟩
      · exact hne (hsock.symm.trans (h.port.tree _ _ hknown).2)
      · exact (h.port.tree _ _ hd').1.ne hfresh
  | @departed c hfd hown hindex hregular =>
    have hne := setChannel_added_ne h hown hqp hq
    constructor
    · change (s.port.delete c.fd).sockDataTree _ = _
      rw [h.port.delete_tree, Function.update_of_ne hne]
    · exact fun d' hd' => h.port.delete_spares hd' hne

theorem Updated.kept (h : s.Inv) (hw : s.Watched) (hu : Updated s p t)
    (hq : (t.channel q).index = .kAdded) (hi : i.wanted (t.channel q) = true)
    (hlost : t.lost q i = false) : t.KeptFor q i := by
  by_cases hqp : q = p
  · subst q
    cases hu with
    | @joined c d port hfd hown hindex hregular hport =>
      have hself : (s.joined p c port).channel p = c := setChannel_self
      rw [hself] at hi
      obtain ⟨data, hdata, -, huser, -⟩ := hport.data
      refine ⟨d, ?_, ?_, hport.kept (i.wanted_afdEvents hregular hi)⟩
      · rw [hself]
        change port.sockDataTree c.fd = some d
        rw [hport.tree, Function.update_self]
      · change (port.sockData d).userData = some p
        rw [hdata, Function.update_self]
        exact huser
    | @departed c hfd hown hindex hregular =>
      have hself : (s.departed p c).channel p = c := setChannel_self
      rw [hself] at hq
      exact absurd hq hindex
  · obtain ⟨hchannel, hlosts⟩ := hu.other hqp
    rw [hchannel] at hq hi
    rw [hlosts] at hlost
    obtain ⟨htree, hspares⟩ := hu.spares h hqp hq
    exact (hw.kept q i hq hi hlost).spared (by rw [hchannel]) htree hspares

theorem Updated.watched (h : s.Inv) (hw : s.Watched) (hwait : s.waiting = false)
    (hu : Updated s p t) : t.Watched := by
  refine ⟨fun q i hq hi hl => hu.kept h hw hq hi hl, ?_⟩
  intro hwait'
  rw [hu.waiting, hwait] at hwait'
  cases hwait'

variable {entry : Completion} {port' : EpollPort P} {event : Option (EpollEvent P)}

omit [DecidableEq P] in
/-- A poll of the newest generation is dequeued for the channel, and the interest is not lost. -/
theorem kept_current (hw : ¬ s.Loses entry i) (hi : i.wanted (s.channel p) = true)
    (hcurrent : s.Current entry) (hout : s.port.Outcome entry port' event)
    (hread : (s.channel p).isReading = true →
      has (s.port.owner entry.op).registeredEvents EPOLLIN = true) :
    port'.Kept (s.port.op entry.op).sockData i.afdEvents := by
  obtain ⟨hclose, hcover⟩ := not_or.mp hw
  cases hout with
  | superseded hgen => exact absurd hcurrent.1 (not_le.mpr hgen)
  | unregistered _ hfind => exact absurd hcurrent.2 hfind
  | failed _ _ hstatus =>
    have hcovered : s.Covered entry i := by
      by_contra hnot
      exact hcover ⟨hnot, .inl hstatus⟩
    refine ⟨.inl (EpollPort.covered_polls hcovered), ?_⟩
    intro hgen
    rw [EpollPort.take_self] at hgen
    exact absurd rfl hgen
  | closed _ _ hstatus hlocal => exact absurd ⟨hstatus, hlocal⟩ hclose
  | reported _ _ hstatus hlocal =>
    rw [EpollPort.report_eq]
    constructor
    · by_cases hcovered : s.Covered entry i
      · exact .inl (EpollPort.covered_polls
          (d := EpollPort.withoutOut (s.port.owner entry.op)) hcovered)
      · obtain ⟨-, hkept⟩ := not_or.mp fun hc => hcover ⟨hcovered, hc⟩
        obtain ⟨hreading, hcount⟩ := not_or.mp hkept
        have hone : (s.port.owner entry.op).opCount = 1 := not_not.mp hcount
        have hevents := hread (by
          cases i with
          | reading => exact hi
          | writing => exact absurd rfl hreading)
        apply Or.inr
        refine ⟨List.mem_insert_self, ?_, ?_⟩
        · change ((s.port.take entry.op _).sockData (s.port.op entry.op).sockData).opCount = 0
          rw [EpollPort.take_self]
          change (s.port.owner entry.op).opCount - 1 = 0
          omega
        · unfold EpollPort.Asks
          change has (EpollPort.afdEvents ((s.port.take entry.op _).sockData
            (s.port.op entry.op).sockData).registeredEvents) _ = true
          rw [EpollPort.take_self]
          cases i with
          | reading => exact afdEvents_reading ((has_and rfl).trans hevents)
          | writing => exact absurd rfl hreading
    · intro hgen
      change ((s.port.take entry.op _).sockData (s.port.op entry.op).sockData).opGeneration ≠ 0
        at hgen
      rw [EpollPort.take_self] at hgen
      exact absurd rfl hgen

theorem Inv.kept_entry (h : s.Inv) (hw : s.Watched) (hp : (s.channel p).index = .kAdded)
    (hi : i.wanted (s.channel p) = true) (hout : s.port.Outcome entry port' event)
    (hlost : s.lostBy entry p i = false) (ht : t.channel = s.channel) (hport : t.port = port') :
    t.KeptFor p i := by
  unfold KeptFor
  rw [ht, hport]
  unfold lostBy at hlost
  split_ifs at hlost with hown
  · obtain ⟨hcurrent, huser⟩ := hown
    have hkeeps : ¬ s.Loses entry i := of_decide_eq_false hlost
    obtain ⟨q, huser', hfd, -, hread⟩ := h.tree _ _ hcurrent.2
    obtain rfl := Option.some.inj (huser'.symm.trans huser)
    refine ⟨(s.port.op entry.op).sockData, ?_, ?_, ?_⟩
    · rw [hfd]
      exact hout.tree hcurrent.2 fun _ hclose => hkeeps (.inl hclose)
    · rw [(hout.frame.2 _).1]
      exact huser
    · exact kept_current hkeeps hi hcurrent hout hread
  · obtain ⟨d, hd, huser, hkept⟩ := hw.kept p i hp hi hlost
    by_cases hsame : d = (s.port.op entry.op).sockData
    · -- the socket has a newer poll, which is in flight
      subst d
      have hfind : s.port.find (s.port.op entry.op).sockData := by
        unfold EpollPort.find
        rw [(h.port.tree _ _ hd).2]
        exact hd
      have hgen : (s.port.op entry.op).generation < (s.port.owner entry.op).opGeneration := by
        by_contra hle
        exact hown ⟨⟨not_lt.mp hle, hfind⟩, huser⟩
      cases hout with
      | superseded =>
        refine ⟨_, hd, ?_, hkept.superseded h.port hgen rfl⟩
        rw [EpollPort.take_self]
        exact huser
      | unregistered hle | failed hle | closed hle | reported hle =>
        exact absurd hgen (not_lt.mpr hle)
    · have hspares := hout.spares hsame
      refine ⟨d, hout.tree hd fun heq => absurd heq hsame, ?_, hkept.spared hspares⟩
      rw [hspares.data]
      exact huser

omit [DecidableEq P] in
theorem create_watched {refused : ℕ → Bool} : (create refused : EPollPoller P).Watched := by
  constructor
  · intro p i hp
    cases hp
  · intro hw
    cases hw

omit [DecidableEq P] in
theorem Watched.filled (hw : s.Watched) (hf : Filled s t) (ht : t.waiting = false) :
    t.Watched := by
  constructor
  · intro p i hp hi hlost
    rw [(hf.channel p).1] at hp
    have hwanted : i.wanted (t.channel p) = i.wanted (s.channel p) := by
      cases i with
      | reading => exact congrArg (has · Channel.kReadEvent) (hf.channel p).2.2
      | writing => exact congrArg (has · Channel.kWriteEvent) (hf.channel p).2.2
    rw [hwanted] at hi
    rw [hf.lost] at hlost
    have hkept := hw.kept p i hp hi hlost
    unfold KeptFor
    rw [hf.port, (hf.channel p).2.1]
    exact hkept
  · intro hwait
    rw [ht] at hwait
    cases hwait

theorem Watched.newChannel (hw : s.Watched) {fd : ℕ}
    (ht : t.channel = Function.update s.channel p (.create fd)) (hport : t.port = s.port)
    (hlost : t.lost = Function.update s.lost p fun _ => false) (hwait : t.waiting = false) :
    t.Watched := by
  constructor
  · intro q i hq hi hl
    have hqp : q ≠ p := by
      rintro rfl
      rw [ht, Function.update_self] at hq
      cases hq
    have hother : t.channel q = s.channel q := by rw [ht, Function.update_of_ne hqp]
    rw [hother] at hq hi
    rw [hlost, Function.update_of_ne hqp] at hl
    have hkept := hw.kept q i hq hi hl
    unfold KeptFor
    rw [hport, hother]
    exact hkept
  · intro hwait'
    rw [hwait] at hwait'
    cases hwait'

theorem Watched.step (h : s.Inv) (hw : s.Watched) {e : Event P} (he : machine.enabled s e)
    (hk : Keeping s e) (ht : machine.step s e = .ok t) : t.Watched := by
  cases e with
  | newChannel p fd =>
    obtain rfl := Except.ok.inj ht
    exact hw.newChannel rfl rfl rfl he.1
  | change p change => exact (h.changed ht).watched h hw he
  | remove p => exact (h.removed ht).watched h hw he
  | poll =>
    obtain rfl := Except.ok.inj ht
    obtain ⟨hnothing, htaken⟩ := hk rfl
    refine ⟨?_, fun _ _ => ⟨rfl, hnothing⟩⟩
    intro p i hp hi hlost
    obtain ⟨d, hd, huser, hkept⟩ := hw.kept p i hp hi hlost
    obtain ⟨-, htree, hdata⟩ := h.port.submitAll
    exact ⟨d, (congrFun htree _).trans hd, (hdata d).1.trans huser,
      hkept.submitAll h.port fun hmem => htaken p i hp hi ⟨d, hmem, huser⟩⟩
  | entry entry =>
    obtain ⟨port, event, hout, hprocess⟩ := h.processed he.2.2.1
    obtain rfl := Except.ok.inj (hprocess.symm.trans ht)
    refine ⟨fun p i hp hi hlost => h.kept_entry hw hp hi hout hlost rfl rfl, ?_⟩
    intro _ hzero
    exact absurd hzero (Nat.succ_ne_zero _)
  | polled =>
    obtain ⟨hfilled, hwait⟩ := polled_filled ht
    exact hw.filled hfilled hwait

theorem run_watched {refused : ℕ → Bool} {es : List (Event P)}
    (h : machine.Run Keeping (create refused) es s) :
    s.Inv ∧ s.Watched :=
  h.invariant (fun s => s.Inv ∧ s.Watched) ⟨create_inv, create_watched⟩
    fun _ _ _ hs he hk ht => ⟨hs.1.step he ht, hs.2.step hs.1 he hk ht⟩

omit [DecidableEq P] in
theorem KeptFor.armed (h : s.KeptFor p i) (hattn : s.port.attnList = []) :
    s.Armed p i.afdEvents := by
  obtain ⟨d, hd, huser, hkept, -⟩ := h
  rcases hkept with ⟨o, ho, rfl, hmask⟩ | ⟨hmem, -⟩
  · exact ⟨o, ho, hd, huser, hmask⟩
  · rw [hattn] at hmem
    cases hmem

/-- Whenever the loop is blocked, a channel that is added is armed for what it is interested in,
if every call of `poll` has found no interest lost and the kernel has taken its polls. -/
theorem blocked_armed {refused : ℕ → Bool} {es : List (Event P)}
    (h : machine.Run Keeping (create refused) es s) (hwait : s.waiting = true)
    (hentries : s.entries = 0) (p : P)
    (hp : (s.channel p).index = .kAdded) :
    ((s.channel p).isReading = true → s.Armed p AFD_POLL_RECEIVE) ∧
      ((s.channel p).isWriting = true → s.Armed p AFD_POLL_SEND) := by
  obtain ⟨-, hwatched⟩ := run_watched h
  obtain ⟨hattn, hnothing⟩ := hwatched.blocked hwait hentries
  have harmed : ∀ i : Interest, i.wanted (s.channel p) = true → s.Armed p i.afdEvents :=
    fun i hi => (hwatched.kept p i hp hi (hnothing p i hp hi)).armed hattn
  exact ⟨harmed .reading, harmed .writing⟩

/-- A channel that has been read from and then waits to write. -/
theorem blocked_armed_writing : ∃ s, machine.Run Keeping (create fun _ => false : EPollPoller Unit)
      [.newChannel () 5, .change () .enableReading, .poll, .entry ⟨0, true, 1, AFD_POLL_RECEIVE⟩,
        .polled, .change () .enableWriting, .poll] s ∧
    s.waiting = true ∧ s.entries = 0 ∧ (s.channel ()).index = .kAdded ∧
    (s.channel ()).isWriting = true ∧ s.Armed () AFD_POLL_SEND := by
  obtain ⟨s, hs, hp⟩ := Machine.exists_run_of_exec machine Keeping
    (create fun _ => false : EPollPoller Unit)
    [.newChannel () 5, .change () .enableReading, .poll, .entry ⟨0, true, 1, AFD_POLL_RECEIVE⟩,
      .polled, .change () .enableWriting, .poll]
    (fun s => s.waiting && s.entries == 0 && decide ((s.channel ()).index = .kAdded) &&
      (s.channel ()).isWriting) (by decide)
  simp only [Bool.and_eq_true, beq_iff_eq, decide_eq_true_eq] at hp
  obtain ⟨⟨⟨hwait, hentries⟩, hindex⟩, hwriting⟩ := hp
  exact ⟨s, hs, hwait, hentries, hindex, hwriting,
    (blocked_armed hs hwait hentries () hindex).2 hwriting⟩

omit [DecidableEq P] in
theorem not_armed {p : P} {mask : AfdEvents}
    (h : (s.port.inFlight.all fun o => !has (s.port.op o).events mask) = true) :
    ¬ s.Armed p mask := by
  rw [List.all_eq_true] at h
  rintro ⟨o, ho, -, -, hmask⟩
  have hnot := h o ho
  rw [hmask] at hnot
  cases hnot

/-- A partial write: the poll has reported that the socket is writable, and the channel, still
waiting to write, is polled again without `AFD_POLL_SEND`. And a channel that reads: the kernel
refuses the new poll, and the socket leaves the attention list all the same. -/
theorem writing_not_armed : (∃ s es,
      machine.Run Machine.Any (create fun _ => false : EPollPoller Unit) es s ∧
      s.waiting = true ∧ s.entries = 0 ∧ (s.channel ()).index = .kAdded ∧
      (s.channel ()).isWriting = true ∧ ¬ s.Armed () AFD_POLL_SEND) ∧
    ∃ s es, machine.Run Machine.Any (create fun n => n == 1 : EPollPoller Unit) es s ∧
      s.waiting = true ∧ s.entries = 0 ∧ (s.channel ()).index = .kAdded ∧
      (s.channel ()).isReading = true ∧ ¬ s.Armed () AFD_POLL_RECEIVE := by
  constructor
  · obtain ⟨s, hs, hp⟩ := Machine.exists_run_of_exec machine Machine.Any
      (create fun _ => false : EPollPoller Unit)
      [.newChannel () 5, .change () .enableWriting, .poll, .entry ⟨0, true, 1, AFD_POLL_SEND⟩,
        .polled, .poll]
      (fun s => decide (s.waiting = true ∧ s.entries = 0 ∧ (s.channel ()).index = .kAdded ∧
        (s.channel ()).isWriting = true ∧
        (s.port.inFlight.all fun o => !has (s.port.op o).events AFD_POLL_SEND) = true)) (by decide)
    obtain ⟨hwait, hentries, hindex, hwriting, hmask⟩ := of_decide_eq_true hp
    exact ⟨s, _, hs, hwait, hentries, hindex, hwriting, not_armed hmask⟩
  · obtain ⟨s, hs, hp⟩ := Machine.exists_run_of_exec machine Machine.Any
      (create fun n => n == 1 : EPollPoller Unit)
      [.newChannel () 5, .change () .enableReading, .poll, .entry ⟨0, true, 1, AFD_POLL_RECEIVE⟩,
        .polled, .poll]
      (fun s => decide (s.waiting = true ∧ s.entries = 0 ∧ (s.channel ()).index = .kAdded ∧
        (s.channel ()).isReading = true ∧
        (s.port.inFlight.all fun o => !has (s.port.op o).events AFD_POLL_RECEIVE) = true))
      (by decide)
    obtain ⟨hwait, hentries, hindex, hreading, hmask⟩ := of_decide_eq_true hp
    exact ⟨s, _, hs, hwait, hentries, hindex, hreading, not_armed hmask⟩

end EPollPoller
end MuduoWindows.Net
