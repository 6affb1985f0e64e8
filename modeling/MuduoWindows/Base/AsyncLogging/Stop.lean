import MuduoWindows.Base.AsyncLogging.Lines

/-! # Stopping the backend

The backend tests `running_` at the top of its loop only, so that the lines behind its last critical
section are never written. None is left there if `stop` comes between the test and the critical
section, or when all buffers are empty.
-/

namespace MuduoWindows.Base
open Library Net

namespace AsyncLogging
variable {s t : AsyncLogging}

/-- What the file has been given and what the batch will give it. -/
def handed (s : AsyncLogging) : List UInt8 :=
  s.output ++ (s.unwritten.map FixedBuffer.data).flatten

/-- The backend has tested `running_` and will still empty the buffers. -/
def Committed (s : AsyncLogging) : Prop := s.backend = .locking ∨ s.backend = .waiting

instance (s : AsyncLogging) : Decidable s.Committed := inferInstanceAs (Decidable (_ ∨ _))

/-- `stop` is called when the backend will still empty the buffers, or when they are empty. -/
def Caught (s : AsyncLogging) (e : Event) : Prop :=
  e = .stop → s.Committed ∨ s.pendingBytes = []

instance (s : AsyncLogging) (e : Event) : Decidable (Caught s e) :=
  inferInstanceAs (Decidable (_ → _))

/-- No batch is cut, and `stop` is called at such a moment. -/
def UncutCaught (s : AsyncLogging) (e : Event) : Prop := Uncut s e ∧ Caught s e

instance (s : AsyncLogging) (e : Event) : Decidable (UncutCaught s e) :=
  inferInstanceAs (Decidable (_ ∧ _))

/-- The lines before `stop` are on their way. -/
structure Safe (s : AsyncLogging) : Prop where
  before : ∀ lines ∈ s.beforeStop, lines.flatten <+: s.appended.flatten
  handed : ∀ lines ∈ s.beforeStop, s.Committed ∨ lines.flatten <+: s.handed

theorem create_safe : create.Safe := ⟨nofun, nofun⟩

theorem Kept.handed_eq (h : s.Kept) (k : t.Kept) (hpending : t.pendingBytes = s.pendingBytes)
    (happended : t.appended = s.appended) : t.handed = s.handed := by
  have hs := h.order.bytes
  have ht := k.order.bytes
  rw [hpending, happended, ← hs] at ht
  exact List.append_cancel_right ht

theorem Safe.moved (h : s.Safe) (hcommitted : ¬ s.Committed) (hstop : t.beforeStop = s.beforeStop)
    (happended : t.appended = s.appended) (hhanded : t.handed = s.handed) : t.Safe := by
  constructor
  · rw [hstop, happended]
    exact h.before
  · rw [hstop, hhanded]
    exact fun lines hlines => .inr ((h.handed lines hlines).resolve_left hcommitted)

theorem Safe.committed (h : s.Safe) (hstop : t.beforeStop = s.beforeStop)
    (happended : t.appended = s.appended) (ht : t.Committed) : t.Safe := by
  constructor
  · rw [hstop, happended]
    exact h.before
  · exact fun _ _ => .inl ht

theorem Safe.swap (h : s.Safe) (hs : s.Kept) (k : t.Kept) (hcommitted : s.Committed)
    (ht : s.swap = .ok t) : t.Safe := by
  obtain ⟨hfirst, hsecond, hbatch⟩ := hs.pool.ready hcommitted
  obtain ⟨-, heq⟩ := hs.pool.swapped hfirst hsecond hbatch ht
  have hpending : t.pendingBytes = [] := by rw [heq]; rfl
  have hbytes := k.order.bytes
  rw [hpending, List.append_nil] at hbytes
  have hstop : t.beforeStop = s.beforeStop := by rw [heq]
  have happended : t.appended = s.appended := by rw [heq]
  constructor
  · rw [hstop, happended]
    exact h.before
  · intro lines hlines
    rw [hstop] at hlines
    apply Or.inr
    change lines.flatten <+: t.output ++ (t.unwritten.map FixedBuffer.data).flatten
    rw [hbytes, happended]
    exact h.before lines hlines

theorem Safe.append (h : s.Safe) (hs : s.Kept) {logline : Line}
    (hlen : logline.length < kLargeBuffer) : (s.append logline).Safe := by
  have hgrows : s.appended.flatten <+: (s.appended ++ [logline]).flatten := by
    rw [List.flatten_append]
    exact List.prefix_append _ _
  rcases append_cases hs.pool.next hlen with ⟨b, -, heq⟩ | ⟨b, -, heq⟩ <;>
  · rw [heq]
    exact ⟨fun lines hlines => (h.before lines hlines).trans hgrows, h.handed⟩

theorem Safe.stopped (hs : s.Kept) (hcaught : s.Committed ∨ s.pendingBytes = []) :
    Safe { s with running := false, beforeStop := some s.appended } := by
  constructor
  · intro lines hlines
    obtain rfl := Option.some.inj hlines
    exact List.prefix_rfl
  · intro lines hlines
    obtain rfl := Option.some.inj hlines
    rcases hcaught with hcommitted | hempty
    · exact .inl hcommitted
    · have hbytes := hs.order.bytes
      rw [hempty, List.append_nil] at hbytes
      apply Or.inr
      change s.appended.flatten <+: s.output ++ (s.unwritten.map FixedBuffer.data).flatten
      rw [hbytes]

theorem Safe.step (h : s.Safe) (hs : s.Kept) {e : Event} (he : machine.enabled s e)
    (hq : UncutCaught s e) (ht : machine.step s e = .ok t) : t.Safe := by
  have hkept := hs.step he hq.1 ht
  cases e with
  | append logline =>
    obtain rfl := Except.ok.inj ht
    exact h.append hs he
  | start =>
    obtain rfl := Except.ok.inj ht
    have hout : s.backend = .outside := he
    exact h.moved (by simp [Committed, hout]) rfl rfl (hs.handed_eq hkept rfl rfl)
  | begin =>
    obtain ⟨-, rfl⟩ := begin_eq ht
    have hout : s.backend = .starting := he
    exact h.moved (by simp [Committed, hout]) rfl rfl (hs.handed_eq hkept rfl rfl)
  | test =>
    have htop : s.backend = .top := he
    rcases test_cases ht with ⟨-, rfl⟩ | ⟨-, rfl⟩
    · exact h.committed rfl rfl (.inl rfl)
    · exact h.moved (by simp [Committed, htop]) rfl rfl (hs.handed_eq hkept rfl rfl)
  | lock =>
    rcases lock_cases ht with ⟨-, rfl⟩ | ⟨-, ht⟩
    · exact h.committed rfl rfl (.inr rfl)
    · exact h.swap hs hkept (.inl he) ht
  | wake => exact h.swap hs hkept (.inr he) ht
  | check now =>
    obtain rfl := Except.ok.inj ht
    have hswapped : s.backend = .swapped := he
    have hcheck : s.check now = { s with backend := .writing 0 } :=
      if_neg (not_lt.mpr (hs.small hswapped))
    rw [hcheck] at hkept ⊢
    exact h.moved (by simp [Committed, hswapped]) rfl rfl (hs.handed_eq hkept rfl rfl)
  | write =>
    obtain ⟨written, hb⟩ := he
    rw [step_write hb] at ht
    have hcommitted : ¬ s.Committed := by simp [Committed, hb]
    rcases hs.pool.write hb ht with ⟨b, -, rfl, -⟩ | ⟨-, -, rfl⟩
    · exact h.moved hcommitted rfl rfl (hs.handed_eq hkept rfl rfl)
    · exact h.moved hcommitted rfl rfl (hs.handed_eq hkept rfl rfl)
  | stop =>
    obtain rfl := Except.ok.inj ht
    exact .stopped hs (hq.2 rfl)
  | join =>
    obtain rfl := Except.ok.inj ht
    exact ⟨h.before, h.handed⟩

theorem append_frame (s : AsyncLogging) (logline : Line) :
    (s.append logline).backend = s.backend ∧ (s.append logline).joined = s.joined := by
  unfold append
  dsimp only
  split_ifs
  · exact ⟨rfl, rfl⟩
  · cases s.nextBuffer <;> exact ⟨rfl, rfl⟩

theorem Kept.joined_eq (hs : s.Kept) {e : Event} (he : machine.enabled s e) (hne : e ≠ .join)
    (ht : machine.step s e = .ok t) : t.joined = s.joined := by
  have hswap : s.Committed → s.swap = .ok t → t.joined = s.joined := by
    intro hcommitted ht
    obtain ⟨hfirst, hsecond, hbatch⟩ := hs.pool.ready hcommitted
    obtain ⟨-, rfl⟩ := hs.pool.swapped hfirst hsecond hbatch ht
    rfl
  cases e with
  | append logline =>
    obtain rfl := Except.ok.inj ht
    exact (append_frame s logline).2
  | start | stop =>
    obtain rfl := Except.ok.inj ht
    rfl
  | begin =>
    obtain ⟨-, rfl⟩ := begin_eq ht
    rfl
  | test => rcases test_cases ht with ⟨-, rfl⟩ | ⟨-, rfl⟩ <;> rfl
  | lock =>
    rcases lock_cases ht with ⟨-, rfl⟩ | ⟨-, ht⟩
    · rfl
    · exact hswap (.inl he) ht
  | wake => exact hswap (.inr he) ht
  | check now =>
    obtain rfl := Except.ok.inj ht
    unfold check
    split_ifs <;> rfl
  | write =>
    obtain ⟨written, hb⟩ := he
    rw [step_write hb] at ht
    rcases hs.pool.write hb ht with ⟨b, -, rfl, -⟩ | ⟨-, -, rfl⟩ <;> rfl
  | join => exact absurd rfl hne

theorem finished_step {e : Event} (hs : s.backend = .finished) (he : machine.enabled s e)
    (ht : machine.step s e = .ok t) : t.backend = .finished := by
  cases e with
  | append logline =>
    obtain rfl := Except.ok.inj ht
    exact (append_frame s logline).1.trans hs
  | stop | join =>
    obtain rfl := Except.ok.inj ht
    exact hs
  | start | begin | test | lock | wake | check => cases hs.symm.trans he
  | write =>
    obtain ⟨written, hb⟩ := he
    cases hs.symm.trans hb

theorem joined_step (h : s.joined = true → s.backend = .finished) (hs : s.Kept) {e : Event}
    (he : machine.enabled s e) (ht : machine.step s e = .ok t) (hjoined : t.joined = true) :
    t.backend = .finished := by
  by_cases hjoin : e = .join
  · subst e
    obtain rfl := Except.ok.inj ht
    exact he.2.1
  · rw [hs.joined_eq he hjoin ht] at hjoined
    exact finished_step (h hjoined) he ht

theorem run_safe {es : List Event} (h : machine.Run UncutCaught create es s) :
    s.Kept ∧ s.Safe ∧ (s.joined = true → s.backend = .finished) :=
  h.invariant (fun s => s.Kept ∧ s.Safe ∧ (s.joined = true → s.backend = .finished))
    ⟨create_kept, create_safe, fun hjoined => absurd hjoined Bool.false_ne_true⟩
    fun _ _ _ hs he hq ht => ⟨hs.1.step he hq.1 ht, hs.2.1.step hs.1 he hq ht,
      joined_step hs.2.2 hs.1 he ht⟩

/-- When `stop` has returned, every line appended before its call has been handed to the file. -/
theorem stop_writes_all {es : List Event} (h : machine.Run UncutCaught create es s)
    (hjoined : s.joined = true) : ∀ lines ∈ s.beforeStop, lines.flatten <+: s.output := by
  obtain ⟨hkept, hsafe, hfinished⟩ := run_safe h
  have hbackend := hfinished hjoined
  have hspare := hkept.pool.spare
  unfold Spare at hspare
  rw [hbackend] at hspare
  have hhanded : s.handed = s.output := by
    unfold handed
    rw [unwritten_eq (by rw [hbackend]; nofun), hspare]
    exact List.append_nil _
  intro lines hlines
  rcases hsafe.handed lines hlines with hcommitted | hfront
  · unfold Committed at hcommitted
    rw [hbackend] at hcommitted
    rcases hcommitted with hc | hc <;> cases hc
  · rwa [hhanded] at hfront

/-- `stop` is called while the backend waits. -/
theorem stop_writes_all_waiting : ∃ s, machine.Run UncutCaught create
      [.start, .begin, .test, .lock, .append [97, 10], .stop, .wake, .check "", .write, .write,
        .test, .join] s ∧
    s.joined = true ∧ s.beforeStop = some [[97, 10]] ∧ [97, 10] <+: s.output := by
  obtain ⟨s, hs, hp⟩ := Machine.exists_run_of_exec machine UncutCaught create
    [.start, .begin, .test, .lock, .append [97, 10], .stop, .wake, .check "", .write, .write,
      .test, .join]
    (fun s => decide (s.joined = true ∧ s.beforeStop = some [[97, 10]])) (by decide)
  obtain ⟨hjoined, hbefore⟩ := of_decide_eq_true hp
  exact ⟨s, hs, hjoined, hbefore, stop_writes_all hs hjoined _ hbefore⟩

/-- A line appended while the backend writes a batch, just before `stop`, is lost. -/
theorem stop_loses_line : ∃ s, machine.Run Uncut create
      [.start, .begin, .test, .lock, .append [97, 10], .wake, .check "", .append [98, 10], .stop,
        .write, .write, .test, .join] s ∧
    s.joined = true ∧ s.beforeStop = some [[97, 10], [98, 10]] ∧ s.output = [97, 10] := by
  obtain ⟨s, hs, hp⟩ := Machine.exists_run_of_exec machine Uncut create
    [.start, .begin, .test, .lock, .append [97, 10], .wake, .check "", .append [98, 10], .stop,
      .write, .write, .test, .join]
    (fun s => decide (s.joined = true ∧ s.beforeStop = some [[97, 10], [98, 10]] ∧
      s.output = [97, 10])) (by decide)
  exact ⟨s, hs, of_decide_eq_true hp⟩

end AsyncLogging
end MuduoWindows.Base
