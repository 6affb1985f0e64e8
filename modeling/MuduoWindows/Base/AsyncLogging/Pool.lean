import MuduoWindows.Base.AsyncLogging

/-! # The spare buffers suffice

The spare buffers of the backend are empty and suffice for every round of its loop: the second one
is needed only when `append` has used up the next buffer, and then it has pushed a full one.
-/

namespace MuduoWindows.Base
open Library Net

namespace AsyncLogging
variable {s t : AsyncLogging}

/-- The batch has taken the place of the spare buffers that it needs to give back. -/
structure Taken (newBuffer1 newBuffer2 : Option LogBuffer) (batch : List LogBuffer) : Prop where
  first : newBuffer1 = none
  nonempty : batch ≠ []
  second : newBuffer2 = some .create ∨ (newBuffer2 = none ∧ 2 ≤ batch.length)

/-- The spare buffers as they are at each point of the backend. -/
def Spare (s : AsyncLogging) : Prop :=
  match s.backend with
  | .outside | .starting | .finished => s.buffersToWrite = []
  | .top | .locking | .waiting =>
    s.newBuffer1 = some .create ∧ s.newBuffer2 = some .create ∧ s.buffersToWrite = []
  | .swapped => Taken s.newBuffer1 s.newBuffer2 s.buffersToWrite
  | .writing written =>
    Taken s.newBuffer1 s.newBuffer2 s.buffersToWrite ∧ written ≤ s.buffersToWrite.length

structure Pool (s : AsyncLogging) : Prop where
  next : ∀ b ∈ s.nextBuffer, b = .create
  filled : s.nextBuffer = none → s.buffers ≠ []
  spare : s.Spare

theorem create_pool : create.Pool := by
  refine ⟨?_, nofun, rfl⟩
  intro b hb
  exact (Option.some.inj hb).symm

theorem append_cases (hnext : ∀ b ∈ s.nextBuffer, b = .create) {logline : Line}
    (hlen : logline.length < kLargeBuffer) :
    (∃ b : LogBuffer, b.data = s.currentBuffer.data ++ logline ∧
      s.append logline = { s with appended := s.appended ++ [logline], currentBuffer := b }) ∨
    (∃ b : LogBuffer, b.data = logline ∧
      s.append logline = { s with
        appended := s.appended ++ [logline], buffers := s.buffers ++ [s.currentBuffer]
        currentBuffer := b, nextBuffer := none }) := by
  have hfresh : (FixedBuffer.create.append logline : LogBuffer).data = logline :=
    FixedBuffer.append_data hlen
  by_cases havail : s.currentBuffer.avail > logline.length
  · refine .inl ⟨_, FixedBuffer.append_data havail, ?_⟩
    unfold append
    exact if_pos havail
  · refine .inr ⟨_, hfresh, ?_⟩
    unfold append
    refine (if_neg havail).trans ?_
    dsimp only
    cases hb : s.nextBuffer with
    | none => rfl
    | some b =>
      obtain rfl := hnext b hb
      rfl

theorem swap_eq (hnext : ∀ b ∈ s.nextBuffer, b = .create) (hfirst : s.newBuffer1 = some .create)
    (hsecond : s.newBuffer2 = some .create) (hbatch : s.buffersToWrite = []) :
    s.swap = .ok { s with
      currentBuffer := .create, newBuffer1 := none
      buffersToWrite := s.buffers ++ [s.currentBuffer], buffers := []
      nextBuffer := some .create
      newBuffer2 := if s.nextBuffer = none then none else some .create, backend := .swapped } := by
  have hne : s.buffers ++ [s.currentBuffer] ≠ [] := by simp
  unfold swap
  rw [hfirst]
  dsimp only
  cases hb : s.nextBuffer with
  | none =>
    dsimp only
    rw [require_bind hne, hsecond, hbatch, if_pos rfl, pure_eq_ok]
  | some b =>
    obtain rfl := hnext b hb
    dsimp only
    rw [require_bind hne, hsecond, hbatch, if_neg nofun, pure_eq_ok]

theorem refill_some (b : LogBuffer) (batch : List LogBuffer) :
    refill (some b) batch = .ok (some b, batch) := rfl

theorem refill_none {batch : List LogBuffer} (h : batch ≠ []) :
    refill none batch = .ok (some .create, batch.dropLast) := by
  have hlast : batch.getLast?.map FixedBuffer.reset = some .create := by
    rw [List.getLast?_eq_some_getLast h]
    rfl
  unfold refill
  dsimp only
  rw [require_bind h, hlast, pure_eq_ok]

theorem recycle_eq (h : Taken s.newBuffer1 s.newBuffer2 s.buffersToWrite) :
    s.recycle = .ok { s with
    newBuffer1 := some .create, newBuffer2 := some .create, buffersToWrite := []
    backend := .top } := by
  have htake : s.buffersToWrite.take 2 ≠ [] := by
    intro hnil
    rcases List.take_eq_nil_iff.mp hnil with htwo | hbatch
    · cases htwo
    · exact h.nonempty hbatch
  unfold recycle
  rw [h.first, refill_none htake, ok_bind]
  dsimp only
  rcases h.second with hsecond | ⟨hsecond, hlen⟩
  · rw [hsecond, refill_some]
    rfl
  · have hlast : (s.buffersToWrite.take 2).dropLast ≠ [] := by
      apply List.ne_nil_of_length_pos
      rw [List.length_dropLast, List.length_take]
      omega
    rw [hsecond, refill_none hlast]
    rfl

theorem Pool.swapped (h : s.Pool) (hfirst : s.newBuffer1 = some .create)
    (hsecond : s.newBuffer2 = some .create) (hbatch : s.buffersToWrite = [])
    (ht : s.swap = .ok t) : t.Pool ∧ t = { s with
      currentBuffer := .create, newBuffer1 := none
      buffersToWrite := s.buffers ++ [s.currentBuffer], buffers := []
      nextBuffer := some .create
      newBuffer2 := if s.nextBuffer = none then none else some .create, backend := .swapped } := by
  rw [swap_eq h.next hfirst hsecond hbatch] at ht
  obtain rfl := Except.ok.inj ht
  refine ⟨⟨?_, nofun, ?_⟩, rfl⟩
  · intro b hb
    exact (Option.some.inj hb).symm
  · refine ⟨rfl, by simp, ?_⟩
    dsimp only
    by_cases hnext : s.nextBuffer = none
    · apply Or.inr
      rw [if_pos hnext]
      refine ⟨rfl, ?_⟩
      have hpos := List.length_pos_of_ne_nil (h.filled hnext)
      rw [List.length_append, List.length_singleton]
      omega
    · rw [if_neg hnext]
      exact .inl rfl

theorem Pool.ready (h : s.Pool) (hb : s.backend = .locking ∨ s.backend = .waiting) :
    s.newBuffer1 = some .create ∧ s.newBuffer2 = some .create ∧ s.buffersToWrite = [] := by
  have hspare := h.spare
  unfold Spare at hspare
  rcases hb with hb | hb <;> rw [hb] at hspare <;> exact hspare

theorem Pool.append (h : s.Pool) (logline : Line) : (s.append logline).Pool := by
  obtain ⟨hnext, hfilled, hspare⟩ := h
  unfold AsyncLogging.append
  dsimp only
  split_ifs with havail
  · exact ⟨hnext, hfilled, hspare⟩
  · cases hb : s.nextBuffer with
    | none => exact ⟨fun b hb' => absurd hb' (Option.not_mem_none b), fun _ => by simp, hspare⟩
    | some b => exact ⟨nofun, fun _ => by simp, hspare⟩

theorem Pool.write (h : s.Pool) {written : ℕ} (hb : s.backend = .writing written)
    (ht : s.write written = .ok t) :
    (∃ b, s.buffersToWrite[written]? = some b ∧
      t = { s with output := s.output ++ b.data, backend := .writing (written + 1) } ∧ t.Pool) ∨
    (s.buffersToWrite.length = written ∧ t.Pool ∧ t = { s with
      newBuffer1 := some .create, newBuffer2 := some .create, buffersToWrite := []
      backend := .top }) := by
  have hspare := h.spare
  unfold Spare at hspare
  rw [hb] at hspare
  obtain ⟨htaken, hle⟩ := hspare
  unfold AsyncLogging.write at ht
  cases hget : s.buffersToWrite[written]? with
  | some b =>
    rw [hget] at ht
    obtain rfl := Except.ok.inj ht
    obtain ⟨hlt, -⟩ := List.getElem?_eq_some_iff.mp hget
    exact .inl ⟨b, rfl, rfl, h.next, h.filled, htaken, hlt⟩
  | none =>
    rw [hget] at ht
    have hlen := List.getElem?_eq_none_iff.mp hget
    change s.recycle = .ok t at ht
    rw [recycle_eq htaken] at ht
    obtain rfl := Except.ok.inj ht
    exact .inr ⟨by omega, ⟨h.next, h.filled, rfl, rfl, rfl⟩, rfl⟩

/-- The machine without the bound on the length of a line. -/
def anyLines : Machine AsyncLogging Event Fault where
  enabled s
    | .append _ => True
    | e => machine.enabled s e
  step := machine.step

theorem anyLines_enabled {e : Event} (h : machine.enabled s e) : anyLines.enabled s e := by
  cases e with
  | append logline => trivial
  | start | begin | test | lock | wake | check now | write | stop | join => exact h

theorem Pool.check (h : s.Pool) (hb : s.backend = .swapped) (now : String) :
    (s.check now).Pool := by
  have hspare := h.spare
  unfold Spare at hspare
  rw [hb] at hspare
  obtain ⟨hfirst, hne, hsecond⟩ := hspare
  unfold AsyncLogging.check
  split_ifs with hlarge
  · have hlen : (s.buffersToWrite.take 2).length = 2 := by
      rw [List.length_take]
      omega
    refine ⟨h.next, h.filled, ⟨hfirst, ?_, hsecond.imp_right fun hs => ⟨hs.1, hlen.ge⟩⟩,
      Nat.zero_le _⟩
    refine List.ne_nil_of_length_pos ?_
    dsimp only
    rw [hlen]
    exact Nat.two_pos
  · exact ⟨h.next, h.filled, ⟨hfirst, hne, hsecond⟩, Nat.zero_le _⟩

theorem Pool.step (h : s.Pool) {e : Event} (he : anyLines.enabled s e)
    (ht : anyLines.step s e = .ok t) : t.Pool := by
  have hspare := h.spare
  unfold Spare at hspare
  cases e with
  | append logline =>
    obtain rfl := Except.ok.inj ht
    exact h.append logline
  | start =>
    obtain rfl := Except.ok.inj ht
    rw [show s.backend = .outside from he] at hspare
    exact ⟨h.next, h.filled, hspare⟩
  | begin =>
    obtain ⟨-, rfl⟩ := begin_eq ht
    exact ⟨h.next, h.filled, rfl, rfl, rfl⟩
  | test =>
    rw [show s.backend = .top from he] at hspare
    obtain ⟨-, rfl⟩ | ⟨-, rfl⟩ := test_cases ht
    · exact ⟨h.next, h.filled, hspare⟩
    · exact ⟨h.next, h.filled, hspare.2.2⟩
  | lock =>
    obtain ⟨hfirst, hsecond, hbatch⟩ := h.ready (.inl he)
    obtain ⟨-, rfl⟩ | ⟨-, ht⟩ := lock_cases ht
    · exact ⟨h.next, h.filled, hfirst, hsecond, hbatch⟩
    · exact (h.swapped hfirst hsecond hbatch ht).1
  | wake =>
    obtain ⟨hfirst, hsecond, hbatch⟩ := h.ready (.inr he)
    exact (h.swapped hfirst hsecond hbatch ht).1
  | check now =>
    obtain rfl := Except.ok.inj ht
    exact h.check he now
  | write =>
    obtain ⟨written, hb⟩ := he
    obtain ⟨_, -, -, hpool⟩ | ⟨-, hpool, -⟩ := h.write hb ((step_write hb).symm.trans ht)
    · exact hpool
    · exact hpool
  | stop | join =>
    obtain rfl := Except.ok.inj ht
    exact ⟨h.next, h.filled, h.spare⟩

/-- Where the backend starts, `start` has set `running_`. -/
def Started (s : AsyncLogging) : Prop := s.backend = .starting → s.running = true

theorem append_backend (s : AsyncLogging) (logline : Line) :
    (s.append logline).backend = s.backend ∧ (s.append logline).running = s.running := by
  unfold AsyncLogging.append
  dsimp only
  split_ifs
  · exact ⟨rfl, rfl⟩
  · cases s.nextBuffer with
    | none | some b => exact ⟨rfl, rfl⟩

theorem Started.step (hpool : s.Pool) (h : s.Started) {e : Event} (he : anyLines.enabled s e)
    (ht : anyLines.step s e = .ok t) : t.Started := by
  cases e with
  | append logline =>
    obtain rfl := Except.ok.inj ht
    obtain ⟨hbackend, hrunning⟩ := append_backend s logline
    exact fun hb => hrunning.trans (h (hbackend.symm.trans hb))
  | start =>
    obtain rfl := Except.ok.inj ht
    exact fun _ => rfl
  | begin =>
    obtain ⟨-, rfl⟩ := begin_eq ht
    exact nofun
  | test => obtain ⟨-, rfl⟩ | ⟨-, rfl⟩ := test_cases ht <;> exact nofun
  | lock =>
    obtain ⟨hfirst, hsecond, hbatch⟩ := hpool.ready (.inl he)
    obtain ⟨-, rfl⟩ | ⟨-, ht⟩ := lock_cases ht
    · exact nofun
    · rw [(hpool.swapped hfirst hsecond hbatch ht).2]
      exact nofun
  | wake =>
    obtain ⟨hfirst, hsecond, hbatch⟩ := hpool.ready (.inr he)
    rw [(hpool.swapped hfirst hsecond hbatch ht).2]
    exact nofun
  | check now =>
    obtain rfl := Except.ok.inj ht
    unfold AsyncLogging.check
    split_ifs <;> exact nofun
  | write =>
    obtain ⟨written, hb⟩ := he
    obtain ⟨_, -, rfl, -⟩ | ⟨-, -, rfl⟩ := hpool.write hb ((step_write hb).symm.trans ht) <;>
      exact nofun
  | stop =>
    obtain rfl := Except.ok.inj ht
    exact fun hb => absurd hb he.2.1
  | join =>
    obtain rfl := Except.ok.inj ht
    exact h

/-- In a state that the runs reach, no assertion fails and `currentBuffer_` is never left empty. -/
theorem Pool.steps (h : s.Pool) (hstarted : s.Started) {e : Event} (he : anyLines.enabled s e) :
    ∃ t, anyLines.step s e = .ok t := by
  have hspare := h.spare
  unfold Spare at hspare
  cases e with
  | append logline | start | check now | stop | join => exact ⟨_, rfl⟩
  | begin => exact ⟨_, require_bind (hstarted he) _⟩
  | test =>
    rw [show s.backend = .top from he] at hspare
    obtain ⟨hfirst, hsecond, hbatch⟩ := hspare
    have hempty : Empty (some .create) := ⟨_, rfl, rfl⟩
    change ∃ t, s.test = .ok t
    unfold AsyncLogging.test
    split_ifs with hrunning
    · rw [hfirst, hsecond, require_bind hempty, require_bind hempty, require_bind hbatch]
      exact ⟨_, rfl⟩
    · exact ⟨_, rfl⟩
  | lock =>
    obtain ⟨hfirst, hsecond, hbatch⟩ := h.ready (.inl he)
    change ∃ t, s.lock = .ok t
    unfold AsyncLogging.lock
    split_ifs
    · exact ⟨_, rfl⟩
    · exact ⟨_, swap_eq h.next hfirst hsecond hbatch⟩
  | wake =>
    obtain ⟨hfirst, hsecond, hbatch⟩ := h.ready (.inr he)
    exact ⟨_, swap_eq h.next hfirst hsecond hbatch⟩
  | write =>
    obtain ⟨written, hb⟩ := he
    rw [hb] at hspare
    change ∃ t, machine.step s .write = .ok t
    rw [step_write hb]
    unfold AsyncLogging.write
    cases hget : s.buffersToWrite[written]? with
    | some b => exact ⟨_, rfl⟩
    | none => exact ⟨_, recycle_eq hspare.1⟩

/-- For lines of any length and any interleaving: the buffer pool never runs dry. -/
theorem pool_never_dry {es : List Event} (h : anyLines.Run Machine.Any create es s) :
    (∀ e, anyLines.enabled s e → ∃ t, anyLines.step s e = .ok t) ∧
    (∀ b ∈ s.nextBuffer, b.length = 0) ∧
    (s.backend = .top →
      Empty s.newBuffer1 ∧ Empty s.newBuffer2 ∧ s.buffersToWrite = []) ∧
    (s.backend = .locking ∨ s.backend = .waiting → Empty s.newBuffer1) ∧
    ∀ written, s.backend = .writing written →
      s.buffersToWrite ≠ [] ∧
        (s.newBuffer1 = none → s.newBuffer2 = none → 2 ≤ s.buffersToWrite.length) := by
  obtain ⟨hpool, hstarted⟩ : s.Pool ∧ s.Started :=
    h.invariant (fun s => s.Pool ∧ s.Started) ⟨create_pool, nofun⟩
      fun _ _ _ ⟨hp, hs⟩ he _ ht => ⟨hp.step he ht, hs.step hp he ht⟩
  have hempty : ∀ b : Option LogBuffer, b = some .create → Empty b := by
    rintro _ rfl
    exact ⟨_, rfl, rfl⟩
  have hspare := hpool.spare
  unfold Spare at hspare
  refine ⟨fun e => hpool.steps hstarted, fun b hb => ?_, fun hb => ?_, fun hb => ?_,
    fun written hb => ?_⟩
  · rw [hpool.next b hb]
    rfl
  · rw [hb] at hspare
    exact ⟨hempty _ hspare.1, hempty _ hspare.2.1, hspare.2.2⟩
  · exact hempty _ (hpool.ready hb).1
  · rw [hb] at hspare
    obtain ⟨⟨-, hne, hsecond⟩, -⟩ := hspare
    refine ⟨hne, fun _ hnone => (hsecond.resolve_left fun hs => ?_).2⟩
    exact absurd (hs.symm.trans hnone) nofun

instance (s : AsyncLogging) : ∀ e, Decidable (anyLines.enabled s e)
  | .append _ => .isTrue trivial
  | .start => inferInstanceAs (Decidable (machine.enabled s .start))
  | .begin => inferInstanceAs (Decidable (machine.enabled s .begin))
  | .test => inferInstanceAs (Decidable (machine.enabled s .test))
  | .lock => inferInstanceAs (Decidable (machine.enabled s .lock))
  | .wake => inferInstanceAs (Decidable (machine.enabled s .wake))
  | .check now => inferInstanceAs (Decidable (machine.enabled s (.check now)))
  | .write => inferInstanceAs (Decidable (machine.enabled s .write))
  | .stop => inferInstanceAs (Decidable (machine.enabled s .stop))
  | .join => inferInstanceAs (Decidable (machine.enabled s .join))

/-- The batch is written and the spare buffers are given back, while a line is appended. -/
theorem pool_never_dry_round : ∃ s, anyLines.Run Machine.Any create
      [.start, .begin, .test, .lock, .append [97, 10], .wake, .append [98, 10], .check "", .write,
        .write] s ∧
    s.backend = .top ∧
    (∀ e, anyLines.enabled s e → ∃ t, anyLines.step s e = .ok t) ∧
    (∀ b ∈ s.nextBuffer, b.length = 0) ∧
    (s.backend = .top →
      Empty s.newBuffer1 ∧ Empty s.newBuffer2 ∧ s.buffersToWrite = []) ∧
    (s.backend = .locking ∨ s.backend = .waiting → Empty s.newBuffer1) ∧
    ∀ written, s.backend = .writing written →
      s.buffersToWrite ≠ [] ∧
        (s.newBuffer1 = none → s.newBuffer2 = none → 2 ≤ s.buffersToWrite.length) := by
  obtain ⟨s, hs, hp⟩ := Machine.exists_run_of_exec anyLines Machine.Any create
    [.start, .begin, .test, .lock, .append [97, 10], .wake, .append [98, 10], .check "", .write,
      .write]
    (fun s => decide (s.backend = .top)) (by decide)
  exact ⟨s, hs, of_decide_eq_true hp, pool_never_dry hs⟩

end AsyncLogging
end MuduoWindows.Base
