import MuduoWindows.Base.AsyncLogging.Pool

/-! # Lines in order

A line stays whole on its way through the buffers and the batch to the file, in the order of the
calls.
-/

namespace MuduoWindows.Base
open Library Net

namespace AsyncLogging
variable {s t : AsyncLogging}

/-- The lines by where they are: in the file, in each of the full buffers, in the current one. -/
structure Placed (s : AsyncLogging) (written : List Line) (pending : List (List Line))
    (current : List Line) : Prop where
  output : s.output = written.flatten
  buffers : (s.unwritten ++ s.buffers).map FixedBuffer.data = pending.map List.flatten
  currentBuffer : s.currentBuffer.data = current.flatten
  appended : s.appended = written ++ pending.flatten ++ current

/-- Every line is whole in one place, and the places are in the order of the lines. -/
def InOrder (s : AsyncLogging) : Prop := ∃ written pending current, s.Placed written pending current

/-- The bytes that have not been handed to the file. -/
def pendingBytes (s : AsyncLogging) : List UInt8 :=
  (s.buffers.map FixedBuffer.data).flatten ++ s.currentBuffer.data

theorem InOrder.bytes (h : s.InOrder) :
    s.output ++ (s.unwritten.map FixedBuffer.data).flatten ++ s.pendingBytes =
      s.appended.flatten := by
  obtain ⟨written, pending, current, houtput, hbuffers, hcurrent, happended⟩ := h
  have hpending : (s.unwritten.map FixedBuffer.data).flatten ++
      (s.buffers.map FixedBuffer.data).flatten = pending.flatten.flatten := by
    rw [← List.flatten_append, ← List.map_append, hbuffers, List.flatten_flatten]
  calc s.output ++ (s.unwritten.map FixedBuffer.data).flatten ++ s.pendingBytes
      = s.output ++ ((s.unwritten.map FixedBuffer.data).flatten ++
          (s.buffers.map FixedBuffer.data).flatten) ++ s.currentBuffer.data := by
        unfold pendingBytes
        simp only [List.append_assoc]
    _ = written.flatten ++ pending.flatten.flatten ++ current.flatten := by
        rw [houtput, hpending, hcurrent]
    _ = s.appended.flatten := by
        rw [happended, List.flatten_append, List.flatten_append]

def Uncut (s : AsyncLogging) : Event → Prop
  | .lock | .wake => s.buffers.length + 1 ≤ 25
  | _ => True

instance (s : AsyncLogging) : ∀ e, Decidable (Uncut s e)
  | .lock | .wake => inferInstanceAs (Decidable (_ ≤ _))
  | .append _ | .start | .begin | .test | .check _ | .write | .stop | .join => .isTrue trivial

theorem create_inOrder : create.InOrder := ⟨[], [], [], rfl, rfl, rfl, rfl⟩

theorem InOrder.append (h : s.InOrder) (hnext : ∀ b ∈ s.nextBuffer, b = .create) {logline : Line}
    (hlen : logline.length < kLargeBuffer) : (s.append logline).InOrder := by
  obtain ⟨written, pending, current, houtput, hbuffers, hcurrent, happended⟩ := h
  rcases append_cases hnext hlen with ⟨b, hb, heq⟩ | ⟨b, hb, heq⟩
  · rw [heq]
    refine ⟨written, pending, current ++ [logline], houtput, hbuffers, ?_, ?_⟩
    · change b.data = _
      rw [hb, hcurrent, List.flatten_append, List.flatten_singleton]
    · change s.appended ++ [logline] = _
      rw [happended, List.append_assoc _ current]
  · rw [heq]
    refine ⟨written, pending ++ [current], [logline], houtput, ?_, ?_, ?_⟩
    · change (s.unwritten ++ (s.buffers ++ [s.currentBuffer])).map _ = _
      rw [← List.append_assoc, List.map_append, hbuffers, List.map_append, List.map_singleton,
        List.map_singleton, hcurrent]
    · change b.data = _
      rw [hb, List.flatten_singleton]
    · change s.appended ++ [logline] = _
      rw [happended, List.flatten_append, List.flatten_singleton, List.append_assoc written]

theorem InOrder.swapped (h : s.InOrder) (hs : s.unwritten = [])
    (ht : t = { s with
      currentBuffer := .create, newBuffer1 := none
      buffersToWrite := s.buffers ++ [s.currentBuffer], buffers := []
      nextBuffer := some .create
      newBuffer2 := if s.nextBuffer = none then none else some .create, backend := .swapped }) :
    t.InOrder := by
  obtain ⟨written, pending, current, houtput, hbuffers, hcurrent, happended⟩ := h
  subst ht
  rw [hs, List.nil_append] at hbuffers
  refine ⟨written, pending ++ [current], [], houtput, ?_, rfl, ?_⟩
  · change ((s.buffers ++ [s.currentBuffer]) ++ []).map _ = _
    rw [List.append_nil, List.map_append, hbuffers, List.map_append, List.map_singleton,
      List.map_singleton, hcurrent]
  · change s.appended = _
    rw [happended, List.flatten_append, List.flatten_singleton, List.append_nil,
      List.append_assoc written]

theorem InOrder.written (h : s.InOrder) {written : ℕ} (hb : s.backend = .writing written)
    {b : LogBuffer} (hget : s.buffersToWrite[written]? = some b)
    (ht : t = { s with output := s.output ++ b.data, backend := .writing (written + 1) }) :
    t.InOrder := by
  obtain ⟨old, pending, current, houtput, hbuffers, hcurrent, happended⟩ := h
  subst ht
  obtain ⟨hlt, hget⟩ := List.getElem?_eq_some_iff.mp hget
  have hold : s.unwritten = b :: s.buffersToWrite.drop (written + 1) := by
    unfold unwritten
    rw [hb, ← hget]
    exact List.drop_eq_getElem_cons hlt
  rw [hold, List.cons_append, List.map_cons] at hbuffers
  cases pending with
  | nil => cases hbuffers
  | cons first pending =>
    rw [List.map_cons] at hbuffers
    obtain ⟨hfirst, hrest⟩ := List.cons.inj hbuffers
    refine ⟨old ++ first, pending, current, ?_, hrest, hcurrent, ?_⟩
    · change s.output ++ b.data = _
      rw [houtput, hfirst, List.flatten_append]
    · change s.appended = _
      rw [happended, List.flatten_cons, List.append_assoc old, List.append_assoc old,
        List.append_assoc old, List.append_assoc first]

theorem InOrder.same (h : s.InOrder) (houtput : t.output = s.output)
    (hunwritten : t.unwritten = s.unwritten) (hbuffers : t.buffers = s.buffers)
    (hcurrent : t.currentBuffer = s.currentBuffer) (happended : t.appended = s.appended) :
    t.InOrder := by
  obtain ⟨written, pending, current, h1, h2, h3, h4⟩ := h
  refine ⟨written, pending, current, ?_, ?_, ?_, ?_⟩
  · rw [houtput, h1]
  · rw [hunwritten, hbuffers, h2]
  · rw [hcurrent, h3]
  · rw [happended, h4]

structure Kept (s : AsyncLogging) : Prop where
  pool : s.Pool
  order : s.InOrder
  small : s.backend = .swapped → s.buffersToWrite.length ≤ 25

theorem create_kept : create.Kept := ⟨create_pool, create_inOrder, nofun⟩

theorem unwritten_eq (h : ∀ n, s.backend ≠ .writing n) : s.unwritten = s.buffersToWrite := by
  unfold unwritten
  cases hb : s.backend with
  | writing n => exact absurd hb (h n)
  | _ => rfl

theorem Kept.moved (h : s.Kept) (hs : ∀ n, s.backend ≠ .writing n) (hpool : t.Pool)
    (ht : t.unwritten = s.buffersToWrite) (hout : t.output = s.output)
    (hbuffers : t.buffers = s.buffers) (hcurrent : t.currentBuffer = s.currentBuffer)
    (happended : t.appended = s.appended) (hsmall : t.backend ≠ .swapped) : t.Kept :=
  ⟨hpool, h.order.same hout (ht.trans (unwritten_eq hs).symm) hbuffers hcurrent happended,
    fun hb => absurd hb hsmall⟩

theorem Kept.swap (h : s.Kept) (hb : s.backend = .locking ∨ s.backend = .waiting)
    (hsmall : s.buffers.length + 1 ≤ 25) (ht : s.swap = .ok t) : t.Kept := by
  obtain ⟨hfirst, hsecond, hbatch⟩ := h.pool.ready hb
  obtain ⟨hpool, ht⟩ := h.pool.swapped hfirst hsecond hbatch ht
  have hunwritten : s.unwritten = [] := by
    rw [unwritten_eq, hbatch]
    intro n hn
    rcases hb with hb | hb <;> rw [hb] at hn <;> cases hn
  refine ⟨hpool, h.order.swapped hunwritten ht, ?_⟩
  intro _
  rw [ht]
  change (s.buffers ++ [s.currentBuffer]).length ≤ 25
  rw [List.length_append, List.length_singleton]
  exact hsmall

theorem Kept.append (h : s.Kept) {logline : Line} (hlen : logline.length < kLargeBuffer) :
    (s.append logline).Kept := by
  refine ⟨h.pool.append logline, h.order.append h.pool.next hlen, ?_⟩
  rcases append_cases h.pool.next hlen with ⟨b, -, heq⟩ | ⟨b, -, heq⟩ <;>
  · rw [heq]
    exact h.small

theorem Kept.write (h : s.Kept) {written : ℕ} (hb : s.backend = .writing written)
    (ht : s.write written = .ok t) : t.Kept := by
  rcases h.pool.write hb ht with ⟨b, hget, heq, hpool⟩ | ⟨hlen, hpool, heq⟩
  · refine ⟨hpool, h.order.written hb hget heq, ?_⟩
    rw [heq]
    nofun
  · subst heq
    refine ⟨hpool, h.order.same rfl ?_ rfl rfl rfl, nofun⟩
    unfold unwritten
    rw [hb]
    exact (List.drop_eq_nil_of_le hlen.le).symm

theorem Kept.step (h : s.Kept) {e : Event} (he : machine.enabled s e) (huncut : Uncut s e)
    (ht : machine.step s e = .ok t) : t.Kept := by
  have hpool := h.pool.step (anyLines_enabled he) ht
  cases e with
  | append logline =>
    obtain rfl := Except.ok.inj ht
    exact h.append he
  | start =>
    obtain rfl := Except.ok.inj ht
    change s.backend = .outside at he
    exact h.moved (by rw [he]; nofun) hpool rfl rfl rfl rfl rfl nofun
  | begin =>
    obtain ⟨-, rfl⟩ := begin_eq ht
    have hspare := h.pool.spare
    unfold Spare at hspare
    change s.backend = .starting at he
    rw [he] at hspare
    exact h.moved (by rw [he]; nofun) hpool hspare.symm rfl rfl rfl rfl nofun
  | test =>
    change s.backend = .top at he
    rcases test_cases ht with ⟨-, rfl⟩ | ⟨-, rfl⟩ <;>
      exact h.moved (by rw [he]; nofun) hpool rfl rfl rfl rfl rfl nofun
  | lock =>
    change s.backend = .locking at he
    rcases lock_cases ht with ⟨-, rfl⟩ | ⟨-, ht⟩
    · exact h.moved (by rw [he]; nofun) hpool rfl rfl rfl rfl rfl nofun
    · exact h.swap (.inl he) huncut ht
  | wake => exact h.swap (.inr he) huncut ht
  | check now =>
    obtain rfl := Except.ok.inj ht
    change s.backend = .swapped at he
    have hcheck : s.check now = { s with backend := .writing 0 } :=
      if_neg (not_lt.mpr (h.small he))
    rw [hcheck] at hpool ⊢
    exact h.moved (by rw [he]; nofun) hpool rfl rfl rfl rfl rfl nofun
  | write =>
    obtain ⟨written, hb⟩ := he
    rw [step_write hb] at ht
    exact h.write hb ht
  | stop | join =>
    obtain rfl := Except.ok.inj ht
    exact ⟨hpool, h.order.same rfl rfl rfl rfl rfl, h.small⟩

theorem run_kept {Q : AsyncLogging → Event → Prop} (hQ : ∀ s e, Q s e → Uncut s e)
    {es : List Event} (h : machine.Run Q create es s) : s.Kept :=
  h.invariant Kept create_kept fun s e _ hs he hq ht => hs.step he (hQ s e hq) ht

/-- What the file has been given, the rest of the batch, the full buffers and the current one are
the lines in the order of their calls. No line is split between them. -/
theorem lines_in_order {es : List Event} (h : machine.Run Uncut create es s) :
    s.output ++ (s.unwritten.map FixedBuffer.data).flatten ++
      (s.buffers.map FixedBuffer.data).flatten ++ s.currentBuffer.data = s.appended.flatten ∧
    s.InOrder := by
  have horder := (run_kept (fun _ _ => id) h).order
  refine ⟨?_, horder⟩
  rw [← horder.bytes]
  unfold pendingBytes
  rw [List.append_assoc _ (s.buffers.map FixedBuffer.data).flatten]

/-- A line is appended while the backend waits, another one while it writes. -/
theorem lines_in_order_two : ∃ s, machine.Run Uncut create
      [.start, .begin, .test, .lock, .append [97, 10], .wake, .append [98, 10], .check "",
        .write] s ∧
    s.output = [97, 10] ∧ s.currentBuffer.data = [98, 10] ∧
    s.output ++ (s.unwritten.map FixedBuffer.data).flatten ++
      (s.buffers.map FixedBuffer.data).flatten ++ s.currentBuffer.data = s.appended.flatten := by
  obtain ⟨s, hs, hp⟩ := Machine.exists_run_of_exec machine Uncut create
    [.start, .begin, .test, .lock, .append [97, 10], .wake, .append [98, 10], .check "", .write]
    (fun s => decide (s.output = [97, 10] ∧ s.currentBuffer.data = [98, 10])) (by decide)
  obtain ⟨houtput, hcurrent⟩ := of_decide_eq_true hp
  exact ⟨s, hs, houtput, hcurrent, (lines_in_order hs).1⟩

end AsyncLogging
end MuduoWindows.Base
