import MuduoWindows.Base.AsyncLogging.Lines

/-! # Every line is accounted for

A batch of more than 25 buffers loses all but its first two, and a message says how many are gone.
No bound on the batches is assumed here: the history of the buffers says of each whether it was
written, dropped or is still held, and the messages count the dropped ones.
-/

namespace MuduoWindows.Base
open Library Net

namespace AsyncLogging
variable {s t : AsyncLogging}

/-- The argument of a call of `output->append`: the lines of a buffer, or the message. -/
inductive Piece where
  | buffer (lines : List Line)
  | message (now : String) (dropped : ℕ)

namespace Piece

def bytes : Piece → List UInt8
  | .buffer lines => lines.flatten
  | .message now dropped => droppedMessage now dropped

def lines : Piece → List Line
  | .buffer lines => lines
  | .message _ _ => []

def dropped : Piece → ℕ
  | .buffer _ => 0
  | .message _ dropped => dropped

end Piece

/-- What a step passes to `output->append`. -/
def passed (s : AsyncLogging) : Event → Option (List UInt8)
  | .check now =>
    if s.buffersToWrite.length > 25 then
      some (droppedMessage now (s.buffersToWrite.length - 2))
    else none
  | .write =>
    match s.backend with
    | .writing written => s.buffersToWrite[written]?.map FixedBuffer.data
    | _ => none
  | _ => none

inductive Fate where
  | written
  | dropped
  | held
  deriving DecidableEq

/-- The buffers in the order in which they were filled, each with its lines. -/
abbrev History := List (List Line × Fate)

namespace History

def lines (h : History) : List Line := (h.map Prod.fst).flatten

def linesOf (f : Fate) (h : History) : List Line := lines (h.filter fun b => decide (b.2 = f))

def count (f : Fate) (h : History) : ℕ := h.countP fun b => decide (b.2 = f)

def all (f : Fate) (buffers : List (List Line)) : History := buffers.map fun b => (b, f)

variable (h k : History) (f g : Fate) (buffers : List (List Line))

@[simp] theorem lines_append : (h ++ k : History).lines = h.lines ++ k.lines := by
  unfold lines
  rw [List.map_append, List.flatten_append]

@[simp] theorem linesOf_append :
    History.linesOf f (h ++ k) = History.linesOf f h ++ History.linesOf f k := by
  unfold linesOf
  rw [List.filter_append, lines_append]

@[simp] theorem count_append :
    History.count f (h ++ k) = History.count f h + History.count f k := List.countP_append

@[simp] theorem lines_all : (all f buffers).lines = buffers.flatten := by
  unfold lines all
  rw [List.map_map]
  exact congrArg List.flatten (List.map_id buffers)

@[simp] theorem linesOf_all : linesOf f (all f buffers) = buffers.flatten := by
  have hfilter : (all f buffers).filter (fun b => decide (b.2 = f)) = all f buffers := by
    refine List.filter_eq_self.mpr fun b hb => ?_
    obtain ⟨lines, -, rfl⟩ := List.mem_map.mp hb
    exact decide_eq_true rfl
  unfold linesOf
  rw [hfilter, lines_all]

theorem linesOf_all_of_ne {f g : Fate} (hne : g ≠ f) : linesOf f (all g buffers) = [] := by
  have hfilter : (all g buffers).filter (fun b => decide (b.2 = f)) = [] := by
    refine List.filter_eq_nil_iff.mpr fun b hb => ?_
    obtain ⟨lines, -, rfl⟩ := List.mem_map.mp hb
    exact fun h => hne (of_decide_eq_true h)
  unfold linesOf
  rw [hfilter]
  rfl

@[simp] theorem count_all : count f (all f buffers) = buffers.length := by
  unfold count all
  rw [List.countP_map]
  exact List.countP_eq_length.mpr fun _ _ => decide_eq_true rfl

theorem count_all_of_ne {f g : Fate} (hne : g ≠ f) : count f (all g buffers) = 0 := by
  unfold count all
  rw [List.countP_map]
  exact List.countP_eq_zero.mpr fun _ _ h => hne (of_decide_eq_true h)

def Settled (h : History) : Prop := ∀ b ∈ h, b.2 ≠ .held

variable {h k} {f}

theorem Settled.append (hh : h.Settled) (hk : k.Settled) : History.Settled (h ++ k) :=
  List.forall_mem_append.mpr ⟨hh, hk⟩

theorem settled_all (hne : f ≠ .held) : (all f buffers).Settled := by
  intro b hb
  obtain ⟨lines, -, rfl⟩ := List.mem_map.mp hb
  exact hne

theorem Settled.linesOf_written (hh : h.Settled) (hdropped : count .dropped h = 0) :
    linesOf .written h = h.lines := by
  have hfilter : h.filter (fun b => decide (b.2 = .written)) = h := by
    refine List.filter_eq_self.mpr fun b hb => decide_eq_true ?_
    have hne := List.countP_eq_zero.mp hdropped b hb
    cases hf : b.2 with
    | written => rfl
    | dropped => exact absurd (decide_eq_true hf) hne
    | held => exact absurd hf (hh b hb)
  unfold linesOf
  rw [hfilter]

end History

/-- `past` has left the batch: its buffers are written or dropped. Of the batch, `waiting` is not
written yet and `lost` was cut off behind it; `pending` and `current` are in the front end. -/
structure Accounted (s : AsyncLogging) (pieces : List Piece) (past : History)
    (waiting lost pending : List (List Line)) (current : List Line) : Prop where
  output : s.output = pieces.flatMap Piece.bytes
  settled : past.Settled
  written : pieces.flatMap Piece.lines = past.linesOf .written
  messages : (pieces.map Piece.dropped).sum = past.count .dropped + lost.length
  batch : s.unwritten.map FixedBuffer.data = waiting.map List.flatten
  buffers : s.buffers.map FixedBuffer.data = pending.map List.flatten
  currentBuffer : s.currentBuffer.data = current.flatten
  appended : s.appended =
    past.lines ++ waiting.flatten ++ lost.flatten ++ pending.flatten ++ current
  uncut : (∀ n, s.backend ≠ .writing n) → lost = []

variable {pieces : List Piece} {past : History} {waiting lost pending : List (List Line)}
  {current : List Line}

theorem create_accounted : create.Accounted [] [] [] [] [] [] :=
  ⟨rfl, nofun, rfl, rfl, rfl, rfl, rfl, rfl, fun _ => rfl⟩

theorem Accounted.append (h : s.Accounted pieces past waiting lost pending current)
    (hnext : ∀ b ∈ s.nextBuffer, b = .create) {logline : Line}
    (hlen : logline.length < kLargeBuffer) :
    ∃ pending current, (s.append logline).Accounted pieces past waiting lost pending current := by
  rcases append_cases hnext hlen with ⟨b, hb, heq⟩ | ⟨b, hb, heq⟩
  · rw [heq]
    refine ⟨pending, current ++ [logline], h.output, h.settled, h.written, h.messages, h.batch,
      h.buffers, ?_, ?_, h.uncut⟩
    · change b.data = _
      rw [hb, h.currentBuffer, List.flatten_append, List.flatten_singleton]
    · change s.appended ++ [logline] = _
      rw [h.appended, List.append_assoc _ current]
  · rw [heq]
    refine ⟨pending ++ [current], [logline], h.output, h.settled, h.written, h.messages, h.batch,
      ?_, ?_, ?_, h.uncut⟩
    · change (s.buffers ++ [s.currentBuffer]).map _ = _
      rw [List.map_append, h.buffers, List.map_append, List.map_singleton, List.map_singleton,
        h.currentBuffer]
    · change b.data = _
      rw [hb, List.flatten_singleton]
    · change s.appended ++ [logline] = _
      rw [h.appended, List.flatten_append, List.flatten_singleton, List.append_assoc _ _ current]

theorem Accounted.same (h : s.Accounted pieces past waiting lost pending current)
    (houtput : t.output = s.output) (hunwritten : t.unwritten = s.unwritten)
    (hbuffers : t.buffers = s.buffers) (hcurrent : t.currentBuffer = s.currentBuffer)
    (happended : t.appended = s.appended)
    (huncut : (∀ n, t.backend ≠ .writing n) → ∀ n, s.backend ≠ .writing n) :
    t.Accounted pieces past waiting lost pending current :=
  ⟨houtput.trans h.output, h.settled, h.written, h.messages, hunwritten ▸ h.batch,
    hbuffers ▸ h.buffers, hcurrent ▸ h.currentBuffer, happended.trans h.appended,
    fun ht => h.uncut (huncut ht)⟩

theorem Accounted.swapped (h : s.Accounted pieces past waiting lost pending current)
    (hs : s.unwritten = []) (hb : ∀ n, s.backend ≠ .writing n) (ht : t = { s with
      currentBuffer := .create, newBuffer1 := none
      buffersToWrite := s.buffers ++ [s.currentBuffer], buffers := []
      nextBuffer := some .create
      newBuffer2 := if s.nextBuffer = none then none else some .create, backend := .swapped }) :
    t.Accounted pieces past (pending ++ [current]) [] [] [] := by
  have hlost := h.uncut hb
  have hwaiting : waiting = [] := by
    have hbatch := h.batch
    rw [hs] at hbatch
    exact List.map_eq_nil_iff.mp hbatch.symm
  have happended := h.appended
  have hmessages := h.messages
  subst ht hlost hwaiting
  refine ⟨h.output, h.settled, h.written, hmessages, ?_, rfl, rfl, ?_, fun _ => rfl⟩
  · change (s.buffers ++ [s.currentBuffer]).map _ = _
    rw [List.map_append, h.buffers, List.map_append, List.map_singleton, List.map_singleton,
      h.currentBuffer]
  · change s.appended = _
    rw [happended]
    simp

theorem Accounted.check (h : s.Accounted pieces past waiting lost pending current)
    (hb : s.backend = .swapped) (now : String) :
    ∃ piece : Option Piece, piece.map Piece.bytes = s.passed (.check now) ∧
      ∃ waiting lost, (s.check now).Accounted (pieces ++ piece.toList) past waiting lost pending
        current := by
  have hunwritten : s.unwritten = s.buffersToWrite := by
    unfold unwritten
    rw [hb]
  have hlost : lost = [] := h.uncut (by rw [hb]; nofun)
  have hbatch := h.batch
  rw [hunwritten] at hbatch
  by_cases hlarge : s.buffersToWrite.length > 25
  · have hcheck : s.check now = { s with
        output := s.output ++ droppedMessage now (s.buffersToWrite.length - 2)
        buffersToWrite := s.buffersToWrite.take 2, backend := .writing 0 } := if_pos hlarge
    have hlength : waiting.length = s.buffersToWrite.length := by
      simpa using (congrArg List.length hbatch).symm
    refine ⟨some (.message now (s.buffersToWrite.length - 2)), (if_pos hlarge).symm,
      waiting.take 2, waiting.drop 2, ?_⟩
    rw [hcheck]
    refine ⟨?_, h.settled, ?_, ?_, ?_, h.buffers, h.currentBuffer, ?_, ?_⟩
    · change s.output ++ _ = _
      rw [h.output, List.flatMap_append]
      exact congrArg _ (List.append_nil _).symm
    · rw [List.flatMap_append, h.written]
      exact List.append_nil _
    · rw [List.map_append, List.sum_append, h.messages, hlost, List.length_drop, hlength]
      rfl
    · change ((s.buffersToWrite.take 2).drop 0).map _ = _
      rw [List.drop_zero, List.map_take, hbatch, List.map_take]
    · change s.appended = _
      rw [h.appended, hlost, List.append_assoc past.lines (waiting.take 2).flatten,
        ← List.flatten_append, List.take_append_drop]
      simp
    · exact fun hn => absurd rfl (hn 0)
  · have hcheck : s.check now = { s with backend := .writing 0 } := if_neg hlarge
    refine ⟨none, (if_neg hlarge).symm, waiting, lost, ?_⟩
    rw [hcheck, Option.toList_none, List.append_nil]
    exact h.same rfl hunwritten.symm rfl rfl rfl fun hn => absurd rfl (hn 0)

theorem Accounted.written_next (h : s.Accounted pieces past waiting lost pending current)
    {written : ℕ} (hb : s.backend = .writing written) {b : LogBuffer}
    (hget : s.buffersToWrite[written]? = some b)
    (ht : t = { s with output := s.output ++ b.data, backend := .writing (written + 1) }) :
    ∃ lines waiting', waiting = lines :: waiting' ∧ lines.flatten = b.data ∧
      t.Accounted (pieces ++ [.buffer lines]) (past ++ History.all .written [lines]) waiting' lost
        pending current := by
  obtain ⟨hlt, hget⟩ := List.getElem?_eq_some_iff.mp hget
  have hold : s.unwritten = b :: s.buffersToWrite.drop (written + 1) := by
    unfold unwritten
    rw [hb, ← hget]
    exact List.drop_eq_getElem_cons hlt
  have hbatch := h.batch
  rw [hold, List.map_cons] at hbatch
  cases waiting with
  | nil => cases hbatch
  | cons lines waiting =>
    obtain ⟨hlines, hrest⟩ := List.cons.inj hbatch
    subst ht
    refine ⟨lines, waiting, rfl, hlines.symm, ?_, ?_, ?_, ?_, hrest, h.buffers, h.currentBuffer,
      ?_, ?_⟩
    · change s.output ++ b.data = _
      rw [h.output, hlines, List.flatMap_append]
      exact congrArg _ (List.append_nil _).symm
    · exact h.settled.append (History.settled_all _ nofun)
    · rw [List.flatMap_append, h.written, History.linesOf_append, History.linesOf_all]
      exact congrArg _ ((List.append_nil _).trans (List.flatten_singleton).symm)
    · rw [List.map_append, List.sum_append, h.messages, History.count_append,
        History.count_all_of_ne _ (show Fate.written ≠ .dropped by decide)]
      rfl
    · change s.appended = _
      rw [h.appended, History.lines_append, History.lines_all]
      simp
    · exact fun hn => absurd rfl (hn (written + 1))

theorem Accounted.recycled (h : s.Accounted pieces past waiting lost pending current)
    {written : ℕ} (hb : s.backend = .writing written) (hlen : s.buffersToWrite.length = written)
    (ht : t = { s with
      newBuffer1 := some .create, newBuffer2 := some .create, buffersToWrite := []
      backend := .top }) :
    t.Accounted pieces (past ++ History.all .dropped lost) [] [] pending current := by
  have hwaiting : waiting = [] := by
    have hbatch := h.batch
    unfold unwritten at hbatch
    rw [hb] at hbatch
    dsimp only at hbatch
    rw [List.drop_eq_nil_of_le hlen.le] at hbatch
    exact List.map_eq_nil_iff.mp hbatch.symm
  have happended := h.appended
  subst ht hwaiting
  refine ⟨h.output, h.settled.append (History.settled_all _ nofun), ?_, ?_, rfl, h.buffers,
    h.currentBuffer, ?_, fun _ => rfl⟩
  · rw [h.written, History.linesOf_append,
      History.linesOf_all_of_ne _ (show Fate.dropped ≠ .written by decide), List.append_nil]
  · rw [h.messages, History.count_append, History.count_all, List.length_nil, add_zero]
  · change s.appended = _
    rw [happended, History.lines_append, History.lines_all]
    simp

theorem Accounted.moved (h : s.Accounted pieces past waiting lost pending current)
    (hs : ∀ n, s.backend ≠ .writing n) (ht : t.unwritten = s.buffersToWrite)
    (houtput : t.output = s.output) (hbuffers : t.buffers = s.buffers)
    (hcurrent : t.currentBuffer = s.currentBuffer) (happended : t.appended = s.appended) :
    t.Accounted pieces past waiting lost pending current :=
  h.same houtput (ht.trans (unwritten_eq hs).symm) hbuffers hcurrent happended fun _ => hs

theorem Accounted.step (h : s.Accounted pieces past waiting lost pending current) (hpool : s.Pool)
    {e : Event} (he : machine.enabled s e) (ht : machine.step s e = .ok t) :
    ∃ piece : Option Piece, piece.map Piece.bytes = s.passed e ∧
      ∃ past waiting lost pending current,
        t.Accounted (pieces ++ piece.toList) past waiting lost pending current := by
  have hquiet : s.passed e = none → (∃ past waiting lost pending current,
      t.Accounted pieces past waiting lost pending current) →
      ∃ piece : Option Piece, piece.map Piece.bytes = s.passed e ∧
        ∃ past waiting lost pending current,
          t.Accounted (pieces ++ piece.toList) past waiting lost pending current := by
    intro hnone haccount
    refine ⟨none, hnone.symm, ?_⟩
    rwa [Option.toList_none, List.append_nil]
  have hswap (hb : s.backend = .locking ∨ s.backend = .waiting) (ht : s.swap = .ok t) :
      ∃ past waiting lost pending current,
        t.Accounted pieces past waiting lost pending current := by
    have hwriting : ∀ n, s.backend ≠ .writing n := by
      rcases hb with hb | hb <;> rw [hb] <;> nofun
    obtain ⟨hfirst, hsecond, hbatch⟩ := hpool.ready hb
    obtain ⟨-, ht⟩ := hpool.swapped hfirst hsecond hbatch ht
    exact ⟨_, _, _, _, _, h.swapped ((unwritten_eq hwriting).trans hbatch) hwriting ht⟩
  cases e with
  | append logline =>
    obtain rfl := Except.ok.inj ht
    obtain ⟨pending, current, ht⟩ := h.append hpool.next he
    exact hquiet rfl ⟨past, waiting, lost, pending, current, ht⟩
  | start =>
    obtain rfl := Except.ok.inj ht
    change s.backend = .outside at he
    exact hquiet rfl ⟨_, _, _, _, _, h.moved (by rw [he]; nofun) rfl rfl rfl rfl rfl⟩
  | begin =>
    obtain ⟨-, rfl⟩ := begin_eq ht
    have hspare := hpool.spare
    unfold Spare at hspare
    change s.backend = .starting at he
    rw [he] at hspare
    exact hquiet rfl ⟨_, _, _, _, _, h.moved (by rw [he]; nofun) hspare.symm rfl rfl rfl rfl⟩
  | test =>
    change s.backend = .top at he
    rcases test_cases ht with ⟨-, rfl⟩ | ⟨-, rfl⟩ <;>
      exact hquiet rfl ⟨_, _, _, _, _, h.moved (by rw [he]; nofun) rfl rfl rfl rfl rfl⟩
  | lock =>
    change s.backend = .locking at he
    rcases lock_cases ht with ⟨-, rfl⟩ | ⟨-, ht⟩
    · exact hquiet rfl ⟨_, _, _, _, _, h.moved (by rw [he]; nofun) rfl rfl rfl rfl rfl⟩
    · exact hquiet rfl (hswap (.inl he) ht)
  | wake => exact hquiet rfl (hswap (.inr he) ht)
  | check now =>
    obtain rfl := Except.ok.inj ht
    obtain ⟨piece, hpiece, waiting, lost, ht⟩ := h.check he now
    exact ⟨piece, hpiece, past, waiting, lost, pending, current, ht⟩
  | write =>
    obtain ⟨written, hb⟩ := he
    rw [step_write hb] at ht
    have hpassed : s.passed .write = s.buffersToWrite[written]?.map FixedBuffer.data := by
      unfold passed
      rw [hb]
    rcases hpool.write hb ht with ⟨b, hget, heq, -⟩ | ⟨hlen, -, heq⟩
    · obtain ⟨lines, waiting, -, hlines, ht⟩ := h.written_next hb hget heq
      refine ⟨some (.buffer lines), ?_, _, waiting, lost, pending, current, ht⟩
      rw [hpassed, hget]
      exact congrArg some hlines
    · refine hquiet ?_ ⟨_, _, _, _, _, h.recycled hb hlen heq⟩
      rw [hpassed, List.getElem?_eq_none_iff.mpr hlen.le]
      rfl
  | stop | join =>
    obtain rfl := Except.ok.inj ht
    exact hquiet rfl ⟨_, _, _, _, _, h.same rfl rfl rfl rfl rfl fun h => h⟩

end AsyncLogging
end MuduoWindows.Base
