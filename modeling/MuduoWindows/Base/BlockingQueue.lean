import MuduoWindows.Library.CondVar
import MuduoWindows.Net.Fault

/-! # base/blockingQueue.h

Any thread calls `put`, `take` or `drain`. Only `take` waits, and it goes on at its loop condition
when its thread is unblocked and has the mutex again. `drain` takes everything without a word to
those who were notified.
-/

namespace MuduoWindows.Base
open Library Net

structure BlockingQueue (τ α : Type) where
  notEmpty : CondVar τ
  queue : List α

namespace BlockingQueue
variable {τ α : Type}

def create : BlockingQueue τ α := { notEmpty := .empty, queue := [] }

/-- `drain`, with the values that it returns. -/
def drain (q : BlockingQueue τ α) : BlockingQueue τ α × List α :=
  ({ q with queue := [] }, q.queue)

variable [DecidableEq τ]

/-- `put`, with the thread that the notification selects. -/
def put (q : BlockingQueue τ α) (x : α) (choice : Option τ) : BlockingQueue τ α :=
  { q with queue := q.queue ++ [x], notEmpty := q.notEmpty.notify choice }

/-- `take` from its loop on; it returns unless it waits. -/
def take (q : BlockingQueue τ α) (t : τ) : BlockingQueue τ α × Option α :=
  match q.queue with
  | [] => ({ q with notEmpty := q.notEmpty.wait t }, none)
  | x :: queue => ({ q with queue }, some x)

/-- The thread has the mutex again in `take`. -/
def resume (q : BlockingQueue τ α) (t : τ) : BlockingQueue τ α :=
  { q with notEmpty := q.notEmpty.resume t }

/-- No wakeup is lost: the items are seen to by notified threads as long as one is blocked. -/
def Attended (q : BlockingQueue τ α) : Prop := q.notEmpty.Covers q.queue.length

variable {q : BlockingQueue τ α} {t : τ} {x : α} {choice : Option τ}

theorem Attended.put (h : q.Attended) (hc : q.notEmpty.Selects choice) :
    (q.put x choice).Attended := by
  have hlength : (q.queue ++ [x]).length = q.queue.length + 1 := List.length_append
  unfold Attended BlockingQueue.put
  dsimp only
  rw [hlength]
  exact CondVar.Covers.notify h hc

theorem take_attended (h : q.notEmpty.Covers (q.queue.length - 1)) (t : τ) :
    (q.take t).1.Attended ∧ (q.take t).2.toList ++ (q.take t).1.queue = q.queue := by
  obtain ⟨notEmpty, queue⟩ := q
  cases queue with
  | nil => exact ⟨CondVar.covers_zero _, rfl⟩
  | cons x queue => exact ⟨h, rfl⟩

end BlockingQueue

/-- A queue with the threads that use it: `puts` remembers the values in the order of the calls of
`put`, and `got` the threads that got values, with these, in the order of their calls' ends. -/
structure QueueUse (τ α : Type) where
  queue : BlockingQueue τ α
  puts : List α
  got : List (τ × List α)

namespace QueueUse
variable {τ α : Type}

def create : QueueUse τ α := { queue := .create, puts := [], got := [] }

inductive Event (τ α : Type) where
  | put (t : τ) (x : α) (choice : Option τ)
  | take (t : τ)
  | resume (t : τ)
  /-- A thread wakes up in `take` for no reason. -/
  | wake (t : τ)
  | drain (t : τ)

variable [DecidableEq τ]

/-- The critical section of `take` from its loop on. -/
def take (s : QueueUse τ α) (q : BlockingQueue τ α) (t : τ) : QueueUse τ α :=
  let (q, x) := q.take t
  { s with queue := q, got := s.got ++ x.toList.map fun x => (t, [x]) }

/-- A thread that is inside `take` calls nothing. -/
def machine : Machine (QueueUse τ α) (Event τ α) Fault where
  enabled s
    | .put t _ choice => t ∉ s.queue.notEmpty.threads ∧ s.queue.notEmpty.Selects choice
    | .take t => t ∉ s.queue.notEmpty.threads
    | .resume t => t ∈ s.queue.notEmpty.unblocked
    | .wake t => t ∈ s.queue.notEmpty.waiting
    | .drain t => t ∉ s.queue.notEmpty.threads
  step s
    | .put _ x choice => pure { s with queue := s.queue.put x choice, puts := s.puts ++ [x] }
    | .take t => pure (s.take s.queue t)
    | .resume t => pure (s.take (s.queue.resume t) t)
    | .wake t => pure { s with queue := { s.queue with notEmpty := s.queue.notEmpty.wake t } }
    | .drain t =>
      let (q, values) := s.queue.drain
      pure { s with queue := q, got := s.got ++ [(t, values)] }

instance [DecidableEq α] (s : QueueUse τ α) : ∀ e, Decidable (machine.enabled s e)
  | .put _ _ _ => inferInstanceAs (Decidable (_ ∉ _ ∧ _))
  | .take _ | .drain _ => inferInstanceAs (Decidable (_ ∉ _))
  | .resume _ | .wake _ => inferInstanceAs (Decidable (_ ∈ _))

/-- The values that were got are the first of those put, the rest is in the queue. -/
structure Inv (s : QueueUse τ α) : Prop where
  attended : s.queue.Attended
  order : s.got.flatMap Prod.snd ++ s.queue.queue = s.puts

variable {s u : QueueUse τ α} {q : BlockingQueue τ α} {t : τ}

omit [DecidableEq τ] in
theorem create_inv : (create : QueueUse τ α).Inv := ⟨CondVar.empty_covers _, rfl⟩

theorem take_inv (horder : s.got.flatMap Prod.snd ++ q.queue = s.puts)
    (h : q.notEmpty.Covers (q.queue.length - 1)) : (s.take q t).Inv := by
  obtain ⟨hattended, hqueue⟩ := BlockingQueue.take_attended h t
  refine ⟨hattended, ?_⟩
  have hvalues : ((q.take t).2.toList.map fun x => (t, [x])).flatMap Prod.snd =
      (q.take t).2.toList := by
    cases (q.take t).2 <;> rfl
  change (s.got ++ (q.take t).2.toList.map fun x => (t, [x])).flatMap Prod.snd ++
    (q.take t).1.queue = s.puts
  rw [List.flatMap_append, hvalues, List.append_assoc, hqueue, horder]

theorem Inv.step {e : Event τ α} (h : s.Inv) (he : machine.enabled s e)
    (hu : machine.step s e = .ok u) : u.Inv := by
  obtain ⟨hattended, horder⟩ := h
  cases e with
  | put t x choice =>
    obtain rfl := Except.ok.inj hu
    refine ⟨hattended.put he.2, ?_⟩
    change _ ++ (s.queue.queue ++ [x]) = _
    rw [← List.append_assoc, horder]
  | take t =>
    obtain rfl := Except.ok.inj hu
    exact take_inv horder (hattended.mono (Nat.sub_le _ _))
  | resume t =>
    obtain rfl := Except.ok.inj hu
    exact take_inv (q := s.queue.resume t) horder (CondVar.Covers.resume hattended)
  | wake t =>
    obtain rfl := Except.ok.inj hu
    exact ⟨CondVar.Covers.wake hattended, horder⟩
  | drain t =>
    obtain rfl := Except.ok.inj hu
    refine ⟨CondVar.covers_zero _, ?_⟩
    change (s.got ++ [(t, s.queue.queue)]).flatMap Prod.snd ++ [] = s.puts
    rw [List.flatMap_append, ← horder]
    simp

theorem run_inv {es : List (Event τ α)} (h : machine.Run Machine.Any create es s) : s.Inv :=
  h.invariant Inv create_inv fun _ _ _ hs he _ hu => hs.step he hu

def Resumes (_ : QueueUse τ α) (e : Event τ α) : Prop := ∃ t, e = .resume t

theorem take_unblocked (s : QueueUse τ α) (q : BlockingQueue τ α) (t : τ)
    (ht : t ∉ q.notEmpty.unblocked) :
    (s.take q t).queue.notEmpty.unblocked = q.notEmpty.unblocked := by
  obtain ⟨notEmpty, queue⟩ := q
  cases queue with
  | nil =>
    change (notEmpty.wait t).unblocked = notEmpty.unblocked
    rw [CondVar.unblocked_wait, Finset.erase_eq_of_notMem ht]
  | cons x queue => rfl

theorem resume_card (he : t ∈ s.queue.notEmpty.unblocked) :
    (s.take (s.queue.resume t) t).queue.notEmpty.unblocked.card + 1 =
      s.queue.notEmpty.unblocked.card := by
  have hresume : (s.queue.resume t).notEmpty.unblocked = s.queue.notEmpty.unblocked.erase t :=
    CondVar.unblocked_resume _ t
  rw [take_unblocked s (s.queue.resume t) t (by rw [hresume]; exact Finset.notMem_erase t _),
    hresume, Finset.card_erase_add_one he]

theorem resumes_card {fs : List (Event τ α)} (h : machine.Run Resumes s fs u) :
    fs.length + u.queue.notEmpty.unblocked.card = s.queue.notEmpty.unblocked.card := by
  refine h.invariant_trace (fun fs u => fs.length + u.queue.notEmpty.unblocked.card =
    s.queue.notEmpty.unblocked.card) (zero_add _) fun fs v e w hv he hresume hw => ?_
  obtain ⟨t, rfl⟩ := hresume
  obtain rfl := Except.ok.inj hw
  have hcard := resume_card he
  rw [List.length_append, List.length_singleton]
  change fs.length + 1 +
    (v.take (v.queue.resume t) t).queue.notEmpty.unblocked.card = s.queue.notEmpty.unblocked.card
  omega

/-- For any threads, any order of their steps and any spurious wakeups: each value that was put is
got once, in the order of `put`, or is in the queue; and when the unblocked threads run on, which
each of them does once, nobody is left waiting beside an item. -/
theorem fifo_attended {es : List (Event τ α)} (h : machine.Run Machine.Any create es s) :
    s.got.flatMap Prod.snd ++ s.queue.queue = s.puts ∧
      (s.queue.notEmpty.waiting.Nonempty →
        s.queue.queue.length ≤ s.queue.notEmpty.notified.card) ∧
      ∀ fs u, machine.Run Resumes s fs u →
        fs.length + u.queue.notEmpty.unblocked.card = s.queue.notEmpty.unblocked.card ∧
        (u.queue.notEmpty.unblocked = ∅ →
          u.queue.notEmpty.waiting = ∅ ∨ u.queue.queue = []) := by
  have hinv := run_inv h
  refine ⟨hinv.order, hinv.attended, fun fs u hfs => ⟨resumes_card hfs, fun hnone => ?_⟩⟩
  have hu : u.Inv := hfs.invariant Inv hinv fun _ _ _ hs he _ hu => hs.step he hu
  obtain hempty | hblocked := u.queue.notEmpty.waiting.eq_empty_or_nonempty
  · exact .inl hempty
  · have hnotified : u.queue.notEmpty.notified = ∅ :=
      Finset.subset_empty.mp (hnone ▸ Finset.subset_union_left)
    have hlength := hu.attended hblocked
    rw [hnotified, Finset.card_empty, Nat.le_zero] at hlength
    exact .inr (List.length_eq_zero_iff.mp hlength)

/-- A notified thread finds that its item was drained, and waits again; the next item is for it. -/
theorem fifo_attended_drained : ∃ s : QueueUse (Fin 3) ℕ,
    machine.Run Machine.Any create [.take 0, .put 1 5 (some 0), .drain 2, .resume 0,
      .put 1 6 (some 0), .resume 0] s ∧
    s.got = [(2, [5]), (0, [6])] ∧ s.got.flatMap Prod.snd ++ s.queue.queue = s.puts := by
  obtain ⟨s, hs, hp⟩ := Machine.exists_run_of_exec machine Machine.Any
    (create : QueueUse (Fin 3) ℕ)
    [.take 0, .put 1 5 (some 0), .drain 2, .resume 0, .put 1 6 (some 0), .resume 0]
    (fun s => decide (s.got = [(2, [5]), (0, [6])])) (by decide)
  exact ⟨s, hs, of_decide_eq_true hp, (fifo_attended hs).1⟩

end QueueUse
end MuduoWindows.Base
