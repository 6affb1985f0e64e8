import MuduoWindows.Library.CondVar
import MuduoWindows.Net.Fault

/-! # base/countDownLatch.cpp

`countDown` notifies when the count becomes zero, and only then: what is counted down below zero
needs no further notification, since nobody waits any more. The lowest `int` must not be counted
down.
-/

namespace MuduoWindows.Base
open Library Net

/-- `count_` is an `int`. -/
structure CountDownLatch (τ : Type) where
  condition : CondVar τ
  count : ℤ

namespace CountDownLatch
variable {τ : Type}

def create (count : ℤ) : CountDownLatch τ := { condition := .empty, count }

variable [DecidableEq τ]

/-- `wait` from its loop on, and whether it returns. -/
def wait (l : CountDownLatch τ) (t : τ) : CountDownLatch τ × Bool :=
  if l.count > 0 then ({ l with condition := l.condition.wait t }, false) else (l, true)

/-- `--count_` -/
def decrement (count : ℤ) : ℤ := (count - 1).bmod (2 ^ 32)

def countDown (l : CountDownLatch τ) : CountDownLatch τ :=
  let l := { l with count := decrement l.count }
  if l.count = 0 then { l with condition := l.condition.notifyAll } else l

/-- The thread has the mutex again in `wait`. -/
def resume (l : CountDownLatch τ) (t : τ) : CountDownLatch τ :=
  { l with condition := l.condition.resume t }

/-- The values of an `int`. -/
def IsInt (count : ℤ) : Prop := -2 ^ 31 ≤ count ∧ count < 2 ^ 31

def Open (l : CountDownLatch τ) : Prop := l.count ≤ 0 → l.condition.waiting = ∅

variable {l : CountDownLatch τ} {t : τ}

theorem decrement_eq {count : ℤ} (hint : IsInt count) (hlow : count ≠ -2 ^ 31) :
    decrement count = count - 1 := by
  obtain ⟨hle, hlt⟩ := hint
  unfold decrement
  rw [Int.bmod_eq_of_le] <;> omega

theorem countDown_count (l : CountDownLatch τ) : l.countDown.count = decrement l.count := by
  unfold CountDownLatch.countDown
  dsimp only
  split_ifs <;> rfl

theorem Open.countDown (h : l.Open) (hint : IsInt l.count) (hlow : l.count ≠ -2 ^ 31) :
    l.countDown.Open := by
  have hcount := decrement_eq hint hlow
  unfold CountDownLatch.countDown
  dsimp only
  split_ifs with hzero
  · exact fun _ => rfl
  · intro hle
    change decrement l.count ≤ 0 at hle
    exact h (by omega)

theorem countDown_threads (l : CountDownLatch τ) :
    l.countDown.condition.threads = l.condition.threads := by
  unfold CountDownLatch.countDown
  dsimp only
  split_ifs
  · exact CondVar.threads_notifyAll _
  · rfl

theorem countDown_apart (h : l.condition.Apart) : l.countDown.condition.Apart := by
  unfold CountDownLatch.countDown
  dsimp only
  split_ifs
  · exact CondVar.notifyAll_apart _
  · exact h

end CountDownLatch

/-- A latch with the threads that use it: `calls` are the calls of `wait`, `returned` those that
have returned, both with repetitions, and `downs` counts the calls of `countDown`. -/
structure LatchUse (τ : Type) where
  latch : CountDownLatch τ
  calls : List τ
  returned : List τ
  downs : ℕ

namespace LatchUse
variable {τ : Type}

def create (count : ℤ) : LatchUse τ :=
  { latch := .create count, calls := [], returned := [], downs := 0 }

inductive Event (τ : Type) where
  | wait (t : τ)
  | resume (t : τ)
  /-- A thread wakes up in `wait` for no reason. -/
  | wake (t : τ)
  | countDown (t : τ)

variable [DecidableEq τ]

/-- The critical section of `wait` from its loop on. -/
def wait (s : LatchUse τ) (l : CountDownLatch τ) (t : τ) : LatchUse τ :=
  let (l, returns) := l.wait t
  { s with latch := l, returned := if returns then s.returned ++ [t] else s.returned }

/-- A thread that is inside `wait` calls nothing. -/
def machine : Machine (LatchUse τ) (Event τ) Fault where
  enabled s
    | .wait t | .countDown t => t ∉ s.latch.condition.threads
    | .resume t => t ∈ s.latch.condition.unblocked
    | .wake t => t ∈ s.latch.condition.waiting
  step s
    | .wait t => pure ({ s with calls := s.calls ++ [t] }.wait s.latch t)
    | .resume t => pure (s.wait (s.latch.resume t) t)
    | .wake t =>
      pure { s with latch := { s.latch with condition := s.latch.condition.wake t } }
    | .countDown _ => pure { s with latch := s.latch.countDown, downs := s.downs + 1 }

instance (s : LatchUse τ) : ∀ e, Decidable (machine.enabled s e)
  | .wait _ | .countDown _ => inferInstanceAs (Decidable (_ ∉ _))
  | .resume _ | .wake _ => inferInstanceAs (Decidable (_ ∈ _))

/-- The latch is not counted down at the lowest `int`. -/
def Counts (s : LatchUse τ) : Event τ → Prop
  | .countDown _ => s.latch.count ≠ -2 ^ 31
  | _ => True

instance (s : LatchUse τ) : ∀ e, Decidable (s.Counts e)
  | .countDown _ => inferInstanceAs (Decidable (_ ≠ _))
  | .wait _ | .resume _ | .wake _ => .isTrue trivial

/-- Each call of `wait` has returned or its thread is inside, and none returns too early. -/
structure Inv (count : ℤ) (s : LatchUse τ) : Prop where
  int : CountDownLatch.IsInt s.latch.count
  count_eq : s.latch.count = count - s.downs
  unblocked : s.latch.Open
  apart : s.latch.condition.Apart
  returned : s.returned ≠ [] → s.latch.count ≤ 0
  inside : ∀ t, s.calls.count t =
    s.returned.count t + if t ∈ s.latch.condition.threads then 1 else 0

variable {s u : LatchUse τ} {l : CountDownLatch τ} {t : τ} {count : ℤ}

theorem create_inv (hint : CountDownLatch.IsInt count) : (create count : LatchUse τ).Inv count :=
  ⟨hint, (sub_zero count).symm, fun _ => rfl, CondVar.empty_apart, fun h => absurd rfl h,
    fun _ => rfl⟩

theorem count_other {v : τ} (hne : v ≠ t) : [t].count v = 0 :=
  List.count_eq_zero_of_not_mem fun hmem => hne (List.mem_singleton.mp hmem)

theorem wait_inv (hint : CountDownLatch.IsInt l.count) (hcount : l.count = count - s.downs)
    (hopen : l.Open) (hapart : l.condition.Apart) (hreturned : s.returned ≠ [] → l.count ≤ 0)
    (ht : t ∉ l.condition.threads)
    (hself : s.calls.count t = s.returned.count t + 1)
    (hinside : ∀ v, v ≠ t → s.calls.count v =
      s.returned.count v + if v ∈ l.condition.threads then 1 else 0) :
    (s.wait l t).Inv count := by
  by_cases hpos : l.count > 0
  · have heq : s.wait l t = { s with latch := { l with condition := l.condition.wait t } } := by
      unfold wait CountDownLatch.wait
      rw [if_pos hpos]
      rfl
    have hmem : t ∈ (l.condition.wait t).threads :=
      CondVar.subset_threads_wait _ t (Finset.mem_insert_self t _)
    rw [heq]
    refine ⟨hint, hcount, fun hle => absurd hpos (not_lt.mpr hle), hapart.wait t, hreturned,
      fun v => ?_⟩
    obtain rfl | hne := eq_or_ne v t
    · rw [if_pos hmem]
      exact hself
    · have hsame : v ∈ (l.condition.wait t).threads ↔ v ∈ l.condition.threads :=
        ⟨fun hv => (CondVar.mem_threads_wait hv).resolve_left hne,
          fun hv => CondVar.subset_threads_wait _ t (Finset.mem_insert_of_mem hv)⟩
      dsimp only
      rw [hinside v hne, if_congr hsame rfl rfl]
  · have heq : s.wait l t = { s with latch := l, returned := s.returned ++ [t] } := by
      unfold wait CountDownLatch.wait
      rw [if_neg hpos]
      rfl
    rw [heq]
    refine ⟨hint, hcount, hopen, hapart, fun _ => not_lt.mp hpos, fun v => ?_⟩
    dsimp only
    rw [List.count_append]
    obtain rfl | hne := eq_or_ne v t
    · rw [hself, if_neg ht, List.count_singleton_self]
    · rw [hinside v hne, count_other hne, add_zero]

theorem Inv.step {e : Event τ} (h : s.Inv count) (he : machine.enabled s e) (hcounts : s.Counts e)
    (hu : machine.step s e = .ok u) : u.Inv count := by
  obtain ⟨hint, hcount, hopen, hapart, hreturned, hinside⟩ := h
  cases e with
  | wait t =>
    obtain rfl := Except.ok.inj hu
    refine wait_inv (s := { s with calls := s.calls ++ [t] }) hint hcount hopen hapart hreturned
      he ?_ ?_
    · dsimp only
      rw [List.count_append, List.count_singleton_self, hinside t, if_neg he, add_zero]
    · intro v hne
      dsimp only
      rw [List.count_append, count_other hne, add_zero]
      exact hinside v
  | resume t =>
    obtain rfl := Except.ok.inj hu
    have hin : t ∈ s.latch.condition.threads := Finset.mem_union_right _ he
    refine wait_inv (l := s.latch.resume t) hint hcount (fun hle => hopen hle) (hapart.resume t)
      hreturned (hapart.notMem_threads_resume he) ?_ ?_
    · rw [hinside t, if_pos hin]
    · intro v hne
      have hsame : v ∈ (s.latch.condition.resume t).threads ↔ v ∈ s.latch.condition.threads :=
        ⟨fun hv => CondVar.threads_resume _ t hv, fun hv => CondVar.mem_threads_resume hv hne⟩
      rw [hinside v]
      exact congrArg _ (if_congr hsame.symm rfl rfl)
  | wake t =>
    obtain rfl := Except.ok.inj hu
    have hsame : (s.latch.condition.wake t).threads = s.latch.condition.threads :=
      (CondVar.threads_wake he).antisymm (CondVar.subset_threads_wake _ t)
    refine ⟨hint, hcount, fun hle => ?_, hapart.wake t, hreturned, fun v => ?_⟩
    · change s.latch.condition.waiting.erase t = ∅
      rw [hopen hle, Finset.erase_empty]
    · dsimp only
      rw [hsame]
      exact hinside v
  | countDown t =>
    obtain rfl := Except.ok.inj hu
    have hdown : s.latch.countDown.count = s.latch.count - 1 := by
      rw [CountDownLatch.countDown_count, CountDownLatch.decrement_eq hint hcounts]
    have hlow : s.latch.count ≠ -2 ^ 31 := hcounts
    refine ⟨?_, ?_, hopen.countDown hint hcounts, CountDownLatch.countDown_apart hapart,
      fun hne => ?_, fun v => ?_⟩
    · obtain ⟨hle, hlt⟩ := hint
      refine ⟨?_, ?_⟩ <;> rw [hdown] <;> omega
    · dsimp only
      rw [hdown, hcount]
      push_cast
      ring
    · have hle := hreturned hne
      dsimp only
      rw [hdown]
      omega
    · dsimp only
      rw [CountDownLatch.countDown_threads]
      exact hinside v

theorem run_inv {es : List (Event τ)} (hint : CountDownLatch.IsInt count)
    (h : machine.Run Counts (create count) es s) : s.Inv count :=
  h.invariant (Inv count) (create_inv hint) fun _ _ _ hs he hcounts hu => hs.step he hcounts hu

theorem resume_returns (hle : s.latch.count ≤ 0) :
    s.wait (s.latch.resume t) t =
      { s with latch := s.latch.resume t, returned := s.returned ++ [t] } := by
  unfold wait CountDownLatch.wait
  rw [if_neg (not_lt.mpr hle : ¬ (s.latch.resume t).count > 0)]
  rfl

/-- For any initial count, any threads, any order of their steps and any spurious wakeups, as long
as the count does not underflow: `wait` returns only after as many calls of `countDown` as the
count, each call of `wait` has returned or is inside, and from then on nobody is blocked: each
thread that is inside can run on, and returns. -/
theorem latch_opens {es : List (Event τ)} (hint : CountDownLatch.IsInt count)
    (h : machine.Run Counts (create count) es s) :
    (s.returned ≠ [] → count ≤ s.downs) ∧
      (∀ t, s.calls.count t =
        s.returned.count t + if t ∈ s.latch.condition.threads then 1 else 0) ∧
      (count ≤ s.downs → s.latch.condition.waiting = ∅ ∧
        ∀ t ∈ s.latch.condition.threads, machine.enabled s (.resume t) ∧
          ∃ u, machine.step s (.resume t) = .ok u ∧ u.returned = s.returned ++ [t]) := by
  obtain ⟨-, hcount, hopen, -, hreturned, hinside⟩ := run_inv hint h
  refine ⟨fun hne => ?_, hinside, fun hdown => ?_⟩
  · have hle := hreturned hne
    omega
  · have hle : s.latch.count ≤ 0 := by omega
    have hnone := hopen hle
    refine ⟨hnone, fun t ht => ⟨?_, _, congrArg Except.ok (resume_returns hle), rfl⟩⟩
    obtain hblocked | hrunning := Finset.mem_union.mp ht
    · rw [hnone] at hblocked
      exact absurd hblocked (Finset.notMem_empty t)
    · exact hrunning

/-- Two threads wait for two others; one wakes up early, and waits again. -/
theorem latch_opens_two : ∃ s : LatchUse (Fin 4), machine.Run Counts (create 2)
      [.wait 0, .wait 1, .countDown 2, .wake 0, .resume 0, .countDown 3, .resume 1] s ∧
    s.returned = [1] ∧ s.latch.condition.notified = {0} ∧ s.latch.condition.waiting = ∅ ∧
    ∀ t ∈ s.latch.condition.threads, machine.enabled s (.resume t) ∧
      ∃ u, machine.step s (.resume t) = .ok u ∧ u.returned = s.returned ++ [t] := by
  obtain ⟨s, hs, hp⟩ := Machine.exists_run_of_exec machine Counts
    (create 2 : LatchUse (Fin 4))
    [.wait 0, .wait 1, .countDown 2, .wake 0, .resume 0, .countDown 3, .resume 1]
    (fun s => decide (s.returned = [1] ∧ s.latch.condition.notified = {0} ∧ s.downs = 2))
    (by decide)
  obtain ⟨hreturned, hnotified, hdowns⟩ := of_decide_eq_true hp
  obtain ⟨-, -, hdone⟩ := latch_opens ⟨by decide, by decide⟩ hs
  obtain ⟨hnone, hall⟩ := hdone (by rw [hdowns]; exact le_rfl)
  exact ⟨s, hs, hreturned, hnotified, hnone, hall⟩

end LatchUse
end MuduoWindows.Base
