import Mathlib.Tactic
import Mathlib.Data.Finset.Card

/-! # Condition variables

A thread that waits is blocked until a notification selects it or it wakes up for no reason; then
it is unblocked, and runs on once it has the mutex. What is worth a wakeup, such as the items of a
queue, is counted: `Covers n` says that no thread is left blocked while there are more of them than
threads that have been notified of one and have not run yet.
-/

namespace MuduoWindows.Library

/-- The threads inside `wait`: blocked ones, and unblocked ones by the reason. -/
structure CondVar (τ : Type*) where
  waiting : Finset τ
  notified : Finset τ
  woken : Finset τ
  disjoint : Disjoint waiting notified

namespace CondVar
variable {τ : Type*} [DecidableEq τ]

def empty : CondVar τ := ⟨∅, ∅, ∅, Finset.disjoint_empty_left _⟩

/-- The threads that run on when they have the mutex. -/
def unblocked (c : CondVar τ) : Finset τ := c.notified ∪ c.woken

def threads (c : CondVar τ) : Finset τ := c.waiting ∪ c.unblocked

/-- The thread blocks. -/
def wait (c : CondVar τ) (t : τ) : CondVar τ where
  waiting := insert t c.waiting
  notified := c.notified.erase t
  woken := c.woken.erase t
  disjoint := Finset.disjoint_insert_left.mpr ⟨Finset.notMem_erase _ _,
    c.disjoint.mono_right (Finset.erase_subset _ _)⟩

/-- The thread has the mutex again. -/
def resume (c : CondVar τ) (t : τ) : CondVar τ :=
  { c with
    notified := c.notified.erase t
    woken := c.woken.erase t
    disjoint := c.disjoint.mono_right (Finset.erase_subset _ _) }

/-- The thread that a notification unblocks. -/
def notify (c : CondVar τ) : Option τ → CondVar τ
  | none => c
  | some t =>
    { c with
      waiting := c.waiting.erase t
      notified := insert t c.notified
      disjoint := Finset.disjoint_insert_right.mpr ⟨Finset.notMem_erase _ _,
        c.disjoint.mono_left (Finset.erase_subset _ _)⟩ }

/-- All blocked threads are unblocked. -/
def notifyAll (c : CondVar τ) : CondVar τ :=
  { c with
    waiting := ∅
    notified := c.waiting ∪ c.notified
    disjoint := Finset.disjoint_empty_left _ }

/-- A notification selects any blocked thread, and none when no thread is blocked. -/
def Selects (c : CondVar τ) : Option τ → Prop
  | none => c.waiting = ∅
  | some t => t ∈ c.waiting

instance (c : CondVar τ) : DecidablePred c.Selects
  | none => inferInstanceAs (Decidable (_ = _))
  | some _ => inferInstanceAs (Decidable (_ ∈ _))

/-- A spurious wakeup. -/
def wake (c : CondVar τ) (t : τ) : CondVar τ :=
  { c with
    waiting := c.waiting.erase t
    woken := insert t c.woken
    disjoint := c.disjoint.mono_left (Finset.erase_subset _ _) }

variable {c : CondVar τ} {t : τ} {n k : ℕ}

omit [DecidableEq τ] in
theorem exists_selects (c : CondVar τ) : ∃ choice, c.Selects choice := by
  obtain h | ⟨t, ht⟩ := c.waiting.eq_empty_or_nonempty
  · exact ⟨none, h⟩
  · exact ⟨some t, ht⟩

theorem mem_threads_wait {u : τ} (h : u ∈ (c.wait t).threads) : u = t ∨ u ∈ c.threads := by
  simp only [threads, unblocked, wait, Finset.mem_union, Finset.mem_insert, Finset.mem_erase] at h ⊢
  tauto

theorem threads_resume (c : CondVar τ) (t : τ) : (c.resume t).threads ⊆ c.threads :=
  Finset.union_subset_union_right
    (Finset.union_subset_union (Finset.erase_subset _ _) (Finset.erase_subset _ _))

theorem threads_notify {choice : Option τ} (h : c.Selects choice) :
    (c.notify choice).threads ⊆ c.threads := by
  cases choice with
  | none => exact subset_rfl
  | some t =>
    intro u hu
    simp only [threads, unblocked, notify, Finset.mem_union, Finset.mem_insert,
      Finset.mem_erase] at hu ⊢
    obtain ⟨-, hu⟩ | (rfl | hu) | hu := hu
    · exact .inl hu
    · exact .inl h
    · exact .inr (.inl hu)
    · exact .inr (.inr hu)

theorem threads_notifyAll (c : CondVar τ) : c.notifyAll.threads = c.threads := by
  change ∅ ∪ (c.waiting ∪ c.notified ∪ c.woken) = c.waiting ∪ (c.notified ∪ c.woken)
  rw [Finset.empty_union, Finset.union_assoc]

theorem threads_wake (h : t ∈ c.waiting) : (c.wake t).threads ⊆ c.threads := by
  intro u hu
  simp only [threads, unblocked, wake, Finset.mem_union, Finset.mem_insert,
    Finset.mem_erase] at hu ⊢
  obtain ⟨-, hu⟩ | hu | rfl | hu := hu
  · exact .inl hu
  · exact .inr (.inl hu)
  · exact .inl h
  · exact .inr (.inr hu)

theorem waiting_notify (c : CondVar τ) (choice : Option τ) :
    (c.notify choice).waiting ⊆ c.waiting := by
  cases choice with
  | none => exact subset_rfl
  | some t => exact Finset.erase_subset _ _

/-- Nobody leaves `wait` but a thread that has the mutex again. -/
theorem subset_threads_wait (c : CondVar τ) (t : τ) : insert t c.threads ⊆ (c.wait t).threads := by
  intro u hu
  simp only [threads, unblocked, wait, Finset.mem_union, Finset.mem_insert,
    Finset.mem_erase] at hu ⊢
  tauto

theorem mem_threads_resume {u : τ} (h : u ∈ c.threads) (hne : u ≠ t) :
    u ∈ (c.resume t).threads := by
  simp only [threads, unblocked, resume, Finset.mem_union, Finset.mem_erase] at h ⊢
  tauto

theorem subset_threads_notify (c : CondVar τ) (choice : Option τ) :
    c.threads ⊆ (c.notify choice).threads := by
  cases choice with
  | none => exact subset_rfl
  | some t =>
    intro u hu
    simp only [threads, unblocked, notify, Finset.mem_union, Finset.mem_insert,
      Finset.mem_erase] at hu ⊢
    tauto

theorem subset_threads_wake (c : CondVar τ) (t : τ) : c.threads ⊆ (c.wake t).threads := by
  intro u hu
  simp only [threads, unblocked, wake, Finset.mem_union, Finset.mem_insert,
    Finset.mem_erase] at hu ⊢
  tauto

theorem unblocked_resume (c : CondVar τ) (t : τ) :
    (c.resume t).unblocked = c.unblocked.erase t := (Finset.erase_union_distrib _ _ _).symm

theorem unblocked_wait (c : CondVar τ) (t : τ) :
    (c.wait t).unblocked = c.unblocked.erase t := (Finset.erase_union_distrib _ _ _).symm

/-- No thread is blocked that has woken up for no reason. -/
def Apart (c : CondVar τ) : Prop := Disjoint c.waiting c.woken

omit [DecidableEq τ] in
theorem empty_apart : (empty : CondVar τ).Apart := Finset.disjoint_empty_left _

theorem Apart.wait (h : c.Apart) (t : τ) : (c.wait t).Apart :=
  Finset.disjoint_insert_left.mpr ⟨Finset.notMem_erase _ _,
    Finset.disjoint_of_subset_right (Finset.erase_subset _ _) h⟩

theorem Apart.resume (h : c.Apart) (t : τ) : (c.resume t).Apart :=
  Finset.disjoint_of_subset_right (Finset.erase_subset _ _) h

theorem Apart.wake (h : c.Apart) (t : τ) : (c.wake t).Apart :=
  Finset.disjoint_insert_right.mpr ⟨Finset.notMem_erase _ _,
    Finset.disjoint_of_subset_left (Finset.erase_subset _ _) h⟩

theorem notifyAll_apart (c : CondVar τ) : c.notifyAll.Apart := Finset.disjoint_empty_left _

theorem Apart.notMem_threads_resume (h : c.Apart) (ht : t ∈ c.unblocked) :
    t ∉ (c.resume t).threads := by
  have hwaiting : t ∉ c.waiting := by
    obtain hn | hw := Finset.mem_union.mp ht
    · exact Finset.disjoint_right.mp c.disjoint hn
    · exact Finset.disjoint_right.mp h hw
  intro hmem
  obtain hmem | hmem := Finset.mem_union.mp hmem
  · exact hwaiting hmem
  · rw [unblocked_resume] at hmem
    exact Finset.notMem_erase t _ hmem

/-- While a thread is blocked, there are not more than the notified threads will see to. -/
def Covers (c : CondVar τ) (n : ℕ) : Prop := c.waiting.Nonempty → n ≤ c.notified.card

omit [DecidableEq τ] in
theorem Covers.mono (h : c.Covers n) (hk : k ≤ n) : c.Covers k := fun hc => hk.trans (h hc)

omit [DecidableEq τ] in
theorem empty_covers (n : ℕ) : (empty : CondVar τ).Covers n :=
  fun h => absurd h Finset.not_nonempty_empty

omit [DecidableEq τ] in
theorem covers_zero (c : CondVar τ) : c.Covers 0 := fun _ => Nat.zero_le _

theorem Covers.notify {choice : Option τ} (h : c.Covers n) (hc : c.Selects choice) :
    (c.notify choice).Covers (n + 1) := by
  intro hblocked
  cases choice with
  | none =>
    obtain ⟨t, ht⟩ := hblocked
    exact absurd (hc ▸ ht) (Finset.notMem_empty t)
  | some t =>
    have hn : t ∉ c.notified := Finset.disjoint_left.mp c.disjoint hc
    change n + 1 ≤ (insert t c.notified).card
    rw [Finset.card_insert_of_notMem hn]
    exact Nat.succ_le_succ (h ⟨t, hc⟩)

theorem Covers.resume (h : c.Covers n) : (c.resume t).Covers (n - 1) := fun hblocked =>
  (Nat.sub_le_sub_right (h hblocked) 1).trans Finset.pred_card_le_card_erase

theorem Covers.wake (h : c.Covers n) : (c.wake t).Covers n := fun hblocked =>
  h (hblocked.mono (Finset.erase_subset _ _))

end CondVar
end MuduoWindows.Library
