import MuduoWindows.Library.Binary64
import MuduoWindows.Net.Timers.MinHeap

/-! # The timeout of `EventLoop::loop`

`TimerQueue::earliestExpiredTime` gives the time until the first timer expires, in whole seconds,
and a hundred if one is due. `EventLoop::loop` passes it to `Poller::poll`, which takes
milliseconds.
-/

namespace MuduoWindows.Net
open Library

def timeDifference (high low : Timestamp) : ℚ :=
  Binary64.round (Binary64.round (high - low : ℤ) / Timestamp.kMicroSecondsPerSecond)

def defaultOuttime : ℤ := 100
def defaultTimeout : ℤ := 10000

theorem Timestamp.truncate_of_nonneg {x : ℚ} (hx : 0 ≤ x) : truncate x = ⌊x⌋ := by
  unfold truncate
  rw [Int.tdiv_eq_ediv_of_nonneg (Rat.num_nonneg.mpr hx), Rat.floor_def']

/-- The longest time whose milliseconds are an `int`, in microseconds. -/
def maxRemaining : ℤ := 1000 * (2 ^ 31 - 1)

theorem truncate_seconds {d : ℤ} (hd0 : 0 ≤ d) (hfit : d ≤ maxRemaining) :
    Timestamp.truncate (Binary64.round (Binary64.round d / Timestamp.kMicroSecondsPerSecond)) =
      d / 1000000 := by
  unfold Timestamp.kMicroSecondsPerSecond maxRemaining at *
  have hcast : (0 : ℚ) ≤ d := by exact_mod_cast hd0
  have hbound : (d : ℚ) ≤ 2147483647000 := by exact_mod_cast (by omega : d ≤ 2147483647000)
  have habs : |(d : ℚ)| < 2 ^ (53 : ℤ) := by
    rw [abs_of_nonneg hcast]
    exact hbound.trans_lt (by norm_num)
  have hexact : Binary64.round d = d := Binary64.round_intCast habs
  rw [hexact, show (1000 * 1000 : ℚ) = ((1000000 : ℕ) : ℚ) by norm_num]
  have hx0 : (0 : ℚ) ≤ d / (1000000 : ℕ) := by positivity
  have hx : |(d : ℚ) / (1000000 : ℕ)| < 2 ^ (22 : ℤ) := by
    rw [abs_of_nonneg hx0, div_lt_iff₀ (by norm_num)]
    exact hbound.trans_lt (by norm_num)
  have hsmall : |(d : ℚ) / (1000000 : ℕ)| < 2 ^ (53 : ℤ) := hx.trans (by norm_num)
  have hulp : Binary64.ulp (d / (1000000 : ℕ)) ≤ 2 ^ ((22 : ℤ) - 53) :=
    Binary64.ulp_le (by norm_num) hx
  have hfloor : ⌊(d : ℚ) / (1000000 : ℕ)⌋ = d / 1000000 := Rat.floor_intCast_div_natCast d 1000000
  have hround : 0 ≤ Binary64.round (d / (1000000 : ℕ)) := by
    have := Binary64.le_round (n := 0) hsmall (by exact_mod_cast hx0)
    exact_mod_cast this
  rw [Timestamp.truncate_of_nonneg hround, Binary64.floor_round hsmall, hfloor]
  -- the quotient is at least a millionth below the next integer
  rw [hfloor]
  have hrest : d + 1 ≤ 1000000 * (d / 1000000 + 1) := by omega
  have hrest' : (d : ℚ) + 1 ≤ 1000000 * (((d / 1000000 : ℤ) : ℚ) + 1) := by exact_mod_cast hrest
  have hstep : (2 : ℚ) ^ ((22 : ℤ) - 53) / 2 < 1 / 1000000 := by norm_num
  have hdiv : (d : ℚ) / (1000000 : ℕ) + 1 / 1000000 ≤ ((d / 1000000 : ℤ) : ℚ) + 1 := by
    push_cast
    linarith
  linarith

namespace TimerQueue

def earliestExpiredTime (q : TimerQueue) (now : Timestamp) : ℤ :=
  match q.minHeapTop with
  | none => defaultTimeout
  | some t => if now < q.expiration t then
      Timestamp.truncate (timeDifference (q.expiration t) now)
    else defaultOuttime

/-- The first expiration of a queue that is not empty. -/
def EarliestExpiration (q : TimerQueue) (first : Timestamp) : Prop :=
  (∃ t ∈ q.timers, q.expiration t = first) ∧ ∀ t ∈ q.timers, first ≤ q.expiration t

/-- A poll that lasts `timeout` milliseconds ends within a millisecond after `first`, and at once
if `first` has passed. -/
def Matches (timeout : ℤ) (first now : Timestamp) : Prop :=
  max 0 (first - now) ≤ 1000 * timeout ∧ 1000 * timeout < max 0 (first - now) + 1000

variable {q : TimerQueue} {first now : Timestamp}

theorem earliestExpiredTime_eq (h : q.Heaped) (hfirst : q.EarliestExpiration first)
    (hfit : first - now ≤ maxRemaining) :
    q.earliestExpiredTime now =
      if now < first then (first - now) / 1000000 else defaultOuttime := by
  obtain ⟨⟨t, ht, rfl⟩, hmin⟩ := hfirst
  obtain ⟨i, hi, rfl⟩ := IndexedHeap.mem_elements.mp ht
  have htop : q.minHeapTop = some (q.timeMinHeap.event 0) := top_eq_some.mpr ⟨by omega, rfl⟩
  have hexp : q.expiration (q.timeMinHeap.event 0) = q.expiration (q.timeMinHeap.event i) :=
    le_antisymm (h.ordered.first_le hi)
      (hmin _ (IndexedHeap.mem_elements.mpr ⟨0, by omega, rfl⟩))
  unfold earliestExpiredTime
  rw [htop]
  dsimp only
  rw [hexp]
  split_ifs with hlt
  · exact truncate_seconds (sub_nonneg.mpr hlt.le) hfit
  · rfl

/-- The timeout never matches the first expiration: in a poll without events the loop wakes before
a timer is due, and waits a tenth of a second for one that is. -/
theorem earliestExpiredTime_mismatch (h : q.Heaped) (hfirst : q.EarliestExpiration first)
    (hfit : first - now ≤ maxRemaining) : ¬ Matches (q.earliestExpiredTime now) first now := by
  rw [earliestExpiredTime_eq h hfirst hfit]
  unfold Matches defaultOuttime
  rintro ⟨hle, hlt⟩
  obtain ⟨d, hd⟩ : ∃ d : ℤ, d = first - now := ⟨_, rfl⟩
  rw [← hd] at hle hlt
  split_ifs at hle hlt with hdue
  · have hpos : 0 < d := by
      rw [hd]
      exact sub_pos.mpr hdue
    rw [max_eq_right hpos.le] at hle
    have hshort : d ≤ 1000 * (d / 1000000) := hle
    omega
  · have hneg : d ≤ 0 := by
      rw [hd]
      exact sub_nonpos.mpr (not_lt.mp hdue)
    rw [max_eq_left hneg] at hlt
    have hlong : (1000 * 100 : ℤ) < 0 + 1000 := hlt
    omega

theorem addTimer_earliest (memory : TimerPtr → ℤ) (when_ : Timestamp) (interval : ℚ) :
    ((create memory).addTimer when_ interval).Heaped ∧
      ((create memory).addTimer when_ interval).EarliestExpiration when_ := by
  obtain ⟨hvalid, hqueued, -, -⟩ := addTimer_spec (create_valid memory) when_ interval
  have honly : ∀ t ∈ ((create memory).addTimer when_ interval).timers, t = 0 := by
    intro t ht
    rcases (hqueued t).mp (IndexedHeap.mem_elements.mp ht) with hold | rfl
    · exact absurd ((create_valid memory).created t hold) (Nat.not_lt_zero t)
    · rfl
  refine ⟨⟨hvalid.indexed, hvalid.ordered⟩, ⟨0, ?_, rfl⟩, fun t ht => ?_⟩
  · exact IndexedHeap.mem_elements.mpr ((hqueued 0).mpr (.inr rfl))
  · rw [honly t ht]
    exact le_rfl

/-- For a timer due in a second and a half the timeout is a millisecond. -/
theorem earliestExpiredTime_seconds : ∃ q : TimerQueue, q.Heaped ∧
    q.EarliestExpiration 1500000 ∧ ¬ Matches (q.earliestExpiredTime 0) 1500000 0 := by
  obtain ⟨hheaped, hfirst⟩ := addTimer_earliest (fun _ => 0) 1500000 0
  refine ⟨_, hheaped, hfirst, ?_⟩
  rw [earliestExpiredTime_eq hheaped hfirst (by decide)]
  unfold Matches
  decide

/-- The same for a timer that is due. -/
theorem earliestExpiredTime_mismatch_due :
    ¬ Matches (((create fun _ => 0).addTimer 5 0).earliestExpiredTime 10) 5 10 := by
  obtain ⟨hheaped, hfirst⟩ := addTimer_earliest (fun _ => 0) 5 0
  exact earliestExpiredTime_mismatch hheaped hfirst (by decide)

end TimerQueue
end MuduoWindows.Net
