import MuduoWindows.Net.Timers.Callbacks
import MuduoWindows.Net.Timers.MinHeap

/-! # The loop of `TimerQueue::expiredProcess`

The callbacks do not touch the queue. The loop ends when its test fails; with callbacks that return
it fails to end exactly when a due repeating timer is due again at once, which happens for intervals
that `addTime` truncates to zero microseconds or that take it past the last `int64_t`.
-/

namespace MuduoWindows.Net
open Library

namespace Timestamp

theorem truncate_pos {x : ℚ} : 0 < truncate x ↔ 1 ≤ x := by
  have hden : (0 : ℤ) < x.den := by exact_mod_cast x.pos
  rw [← not_lt (a := x), ← Rat.num_lt_denom_iff, not_lt]
  unfold truncate
  constructor
  · intro hpos
    by_contra hlt
    have hle : x.num.tdiv x.den ≤ ((x.den : ℤ) - 1).tdiv x.den :=
      Int.tdiv_le_tdiv hden (by omega)
    rw [Int.tdiv_eq_zero_of_lt (a := (x.den : ℤ) - 1) (by omega) (by omega)] at hle
    exact absurd hpos (not_lt_of_ge hle)
  · intro hle
    rw [Int.tdiv_eq_ediv_of_nonneg (hden.le.trans hle)]
    exact (Int.le_ediv_iff_mul_le hden).mpr (by omega)

end Timestamp

/-- `addTime` moves `now` forward: the product has a whole microsecond and, unless `now` is before
the epoch, the sum is an `int64_t`. -/
def Advances (now : Timestamp) (seconds : ℚ) : Prop :=
  1 ≤ Timestamp.microSeconds seconds ∧
    (0 ≤ now → now + Timestamp.truncate (Timestamp.microSeconds seconds) < 2 ^ 63)

theorem Timestamp.truncate_microSeconds {seconds : ℚ} (hpos : 0 < seconds) :
    0 ≤ truncate (microSeconds seconds) := by
  have hround : 0 ≤ microSeconds seconds :=
    Binary64.round_nonneg (mul_nonneg hpos.le (by norm_num [kMicroSecondsPerSecond]))
  exact Int.tdiv_nonneg (Rat.num_nonneg.mpr hround) (Int.natCast_nonneg _)

/-- The sum wraps when it is out of range, the cast of the second number gives the lowest one. -/
theorem lt_sum_iff {m n : ℤ} (hlow : -2 ^ 63 ≤ m) (hhigh : m < 2 ^ 63) (hn : 0 ≤ n) :
    m < (m + if -2 ^ 63 ≤ n ∧ n < 2 ^ 63 then n else -2 ^ 63).bmod (2 ^ 64) ↔
      0 < n ∧ (0 ≤ m → m + n < 2 ^ 63) := by
  rw [Int.bmod_def]
  split_ifs <;> omega

theorem lt_addTime {now : Timestamp} {seconds : ℚ} (hlow : -2 ^ 63 ≤ now) (hhigh : now < 2 ^ 63)
    (hpos : 0 < seconds) : now < addTime now seconds ↔ Advances now seconds := by
  unfold addTime Advances Timestamp.toInt64
  rw [← Timestamp.truncate_pos]
  exact lt_sum_iff hlow hhigh (Timestamp.truncate_microSeconds hpos)

namespace TimerQueue

/-- At most `fuel` rounds of the loop: the timers whose callbacks ran, and the queue left. -/
def expiredProcess : ℕ → TimerQueue → Timestamp → Option (List TimerPtr × TimerQueue)
  | 0, _, _ => none
  | fuel + 1, q, now =>
    match q.due now with
    | none => some ([], q)
    | some t => (expiredProcess fuel (q.afterCallback now t) now).map fun r => (t :: r.1, r.2)

variable {q q' : TimerQueue} {now : Timestamp}

theorem expiredProcess_none (hd : q.due now = none) (fuel : ℕ) :
    expiredProcess (fuel + 1) q now = some ([], q) := by
  rw [expiredProcess, hd]

theorem expiredProcess_some {t : TimerPtr} (hd : q.due now = some t) (fuel : ℕ) :
    expiredProcess (fuel + 1) q now =
      (expiredProcess fuel (q.afterCallback now t) now).map fun r => (t :: r.1, r.2) := by
  rw [expiredProcess, hd]

theorem Heaped.nodup (h : q.Heaped) : q.timers.Nodup := h.indexed.nodup_elements

theorem Valid.heaped (h : q.Valid) : q.Heaped := ⟨h.indexed, h.ordered⟩

theorem mem_timers {t : TimerPtr} : t ∈ q.timers ↔ q.Queued t := IndexedHeap.mem_elements

theorem Heaped.due_first (h : q.Heaped) {t : TimerPtr} (hd : q.due now = some t) :
    t ∈ q.timers ∧ q.expiration t ≤ now ∧ ∀ u ∈ q.timers, q.expiration t ≤ q.expiration u := by
  obtain ⟨htop, hle⟩ := due_eq_some.mp hd
  refine ⟨mem_timers.mpr (queued_of_top htop), hle, fun u hu => ?_⟩
  obtain ⟨-, rfl⟩ := top_eq_some.mp htop
  obtain ⟨i, hi, rfl⟩ := mem_timers.mp hu
  exact h.ordered.first_le hi

theorem Heaped.exists_due (h : q.Heaped) {t : TimerPtr} (ht : t ∈ q.timers)
    (hle : q.expiration t ≤ now) : ∃ u, q.due now = some u := by
  obtain ⟨i, hi, rfl⟩ := mem_timers.mp ht
  refine ⟨q.timeMinHeap.event 0, due_eq_some.mpr ⟨top_eq_some.mpr ⟨by omega, rfl⟩, ?_⟩⟩
  exact (h.ordered.first_le hi).trans hle

theorem Heaped.oneShot (h : q.Heaped) {t : TimerPtr} (hd : q.due now = some t)
    (hr : (q.timer t).repeats = false) :
    (q.afterCallback now t).Heaped ∧ q.timers = t ::ₘ (q.afterCallback now t).timers ∧
      (q.afterCallback now t).timer = q.timer := by
  obtain ⟨hs, rfl⟩ := top_eq_some.mp (due_eq_some.mp hd).1
  obtain ⟨-, hpop, -, htimers⟩ := h.pop hs
  rw [afterCallback_oneShot hr]
  exact ⟨hpop, htimers, rfl⟩

theorem Heaped.repeating (h : q.Heaped) {t : TimerPtr} (hd : q.due now = some t)
    (hr : (q.timer t).repeats = true) :
    (q.afterCallback now t).Heaped ∧ (q.afterCallback now t).timers = q.timers ∧
      (q.afterCallback now t).timer = Function.update q.timer t
        { q.timer t with expiration := addTime now (q.timer t).interval } := by
  obtain ⟨hs, rfl⟩ := top_eq_some.mp (due_eq_some.mp hd).1
  obtain ⟨-, hpop, -, htimers⟩ := h.pop hs
  have hout : ¬ q.minHeapPop.Queued (q.timeMinHeap.event 0) := by
    have hnodup := h.nodup
    rw [htimers] at hnodup
    exact mt mem_timers.mpr (Multiset.nodup_cons.mp hnodup).1
  have hassign := hpop.assign hout ((q.timer (q.timeMinHeap.event 0)).restart now)
  obtain ⟨hpush, hcons⟩ := hassign.push hout
  rw [afterCallback_repeating hr]
  refine ⟨hpush, hcons.trans htimers.symm, ?_⟩
  change Function.update q.timer _ _ = _
  unfold Timer.restart
  rw [if_pos hr]

/-- What a round of the loop does: the timer leaves the heap unless it repeats, in which case it has
a new expiration. -/
structure Round (q : TimerQueue) (now : Timestamp) (t : TimerPtr) (q' : TimerQueue) : Prop where
  heaped : q'.Heaped
  timers : q'.timers = q.timers.filter fun u => u ≠ t ∨ (q.timer u).repeats = true
  other : ∀ u, u ≠ t → q'.timer u = q.timer u
  self : q'.timer t = if (q.timer t).repeats then
    { q.timer t with expiration := addTime now (q.timer t).interval } else q.timer t

theorem Heaped.round (h : q.Heaped) {t : TimerPtr} (hd : q.due now = some t) :
    Round q now t (q.afterCallback now t) := by
  cases hr : (q.timer t).repeats with
  | false =>
    obtain ⟨hheaped, htimers, htimer⟩ := h.oneShot hd hr
    have hnodup := h.nodup
    rw [htimers] at hnodup
    have hout := (Multiset.nodup_cons.mp hnodup).1
    refine ⟨hheaped, ?_, fun u _ => congrFun htimer u, ?_⟩
    · rw [htimers, Multiset.filter_cons_of_neg _ (by simp [hr])]
      refine (Multiset.filter_eq_self.mpr fun u hu => .inl ?_).symm
      rintro rfl
      exact hout hu
    · rw [htimer, hr, if_neg Bool.false_ne_true]
  | true =>
    obtain ⟨hheaped, htimers, htimer⟩ := h.repeating hd hr
    refine ⟨hheaped, ?_, fun u hu => ?_, ?_⟩
    · rw [htimers]
      refine (Multiset.filter_eq_self.mpr fun u _ => ?_).symm
      by_cases hu : u = t
      · exact .inr (hu ▸ hr)
      · exact .inl hu
    · rw [htimer, Function.update_of_ne hu]
    · rw [htimer, Function.update_self, hr, if_pos rfl]

section Round
variable {t u : TimerPtr}

theorem Round.mem (h : Round q now t q') :
    u ∈ q'.timers ↔ u ∈ q.timers ∧ (u ≠ t ∨ (q.timer u).repeats = true) := by
  rw [h.timers, Multiset.mem_filter]

theorem Round.repeats (h : Round q now t q') : (q'.timer u).repeats = (q.timer u).repeats := by
  by_cases hu : u = t
  · rw [hu, h.self]
    split_ifs <;> rfl
  · rw [h.other u hu]

theorem Round.expiration (h : Round q now t q') (hu : u ≠ t) :
    q'.expiration u = q.expiration u := congrArg Timer.expiration (h.other u hu)

theorem Round.expiration_self (h : Round q now t q') (ht : t ∈ q'.timers) :
    (q.timer t).repeats = true ∧ q'.expiration t = addTime now (q.timer t).interval := by
  have hr := (h.mem.mp ht).2.resolve_left fun hne => hne rfl
  refine ⟨hr, ?_⟩
  rw [TimerQueue.expiration, h.self, if_pos hr]

theorem Round.not_due (h : Round q now t q')
    (hlater : (q.timer t).repeats = true → now < addTime now (q.timer t).interval) :
    ¬(t ∈ q'.timers ∧ q'.expiration t ≤ now) := by
  rintro ⟨ht, hle⟩
  obtain ⟨hr, hexp⟩ := h.expiration_self ht
  rw [hexp] at hle
  exact absurd (hlater hr) (not_lt_of_ge hle)

end Round

/-- A due repeating timer that will be due again at once. -/
structure Spins (q : TimerQueue) (now : Timestamp) (t : TimerPtr) : Prop where
  mem : t ∈ q.timers
  due : q.expiration t ≤ now
  repeats : (q.timer t).repeats = true
  again : addTime now (q.timer t).interval ≤ now

theorem Spins.round {t u : TimerPtr} (h : q.Spins now t) (hround : Round q now u q') :
    q'.Spins now t := by
  have hmem := hround.mem.mpr ⟨h.mem, .inr h.repeats⟩
  have hrepeats := hround.repeats.trans h.repeats
  by_cases hne : t = u
  · subst u
    have hself := hround.self
    rw [if_pos h.repeats] at hself
    refine ⟨hmem, ?_, hrepeats, ?_⟩
    · rw [expiration, hself]
      exact h.again
    · rw [hself]
      exact h.again
  · refine ⟨hmem, ?_, hrepeats, ?_⟩
    · rw [hround.expiration hne]
      exact h.due
    · rw [hround.other t hne]
      exact h.again

theorem Spins.none {t : TimerPtr} (h : q.Spins now t) (hq : q.Heaped) (fuel : ℕ) :
    expiredProcess fuel q now = none := by
  induction fuel generalizing q with
  | zero => rfl
  | succ fuel ih =>
    obtain ⟨u, hu⟩ := hq.exists_due h.mem h.due
    have hround := hq.round hu
    rw [expiredProcess_some hu, ih (h.round hround) hround.heaped]
    rfl

/-- What the loop leaves when it returns: the due timers have run, once each and in the order of
their expirations, and of these the repeating ones are queued again. -/
structure Processed (q : TimerQueue) (now : Timestamp) (ran : List TimerPtr) (q' : TimerQueue) :
    Prop where
  once : ran.Nodup
  due : ∀ t, t ∈ ran ↔ t ∈ q.timers ∧ q.expiration t ≤ now
  order : ran.Pairwise fun t u => q.expiration t ≤ q.expiration u
  heaped : q'.Heaped
  left : q'.timers = q.timers.filter fun t => now < q.expiration t ∨ (q.timer t).repeats = true
  unchanged : ∀ t, t ∉ ran ∨ (q.timer t).repeats = false → q'.timer t = q.timer t
  rearmed : ∀ t ∈ ran, (q.timer t).repeats = true →
    q'.timer t = { q.timer t with expiration := addTime now (q.timer t).interval }
  later : ∀ t ∈ q'.timers, now < q'.expiration t

variable {ran : List TimerPtr}

theorem Heaped.processed_nil (h : q.Heaped) (hd : q.due now = none) : Processed q now [] q := by
  have hlater : ∀ t ∈ q.timers, now < q.expiration t := by
    intro t ht
    by_contra hle
    obtain ⟨u, hu⟩ := h.exists_due ht (not_lt.mp hle)
    exact Option.some_ne_none u (hu.symm.trans hd)
  refine ⟨List.nodup_nil, fun t => ?_, List.Pairwise.nil, h, ?_, fun _ _ => rfl, ?_, hlater⟩
  · refine iff_of_false List.not_mem_nil fun ht => ?_
    exact absurd ht.2 (not_le_of_gt (hlater t ht.1))
  · exact (Multiset.filter_eq_self.mpr fun t ht => .inl (hlater t ht)).symm
  · exact fun t ht => absurd ht List.not_mem_nil

theorem Heaped.processed_cons (h : q.Heaped) {t : TimerPtr} (hd : q.due now = some t)
    (hlater : (q.timer t).repeats = true → now < addTime now (q.timer t).interval)
    (k : Processed (q.afterCallback now t) now ran q') : Processed q now (t :: ran) q' := by
  obtain ⟨hmem, hle, hfirst⟩ := h.due_first hd
  have hround := h.round hd
  have hnot : t ∉ ran := fun hm => hround.not_due hlater ((k.due t).mp hm)
  have hne : ∀ {u}, u ∈ ran → u ≠ t := by
    rintro u hu rfl
    exact hnot hu
  have hdue : ∀ {u}, u ≠ t → (u ∈ ran ↔ u ∈ q.timers ∧ q.expiration u ≤ now) := by
    intro u hu
    rw [k.due, hround.mem, hround.expiration hu, and_iff_left (Or.inl hu)]
  refine ⟨List.nodup_cons.mpr ⟨hnot, k.once⟩, fun u => ?_, ?_, k.heaped, ?_, fun u hu => ?_,
    fun u hu hru => ?_, k.later⟩
  · by_cases hu : u = t
    · subst u
      exact iff_of_true List.mem_cons_self ⟨hmem, hle⟩
    · rw [List.mem_cons, hdue hu]
      exact or_iff_right hu
  · refine List.pairwise_cons.mpr ⟨fun u hu => hfirst u ((hdue (hne hu)).mp hu).1, ?_⟩
    refine k.order.imp_of_mem fun {u v} hu hv huv => ?_
    rwa [hround.expiration (hne hu), hround.expiration (hne hv)] at huv
  · rw [k.left, hround.timers, Multiset.filter_filter]
    refine Multiset.filter_congr fun u _ => ?_
    rw [hround.repeats]
    by_cases hu : u = t
    · subst u
      simp only [ne_eq, not_true_eq_false, false_or, not_lt_of_ge hle]
      exact and_iff_right_of_imp Or.inr
    · rw [hround.expiration hu]
      exact and_iff_left (Or.inl hu)
  · by_cases hut : u = t
    · subst u
      have hr := hu.resolve_left fun hnotin => hnotin List.mem_cons_self
      rw [k.unchanged t (.inl hnot), hround.self, hr, if_neg Bool.false_ne_true]
    · rw [← hround.other u hut]
      refine k.unchanged u (hu.imp (fun hu hmem => hu (List.mem_cons_of_mem _ hmem)) fun hu => ?_)
      rw [hround.repeats]
      exact hu
  · rcases List.mem_cons.mp hu with rfl | hu
    · rw [k.unchanged u (.inl hnot), hround.self, if_pos hru]
    · rw [← hround.other u (hne hu)] at hru ⊢
      exact k.rearmed u hu hru

/-- When `expiredProcess` returns, every timer that was due has run exactly once, in the order of
expiration, and no other one; the heap holds the timers that were not due, unchanged, and the due
repeating ones with their new expiration, all later than `now`. -/
theorem expiredProcess_runs_due (h : q.Heaped) {fuel : ℕ}
    (hr : expiredProcess fuel q now = some (ran, q')) : Processed q now ran q' := by
  induction fuel generalizing q ran with
  | zero => cases hr
  | succ fuel ih =>
    cases hd : q.due now with
    | none =>
      rw [expiredProcess_none hd, Option.some.injEq, Prod.mk.injEq] at hr
      obtain ⟨rfl, rfl⟩ := hr
      exact h.processed_nil hd
    | some t =>
      have hround := hr
      rw [expiredProcess_some hd] at hround
      obtain ⟨⟨ran₁, q₁⟩, hrest, heq⟩ := Option.map_eq_some_iff.mp hround
      obtain ⟨rfl, rfl⟩ := Prod.mk.inj heq
      refine h.processed_cons hd (fun hrep => ?_) (ih (h.round hd).heaped hrest)
      -- otherwise the loop would not return
      by_contra hagain
      obtain ⟨hmem, hle, -⟩ := h.due_first hd
      have hspins : q.Spins now t := ⟨hmem, hle, hrep, not_lt.mp hagain⟩
      rw [hspins.none h] at hr
      cases hr

/-- Three timers are due, one of them repeating, and a fourth one is not. -/
theorem expiredProcess_runs_due_three : ∃ ran q',
    expiredProcess 4 (((((create fun _ => 0).addTimer 20 0).addTimer 5 3).addTimer 5 0).addTimer
      40 0) 30 = some (ran, q') ∧
    Processed (((((create fun _ => 0).addTimer 20 0).addTimer 5 3).addTimer 5 0).addTimer 40 0)
      30 ran q' ∧ ran.length = 3 := by
  have hvalid := (addTimer_spec (addTimer_spec (addTimer_spec (addTimer_spec
    (create_valid fun _ => 0) 20 0).1 5 3).1 5 0).1 40 0).1
  have hran : ((expiredProcess 4 (((((create fun _ => 0).addTimer 20 0).addTimer 5 3).addTimer
      5 0).addTimer 40 0) 30).map fun r => r.1.length) = some 3 := by decide +kernel
  obtain ⟨⟨ran, q'⟩, hr, hlength⟩ := Option.map_eq_some_iff.mp hran
  exact ⟨ran, q', hr, expiredProcess_runs_due hvalid.heaped hr, hlength⟩

/-- The timers come from the constructor, so they repeat when their interval is positive. -/
def Built (q : TimerQueue) : Prop :=
  ∀ t ∈ q.timers, (q.timer t).repeats = decide (0 < (q.timer t).interval)

def numDue (q : TimerQueue) (now : Timestamp) : ℕ :=
  (q.timers.filter fun t => q.expiration t ≤ now).card

theorem Heaped.numDue_afterCallback (h : q.Heaped) {t : TimerPtr} (hd : q.due now = some t)
    (hlater : (q.timer t).repeats = true → now < addTime now (q.timer t).interval) :
    q.numDue now = (q.afterCallback now t).numDue now + 1 := by
  obtain ⟨hmem, hle, -⟩ := h.due_first hd
  have hround := h.round hd
  have hdue : t ∈ q.timers.filter fun u => q.expiration u ≤ now :=
    Multiset.mem_filter.mpr ⟨hmem, hle⟩
  have herase : ((q.afterCallback now t).timers.filter fun u =>
      (q.afterCallback now t).expiration u ≤ now) =
      (q.timers.filter fun u => q.expiration u ≤ now).erase t := by
    rw [(h.nodup.filter _).erase_eq_filter, hround.timers, Multiset.filter_filter,
      Multiset.filter_filter]
    refine Multiset.filter_congr fun u hu => ?_
    by_cases hut : u = t
    · subst u
      refine iff_of_false (fun hagain => ?_) fun hself => hself.1 rfl
      exact hround.not_due hlater ⟨hround.mem.mpr ⟨hu, hagain.2⟩, hagain.1⟩
    · rw [hround.expiration hut, and_iff_left (Or.inl hut), and_iff_right hut]
  unfold numDue
  rw [herase, Multiset.card_erase_of_mem hdue]
  exact (Nat.succ_pred_eq_of_pos (Multiset.card_pos_iff_exists_mem.mpr ⟨t, hdue⟩)).symm

/-- With a later expiration for each due repeating timer every round has one due timer less. -/
theorem Heaped.expiredProcess_returns (h : q.Heaped)
    (hlater : ∀ t ∈ q.timers, q.expiration t ≤ now → (q.timer t).repeats = true →
      now < addTime now (q.timer t).interval) :
    (expiredProcess (q.numDue now + 1) q now).isSome := by
  generalize hn : q.numDue now = n
  induction n generalizing q with
  | zero =>
    cases hd : q.due now with
    | none =>
      rw [expiredProcess_none hd]
      rfl
    | some t =>
      obtain ⟨hmem, hle, -⟩ := h.due_first hd
      rw [h.numDue_afterCallback hd (hlater t hmem hle)] at hn
      cases hn
  | succ n ih =>
    cases hd : q.due now with
    | none =>
      rw [expiredProcess_none hd]
      rfl
    | some t =>
      obtain ⟨hmem, hle, -⟩ := h.due_first hd
      have hcount := h.numDue_afterCallback hd (hlater t hmem hle)
      have hround := h.round hd
      rw [expiredProcess_some hd, Option.isSome_map]
      refine ih hround.heaped (fun u hu hule hru => ?_) (by omega)
      by_cases hut : u = t
      · subst u
        exact absurd ⟨hu, hule⟩ (hround.not_due (hlater t hmem hle))
      · rw [hround.expiration hut] at hule
        rw [hround.other u hut] at hru ⊢
        exact hlater u (hround.mem.mp hu).1 hule hru

/-- The loop of `expiredProcess` ends unless a due timer has a positive interval that does not take
`addTime` past `now`. -/
theorem expiredProcess_terminates (h : q.Heaped) (hb : q.Built) (hlow : -2 ^ 63 ≤ now)
    (hhigh : now < 2 ^ 63) :
    (∃ fuel, (expiredProcess fuel q now).isSome) ↔
      ∀ t ∈ q.timers, q.expiration t ≤ now → 0 < (q.timer t).interval →
        Advances now (q.timer t).interval := by
  constructor
  · rintro ⟨fuel, hsome⟩ t ht hle hpos
    by_contra hshort
    have hspins : q.Spins now t := ⟨ht, hle, (hb t ht).trans (decide_eq_true hpos),
      not_lt.mp (mt (lt_addTime hlow hhigh hpos).mp hshort)⟩
    rw [hspins.none h] at hsome
    cases hsome
  · intro hlong
    refine ⟨_, h.expiredProcess_returns fun t ht hle hr => ?_⟩
    have hpos := of_decide_eq_true ((hb t ht).symm.trans hr)
    exact (lt_addTime hlow hhigh hpos).mpr (hlong t ht hle hpos)

theorem addTimer_built (memory : TimerPtr → ℤ) (when_ : Timestamp) (interval : ℚ) :
    ((create memory).addTimer when_ interval).Heaped ∧
      ((create memory).addTimer when_ interval).Built ∧
      0 ∈ ((create memory).addTimer when_ interval).timers ∧
      ((create memory).addTimer when_ interval).timer 0 = Timer.create when_ interval 1 := by
  obtain ⟨hvalid, hqueued, -, -⟩ := addTimer_spec (create_valid memory) when_ interval
  have htimer : ((create memory).addTimer when_ interval).timer 0 =
      Timer.create when_ interval 1 := rfl
  refine ⟨hvalid.heaped, fun t ht => ?_, mem_timers.mpr ((hqueued 0).mpr (.inr rfl)), htimer⟩
  rcases (hqueued t).mp (mem_timers.mp ht) with hold | rfl
  · exact absurd ((create_valid memory).created t hold) (Nat.not_lt_zero t)
  · rw [show (create memory).numCreated = 0 from rfl, htimer]
    rfl

/-- A timer that repeats every half microsecond keeps the loop going for ever. -/
theorem expiredProcess_spins : ∃ q : TimerQueue, q.Heaped ∧ q.Built ∧
    ∀ fuel, expiredProcess fuel q 10 = none := by
  obtain ⟨hheaped, hbuilt, hmem, htimer⟩ := addTimer_built (fun _ => 0) 5 (1 / 2000000)
  refine ⟨_, hheaped, hbuilt, fun fuel => Spins.none ⟨hmem, ?_, ?_, ?_⟩ hheaped fuel⟩
  · rw [expiration, htimer]
    decide
  · rw [htimer]
    decide +kernel
  · rw [htimer]
    decide +kernel

/-- A timer that repeats every millisecond lets the loop end. -/
theorem expiredProcess_terminates_milli : ∃ fuel,
    (expiredProcess fuel ((create fun _ => 0).addTimer 5 (1 / 1000)) 10).isSome := by
  obtain ⟨hheaped, hbuilt, -, htimer⟩ := addTimer_built (fun _ => 0) 5 (1 / 1000)
  refine (expiredProcess_terminates hheaped hbuilt (by decide) (by decide)).mpr
    fun t ht _ _ => ?_
  obtain ⟨-, hqueued, -, -⟩ := addTimer_spec (create_valid fun _ => 0) 5 (1 / 1000)
  rcases (hqueued t).mp (mem_timers.mp ht) with hold | rfl
  · exact absurd ((create_valid fun _ => 0).created t hold) (Nat.not_lt_zero t)
  · rw [show (create fun _ => 0).numCreated = 0 from rfl, htimer]
    unfold Advances
    decide +kernel

end TimerQueue

namespace TimerRun

/-- The steps of the loop whose callbacks, those of `ran`, return at once. -/
def loopEvents (now : Timestamp) (ran : List TimerPtr) : List TimerEvent :=
  ran.flatMap (fun t => [.test now, .finish now t]) ++ [.test now]

/-- The function takes the same way as the machine that stops at each callback. -/
theorem expiredProcess_run {fuel : ℕ} {now : Timestamp} {ran : List TimerPtr} {q' : TimerQueue}
    {s : TimerRun} (hp : s.phase = .head now)
    (hr : TimerQueue.expiredProcess fuel s.queue now = some (ran, q')) :
    ∃ s', machine.Run Machine.Any s (loopEvents now ran) s' ∧ s'.queue = q' ∧
      s'.phase = .outside ∧ ∀ t, s'.ran t = s.ran t + ran.count t := by
  induction fuel generalizing s ran with
  | zero => cases hr
  | succ fuel ih =>
    cases hd : s.queue.due now with
    | none =>
      rw [TimerQueue.expiredProcess_none hd, Option.some.injEq, Prod.mk.injEq] at hr
      obtain ⟨rfl, rfl⟩ := hr
      refine ⟨{ s with phase := .outside }, .single hp trivial ?_, rfl, rfl, fun _ => rfl⟩
      simp [machine, hd]
    | some t =>
      rw [TimerQueue.expiredProcess_some hd] at hr
      obtain ⟨⟨ran₁, q₁⟩, hrest, heq⟩ := Option.map_eq_some_iff.mp hr
      obtain ⟨rfl, rfl⟩ := Prod.mk.inj heq
      obtain ⟨s', hrun, hq, hout, hcount⟩ := ih (s := (s.call now t).finish now t) rfl hrest
      have htest : machine.step s (.test now) = .ok (s.call now t) := by simp [machine, hd]
      refine ⟨s', .cons hp trivial htest (.cons rfl trivial rfl hrun), hq, hout, fun u => ?_⟩
      rw [hcount u]
      change Function.update s.ran t (s.ran t + 1) u + _ = _
      by_cases hu : u = t
      · rw [hu, Function.update_self, List.count_cons_self]
        exact Nat.add_right_comm _ _ _
      · rw [Function.update_of_ne hu, List.count_cons_of_ne (Ne.symm hu)]

end TimerRun
end MuduoWindows.Net
