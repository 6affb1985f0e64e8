import MuduoWindows.Base.LogStream.Convert
import MuduoWindows.Library.RoundRobin

/-! # net/eventLoopThreadPool.cpp

`L` is the type of loops. The functions are called on the thread of the base loop; `startLoop` of
the thread with number `i` returns `loop i`.
-/

namespace MuduoWindows.Net
open Library Base

structure EventLoopThreadPool (L : Type) where
  baseLoop : L
  name : List UInt8
  started : Bool
  numThreads : ℤ
  next : ℕ
  /-- The names of the `EventLoopThread`s. -/
  threads : List (List UInt8)
  loops : List L

namespace EventLoopThreadPool
variable {L : Type}

def create (baseLoop : L) (nameArg : List UInt8) : EventLoopThreadPool L :=
  { baseLoop := baseLoop, name := nameArg, started := false, numThreads := 0, next := 0
    threads := [], loops := [] }

def setThreadNum (s : EventLoopThreadPool L) (numThreads : ℤ) : EventLoopThreadPool L :=
  { s with numThreads := numThreads }

/-- `snprintf(buf, sizeof buf, "%s%d", name_.c_str(), i)`, where `buf` is a pointer and the name has
no NUL, where `%s` would stop. -/
def threadName (sizeofBuf : ℕ) (name : List UInt8) (i : ℕ) : List UInt8 :=
  (name ++ integerText i).take (sizeofBuf - 1)

/-- The body of the loop in `start`. -/
def startThread (sizeofBuf : ℕ) (loop : ℕ → L) (s : EventLoopThreadPool L) (i : ℕ) :
    EventLoopThreadPool L :=
  { s with threads := s.threads ++ [threadName sizeofBuf s.name i], loops := s.loops ++ [loop i] }

/-- `start`, and the loops that the callback is called for if there is one: each thread calls it for
its own loop. -/
def start (sizeofBuf : ℕ) (loop : ℕ → L) (s : EventLoopThreadPool L) (cb : Bool) :
    Result (EventLoopThreadPool L × List L) := do
  assert (s.started = false) "!started_"
  let s := { s with started := true }
  let s := (List.range s.numThreads.toNat).foldl (startThread sizeofBuf loop) s
  if s.numThreads = 0 ∧ cb then pure (s, [s.baseLoop])
  else pure (s, if cb then s.loops else [])

def getNextLoop (s : EventLoopThreadPool L) : Result (L × EventLoopThreadPool L) := do
  assert (s.started = true) "started_"
  if s.loops = [] then pure (s.baseLoop, s)
  else
    match s.loops[s.next]? with
    | none => .error (.outOfBounds "loops_[next_]")
    | some loop =>
      let next := s.next + 1
      pure (loop, { s with next := if next ≥ s.loops.length then 0 else next })

def getLoopForHash (s : EventLoopThreadPool L) (hashCode : ℕ) : Result L :=
  if s.loops = [] then pure s.baseLoop
  else
    match s.loops[hashCode % s.loops.length]? with
    | none => .error (.outOfBounds "loops_[hashCode % loops_.size()]")
    | some loop => pure loop

def getAllLoops (s : EventLoopThreadPool L) : Result (List L) := do
  assert (s.started = true) "started_"
  if s.loops = [] then pure [s.baseLoop] else pure s.loops

variable {s t : EventLoopThreadPool L} {sizeofBuf : ℕ} {loop : ℕ → L} {cb : Bool}

theorem foldl_startThread (s : EventLoopThreadPool L) (n : ℕ) :
    (List.range n).foldl (startThread sizeofBuf loop) s =
      { s with
        threads := s.threads ++ (List.range n).map (threadName sizeofBuf s.name)
        loops := s.loops ++ (List.range n).map loop } := by
  induction n with
  | zero => simp
  | succ n ih =>
    rw [List.range_succ, List.foldl_append, ih, List.map_append, List.map_append,
      ← List.append_assoc, ← List.append_assoc]
    rfl

theorem start_eq (hstarted : s.started = false) (hthreads : s.threads = [])
    (hloops : s.loops = []) :
    s.start sizeofBuf loop cb = .ok
      ({ s with
          started := true
          threads := (List.range s.numThreads.toNat).map (threadName sizeofBuf s.name)
          loops := (List.range s.numThreads.toNat).map loop },
        if cb then
          if s.numThreads = 0 then [s.baseLoop] else (List.range s.numThreads.toNat).map loop
        else []) := by
  unfold start
  rw [require_bind hstarted]
  dsimp only
  rw [foldl_startThread]
  dsimp only
  rw [hthreads, hloops, List.nil_append, List.nil_append]
  cases cb with
  | true =>
    by_cases hzero : s.numThreads = 0
    · rw [if_pos ⟨hzero, rfl⟩, if_pos rfl, if_pos hzero]
      rfl
    · rw [if_neg fun h => hzero h.1, if_pos rfl, if_pos rfl, if_neg hzero]
      rfl
  | false =>
    rw [if_neg fun h => Bool.false_ne_true h.2, if_neg Bool.false_ne_true,
      if_neg Bool.false_ne_true]
    rfl

theorem getNextLoop_eq (hstarted : s.started = true) {k : ℕ}
    (hnext : s.loops ≠ [] → s.next = k % s.loops.length) :
    s.getNextLoop = .ok (turn s.loops s.baseLoop k,
      { s with next := if s.loops = [] then s.next else (k + 1) % s.loops.length }) := by
  unfold getNextLoop
  rw [require_bind hstarted]
  by_cases hempty : s.loops = []
  · have hturn : turn s.loops s.baseLoop k = s.baseLoop := by rw [hempty, turn_nil]
    rw [if_pos hempty, if_pos hempty, hturn]
    rfl
  · have hpos := List.length_pos_of_ne_nil hempty
    have hlt : s.next < s.loops.length := by
      rw [hnext hempty]
      exact Nat.mod_lt k hpos
    rw [if_neg hempty, if_neg hempty, List.getElem?_eq_getElem hlt,
      turn_eq (Nat.mod_lt k hpos)]
    dsimp only
    simp only [hnext hempty, next_position hpos, ge_iff_le, pure_eq_ok]

theorem getLoopForHash_eq (hashCode : ℕ) :
    s.getLoopForHash hashCode = .ok (turn s.loops s.baseLoop hashCode) := by
  unfold getLoopForHash
  by_cases hempty : s.loops = []
  · rw [if_pos hempty, hempty, turn_nil, pure_eq_ok]
  · have hlt := Nat.mod_lt hashCode (List.length_pos_of_ne_nil hempty)
    rw [if_neg hempty, turn_eq hlt, List.getElem?_eq_getElem hlt]
    rfl

/-- The names are different exactly when the last one is not cut, or when there is only one. -/
theorem threadNames_nodup_iff (sizeofBuf : ℕ) (name : List UInt8) (n : ℕ) :
    ((List.range n).map (threadName sizeofBuf name)).Nodup ↔
      n ≤ 1 ∨ name.length + (integerText ((n - 1 : ℕ) : ℤ)).length ≤ sizeofBuf - 1 := by
  have htext : ∀ i : ℕ, integerText (i : ℤ) = decimal.numeral i := by
    intro i
    unfold integerText
    rw [if_neg (by omega), Int.natAbs_natCast]
  have hname : ∀ i, threadName sizeofBuf name i =
      name.take (sizeofBuf - 1) ++ (decimal.numeral i).take (sizeofBuf - 1 - name.length) := by
    intro i
    unfold threadName
    rw [htext, List.take_append]
  rw [htext]
  generalize sizeofBuf - 1 = size at *
  constructor
  · intro hnodup
    by_contra hcut
    obtain ⟨hn, hcut⟩ := not_or.mp hcut
    rw [not_le] at hn hcut
    have hinj : ∀ i j, i < n → j < n → threadName sizeofBuf name i = threadName sizeofBuf name j →
        i = j := fun i j hi hj heq =>
      List.inj_on_of_nodup_map hnodup (List.mem_range.mpr hi) (List.mem_range.mpr hj) heq
    obtain hfull | hroom := Nat.eq_zero_or_pos (size - name.length)
    · have hsame := hinj 0 1 (by omega) hn (by rw [hname, hname, hfull, List.take_zero,
        List.take_zero])
      exact absurd hsame (by decide)
    · -- the digits that are left are the number of an earlier thread
      have hlast := decimal.numeral_take hroom
        (show size - name.length ≤ (decimal.numeral (n - 1)).length by omega)
      have hsmall : (n - 1) / decimal.base ^ ((decimal.numeral (n - 1)).length -
          (size - name.length)) < n - 1 :=
        Nat.div_lt_self (by omega) (Nat.one_lt_pow (by omega) decimal.one_lt_base)
      have hsame := hinj (n - 1) _ (by omega) (hsmall.trans (by omega)) (by
        rw [hname, hname, ← hlast, List.take_take, min_self])
      omega
  · rintro (hone | hfits)
    · interval_cases n <;> simp
    · refine List.Nodup.map_on (fun i hi j hj heq => ?_) List.nodup_range
      have hwhole : ∀ k ∈ List.range n,
          threadName sizeofBuf name k = name ++ decimal.numeral k := by
        intro k hk
        have hle := decimal.numeral_length_mono
          (show k ≤ n - 1 from Nat.le_pred_of_lt (List.mem_range.mp hk))
        rw [hname, List.take_of_length_le (by omega), List.take_of_length_le (by omega)]
      rw [hwhole i hi, hwhole j hj] at heq
      exact decimal.numeral_injective (List.append_cancel_left heq)

end EventLoopThreadPool

/-- A pool with what its functions have returned: `given` by `getNextLoop`, and `initialized` are
the loops that the callback of `start` was called for, if there was one. -/
structure PoolUse (L : Type) where
  pool : EventLoopThreadPool L
  callback : Bool
  initialized : List L
  given : List L

namespace PoolUse
variable {L : Type}

def create (baseLoop : L) (nameArg : List UInt8) : PoolUse L :=
  { pool := .create baseLoop nameArg, callback := false, initialized := [], given := [] }

inductive Event where
  | setThreadNum (numThreads : ℤ)
  | start (cb : Bool)
  | getNextLoop
  | getLoopForHash (hashCode : ℕ)
  | getAllLoops

/-- The calls of the base loop's thread. `TcpServer::setThreadNum` asserts that the number is not
negative, the pool itself does not check it. -/
def machine (sizeofBuf : ℕ) (loop : ℕ → L) : Machine (PoolUse L) Event Fault where
  enabled _
    | .setThreadNum numThreads => 0 ≤ numThreads
    | _ => True
  step s
    | .setThreadNum numThreads => pure { s with pool := s.pool.setThreadNum numThreads }
    | .start cb => do
      let (pool, initialized) ← s.pool.start sizeofBuf loop cb
      pure { s with pool, callback := cb, initialized }
    | .getNextLoop => do
      let (loop, pool) ← s.pool.getNextLoop
      pure { s with pool, given := s.given ++ [loop] }
    | .getLoopForHash hashCode => do
      let _ ← s.pool.getLoopForHash hashCode
      pure s
    | .getAllLoops => do
      let _ ← s.pool.getAllLoops
      pure s

instance (sizeofBuf : ℕ) (loop : ℕ → L) (s : PoolUse L) :
    ∀ e, Decidable ((machine sizeofBuf loop).enabled s e)
  | .setThreadNum _ => inferInstanceAs (Decidable (_ ≤ _))
  | .start _ | .getNextLoop | .getLoopForHash _ | .getAllLoops => .isTrue trivial

/-- The assertions about `started_` hold. -/
def Allowed (s : PoolUse L) : Event → Prop
  | .setThreadNum _ | .getLoopForHash _ => True
  | .start _ => s.pool.started = false
  | .getNextLoop | .getAllLoops => s.pool.started = true

/-- The threads are those of `start`, and `next_` follows the calls. -/
structure Inv (baseLoop : L) (name : List UInt8) (sizeofBuf : ℕ) (loop : ℕ → L) (s : PoolUse L) :
    Prop where
  base_eq : s.pool.baseLoop = baseLoop
  name_eq : s.pool.name = name
  numThreads : 0 ≤ s.pool.numThreads
  fresh : s.pool.started = false →
    s.pool.threads = [] ∧ s.pool.loops = [] ∧ s.pool.next = 0 ∧ s.given = []
  threads : ∃ n,
    s.pool.threads = (List.range n).map (EventLoopThreadPool.threadName sizeofBuf name) ∧
      s.pool.loops = (List.range n).map loop
  next : s.pool.loops ≠ [] → s.pool.next = s.given.length % s.pool.loops.length
  given : s.given = turns s.pool.loops baseLoop s.given.length
  initialized : s.pool.started = true → s.initialized =
    if s.callback then if s.pool.loops = [] then [baseLoop] else s.pool.loops else []

variable {baseLoop : L} {name : List UInt8} {sizeofBuf : ℕ} {loop : ℕ → L} {s t : PoolUse L}
  {e : Event}

theorem create_inv : (create baseLoop name).Inv baseLoop name sizeofBuf loop :=
  ⟨rfl, rfl, le_rfl, fun _ => ⟨rfl, rfl, rfl, rfl⟩, ⟨0, rfl, rfl⟩, fun h => absurd rfl h, rfl,
    nofun⟩

theorem Inv.step (h : s.Inv baseLoop name sizeofBuf loop)
    (he : (machine sizeofBuf loop).enabled s e) (hallowed : s.Allowed e) :
    ∃ t, (machine sizeofBuf loop).step s e = .ok t ∧ t.Inv baseLoop name sizeofBuf loop ∧
      (s.pool.started = true → t.pool.started = true ∧ t.pool.loops = s.pool.loops) := by
  cases e with
  | setThreadNum n =>
    exact ⟨_, rfl, ⟨h.base_eq, h.name_eq, he, h.fresh, h.threads, h.next, h.given, h.initialized⟩,
      fun hs => ⟨hs, rfl⟩⟩
  | start cb =>
    change s.pool.started = false at hallowed
    obtain ⟨hthreads, hloops, hnext, hgiven⟩ := h.fresh hallowed
    have hstep : (machine sizeofBuf loop).step s (.start cb) = .ok { s with
        pool := { s.pool with
          started := true
          threads := (List.range s.pool.numThreads.toNat).map
            (EventLoopThreadPool.threadName sizeofBuf s.pool.name)
          loops := (List.range s.pool.numThreads.toNat).map loop }
        callback := cb
        initialized := if cb then
            if s.pool.numThreads = 0 then [s.pool.baseLoop]
            else (List.range s.pool.numThreads.toNat).map loop
          else [] } := by
      change (s.pool.start sizeofBuf loop cb >>= _) = _
      rw [EventLoopThreadPool.start_eq hallowed hthreads hloops, ok_bind]
      rfl
    refine ⟨_, hstep, ⟨h.base_eq, h.name_eq, h.numThreads, nofun,
      ⟨s.pool.numThreads.toNat, ?_, rfl⟩, fun _ => ?_, ?_, fun _ => ?_⟩,
      fun hs => absurd (hallowed.symm.trans hs) Bool.false_ne_true⟩
    · rw [← h.name_eq]
    · dsimp only
      rw [hnext, hgiven]
      exact (Nat.zero_mod _).symm
    · rw [hgiven]
      rfl
    · have hnil : (List.range s.pool.numThreads.toNat).map loop = [] ↔ s.pool.numThreads = 0 := by
        rw [List.map_eq_nil_iff, List.range_eq_nil]
        have hpos := h.numThreads
        omega
      dsimp only
      rw [h.base_eq, if_congr hnil rfl rfl]
  | getNextLoop =>
    change s.pool.started = true at hallowed
    have hstep : (machine sizeofBuf loop).step s .getNextLoop = .ok { s with
        pool := { s.pool with
          next := if s.pool.loops = [] then s.pool.next
            else (s.given.length + 1) % s.pool.loops.length }
        given := s.given ++ [turn s.pool.loops s.pool.baseLoop s.given.length] } := by
      change (s.pool.getNextLoop >>= _) = _
      rw [EventLoopThreadPool.getNextLoop_eq hallowed h.next, ok_bind]
      rfl
    refine ⟨_, hstep, ⟨h.base_eq, h.name_eq, h.numThreads,
      fun hf => absurd (hf.symm.trans hallowed) Bool.false_ne_true, h.threads, fun hne => ?_, ?_,
      h.initialized⟩, fun hs => ⟨hs, rfl⟩⟩
    · change (if s.pool.loops = [] then s.pool.next
        else (s.given.length + 1) % s.pool.loops.length) = _
      rw [if_neg hne, List.length_append, List.length_singleton]
    · dsimp only
      rw [List.length_append, List.length_singleton, turns_succ, ← h.given, h.base_eq]
  | getLoopForHash hashCode =>
    refine ⟨s, ?_, h, fun hs => ⟨hs, rfl⟩⟩
    change (s.pool.getLoopForHash hashCode >>= _) = _
    rw [EventLoopThreadPool.getLoopForHash_eq, ok_bind]
    rfl
  | getAllLoops =>
    change s.pool.started = true at hallowed
    refine ⟨s, ?_, h, fun hs => ⟨hs, rfl⟩⟩
    change (s.pool.getAllLoops >>= _) = _
    unfold EventLoopThreadPool.getAllLoops
    rw [require_bind hallowed]
    split_ifs <;> rfl

theorem allowed_of_step (ht : (machine sizeofBuf loop).step s e = .ok t) : s.Allowed e := by
  cases e with
  | setThreadNum n => trivial
  | start cb =>
    obtain ⟨_, hstart, -⟩ := bind_eq_ok.mp ht
    exact (require_bind_eq_ok.mp hstart).1
  | getNextLoop =>
    obtain ⟨_, hnext, -⟩ := bind_eq_ok.mp ht
    exact (require_bind_eq_ok.mp hnext).1
  | getLoopForHash hashCode => trivial
  | getAllLoops =>
    obtain ⟨_, hall, -⟩ := bind_eq_ok.mp ht
    exact (require_bind_eq_ok.mp hall).1

theorem run_inv {es : List Event}
    (h : (machine sizeofBuf loop).Run Machine.Any (create baseLoop name) es s) :
    s.Inv baseLoop name sizeofBuf loop := by
  refine h.invariant (Inv baseLoop name sizeofBuf loop) create_inv fun s e t hs he _ ht => ?_
  obtain ⟨t', ht', hinv, -⟩ := hs.step he (allowed_of_step ht)
  exact Except.ok.inj (ht'.symm.trans ht) ▸ hinv

theorem run_loops (h : s.Inv baseLoop name sizeofBuf loop) (hstarted : s.pool.started = true)
    {es : List Event} (hrun : (machine sizeofBuf loop).Run Machine.Any s es t) :
    t.pool.started = true ∧ t.pool.loops = s.pool.loops ∧ t.pool.baseLoop = s.pool.baseLoop := by
  obtain ⟨ht, hts, hloops⟩ := hrun.invariant (fun t => t.Inv baseLoop name sizeofBuf loop ∧
    t.pool.started = true ∧ t.pool.loops = s.pool.loops) ⟨h, hstarted, rfl⟩
    fun u e v hu he _ hv => by
      obtain ⟨v', hv', hinv, hkept⟩ := hu.1.step he (allowed_of_step hv)
      obtain rfl := Except.ok.inj (hv'.symm.trans hv)
      obtain ⟨hvs, hvl⟩ := hkept hu.2.1
      exact ⟨hinv, hvs, hvl.trans hu.2.2⟩
  exact ⟨hts, hloops, ht.base_eq.trans h.base_eq.symm⟩

/-- In every run of these calls: an assertion fails exactly when a function is called on the wrong
side of `start`; `getNextLoop` has dealt the loops in turns, whatever was called between, so that
each has had its share; the callback was called once for each loop that is handed out; and a hash
code has the same loop for ever. -/
theorem pool_round_robin [DecidableEq L] (hloop : Function.Injective loop) {es : List Event}
    (h : (machine sizeofBuf loop).Run Machine.Any (create baseLoop name) es s) :
    (∀ e, (machine sizeofBuf loop).enabled s e →
      ((∃ t, (machine sizeofBuf loop).step s e = .ok t) ↔ s.Allowed e)) ∧
    s.given = turns s.pool.loops baseLoop s.given.length ∧
    (∀ i (hi : i < s.pool.loops.length), s.given.count s.pool.loops[i] =
      s.given.length / s.pool.loops.length +
        if i < s.given.length % s.pool.loops.length then 1 else 0) ∧
    (s.pool.started = true → s.callback = true → s.pool.getAllLoops = .ok s.initialized) ∧
    (s.pool.started = true → ∀ fs t, (machine sizeofBuf loop).Run Machine.Any s fs t →
      (∀ hashCode, t.pool.getLoopForHash hashCode = s.pool.getLoopForHash hashCode) ∧
        t.pool.getAllLoops = s.pool.getAllLoops) := by
  have hinv := run_inv h
  refine ⟨fun e he => ⟨fun ⟨t, ht⟩ => allowed_of_step ht, fun hallowed => ?_⟩, hinv.given,
    fun i hi => ?_, fun hstarted hcallback => ?_, fun hstarted fs t hfs => ?_⟩
  · obtain ⟨t, ht, -⟩ := hinv.step he hallowed
    exact ⟨t, ht⟩
  · have hnodup : s.pool.loops.Nodup := by
      obtain ⟨n, -, hloops⟩ := hinv.threads
      rw [hloops]
      exact List.nodup_range.map hloop
    have hcount := count_turns (d := baseLoop) (k := s.given.length) hnodup hi
    rwa [← hinv.given] at hcount
  · rw [hinv.initialized hstarted, if_pos hcallback]
    unfold EventLoopThreadPool.getAllLoops
    rw [require_bind hstarted, hinv.base_eq]
    split_ifs <;> rfl
  · obtain ⟨hts, hloops, hbase⟩ := run_loops hinv hstarted hfs
    refine ⟨fun hashCode => ?_, ?_⟩
    · rw [EventLoopThreadPool.getLoopForHash_eq, EventLoopThreadPool.getLoopForHash_eq, hloops,
        hbase]
    · unfold EventLoopThreadPool.getAllLoops
      rw [require_bind hts, require_bind hstarted, hloops, hbase]

/-- Three loops and five calls, with a look at a hash code between them. -/
theorem pool_round_robin_five : ∃ s, (machine 8 id).Run Machine.Any (create 100 (Base.ascii "io"))
      [.setThreadNum 3, .start true, .getNextLoop, .getNextLoop, .getLoopForHash 7, .getNextLoop,
        .getNextLoop, .getNextLoop] s ∧
    s.given = [0, 1, 2, 0, 1] ∧ s.given = turns s.pool.loops 100 s.given.length := by
  obtain ⟨s, hs, hp⟩ := Machine.exists_run_of_exec (machine 8 id) Machine.Any
    (create 100 (Base.ascii "io"))
    [.setThreadNum 3, .start true, .getNextLoop, .getNextLoop, .getLoopForHash 7, .getNextLoop,
      .getNextLoop, .getNextLoop]
    (fun s => decide (s.given = [0, 1, 2, 0, 1])) (by decide +kernel)
  exact ⟨s, hs, of_decide_eq_true hp, (pool_round_robin Function.injective_id hs).2.1⟩

/-- The names of the threads are written with the size of a pointer as that of the buffer: they are
different exactly when the whole of the last one fits. -/
theorem pool_names_distinct_iff {es : List Event}
    (h : (machine sizeofBuf loop).Run Machine.Any (create baseLoop name) es s) :
    s.pool.threads.length = s.pool.loops.length ∧
    (s.pool.threads.Nodup ↔ s.pool.threads.length ≤ 1 ∨
      name.length + (integerText ((s.pool.threads.length - 1 : ℕ) : ℤ)).length ≤
        sizeofBuf - 1) := by
  obtain ⟨n, hthreads, hloops⟩ := (run_inv h).threads
  have hlength : s.pool.threads.length = n := by rw [hthreads, List.length_map, List.length_range]
  refine ⟨?_, ?_⟩
  · rw [hlength, hloops, List.length_map, List.length_range]
  · rw [hlength, hthreads]
    exact EventLoopThreadPool.threadNames_nodup_iff sizeofBuf name n

/-- With pointers of eight bytes, the four threads of an echo server have one name. -/
theorem pool_names_distinct_iff_echo :
    ∃ s, (machine 8 id).Run Machine.Any (create 100 (Base.ascii "EchoServer"))
      [.setThreadNum 4, .start false] s ∧
    s.pool.threads.length = 4 ∧ ¬ s.pool.threads.Nodup := by
  obtain ⟨s, hs, hp⟩ := Machine.exists_run_of_exec (machine 8 id) Machine.Any
    (create 100 (Base.ascii "EchoServer")) [.setThreadNum 4, .start false]
    (fun s => decide (s.pool.loops = [0, 1, 2, 3])) (by decide +kernel)
  have hloops := of_decide_eq_true hp
  obtain ⟨hlength, hnodup⟩ := pool_names_distinct_iff hs
  rw [hloops] at hlength
  refine ⟨s, hs, hlength, fun hall => ?_⟩
  obtain hone | hfits := hnodup.mp hall
  · rw [hlength] at hone
    exact absurd hone (by decide)
  · exact absurd (Nat.le_of_add_right_le hfits) (by decide)

end PoolUse
end MuduoWindows.Net
