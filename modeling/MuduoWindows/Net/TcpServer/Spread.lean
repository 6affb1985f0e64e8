import MuduoWindows.Net.EventLoopThreadPool
import MuduoWindows.Net.TcpServer.Registry

/-! # The connections of the loops

Nothing but a new connection moves `next_` or gives a connection its loop, so that the connections
are dealt to the loops in turns, and each of them is served where it was dealt to.
-/

namespace MuduoWindows.Net
open Library

namespace TcpServer
variable {L : Type} [DecidableEq L] {s t : TcpServer L} {l : L} {p : ℕ}

/-- The pool is where it was, and the connections stay on their loops. -/
structure Stays (s t : TcpServer L) : Prop where
  loop : t.loop = s.loop
  loops : t.loops = s.loops
  next : t.next = s.next
  created : t.created = s.created
  conn : ∀ q, (t.conn q).loop = (s.conn q).loop

omit [DecidableEq L] in
theorem Stays.refl (s : TcpServer L) : Stays s s := ⟨rfl, rfl, rfl, rfl, fun _ => rfl⟩

omit [DecidableEq L] in
theorem Stays.trans {u : TcpServer L} (h : Stays s t) (k : Stays t u) : Stays s u :=
  ⟨k.loop.trans h.loop, k.loops.trans h.loops, k.next.trans h.next, k.created.trans h.created,
    fun q => (k.conn q).trans (h.conn q)⟩

theorem queueInLoop_stays (s : TcpServer L) (l : L) (f : ServerFunctor) :
    Stays s (s.queueInLoop l f) := ⟨rfl, rfl, rfl, rfl, fun _ => rfl⟩

omit [DecidableEq L] in
theorem setConnection_stays (s : TcpServer L) (p : ℕ) (c : TcpConnection) :
    Stays s (s.setConnection p c) := ⟨rfl, rfl, rfl, rfl, setConnection_loop c⟩

theorem removeConnectionInLoop_stays (h : s.removeConnectionInLoop l p = .ok t) : Stays s t := by
  obtain ⟨-, h⟩ := require_bind_eq_ok.mp h
  obtain ⟨-, h⟩ := require_bind_eq_ok.mp h
  obtain rfl := Except.ok.inj h
  exact ⟨rfl, rfl, rfl, rfl, fun _ => rfl⟩

theorem runTask_stays {task : Task} (h : runTask l p s task = .ok t) : Stays s t := by
  cases task with
  | closeCallback =>
    change s.removeConnection l p = .ok t at h
    unfold removeConnection at h
    split_ifs at h
    · exact removeConnectionInLoop_stays h
    · obtain rfl := Except.ok.inj h
      exact queueInLoop_stays s _ _
  | remove =>
    obtain ⟨c, -, h⟩ := bind_eq_ok.mp h
    obtain rfl := Except.ok.inj h
    exact setConnection_stays s p c
  | user | channel _ =>
    obtain rfl := Except.ok.inj h
    exact .refl s

theorem runTasks_stays {todo : List Task}
    (h : todo.foldlM (fun s task => runTask l p s task) s = .ok t) : Stays s t := by
  induction todo generalizing s with
  | nil =>
    obtain rfl := Except.ok.inj h
    exact .refl s
  | cons task todo ih =>
    rw [List.foldlM_cons] at h
    obtain ⟨u, hu, h⟩ := bind_eq_ok.mp h
    exact (runTask_stays hu).trans (ih h)

theorem queueAll_stays (fs : List ConnFunctor) (s : TcpServer L) :
    Stays s (fs.foldl (fun s f => s.queueInLoop (s.conn p).loop (.connection p f)) s) := by
  induction fs generalizing s with
  | nil => exact .refl s
  | cons f fs ih => exact (queueInLoop_stays s _ _).trans (ih _)

theorem onConnection_stays {f : TcpConnection → Result TcpConnection}
    (h : s.onConnection l p f = .ok t) : Stays s t := by
  obtain ⟨c, -, h⟩ := bind_eq_ok.mp h
  exact (setConnection_stays s p _).trans ((queueAll_stays _ _).trans (runTasks_stays h))

theorem connectEstablished_stays (h : s.connectEstablished l p = .ok t) : Stays s t := by
  have hon := onConnection_stays (require_bind_eq_ok.mp h).2
  exact ⟨hon.loop, hon.loops, hon.next, hon.created, hon.conn⟩

theorem connectDestroyed_stays (h : s.connectDestroyed l p = .ok t) : Stays s t := by
  have hon := onConnection_stays (require_bind_eq_ok.mp h).2
  exact ⟨hon.loop, hon.loops, hon.next, hon.created, hon.conn⟩

theorem runFunctor_stays {f : ServerFunctor} (h : s.runFunctor l f = .ok t) : Stays s t := by
  cases f with
  | connectEstablished p => exact connectEstablished_stays h
  | removeConnectionInLoop p => exact removeConnectionInLoop_stays h
  | connectDestroyed p => exact connectDestroyed_stays h
  | connection p f =>
    cases f with
    | forceCloseInLoop => exact onConnection_stays (require_bind_eq_ok.mp h).2
    | highWaterMarkCallback _ | writeCompleteCallback =>
      obtain rfl := Except.ok.inj h
      exact .refl s

theorem step_stays {e : Event L} (hne : ∀ sockfd, e ≠ .newConnection sockfd)
    (h : machine.step s e = .ok t) : Stays s t := by
  cases e with
  | newConnection sockfd => exact absurd rfl (hne sockfd)
  | handleRead p | handleClose p => exact onConnection_stays (require_bind_eq_ok.mp h).2
  | forceClose p =>
    change s.onConnection (s.conn p).loop p (fun c => pure c.forceClose) = .ok t at h
    exact onConnection_stays h
  | swap l =>
    obtain rfl := Except.ok.inj h
    exact ⟨rfl, rfl, rfl, rfl, fun _ => rfl⟩
  | call l =>
    cases hq : (s.queue l).functors with
    | nil =>
      have hsame : machine.step s (.call l) = .ok s := by simp only [machine, hq, pure_eq_ok]
      obtain rfl := Except.ok.inj (hsame.symm.trans h)
      exact .refl s
    | cons f rest =>
      rw [step_call hq] at h
      have hrun := runFunctor_stays h
      exact ⟨hrun.loop, hrun.loops, hrun.next, hrun.created, hrun.conn⟩

/-- The pool of the server, when it has been started. -/
def threadPool (s : TcpServer L) (name : List UInt8) (threads : List (List UInt8)) :
    EventLoopThreadPool L :=
  { baseLoop := s.loop, name := name, started := true, numThreads := s.loops.length
    next := s.next, threads := threads, loops := s.loops }

omit [DecidableEq L] in
theorem getNextLoop_eq_pool (s : TcpServer L) (name : List UInt8) (threads : List (List UInt8)) :
    s.getNextLoop = (s.threadPool name threads).getNextLoop.map
      fun r => (r.1, { s with next := r.2.next }) := by
  have hstarted : (s.threadPool name threads).started = true := rfl
  unfold EventLoopThreadPool.getNextLoop getNextLoop
  rw [require_bind hstarted]
  change _ = Except.map _ (if s.loops = [] then _ else _)
  by_cases hempty : s.loops = []
  · rw [if_pos hempty, if_pos hempty]
    rfl
  · rw [if_neg hempty, if_neg hempty]
    dsimp only [threadPool]
    cases s.loops[s.next]? <;> rfl

/-- The connections have been dealt in turns. -/
structure Dealt (base : L) (loops : List L) (s : TcpServer L) : Prop where
  loop : s.loop = base
  loops_eq : s.loops = loops
  next : s.loops ≠ [] → s.next = s.created % s.loops.length
  conn : ∀ p < s.created, (s.conn p).loop = turn loops base p

variable {base : L} {loops : List L}

omit [DecidableEq L] in
theorem start_dealt {name ipPort : Name} {callbacks : Callbacks} :
    (start base name ipPort loops callbacks).Dealt base loops :=
  ⟨rfl, rfl, fun _ => (Nat.zero_mod _).symm, fun p hp => absurd hp (Nat.not_lt_zero p)⟩

omit [DecidableEq L] in
theorem Dealt.stays (h : s.Dealt base loops) (k : Stays s t) : t.Dealt base loops := by
  refine ⟨k.loop.trans h.loop, k.loops.trans h.loops_eq, ?_, fun p hp => ?_⟩
  · rw [k.loops, k.next, k.created]
    exact h.next
  · rw [k.created] at hp
    exact (k.conn p).trans (h.conn p hp)

omit [DecidableEq L] in
theorem Dealt.insertConnection (h : s.Dealt base loops) (sockfd : ℕ) :
    (({ s with next := if s.loops = [] then s.next else (s.created + 1) % s.loops.length }
      ).insertConnection (turn s.loops s.loop s.created) sockfd).Dealt base loops := by
  refine ⟨h.loop, h.loops_eq, fun hne => ?_, fun p hp => ?_⟩
  · change s.loops ≠ [] at hne
    change (if s.loops = [] then s.next else (s.created + 1) % s.loops.length) =
      (s.created + 1) % s.loops.length
    rw [if_neg hne]
  · change p < s.created + 1 at hp
    change (Function.update s.conn s.created _ p).loop = _
    obtain hlt | rfl := Nat.lt_succ_iff_lt_or_eq.mp hp
    · rw [Function.update_of_ne hlt.ne]
      exact h.conn p hlt
    · rw [Function.update_self, h.loops_eq, h.loop]

theorem Dealt.step (h : s.Dealt base loops) {e : Event L} (ht : machine.step s e = .ok t) :
    t.Dealt base loops := by
  by_cases hnew : ∃ sockfd, e = .newConnection sockfd
  · obtain ⟨sockfd, rfl⟩ := hnew
    have hnext : s.getNextLoop = .ok (turn s.loops s.loop s.created,
        { s with next := if s.loops = [] then s.next else (s.created + 1) % s.loops.length }) := by
      rw [getNextLoop_eq_pool s [] [], EventLoopThreadPool.getNextLoop_eq rfl h.next]
      rfl
    have hinsert := h.insertConnection sockfd
    change s.newConnection sockfd = .ok t at ht
    unfold TcpServer.newConnection at ht
    rw [hnext, ok_bind] at ht
    dsimp only at ht
    generalize ({ s with
      next := if s.loops = [] then s.next else (s.created + 1) % s.loops.length
      }).insertConnection (turn s.loops s.loop s.created) sockfd = u at ht hinsert
    split_ifs at ht
    · exact hinsert.stays (connectEstablished_stays ht)
    · obtain rfl := Except.ok.inj ht
      exact hinsert.stays (queueInLoop_stays _ _ _)
  · exact h.stays (step_stays (not_exists.mp hnew) ht)

theorem run_dealt {name ipPort : Name} {callbacks : Callbacks} {es : List (Event L)}
    (h : machine.Run Machine.Any (start base name ipPort loops callbacks) es s) :
    s.Dealt base loops :=
  h.invariant (Dealt base loops) start_dealt fun _ _ _ hs _ _ ht => hs.step ht

/-- In every interleaving of the loops: the connections have been dealt to the loops in turns in the
order in which they were accepted, so that each loop has had its share; they never change their
loop, and are established and destroyed there. -/
theorem connections_dealt {name ipPort : Name} {callbacks : Callbacks} {es : List (Event L)}
    (hip : ipPort.length ≤ 47) (hloops : loops.Nodup)
    (h : machine.Run Machine.Any (start base name ipPort loops callbacks) es s) :
    ((List.range s.created).map fun p => (s.conn p).loop) = turns loops base s.created ∧
    (∀ i (hi : i < loops.length),
      ((List.range s.created).map fun p => (s.conn p).loop).count loops[i] =
        s.created / loops.length + if i < s.created % loops.length then 1 else 0) ∧
    ∀ p < s.created, s.history p <+: [.established (turn loops base p), .removed base,
      .destroyed (turn loops base p)] := by
  have hdealt := run_dealt h
  have hturns : ((List.range s.created).map fun p => (s.conn p).loop) =
      turns loops base s.created :=
    List.map_congr_left fun p hp => hdealt.conn p (List.mem_range.mp hp)
  refine ⟨hturns, fun i hi => ?_, fun p hp => ?_⟩
  · rw [hturns]
    exact count_turns hloops hi
  · obtain ⟨g, hg⟩ := inv_run hip h
    have hhistory := hg.history p hp
    rw [hdealt.conn p hp, hdealt.loop] at hhistory
    rw [hhistory]
    exact history_prefix _ _ _

/-- Three connections on the loops 1 and 2 of a server whose own loop is 0; the first one is closed
before the third one comes. -/
theorem connections_dealt_three : ∃ s : TcpServer (Fin 3),
    machine.Run Machine.Any (start 0 ['s'] ['0', ':', '1'] [1, 2] ⟨true, true, false, false, false⟩)
      [.newConnection 7, .newConnection 8, .swap 1, .call 1, .forceClose 0, .swap 1, .call 1,
        .newConnection 9] s ∧
    s.created = 3 ∧ ((List.range s.created).map fun p => (s.conn p).loop) = [1, 2, 1] := by
  obtain ⟨s, hs, hp⟩ := Machine.exists_run_of_exec machine Machine.Any
    (start (0 : Fin 3) ['s'] ['0', ':', '1'] [1, 2] ⟨true, true, false, false, false⟩)
    [.newConnection 7, .newConnection 8, .swap 1, .call 1, .forceClose 0, .swap 1, .call 1,
      .newConnection 9]
    (fun s => decide (s.created = 3)) (by decide)
  have hcreated := of_decide_eq_true hp
  have hturns := (connections_dealt (by decide) (by decide) hs).1
  refine ⟨s, hs, hcreated, ?_⟩
  rw [hcreated] at hturns ⊢
  exact hturns

end TcpServer
end MuduoWindows.Net
