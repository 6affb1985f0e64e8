import MuduoWindows.Net.TcpServer.Flight

/-! # The registry of connections

A function that runs on the thread of a loop takes the functor it was called for and leaves the
next one of its connection, so every step keeps the invariant and none stops at an assertion.
-/

namespace MuduoWindows.Net
open Library

namespace TcpServer
variable {L : Type} [DecidableEq L] {g : ℕ → Stage} {cur : Option (L × ServerFunctor)}
  {s : TcpServer L} {l : L} {p : ℕ} {f : ServerFunctor}

/-- The call succeeds and leaves the invariant, with the functor `cur` still to be placed. -/
def Leaves (r : Result (TcpServer L)) (cur : Option (L × ServerFunctor)) : Prop :=
  ∃ s g, r = .ok s ∧ Inv g cur s

theorem Inv.listed_move (h : Inv g cur s) {g' : Stage} (hg : g'.listed = (g p).listed) (n : Name)
    (q : ℕ) : s.connections n = some q ↔
      q < s.created ∧ (s.conn q).name = n ∧ (Function.update g p g' q).listed = true := by
  rw [h.listed n q]
  by_cases hq : q = p
  · subst q
    rw [Function.update_self, hg]
  · rw [Function.update_of_ne hq]

omit [DecidableEq L] in
@[simp] theorem setConnection_self : s.setConnection p (s.conn p).connection = s := by
  unfold setConnection
  rw [Function.update_eq_self]

omit [DecidableEq L] in
theorem setConnection_conn {c : TcpConnection} :
    (s.setConnection p c).conn p = { s.conn p with connection := c } := Function.update_self ..

theorem Inv.removeConnectionInLoop (h : Inv g (some (l, .removeConnectionInLoop p)) s) :
    Leaves (s.removeConnectionInLoop l p) none := by
  obtain ⟨hp, hawait⟩ := h.awaited rfl
  obtain ⟨hgp, rfl⟩ : g p = .closing ∧ s.loop = l := by
    unfold awaits Stage.awaits at hawait
    cases hgp : g p <;> rw [hgp] at hawait <;> simp_all
  have hfound : s.connections (s.conn p).name = some p :=
    (h.listed _ p).mpr ⟨hp, rfl, by rw [hgp]; rfl⟩
  have hhistory : s.history p ++ [.removed s.loop] =
      Stage.history s.loop (s.conn p).loop .removed := by
    rw [h.history p hp, hgp]
    rfl
  have hconn := h.conn p hp
  rw [hgp] at hconn
  rw [← hawait] at h
  have hmove := h.move hp .removed hconn.unlist
    (Function.update s.history p (s.history p ++ [.removed s.loop])) (by rw [hhistory])
    (Function.update s.connections (s.conn p).name none) ?_
  · rw [setConnection_self] at hmove
    refine ⟨_, _, ?_, hmove.queueInLoop⟩
    unfold TcpServer.removeConnectionInLoop
    rw [assertInLoopThread, require_bind rfl]
    simp only [hfound, Option.isSome_some, if_true]
    rw [require_bind trivial]
    rfl
  · intro n q
    by_cases hn : n = (s.conn p).name
    · subst n
      rw [Function.update_self]
      refine iff_of_false (by simp) ?_
      rintro ⟨hq, hname, hlisted⟩
      by_cases hqp : q = p
      · subst q
        rw [Function.update_self] at hlisted
        cases hlisted
      · rw [Function.update_of_ne hqp] at hlisted
        have hsame := (h.listed _ q).mpr ⟨hq, hname, hlisted⟩
        rw [hfound] at hsame
        exact hqp (Option.some.inj hsame).symm
    · rw [Function.update_of_ne hn, h.listed n q]
      by_cases hqp : q = p
      · subst q
        exact iff_of_false (fun hc => hn hc.2.1.symm) (fun hc => hn hc.2.1.symm)
      · rw [Function.update_of_ne hqp]

theorem Inv.removeConnection (h : Inv g (some (s.loop, .removeConnectionInLoop p)) s) (l : L) :
    Leaves (s.removeConnection l p) none := by
  unfold TcpServer.removeConnection
  split_ifs with hl
  · rw [hl]
    exact h.removeConnectionInLoop
  · exact ⟨_, g, rfl, h.queueInLoop⟩

theorem foldlM_user {todo : List Task} (h : ∀ task ∈ todo, task = .user) (rest : List Task) :
    (todo ++ rest).foldlM (fun s task => s.runTask l p task) s =
      rest.foldlM (fun s task => s.runTask l p task) s := by
  induction todo with
  | nil => rfl
  | cons task todo ih =>
    rw [List.cons_append, List.foldlM_cons, h task List.mem_cons_self]
    exact ih fun t ht => h t (List.mem_cons_of_mem _ ht)

theorem onConnection_ok {f : TcpConnection → Result TcpConnection} {c : TcpConnection}
    (hf : f (s.conn p).connection = .ok c) :
    s.onConnection l p f = c.todo.foldlM (fun s task => s.runTask l p task)
      (c.pendingFunctors.foldl (fun s f => s.queueInLoop (s.conn p).loop (.connection p f))
        (s.setConnection p c.handOn)) := by
  unfold onConnection
  rw [hf, ok_bind]
  rfl

theorem onConnection_eq {f : TcpConnection → Result TcpConnection} {c : TcpConnection}
    (hf : f (s.conn p).connection = .ok c) (hpending : c.pendingFunctors = []) :
    s.onConnection l p f =
      c.todo.foldlM (fun s task => s.runTask l p task) (s.setConnection p c.handOn) := by
  rw [onConnection_ok hf, hpending, List.foldl_nil]

theorem Inv.connectEstablished (h : Inv g (some (l, .connectEstablished p)) s) :
    Leaves (s.connectEstablished l p) none := by
  obtain ⟨hp, hawait⟩ := h.awaited rfl
  obtain ⟨hgp, hl⟩ : g p = .fresh ∧ (s.conn p).loop = l := by
    unfold awaits Stage.awaits at hawait
    cases hgp : g p <;> rw [hgp] at hawait <;> simp_all
  have hhistory : s.history p ++ [.established l] =
      Stage.history s.loop (s.conn p).loop .up := by
    rw [h.history p hp, hgp, hl]
    rfl
  have hconn := h.conn p hp
  rw [hgp] at hconn
  obtain ⟨c, hc, hup, hpending, htodo⟩ := hconn.connectEstablished
  rw [← hawait] at h
  have hmove := h.move hp .up hup
    (Function.update s.history p (s.history p ++ [.established l])) (by rw [hhistory])
    s.connections (h.listed_move (by rw [hgp]; rfl))
  refine ⟨_, _, ?_, hmove⟩
  unfold TcpServer.connectEstablished
  rw [assertInLoopThread, require_bind hl.symm,
    onConnection_eq (s := s.record p (.established l)) hc hpending,
    ← List.append_nil c.todo, foldlM_user htodo]
  rfl

/-- A function that closes a connection ends with the server's close callback. -/
theorem Inv.close (h : Inv g none s) (hp : p < s.created) (hgp : g p = .up) (l : L)
    {f : TcpConnection → Result TcpConnection}
    (hf : ∃ c, f (s.conn p).connection = .ok c ∧ c.handOn.Between .closing ∧
      c.pendingFunctors = [] ∧ (c.todo = [.user, .closeCallback] ∨ c.todo = [.closeCallback])) :
    Leaves (s.onConnection l p f) none := by
  obtain ⟨c, hc, hclosing, hpending, htodo⟩ := hf
  have hhistory : s.history p = Stage.history s.loop (s.conn p).loop .closing := by
    rw [h.history p hp, hgp]
    rfl
  have hawait : s.awaits p (g p) = none := by
    rw [hgp]
    rfl
  rw [← hawait] at h
  have hmove := h.move hp .closing hclosing s.history
    (by rw [← hhistory, Function.update_eq_self]) s.connections
    (h.listed_move (by rw [hgp]; rfl))
  have hremove : Leaves ((s.setConnection p c.handOn).removeConnection l p) none :=
    Inv.removeConnection hmove l
  rw [onConnection_eq hc hpending]
  have hlast : ([.closeCallback] : List Task).foldlM (fun s task => s.runTask l p task)
      (s.setConnection p c.handOn) = (s.setConnection p c.handOn).removeConnection l p := by
    rw [List.foldlM_cons]
    exact bind_pure _
  rcases htodo with htodo | htodo
  · rw [htodo]
    exact hlast ▸ hremove
  · rw [htodo, hlast]
    exact hremove

theorem Inv.handleClose (h : Inv g none s) (hp : p < s.created) (hgp : g p = .up) :
    Leaves (s.handleClose (s.conn p).loop p) none := by
  have hconn := h.conn p hp
  rw [hgp] at hconn
  unfold TcpServer.handleClose
  rw [assertInLoopThread, require_bind rfl]
  exact h.close hp hgp _ hconn.handleClose

theorem Inv.handleRead (h : Inv g none s) (hp : p < s.created) (hgp : g p = .up) :
    Leaves (s.handleRead (s.conn p).loop p) none := by
  have hconn := h.conn p hp
  rw [hgp] at hconn
  unfold TcpServer.handleRead
  rw [assertInLoopThread, require_bind rfl]
  exact h.close hp hgp _ hconn.handleRead

theorem Inv.forceCloseInLoop (h : Inv g (some (l, .connection p .forceCloseInLoop)) s) :
    Leaves (s.forceCloseInLoop l p) none := by
  obtain ⟨hp, hl⟩ := h.known _ _ inFlight_called
  change p < s.created at hp
  have hown : l = (s.conn p).loop := hl rfl
  have hconn := h.conn p hp
  have hidle := h.drop rfl
  unfold TcpServer.forceCloseInLoop
  rw [assertInLoopThread, require_bind hown]
  by_cases hgp : g p = .up
  · rw [hgp] at hconn
    refine hidle.close hp hgp l ?_
    rw [hconn.forceCloseInLoop_up]
    exact hconn.handleClose
  · refine ⟨_, g, ?_, hidle.setConnection hconn.handOn⟩
    rw [onConnection_eq (hconn.forceCloseInLoop_other hgp) hconn.pending, hconn.todo]
    rfl

theorem Inv.forceClose (h : Inv g none s) (hp : p < s.created) :
    Leaves (s.onConnection (s.conn p).loop p fun c => pure c.forceClose) none := by
  obtain ⟨hconn, htodo, hpending⟩ := (h.conn p hp).forceClose
  have hset := h.setConnection hconn
  have hloop : ((s.setConnection p (s.conn p).connection.forceClose.handOn).conn p).loop =
      (s.conn p).loop := by
    rw [setConnection_conn]
  rcases hpending with hpending | hpending
  · refine ⟨_, g, ?_, hset⟩
    rw [onConnection_eq (c := (s.conn p).connection.forceClose) rfl hpending, htodo]
    rfl
  · refine ⟨_, g, ?_, (hset.post hp .forceCloseInLoop).queueInLoop⟩
    rw [onConnection_ok (c := (s.conn p).connection.forceClose) rfl, htodo, hpending]
    rfl

theorem Inv.connectDestroyed (h : Inv g (some (l, .connectDestroyed p)) s) :
    Leaves (s.connectDestroyed l p) none := by
  obtain ⟨hp, hawait⟩ := h.awaited rfl
  obtain ⟨hgp, hl⟩ : g p = .removed ∧ (s.conn p).loop = l := by
    unfold awaits Stage.awaits at hawait
    cases hgp : g p <;> rw [hgp] at hawait <;> simp_all
  have hhistory : s.history p ++ [.destroyed l] =
      Stage.history s.loop (s.conn p).loop .destroyed := by
    rw [h.history p hp, hgp, hl]
    rfl
  have hconn := h.conn p hp
  rw [hgp] at hconn
  obtain ⟨c, hc, hremoved, hpending, htodo⟩ := hconn.connectDestroyed
  obtain ⟨c', hc', hdestroyed⟩ := hremoved.remove
  rw [← hawait] at h
  have hmove := h.move hp .destroyed hdestroyed
    (Function.update s.history p (s.history p ++ [.destroyed l])) (by rw [hhistory])
    s.connections (h.listed_move (by rw [hgp]; rfl))
  refine ⟨_, _, ?_, hmove⟩
  unfold TcpServer.connectDestroyed
  rw [assertInLoopThread, require_bind hl.symm,
    onConnection_eq (s := s.record p (.destroyed l)) hc hpending, htodo]
  rw [List.foldlM_cons]
  have hrun : ((s.record p (.destroyed l)).setConnection p c.handOn).runTask l p .remove =
      .ok (((s.record p (.destroyed l)).setConnection p c.handOn).setConnection p c') := by
    unfold runTask
    rw [setConnection_conn, hc', ok_bind]
    rfl
  rw [hrun, ok_bind]
  unfold TcpServer.setConnection
  dsimp only
  rw [Function.update_self, Function.update_idem]
  rfl

def nextName (s : TcpServer L) : Name := connName s.name s.ipPort s.nextConnId

theorem Inv.nextName_ne (h : Inv g cur s) (hroom : s.created + 1 < 2 ^ 31) (hp : p < s.created) :
    (s.conn p).name ≠ s.nextName := by
  intro hname
  rw [h.name p hp] at hname
  unfold nextName at hname
  rw [h.nextConnId (by omega)] at hname
  have hnum := connName_injective h.ipPort (by omega) hroom hname
  omega

theorem Inv.nextName_free (h : Inv g cur s) (hroom : s.created + 1 < 2 ^ 31) :
    s.connections s.nextName = none := by
  cases hfound : s.connections s.nextName with
  | none => rfl
  | some p =>
    obtain ⟨hp, hname, -⟩ := (h.listed _ p).mp hfound
    exact absurd hname (h.nextName_ne hroom hp)

theorem Inv.insertConnection_listed (h : Inv g cur s) (hroom : s.created + 1 < 2 ^ 31) (ioLoop : L)
    (sockfd : ℕ) (n : Name) (q : ℕ) : (s.insertConnection ioLoop sockfd).connections n = some q ↔
      q < s.created + 1 ∧ ((s.insertConnection ioLoop sockfd).conn q).name = n ∧
        (Function.update g s.created .fresh q).listed = true := by
  change Function.update s.connections s.nextName (some s.created) n = some q ↔ _ ∧
    (Function.update s.conn s.created ⟨s.nextName, ioLoop, _⟩ q).name = n ∧ _
  rcases lt_trichotomy q s.created with hq | rfl | hq
  · rw [Function.update_of_ne hq.ne, Function.update_of_ne hq.ne]
    by_cases hn : n = s.nextName
    · subst n
      rw [Function.update_self]
      refine iff_of_false ?_ fun hc => h.nextName_ne hroom hq hc.2.1
      intro hc
      exact hq.ne (Option.some.inj hc).symm
    · rw [Function.update_of_ne hn, h.listed n q]
      exact and_congr_left' (iff_of_true hq (by omega))
  · rw [Function.update_self, Function.update_self]
    by_cases hn : n = s.nextName
    · subst n
      rw [Function.update_self]
      exact iff_of_true rfl ⟨by omega, rfl, rfl⟩
    · rw [Function.update_of_ne hn, h.listed n s.created]
      exact iff_of_false (fun hc => hc.1.false) fun hc => hn hc.2.1.symm
  · refine iff_of_false ?_ fun hc => by omega
    intro hc
    by_cases hn : n = s.nextName
    · subst n
      rw [Function.update_self] at hc
      exact hq.ne (Option.some.inj hc)
    · rw [Function.update_of_ne hn, h.listed n q] at hc
      exact hq.not_gt hc.1

/-- The server with a new connection, whose `connectEstablished` is to be called. -/
theorem Inv.insertConnection (h : Inv g none s) (hroom : s.created + 1 < 2 ^ 31) (ioLoop : L)
    (sockfd : ℕ) : Inv (Function.update g s.created .fresh)
      (some (ioLoop, .connectEstablished s.created)) (s.insertConnection ioLoop sockfd) := by
  have hnew : (s.insertConnection ioLoop sockfd).conn s.created = ⟨s.nextName, ioLoop,
      .create sockfd { s.callbacks with close := true } highWaterMark⟩ := Function.update_self ..
  have hold : ∀ q < s.created, (s.insertConnection ioLoop sockfd).conn q = s.conn q :=
    fun q hq => Function.update_of_ne hq.ne _ _
  have hg : ∀ q < s.created, Function.update g s.created .fresh q = g q :=
    fun q hq => Function.update_of_ne hq.ne _ _
  have hcases : ∀ q < s.created + 1, q < s.created ∨ q = s.created := fun q hq => by omega
  refine ⟨h.ipPort, h.pool, ?_, hroom, ?_, ?_, ?_, ?_, ?_, ?_, ?_⟩
  · intro hfew
    change s.created + 1 < 2 ^ 31 - 1 at hfew
    change increment s.nextConnId = (s.created + 1 + 1 : ℕ)
    rw [h.nextConnId (by omega)]
    unfold increment
    rw [Int.bmod_def]
    omega
  · intro q hq
    rcases hcases q hq with hq | rfl
    · rw [hold q hq]
      exact h.name q hq
    · rw [hnew, ← h.nextConnId (by omega)]
      rfl
  · intro q hq
    rcases hcases q hq with hq | rfl
    · rw [hold q hq, hg q hq]
      exact h.conn q hq
    · rw [hnew, Function.update_self]
      exact TcpConnection.create_between _ _ rfl
  · exact h.insertConnection_listed hroom ioLoop sockfd
  · intro q hq
    change s.history q = _
    rcases hcases q hq with hq | rfl
    · rw [hold q hq, hg q hq]
      exact h.history q hq
    · rw [h.unborn _ le_rfl, Function.update_self]
      rfl
  · intro q hq
    change s.created + 1 ≤ q at hq
    exact h.unborn q (by omega)
  · intro q hq k e he
    change s.inFlight _ k e = if Stage.awaits s.loop _ q _ = some (k, e) then 1 else 0
    rcases hcases q hq with hq | rfl
    · rw [hold q hq, hg q hq]
      refine Eq.trans ?_ (h.control q hq k e he)
      have hne : (some (ioLoop, .connectEstablished s.created) : Option (L × ServerFunctor)) ≠
          some (k, e) := by
        intro heq
        obtain ⟨-, rfl⟩ := Prod.mk.inj (Option.some.inj heq)
        exact hq.ne (Option.some.inj he).symm
      rw [inFlight_none, inFlight_of_ne hne]
    · have hnone : s.inFlight none k e = 0 := by
        by_contra hpos
        have hlt := (h.known k e (by omega)).1
        rw [ServerFunctor.ptr_eq he] at hlt
        exact hlt.false
      rw [inFlight_none] at hnone
      unfold inFlight
      rw [hnew, Function.update_self, hnone, Nat.zero_add]
      rfl
  · intro k e hpos
    change 0 < s.inFlight _ k e at hpos
    change e.ptr < s.created + 1 ∧ _
    by_cases heq : (some (ioLoop, .connectEstablished s.created) : Option (L × ServerFunctor)) =
        some (k, e)
    · obtain ⟨-, rfl⟩ := Prod.mk.inj (Option.some.inj heq)
      exact ⟨Nat.lt_succ_self _, nofun⟩
    · have hold' : 0 < s.inFlight none k e := by
        rw [inFlight_of_ne heq] at hpos
        rwa [inFlight_none]
      obtain ⟨hlt, hown⟩ := h.known k e hold'
      rw [hold _ hlt]
      exact ⟨by omega, hown⟩

theorem Inv.getNextLoop (h : Inv g none s) :
    ∃ ioLoop next, s.getNextLoop = .ok (ioLoop, { s with next := next }) ∧
      Inv g none { s with next := next } := by
  unfold TcpServer.getNextLoop
  by_cases hempty : s.loops = []
  · rw [if_pos hempty]
    exact ⟨_, s.next, rfl, h⟩
  · have hlt := h.pool hempty
    rw [if_neg hempty, List.getElem?_eq_getElem hlt]
    refine ⟨_, if s.loops.length ≤ s.next + 1 then 0 else s.next + 1, rfl, ⟨h.ipPort, ?_,
      h.nextConnId, h.few, h.name, h.conn, h.listed, h.history, h.unborn, h.control, h.known⟩⟩
    intro _
    change (if s.loops.length ≤ s.next + 1 then 0 else s.next + 1) < s.loops.length
    split_ifs <;> omega

theorem Inv.newConnection (h : Inv g none s) (hroom : s.created + 1 < 2 ^ 31) (sockfd : ℕ) :
    Leaves (s.newConnection sockfd) none := by
  obtain ⟨ioLoop, next, hnext, hpool⟩ := h.getNextLoop
  have hinsert := hpool.insertConnection hroom ioLoop sockfd
  unfold TcpServer.newConnection
  rw [hnext, ok_bind]
  dsimp only
  split_ifs with hl
  · change s.loop = ioLoop at hl
    subst ioLoop
    exact hinsert.connectEstablished
  · exact ⟨_, _, rfl, hinsert.queueInLoop⟩

theorem start_inv {loop : L} {name ipPort : Name} {loops : List L} {callbacks : Callbacks}
    (h : ipPort.length ≤ 47) :
    Inv (fun _ => .fresh) none (start loop name ipPort loops callbacks) := by
  have hnone : ∀ l f, (start loop name ipPort loops callbacks).inFlight none l f = 0 := by
    intro l f
    rfl
  refine ⟨h, ?_, fun _ => rfl, by simp [start], by simp [start], by simp [start], by simp [start],
    by simp [start], fun _ _ => rfl, by simp [start], ?_⟩
  · intro hloops
    exact List.length_pos_iff.mpr hloops
  · intro l f hpos
    rw [hnone] at hpos
    exact absurd hpos (lt_irrefl 0)

theorem Inv.up_of_interest (h : Inv g cur s) (hp : p < s.created)
    (hi : (s.conn p).connection.channel.isNoneEvent = false) : g p = .up := by
  refine (h.conn p hp).interest.mp fun h0 => ?_
  rw [Channel.isNoneEvent_iff.mpr h0] at hi
  cases hi

theorem Inv.runFunctor (h : Inv g (some (l, f)) s) : Leaves (s.runFunctor l f) none := by
  cases f with
  | connectEstablished p => exact h.connectEstablished
  | removeConnectionInLoop p => exact h.removeConnectionInLoop
  | connectDestroyed p => exact h.connectDestroyed
  | connection p f =>
    cases f with
    | forceCloseInLoop => exact h.forceCloseInLoop
    | highWaterMarkCallback _ => exact ⟨s, g, rfl, h.drop rfl⟩
    | writeCompleteCallback => exact ⟨s, g, rfl, h.drop rfl⟩

theorem Inv.step (h : Inv g none s) {e : Event L} (he : machine.enabled s e) :
    Leaves (machine.step s e) none := by
  cases e with
  | newConnection sockfd => exact h.newConnection he sockfd
  | handleRead p => exact h.handleRead he.1 (h.up_of_interest he.1 he.2)
  | handleClose p => exact h.handleClose he.1 (h.up_of_interest he.1 he.2)
  | forceClose p => exact h.forceClose he
  | swap l => exact ⟨_, g, rfl, h.swap he⟩
  | call l =>
    change (s.queue l).functors ≠ [] at he
    cases hq : (s.queue l).functors with
    | nil => exact absurd hq he
    | cons f rest =>
      rw [step_call hq]
      exact (h.pop hq).runFunctor

theorem inv_run {loop : L} {name ipPort : Name} {loops : List L} {callbacks : Callbacks}
    {es : List (Event L)} (hip : ipPort.length ≤ 47)
    (h : machine.Run Machine.Any (start loop name ipPort loops callbacks) es s) :
    ∃ g, Inv g none s := by
  refine h.invariant (fun s => ∃ g, Inv g none s) ⟨_, start_inv hip⟩ ?_
  rintro t e u ⟨g, hg⟩ he - hu
  obtain ⟨v, g', hv, hg'⟩ := hg.step he
  obtain rfl := Except.ok.inj (hv.symm.trans hu)
  exact ⟨g', hg'⟩

omit [DecidableEq L] in
theorem history_prefix (base own : L) (g : Stage) :
    g.history base own <+: [.established own, .removed base, .destroyed own] := by
  cases g with
  | fresh => exact List.nil_prefix
  | up => exact ⟨[.removed base, .destroyed own], rfl⟩
  | closing => exact ⟨[.removed base, .destroyed own], rfl⟩
  | removed => exact ⟨[.destroyed own], rfl⟩
  | destroyed => exact List.prefix_rfl

theorem Inv.settled (h : Inv g none s) (hq : ∀ l, (s.queue l).all = []) (hp : p < s.created) :
    g p = .up ∨ g p = .destroyed := by
  have hnone : ∀ l f, f.controls = some p → s.awaits p (g p) ≠ some (l, f) := by
    intro l f hf hawait
    have hcount := h.control p hp l f hf
    rw [if_pos hawait] at hcount
    unfold inFlight at hcount
    simp [hq l] at hcount
  unfold awaits at hnone
  cases hgp : g p with
  | fresh => exact absurd (by rw [hgp]; rfl) (hnone (s.conn p).loop (.connectEstablished p) rfl)
  | up => exact .inl rfl
  | closing => exact absurd (by rw [hgp]; rfl) (hnone s.loop (.removeConnectionInLoop p) rfl)
  | removed => exact absurd (by rw [hgp]; rfl) (hnone (s.conn p).loop (.connectDestroyed p) rfl)
  | destroyed => exact .inr rfl

theorem Inv.settled_connections (h : Inv g none s) (hq : ∀ l, (s.queue l).all = []) (n : Name)
    (p : ℕ) : s.connections n = some p ↔
      p < s.created ∧ (s.conn p).name = n ∧ (s.conn p).connection.state ≠ .kDisconnected := by
  rw [h.listed n p]
  refine and_congr_right fun hp => and_congr_right fun _ => ?_
  have hconn := h.conn p hp
  rcases h.settled hq hp with hgp | hgp
  · rw [hgp] at hconn ⊢
    refine iff_of_true rfl ?_
    rcases hconn.up rfl with hs | hs <;> simp [hs]
  · rw [hgp] at hconn ⊢
    exact iff_of_false nofun (not_not_intro (hconn.down nofun nofun))

/-- In every interleaving: the next name is free, no function stops at an assertion or in a wrong
thread, a connection is established, removed and destroyed in this order and on its threads, and
with nothing in flight the map holds exactly the connections that are not disconnected. -/
theorem registry_consistent {loop : L} {name ipPort : Name} {loops : List L}
    {callbacks : Callbacks} {es : List (Event L)} {s : TcpServer L} (hip : ipPort.length ≤ 47)
    (h : machine.Run Machine.Any (start loop name ipPort loops callbacks) es s) :
    (s.created + 1 < 2 ^ 31 →
      s.connections (connName s.name s.ipPort s.nextConnId) = none) ∧
    (∀ e, machine.enabled s e → ∃ t, machine.step s e = .ok t) ∧
    (∀ p < s.created, s.history p <+: [.established (s.conn p).loop, .removed s.loop,
      .destroyed (s.conn p).loop]) ∧
    ((∀ l, (s.queue l).all = []) → ∀ n p, s.connections n = some p ↔
      p < s.created ∧ (s.conn p).name = n ∧ (s.conn p).connection.state ≠ .kDisconnected) := by
  obtain ⟨g, hg⟩ := inv_run hip h
  refine ⟨hg.nextName_free, ?_, ?_, hg.settled_connections⟩
  · intro e he
    obtain ⟨t, -, ht, -⟩ := hg.step he
    exact ⟨t, ht⟩
  · intro p hp
    rw [hg.history p hp]
    exact history_prefix _ _ _

instance (s : TcpServer L) : ∀ e, Decidable (machine.enabled s e)
  | .newConnection _ => inferInstanceAs (Decidable (s.created + 1 < 2 ^ 31))
  | .handleRead p => inferInstanceAs (Decidable (p < s.created ∧ _ = false))
  | .handleClose p => inferInstanceAs (Decidable (p < s.created ∧ _ = false))
  | .forceClose p => inferInstanceAs (Decidable (p < s.created))
  | .swap l => inferInstanceAs (Decidable ((s.queue l).functors = []))
  | .call l => inferInstanceAs (Decidable ((s.queue l).functors ≠ []))

/-- The loops are `false`, the server's, and `true`. One connection is closed by `forceClose`,
called before `connectEstablished` has run and again afterwards; another one stays. -/
theorem registry_consistent_closed :
    ∃ s : TcpServer Bool, machine.Run Machine.Any (start false ['s'] ['0', ':', '1'] [true]
      ⟨true, true, false, false, false⟩)
      [.newConnection 7, .newConnection 8, .forceClose 0, .swap true, .call true, .call true,
        .forceClose 0, .swap true, .call true, .swap false, .call false, .swap true, .call true] s ∧
      s.history 0 = [.established true, .removed false, .destroyed true] ∧
      (∀ n p, s.connections n = some p ↔
        p < s.created ∧ (s.conn p).name = n ∧ (s.conn p).connection.state ≠ .kDisconnected) := by
  obtain ⟨s, hs, hp⟩ := Machine.exists_run_of_exec machine Machine.Any
    (start false ['s'] ['0', ':', '1'] [true]
      ⟨true, true, false, false, false⟩)
    [.newConnection 7, .newConnection 8, .forceClose 0, .swap true, .call true, .call true,
      .forceClose 0, .swap true, .call true, .swap false, .call false, .swap true, .call true]
    (fun s => decide (s.history 0 = [.established true, .removed false, .destroyed true] ∧
      ∀ l, (s.queue l).all = [])) (by decide)
  obtain ⟨hhistory, hq⟩ := of_decide_eq_true hp
  exact ⟨s, hs, hhistory, (registry_consistent (by decide) hs).2.2.2 hq⟩

end TcpServer
end MuduoWindows.Net
