import MuduoWindows.Net.TcpServer.Registry

/-! # Who owns a connection

The map of the server and every functor of a connection hold a `TcpConnectionPtr` on it. Nothing
else of the server keeps it alive.
-/

namespace MuduoWindows.Net
open Library

namespace TcpServer
variable {L : Type} [DecidableEq L] {g : ℕ → Stage} {s t u : TcpServer L} {l : L} {p q : ℕ}

/-- Somebody holds a `TcpConnectionPtr` on the connection at `p`. -/
def Held (s : TcpServer L) (p : ℕ) : Prop :=
  (∃ n, s.connections n = some p) ∨ ∃ l, ∃ f ∈ (s.queue l).all, f.ptr = p

/-- A step that does not concern the connection at `p`. -/
structure Passes (p : ℕ) (s t : TcpServer L) : Prop where
  created : s.created ≤ t.created
  conn : t.conn p = s.conn p
  history : t.history p = s.history p
  held : t.Held p → s.Held p

omit [DecidableEq L] in
theorem Passes.refl : Passes p s s := ⟨le_rfl, rfl, rfl, id⟩

omit [DecidableEq L] in
theorem Passes.trans (h : Passes p s t) (k : Passes p t u) : Passes p s u :=
  ⟨h.created.trans k.created, k.conn.trans h.conn, k.history.trans h.history, h.held ∘ k.held⟩

theorem queueInLoop_passes {f : ServerFunctor} (hf : f.ptr ≠ p) :
    Passes p s (s.queueInLoop l f) := by
  refine ⟨le_rfl, rfl, rfl, ?_⟩
  rintro (hmap | ⟨k, e, he, hptr⟩)
  · exact .inl hmap
  · refine .inr ⟨k, e, ?_, hptr⟩
    change e ∈ (Function.update s.queue l _ k).all at he
    by_cases hk : k = l
    · subst k
      rw [Function.update_self, FunctorQueue.all_queueInLoop] at he
      refine (List.mem_append.mp he).resolve_right fun hlast => hf ?_
      rwa [← List.mem_singleton.mp hlast]
    · rwa [Function.update_of_ne hk] at he

omit [DecidableEq L] in
theorem setConnection_passes (hq : q ≠ p) (c : TcpConnection) :
    Passes p s (s.setConnection q c) :=
  ⟨le_rfl, Function.update_of_ne hq.symm _ _, rfl, id⟩

omit [DecidableEq L] in
theorem record_passes (hq : q ≠ p) (m : Milestone L) : Passes p s (s.record q m) :=
  ⟨le_rfl, rfl, Function.update_of_ne hq.symm _ _, id⟩

omit [DecidableEq L] in
theorem erase_passes (n : Name) :
    Passes p s { s with connections := Function.update s.connections n none } := by
  refine ⟨le_rfl, rfl, rfl, Or.imp_left ?_⟩
  rintro ⟨m, hm⟩
  change Function.update s.connections n none m = some p at hm
  by_cases hmn : m = n
  · subst m
    rw [Function.update_self] at hm
    cases hm
  · rw [Function.update_of_ne hmn] at hm
    exact ⟨m, hm⟩

theorem removeConnectionInLoop_passes (hq : q ≠ p) (h : s.removeConnectionInLoop l q = .ok t) :
    Passes p s t := by
  obtain ⟨-, h⟩ := require_bind_eq_ok.mp h
  obtain ⟨-, h⟩ := require_bind_eq_ok.mp h
  obtain rfl := Except.ok.inj h
  exact (erase_passes _).trans ((record_passes hq _).trans (queueInLoop_passes hq))

theorem runTask_passes {task : Task} (hq : q ≠ p) (h : runTask l q s task = .ok t) :
    Passes p s t := by
  cases task with
  | closeCallback =>
    change s.removeConnection l q = .ok t at h
    unfold removeConnection at h
    split_ifs at h
    · exact removeConnectionInLoop_passes hq h
    · exact Except.ok.inj h ▸ queueInLoop_passes hq
  | remove =>
    obtain ⟨c, -, h⟩ := bind_eq_ok.mp h
    exact Except.ok.inj h ▸ setConnection_passes hq c
  | user | channel _ => exact Except.ok.inj h ▸ .refl

theorem runTasks_passes {todo : List Task} (hq : q ≠ p)
    (h : todo.foldlM (fun s task => s.runTask l q task) s = .ok t) : Passes p s t := by
  induction todo generalizing s with
  | nil => exact Except.ok.inj h ▸ .refl
  | cons task todo ih =>
    rw [List.foldlM_cons] at h
    obtain ⟨v, hv, h⟩ := bind_eq_ok.mp h
    exact (runTask_passes hq hv).trans (ih h)

theorem queueAll_passes (hq : q ≠ p) (fs : List ConnFunctor) :
    Passes p s (fs.foldl (fun s f => s.queueInLoop (s.conn q).loop (.connection q f)) s) := by
  induction fs generalizing s with
  | nil => exact .refl
  | cons f fs ih =>
    have hptr : (ServerFunctor.connection q f).ptr ≠ p := hq
    exact (queueInLoop_passes hptr).trans ih

theorem onConnection_passes {f : TcpConnection → Result TcpConnection} (hq : q ≠ p)
    (h : s.onConnection l q f = .ok t) : Passes p s t := by
  obtain ⟨c, -, h⟩ := bind_eq_ok.mp h
  exact (setConnection_passes hq _).trans ((queueAll_passes hq _).trans (runTasks_passes hq h))

theorem connectEstablished_passes (hq : q ≠ p) (h : s.connectEstablished l q = .ok t) :
    Passes p s t :=
  (record_passes hq _).trans (onConnection_passes hq (require_bind_eq_ok.mp h).2)

theorem runFunctor_passes {f : ServerFunctor} (hf : f.ptr ≠ p) (h : s.runFunctor l f = .ok t) :
    Passes p s t := by
  cases f with
  | connectEstablished q => exact connectEstablished_passes hf h
  | removeConnectionInLoop q => exact removeConnectionInLoop_passes hf h
  | connectDestroyed q =>
    exact (record_passes hf _).trans (onConnection_passes hf (require_bind_eq_ok.mp h).2)
  | connection q f =>
    cases f with
    | forceCloseInLoop => exact onConnection_passes hf (require_bind_eq_ok.mp h).2
    | highWaterMarkCallback _ | writeCompleteCallback => exact Except.ok.inj h ▸ .refl

omit [DecidableEq L] in
theorem insertConnection_passes (hp : p < s.created) (ioLoop : L) (sockfd : ℕ) :
    Passes p s (s.insertConnection ioLoop sockfd) := by
  refine ⟨Nat.le_succ _, Function.update_of_ne hp.ne _ _, rfl, Or.imp_left ?_⟩
  rintro ⟨n, hn⟩
  change Function.update s.connections s.nextName (some s.created) n = some p at hn
  by_cases hname : n = s.nextName
  · subst n
    rw [Function.update_self] at hn
    exact absurd (Option.some.inj hn).symm hp.ne
  · rw [Function.update_of_ne hname] at hn
    exact ⟨n, hn⟩

omit [DecidableEq L] in
theorem getNextLoop_ok {ioLoop : L} (h : s.getNextLoop = .ok (ioLoop, t)) :
    ∃ next, t = { s with next := next } := by
  unfold TcpServer.getNextLoop at h
  split at h
  · exact ⟨s.next, (Prod.mk.inj (Except.ok.inj h)).2.symm⟩
  · split at h
    · cases h
    · exact ⟨_, (Prod.mk.inj (Except.ok.inj h)).2.symm⟩

theorem newConnection_passes {sockfd : ℕ} (hp : p < s.created)
    (h : s.newConnection sockfd = .ok t) : Passes p s t := by
  obtain ⟨⟨ioLoop, v⟩, hv, h⟩ := bind_eq_ok.mp h
  obtain ⟨next, rfl⟩ := getNextLoop_ok hv
  have hpv : p < ({ s with next := next } : TcpServer L).created := hp
  have hnext : Passes p s { s with next := next } := ⟨le_rfl, rfl, rfl, id⟩
  have hinsert := hnext.trans (insertConnection_passes hpv ioLoop sockfd)
  dsimp only at h
  split_ifs at h
  · exact hinsert.trans (connectEstablished_passes hpv.ne' h)
  · exact Except.ok.inj h ▸ hinsert.trans (queueInLoop_passes hpv.ne')

theorem onConnection_idle {i : Stage} (hc : (s.conn p).connection.Between i)
    {f : TcpConnection → Result TcpConnection}
    (hf : f (s.conn p).connection = .ok (s.conn p).connection) :
    s.onConnection l p f = .ok s := by
  have hsame : (s.conn p).connection.handOn = (s.conn p).connection := by
    unfold TcpConnection.handOn
    rw [← hc.todo, ← hc.pending]
  rw [onConnection_eq hf hc.pending, hc.todo, hsame, setConnection_self]
  rfl

omit [DecidableEq L] in
theorem held_of_queue (queue : L → FunctorQueue ServerFunctor)
    (hsub : ∀ l, ∀ f ∈ (queue l).all, f ∈ (s.queue l).all)
    (h : Held { s with queue := queue } p) : s.Held p :=
  h.imp_right fun ⟨l, f, hf, hptr⟩ => ⟨l, f, hsub l f hf, hptr⟩

theorem pop_passes {f : ServerFunctor} {rest : List ServerFunctor}
    (hq : (s.queue l).functors = f :: rest) : Passes p s
      { s with queue := Function.update s.queue l { s.queue l with functors := rest } } := by
  refine ⟨le_rfl, rfl, rfl, held_of_queue _ fun k e he => ?_⟩
  by_cases hk : k = l
  · subst k
    rw [Function.update_self] at he
    rw [FunctorQueue.all_cons hq]
    exact List.mem_cons_of_mem _ he
  · rwa [Function.update_of_ne hk] at he

/-- Only functors of the connection itself may still come to a destroyed one. -/
theorem Inv.leftover {cur : Option (L × ServerFunctor)} (h : Inv g cur s) (hp : p < s.created)
    (hgp : g p = .destroyed) {f : ServerFunctor} (hf : 0 < s.inFlight cur l f) (hptr : f.ptr = p) :
    l = (s.conn p).loop ∧ ∃ k, f = .connection p k := by
  have hcontrol := h.control p hp l f
  have hknown := (h.known l f hf).2
  rw [hgp] at hcontrol
  cases f with
  | connectEstablished q | removeConnectionInLoop q | connectDestroyed q =>
    obtain rfl : q = p := hptr
    have hzero := hcontrol rfl
    rw [if_neg (by unfold awaits Stage.awaits; nofun)] at hzero
    omega
  | connection q k =>
    obtain rfl : q = p := hptr
    exact ⟨hknown rfl, k, rfl⟩

theorem Inv.runFunctor_destroyed {f : ServerFunctor} (h : Inv g (some (l, f)) s)
    (hp : p < s.created) (hgp : g p = .destroyed) (hs : s.runFunctor l f = .ok t) :
    Passes p s t := by
  by_cases hf : f.ptr = p
  · obtain ⟨-, k, rfl⟩ := h.leftover hp hgp inFlight_called hf
    have hconn := h.conn p hp
    cases k with
    | forceCloseInLoop =>
      have hrun := (require_bind_eq_ok.mp hs).2
      rw [onConnection_idle hconn (hconn.forceCloseInLoop_other (by rw [hgp]; nofun))] at hrun
      exact Except.ok.inj hrun ▸ .refl
    | highWaterMarkCallback _ | writeCompleteCallback => exact Except.ok.inj hs ▸ .refl
  · exact runFunctor_passes hf hs

theorem Inv.step_destroyed (h : Inv g none s) (hp : p < s.created) (hgp : g p = .destroyed)
    {e : Event L} (he : machine.enabled s e) (hs : machine.step s e = .ok t) : Passes p s t := by
  have hconn := h.conn p hp
  have hup : ∀ q, q < s.created → (s.conn q).connection.channel.isNoneEvent = false → q ≠ p := by
    rintro q hq hi rfl
    cases (h.up_of_interest hq hi).symm.trans hgp
  cases e with
  | newConnection sockfd => exact newConnection_passes hp hs
  | handleRead q | handleClose q =>
    exact onConnection_passes (hup q he.1 he.2) (require_bind_eq_ok.mp hs).2
  | forceClose q =>
    change s.onConnection (s.conn q).loop q (fun c => pure c.forceClose) = .ok t at hs
    by_cases hq : q = p
    · subst q
      have hidle : (s.conn p).connection.forceClose = (s.conn p).connection := by
        unfold TcpConnection.forceClose
        rw [hgp] at hconn
        simp [hconn.down]
      rw [onConnection_idle hconn (by rw [hidle]; rfl)] at hs
      exact Except.ok.inj hs ▸ .refl
    · exact onConnection_passes hq hs
  | swap l =>
    refine Except.ok.inj hs ▸ ⟨le_rfl, rfl, rfl, held_of_queue _ fun k e hmem => ?_⟩
    by_cases hk : k = l
    · subst k
      rwa [Function.update_self, FunctorQueue.all_swap he] at hmem
    · rwa [Function.update_of_ne hk] at hmem
  | call l =>
    change (s.queue l).functors ≠ [] at he
    cases hq : (s.queue l).functors with
    | nil => exact absurd hq he
    | cons f rest =>
      rw [step_call hq] at hs
      exact (pop_passes hq).trans ((h.pop hq).runFunctor_destroyed hp hgp hs)
/-- Behind the step the connection is not destroyed unless it was before. -/
def Kept (p : ℕ) (s t : TcpServer L) : Prop :=
  ∀ l, .destroyed l ∈ t.history p → .destroyed l ∈ s.history p

omit [DecidableEq L] in
theorem Kept.refl : Kept p s s := fun _ => id

omit [DecidableEq L] in
theorem Kept.trans (h : Kept p s t) (k : Kept p t u) : Kept p s u := fun l hl => h l (k l hl)

omit [DecidableEq L] in
theorem Passes.kept (h : Passes p s t) : Kept p s t := fun _ hl => h.history ▸ hl

omit [DecidableEq L] in
theorem record_kept {m : Milestone L} (hm : ∀ k, m ≠ .destroyed k) : Kept p s (s.record p m) := by
  intro k hk
  change _ ∈ Function.update s.history p (s.history p ++ [m]) p at hk
  rw [Function.update_self] at hk
  refine (List.mem_append.mp hk).resolve_right fun hlast => hm k ?_
  exact (List.mem_singleton.mp hlast).symm

theorem removeConnectionInLoop_kept (h : s.removeConnectionInLoop l p = .ok t) : Kept p s t := by
  obtain ⟨-, h⟩ := require_bind_eq_ok.mp h
  obtain ⟨-, h⟩ := require_bind_eq_ok.mp h
  obtain rfl := Except.ok.inj h
  exact record_kept (m := .removed l) nofun

theorem runTask_kept {task : Task} (h : runTask l p s task = .ok t) : Kept p s t := by
  cases task with
  | closeCallback =>
    change s.removeConnection l p = .ok t at h
    unfold removeConnection at h
    split_ifs at h
    · exact removeConnectionInLoop_kept h
    · exact Except.ok.inj h ▸ .refl
  | remove =>
    obtain ⟨c, -, h⟩ := bind_eq_ok.mp h
    exact Except.ok.inj h ▸ .refl
  | user | channel _ => exact Except.ok.inj h ▸ .refl

theorem runTasks_kept {todo : List Task}
    (h : todo.foldlM (fun s task => s.runTask l p task) s = .ok t) : Kept p s t := by
  induction todo generalizing s with
  | nil => exact Except.ok.inj h ▸ .refl
  | cons task todo ih =>
    rw [List.foldlM_cons] at h
    obtain ⟨v, hv, h⟩ := bind_eq_ok.mp h
    exact (runTask_kept hv).trans (ih h)

theorem queueAll_kept (fs : List ConnFunctor) :
    Kept p s (fs.foldl (fun s f => s.queueInLoop (s.conn p).loop (.connection p f)) s) := by
  induction fs generalizing s with
  | nil => exact .refl
  | cons f fs ih => exact ih (s := s.queueInLoop _ _)

theorem onConnection_kept {f : TcpConnection → Result TcpConnection}
    (h : s.onConnection l p f = .ok t) : Kept p s t := by
  obtain ⟨c, -, h⟩ := bind_eq_ok.mp h
  exact (queueAll_kept (s := s.setConnection p _) _).trans (runTasks_kept h)

theorem runFunctor_kept {f : ServerFunctor} (hf : f ≠ .connectDestroyed p)
    (h : s.runFunctor l f = .ok t) : Kept p s t := by
  by_cases hptr : f.ptr = p
  · cases f with
    | connectEstablished q =>
      obtain rfl : q = p := hptr
      exact (record_kept (m := .established l) nofun).trans
        (onConnection_kept (require_bind_eq_ok.mp h).2)
    | removeConnectionInLoop q =>
      obtain rfl : q = p := hptr
      exact removeConnectionInLoop_kept h
    | connectDestroyed q =>
      obtain rfl : q = p := hptr
      exact absurd rfl hf
    | connection q k =>
      obtain rfl : q = p := hptr
      cases k with
      | forceCloseInLoop => exact onConnection_kept (require_bind_eq_ok.mp h).2
      | highWaterMarkCallback _ | writeCompleteCallback => exact Except.ok.inj h ▸ .refl
  · exact (runFunctor_passes hptr h).kept

theorem onConnection_kept_all {f : TcpConnection → Result TcpConnection}
    (h : s.onConnection l q f = .ok t) : Kept p s t := by
  by_cases hq : q = p
  · subst q
    exact onConnection_kept h
  · exact (onConnection_passes hq h).kept

theorem newConnection_kept {sockfd : ℕ} (h : s.newConnection sockfd = .ok t) : Kept p s t := by
  obtain ⟨⟨ioLoop, v⟩, hv, h⟩ := bind_eq_ok.mp h
  obtain ⟨next, rfl⟩ := getNextLoop_ok hv
  dsimp only at h
  split_ifs at h
  · have hkept := runFunctor_kept (p := p) (f := .connectEstablished s.created) nofun h
    exact hkept
  · exact Except.ok.inj h ▸ .refl

theorem step_kept {e : Event L} (hs : machine.step s e = .ok t) : Kept p s t ∨
    ∃ l rest, e = .call l ∧ (s.queue l).functors = .connectDestroyed p :: rest := by
  cases e with
  | newConnection sockfd => exact .inl (newConnection_kept hs)
  | handleRead q | handleClose q => exact .inl (onConnection_kept_all (require_bind_eq_ok.mp hs).2)
  | forceClose q =>
    change s.onConnection (s.conn q).loop q (fun c => pure c.forceClose) = .ok t at hs
    exact .inl (onConnection_kept_all hs)
  | swap l => exact .inl (Except.ok.inj hs ▸ .refl)
  | call l =>
    cases hq : (s.queue l).functors with
    | nil =>
      have hsame : machine.step s (.call l) = .ok s := by simp only [machine, hq, pure_eq_ok]
      exact .inl (Except.ok.inj (hsame.symm.trans hs) ▸ .refl)
    | cons f rest =>
      by_cases hf : f = .connectDestroyed p
      · exact .inr ⟨l, rest, rfl, by rw [hq, hf]⟩
      · rw [step_call hq] at hs
        have hkept := runFunctor_kept hf hs
        exact .inl hkept

theorem connectDestroyed_index (hc : (s.conn p).connection.Between .removed)
    (h : s.connectDestroyed l p = .ok t) : (t.conn p).connection.channel.index = .kNew := by
  obtain ⟨c, hd, -, hpending, htodo⟩ := hc.connectDestroyed
  have h := (require_bind_eq_ok.mp h).2
  rw [onConnection_eq (s := s.record p _) hd hpending, htodo, List.foldlM_cons] at h
  obtain ⟨v, hv, h⟩ := bind_eq_ok.mp h
  obtain ⟨c', hc', hv⟩ := bind_eq_ok.mp hv
  obtain rfl := Except.ok.inj hv
  obtain rfl := Except.ok.inj h
  rw [setConnection_conn, (TcpConnection.remove_ok hc').2]
  rfl

/-- The channels of the destroyed connections are in no poller. -/
def Unregistered (s : TcpServer L) : Prop :=
  ∀ p l, .destroyed l ∈ s.history p → (s.conn p).connection.channel.index = .kNew

theorem Inv.destroyed (h : Inv g none s) (hd : .destroyed l ∈ s.history p) :
    p < s.created ∧ g p = .destroyed := by
  have hp : p < s.created := by
    by_contra hle
    rw [h.unborn p (not_lt.mp hle)] at hd
    cases hd
  rw [h.history p hp] at hd
  refine ⟨hp, ?_⟩
  cases hgp : g p with
  | destroyed => rfl
  | fresh | up | closing | removed =>
    rw [hgp] at hd
    simp [Stage.history] at hd

theorem Inv.step_unregistered (h : Inv g none s) (hu : s.Unregistered) {e : Event L}
    (he : machine.enabled s e) (hs : machine.step s e = .ok t) : t.Unregistered := by
  intro p l hl
  by_cases hbefore : .destroyed l ∈ s.history p
  · obtain ⟨hp, hgp⟩ := h.destroyed hbefore
    rw [(h.step_destroyed hp hgp he hs).conn]
    exact hu p l hbefore
  · rcases step_kept hs with hkept | ⟨k, rest, rfl, hq⟩
    · exact absurd (hkept l hl) hbefore
    · rw [step_call hq] at hs
      have hpop := h.pop hq
      obtain ⟨hp, hawait⟩ := hpop.awaited rfl
      have hgp : g p = .removed := by
        unfold awaits Stage.awaits at hawait
        cases hgp : g p <;> rw [hgp] at hawait <;> simp_all
      have hconn := hpop.conn p hp
      rw [hgp] at hconn
      exact connectDestroyed_index hconn hs

/-- Up to its destruction the map or the next control functor holds a connection. -/
theorem Inv.held (h : Inv g none s) (hp : p < s.created) (hgp : g p ≠ .destroyed) : s.Held p := by
  by_cases hlisted : (g p).listed = true
  · exact .inl ⟨_, (h.listed _ p).mpr ⟨hp, rfl, hlisted⟩⟩
  · have hremoved : g p = .removed := by
      cases hi : g p with
      | removed => rfl
      | destroyed => exact absurd hi hgp
      | fresh | up | closing => exact absurd (by rw [hi]; rfl) hlisted
    have hcount := h.control p hp (s.conn p).loop (.connectDestroyed p) rfl
    rw [hremoved, inFlight_none, if_pos (by rfl)] at hcount
    have hmem : .connectDestroyed p ∈ (s.queue (s.conn p).loop).all :=
      List.count_pos_iff.mp (hcount ▸ Nat.one_pos)
    exact .inr ⟨_, _, hmem, rfl⟩

/-- Between two steps of the loops, about the connection at `p`. -/
structure Owned (s : TcpServer L) (p : ℕ) : Prop where
  /-- It is torn down when the last pointer goes. -/
  torn : ¬s.Held p → .destroyed (s.conn p).loop ∈ s.history p ∧
    (s.conn p).connection.state = .kDisconnected ∧
    (s.conn p).connection.channel.isNoneEvent = true ∧
    (s.conn p).connection.channel.index = .kNew
  /-- Nobody comes back to it afterwards. -/
  gone : ¬s.Held p → ∀ {es t}, machine.Run Machine.Any s es t →
    t.conn p = s.conn p ∧ t.history p = s.history p ∧ ¬t.Held p
  /-- Behind its destruction only functors of its own that were queued before hold it. -/
  leftover : ∀ {l}, .destroyed l ∈ s.history p → (∀ n, s.connections n ≠ some p) ∧
    ∀ k, ∀ f ∈ (s.queue k).all, f.ptr = p → k = (s.conn p).loop ∧ ∃ cb, f = .connection p cb
  /-- The connections that are up are held, and no others when the queues are empty. -/
  settled : (∀ l, (s.queue l).all = []) →
    (s.Held p ↔ (s.conn p).connection.state ≠ .kDisconnected)

theorem Inv.gone (h : Inv g none s) (hp : p < s.created) (hheld : ¬s.Held p) {es : List (Event L)}
    (hrun : machine.Run Machine.Any s es t) :
    t.conn p = s.conn p ∧ t.history p = s.history p ∧ ¬t.Held p := by
  have hall := hrun.invariant
    (fun t => (∃ g, Inv g none t) ∧ p < t.created ∧ t.conn p = s.conn p ∧
      t.history p = s.history p ∧ ¬t.Held p) ⟨⟨g, h⟩, hp, rfl, rfl, hheld⟩ ?_
  · exact hall.2.2
  · rintro u e v ⟨⟨g', hu⟩, hpu, hconn, hhistory, hnot⟩ he - hv
    have hgp : g' p = .destroyed := by
      by_contra hne
      exact hnot (hu.held hpu hne)
    obtain ⟨w, g'', hw, hg''⟩ := hu.step he
    obtain rfl := Except.ok.inj (hw.symm.trans hv)
    have hpass := hu.step_destroyed hpu hgp he hv
    exact ⟨⟨g'', hg''⟩, hpu.trans_le hpass.created, hpass.conn.trans hconn,
      hpass.history.trans hhistory, hnot ∘ hpass.held⟩

/-- In every interleaving of the loops and of the function calls, a connection is alive as long as
the server or a loop needs it, and what nobody holds any more has been torn down. -/
theorem connection_owned {loop : L} {name ipPort : Name} {loops : List L} {callbacks : Callbacks}
    {es : List (Event L)} (hip : ipPort.length ≤ 47)
    (h : machine.Run Machine.Any (start loop name ipPort loops callbacks) es s)
    (hp : p < s.created) : s.Owned p := by
  have hinv := h.invariant (fun s => (∃ g, Inv g none s) ∧ s.Unregistered)
    ⟨⟨_, start_inv hip⟩, fun p l hl => by cases hl⟩ ?_
  · obtain ⟨⟨g, hg⟩, hunregistered⟩ := hinv
    have hconn := hg.conn p hp
    refine ⟨fun hnot => ?_, fun hnot => hg.gone hp hnot, fun {l} hl => ?_, fun hq => ?_⟩
    · have hgp : g p = .destroyed := by
        by_contra hne
        exact hnot (hg.held hp hne)
      have hhistory := hg.history p hp
      rw [hgp] at hconn hhistory
      have hlast : .destroyed (s.conn p).loop ∈ s.history p := by
        rw [hhistory]
        simp [Stage.history]
      refine ⟨hlast, hconn.down nofun nofun, ?_, hunregistered p _ hlast⟩
      rw [Channel.isNoneEvent_iff]
      by_contra hne
      cases hconn.interest.mp hne
    · obtain ⟨-, hgp⟩ := hg.destroyed hl
      refine ⟨fun n hn => ?_, fun k f hf hptr => hg.leftover hp hgp ?_ hptr⟩
      · have hlisted := ((hg.listed n p).mp hn).2.2
        rw [hgp] at hlisted
        cases hlisted
      · rw [inFlight_none]
        exact List.count_pos_iff.mpr hf
    · have hsettled := hg.settled_connections hq
      constructor
      · rintro (⟨n, hn⟩ | ⟨l, f, hf, -⟩)
        · exact ((hsettled n p).mp hn).2.2
        · rw [hq l] at hf
          cases hf
      · exact fun hs => .inl ⟨_, (hsettled _ p).mpr ⟨hp, rfl, hs⟩⟩
  · rintro t e u ⟨⟨g, hg⟩, hunregistered⟩ he - hu
    obtain ⟨v, g', hv, hg'⟩ := hg.step he
    obtain rfl := Except.ok.inj (hv.symm.trans hu)
    exact ⟨⟨g', hg'⟩, hg.step_unregistered hunregistered he hu⟩

/-- One connection is closed by `forceClose`, called before `connectEstablished` has run and again
afterwards; at the end nobody holds it. -/
theorem connection_owned_closed : ∃ s : TcpServer Bool,
    machine.Run Machine.Any (start false ['s'] ['0', ':', '1'] [true]
      ⟨true, true, false, false, false⟩)
      [.newConnection 7, .newConnection 8, .forceClose 0, .swap true, .call true, .call true,
        .forceClose 0, .swap true, .call true, .swap false, .call false, .swap true, .call true] s ∧
    ¬s.Held 0 ∧ s.Held 1 ∧ (s.conn 0).connection.channel.index = .kNew := by
  obtain ⟨s, hs, hp⟩ := Machine.exists_run_of_exec machine Machine.Any
    (start false ['s'] ['0', ':', '1'] [true] ⟨true, true, false, false, false⟩)
    [.newConnection 7, .newConnection 8, .forceClose 0, .swap true, .call true, .call true,
      .forceClose 0, .swap true, .call true, .swap false, .call false, .swap true, .call true]
    (fun s => decide (s.created = 2 ∧ (s.conn 0).connection.state = .kDisconnected ∧
      (s.conn 1).connection.state = .kConnected ∧ ∀ l, (s.queue l).all = [])) (by decide)
  obtain ⟨hcreated, hdown, hup, hq⟩ := of_decide_eq_true hp
  have hfirst : s.Owned 0 := connection_owned (by decide) hs (by omega)
  have hsecond : s.Owned 1 := connection_owned (by decide) hs (by omega)
  have hnot : ¬s.Held 0 := fun hheld => (hfirst.settled hq).mp hheld hdown
  exact ⟨s, hs, hnot, (hsecond.settled hq).mpr (by rw [hup]; nofun), (hfirst.torn hnot).2.2.2⟩

end TcpServer
end MuduoWindows.Net
