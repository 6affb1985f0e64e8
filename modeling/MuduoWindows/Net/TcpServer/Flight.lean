import MuduoWindows.Net.TcpServer.Stages

/-! # Control functors in flight

The invariant of the server gives each connection a stage and counts its control functors over all
queues, together with the one that is being called at the moment.
-/

namespace MuduoWindows.Net
open Library

theorem printInt_length {n : ℕ} (h : n < 2 ^ 31) : (printInt n).length ≤ 10 := by
  unfold printInt
  rw [if_neg (by omega), Int.natAbs_natCast]
  exact Nat.toDigits_length 10 n 10 (by decide) (h.trans (by decide))

theorem printInt_injective {m n : ℕ} (h : printInt m = printInt n) : m = n := by
  unfold printInt at h
  rw [if_neg (by omega), if_neg (by omega), Int.natAbs_natCast, Int.natAbs_natCast] at h
  rw [← Nat.ofDigitChars_ten_toDigits (n := m), h, Nat.ofDigitChars_ten_toDigits]

/-- `buf` has room for the whole text, so different numbers give different names. -/
theorem connName_injective {name ipPort : Name} (hip : ipPort.length ≤ 47) {m n : ℕ}
    (hm : m < 2 ^ 31) (hn : n < 2 ^ 31)
    (h : TcpServer.connName name ipPort m = TcpServer.connName name ipPort n) : m = n := by
  have hroom : ∀ k : ℕ, k < 2 ^ 31 →
      ('-' :: ipPort ++ '#' :: printInt k).take (TcpServer.bufSize - 1) =
        '-' :: ipPort ++ '#' :: printInt k := by
    intro k hk
    have hlen := printInt_length hk
    refine List.take_of_length_le ?_
    simp only [List.cons_append, List.length_cons, List.length_append, TcpServer.bufSize]
    omega
  unfold TcpServer.connName at h
  rw [hroom m hm, hroom n hn] at h
  have h' := List.append_cancel_left h
  rw [List.cons_append, List.cons_append] at h'
  have h'' := List.append_cancel_left (List.cons.inj h').2
  exact printInt_injective (List.cons.inj h'').2

/-- The connection whose stage a functor advances. -/
def ServerFunctor.controls : ServerFunctor → Option ℕ
  | .connectEstablished p | .removeConnectionInLoop p | .connectDestroyed p => some p
  | .connection _ _ => none

def ServerFunctor.ptr : ServerFunctor → ℕ
  | .connectEstablished p | .removeConnectionInLoop p | .connectDestroyed p
  | .connection p _ => p

theorem ServerFunctor.ptr_eq {f : ServerFunctor} {p : ℕ} (h : f.controls = some p) :
    f.ptr = p := by
  cases f <;> simp_all [controls, ptr]

namespace TcpServer
variable {L : Type} [DecidableEq L]

/-- How often a functor is in flight for a loop: in its queue or, as `cur`, called now. -/
def inFlight (s : TcpServer L) (cur : Option (L × ServerFunctor)) (l : L) (f : ServerFunctor) : ℕ :=
  (s.queue l).all.count f + if cur = some (l, f) then 1 else 0

/-- What the connection at `p` waits for at a stage. -/
def awaits (s : TcpServer L) (p : ℕ) (g : Stage) : Option (L × ServerFunctor) :=
  g.awaits s.loop (s.conn p).loop p

structure Inv (g : ℕ → Stage) (cur : Option (L × ServerFunctor)) (s : TcpServer L) :
    Prop where
  ipPort : s.ipPort.length ≤ 47
  pool : s.loops ≠ [] → s.next < s.loops.length
  nextConnId : s.created < 2 ^ 31 - 1 → s.nextConnId = (s.created + 1 : ℕ)
  few : s.created < 2 ^ 31
  name : ∀ p < s.created, (s.conn p).name = connName s.name s.ipPort (p + 1 : ℕ)
  conn : ∀ p < s.created, (s.conn p).connection.Between (g p)
  listed : ∀ n p, s.connections n = some p ↔
    p < s.created ∧ (s.conn p).name = n ∧ (g p).listed = true
  history : ∀ p < s.created, s.history p = (g p).history s.loop (s.conn p).loop
  unborn : ∀ p, s.created ≤ p → s.history p = []
  control : ∀ p < s.created, ∀ l f, f.controls = some p →
    s.inFlight cur l f = if s.awaits p (g p) = some (l, f) then 1 else 0
  known : ∀ l f, 0 < s.inFlight cur l f →
    f.ptr < s.created ∧ (f.controls = none → l = (s.conn f.ptr).loop)

variable {g : ℕ → Stage} {cur : Option (L × ServerFunctor)} {s : TcpServer L} {l : L}
  {p : ℕ} {f : ServerFunctor}

theorem inFlight_of_ne (hne : cur ≠ some (l, f)) :
    s.inFlight cur l f = (s.queue l).all.count f := by
  unfold inFlight
  rw [if_neg hne, Nat.add_zero]

theorem inFlight_none : s.inFlight none l f = (s.queue l).all.count f := inFlight_of_ne nofun

theorem inFlight_called : 0 < s.inFlight (some (l, f)) l f := by
  unfold inFlight
  rw [if_pos rfl]
  omega

omit [DecidableEq L] in
theorem awaits_controls {g' : Stage} (h : s.awaits p g' = some (l, f)) : f.controls = some p := by
  unfold awaits Stage.awaits at h
  cases g' <;> simp only [reduceCtorEq, Option.some.injEq, Prod.mk.injEq] at h <;>
    obtain ⟨-, rfl⟩ := h <;> rfl

omit [DecidableEq L] in
theorem setConnection_name (c : TcpConnection) (q : ℕ) :
    ((s.setConnection p c).conn q).name = (s.conn q).name := by
  unfold setConnection
  by_cases hq : q = p
  · subst q
    simp only [Function.update_self]
  · simp only [Function.update_of_ne hq]

omit [DecidableEq L] in
theorem setConnection_loop (c : TcpConnection) (q : ℕ) :
    ((s.setConnection p c).conn q).loop = (s.conn q).loop := by
  unfold setConnection
  by_cases hq : q = p
  · subst q
    simp only [Function.update_self]
  · simp only [Function.update_of_ne hq]

theorem Inv.setConnection_between (h : Inv g cur s) {g' : Stage} {c : TcpConnection}
    (hc : c.Between g') {q : ℕ} (hq : q < s.created) :
    ((s.setConnection p c).conn q).connection.Between (Function.update g p g' q) := by
  unfold setConnection
  by_cases hqp : q = p
  · subst q
    simp only [Function.update_self]
    exact hc
  · simp only [Function.update_of_ne hqp]
    exact h.conn q hq

theorem Inv.congr (h : Inv g cur s) {queue : L → FunctorQueue ServerFunctor}
    {cur' : Option (L × ServerFunctor)}
    (hsame : ∀ l f, inFlight { s with queue := queue } cur' l f = s.inFlight cur l f) :
    Inv g cur' { s with queue := queue } := by
  refine ⟨h.ipPort, h.pool, h.nextConnId, h.few, h.name, h.conn, h.listed, h.history, h.unborn,
    ?_, ?_⟩
  · intro p hp l f hf
    rw [hsame]
    exact h.control p hp l f hf
  · intro l f hpos
    rw [hsame] at hpos
    exact h.known l f hpos

theorem Inv.queueInLoop (h : Inv g (some (l, f)) s) : Inv g none (s.queueInLoop l f) := by
  refine h.congr fun k e => ?_
  unfold inFlight
  dsimp only
  by_cases hk : k = l
  · subst k
    rw [Function.update_self, FunctorQueue.all_queueInLoop, List.count_append]
    by_cases he : e = f
    · subst e
      simp
    · have hne : (some (l, f) : Option (L × ServerFunctor)) ≠ some (l, e) := by
        simp [Ne.symm he]
      rw [if_neg hne]
      simp [Ne.symm he]
  · have hne : (some (l, f) : Option (L × ServerFunctor)) ≠ some (k, e) := by
      simp [Ne.symm hk]
    rw [Function.update_of_ne hk, if_neg hne]
    simp

theorem Inv.pop (h : Inv g none s) {rest : List ServerFunctor}
    (hq : (s.queue l).functors = f :: rest) :
    Inv g (some (l, f))
      { s with queue := Function.update s.queue l { s.queue l with functors := rest } } := by
  refine h.congr fun k e => ?_
  unfold inFlight
  dsimp only
  by_cases hk : k = l
  · subst k
    rw [Function.update_self, FunctorQueue.all_cons hq, List.count_cons]
    by_cases he : f = e
    · subst e
      simp
    · simp [he]
  · have hne : (some (l, f) : Option (L × ServerFunctor)) ≠ some (k, e) := by
      simp [Ne.symm hk]
    rw [Function.update_of_ne hk, if_neg hne]
    simp

theorem Inv.swap (h : Inv g none s) (hq : (s.queue l).functors = []) :
    Inv g none { s with queue := Function.update s.queue l (s.queue l).swap } := by
  refine h.congr fun k e => ?_
  unfold inFlight
  dsimp only
  by_cases hk : k = l
  · subst k
    rw [Function.update_self, FunctorQueue.all_swap hq]
  · rw [Function.update_of_ne hk]

theorem Inv.drop (h : Inv g (some (l, f)) s) (hf : f.controls = none) : Inv g none s := by
  refine ⟨h.ipPort, h.pool, h.nextConnId, h.few, h.name, h.conn, h.listed, h.history, h.unborn,
    ?_, ?_⟩
  · intro p hp k e he
    rw [← h.control p hp k e he]
    have hne : (some (l, f) : Option (L × ServerFunctor)) ≠ some (k, e) := by
      rintro heq
      obtain ⟨-, rfl⟩ := Prod.mk.inj (Option.some.inj heq)
      rw [he] at hf
      cases hf
    rw [inFlight_none, inFlight_of_ne hne]
  · intro k e hpos
    refine h.known k e (hpos.trans_le ?_)
    rw [inFlight_none]
    exact Nat.le_add_right _ _

/-- A functor of a connection may come into flight for its loop at any time. -/
theorem Inv.post (h : Inv g none s) (hp : p < s.created) (k : ConnFunctor) :
    Inv g (some ((s.conn p).loop, .connection p k)) s := by
  refine ⟨h.ipPort, h.pool, h.nextConnId, h.few, h.name, h.conn, h.listed, h.history, h.unborn,
    ?_, ?_⟩
  · intro q hq l e he
    rw [← h.control q hq l e he]
    have hne : (some ((s.conn p).loop, .connection p k) : Option (L × ServerFunctor)) ≠
        some (l, e) := by
      intro heq
      obtain ⟨-, rfl⟩ := Prod.mk.inj (Option.some.inj heq)
      cases he
    rw [inFlight_none, inFlight_of_ne hne]
  · intro l e hpos
    by_cases heq : (some ((s.conn p).loop, .connection p k) : Option (L × ServerFunctor)) =
        some (l, e)
    · obtain ⟨rfl, rfl⟩ := Prod.mk.inj (Option.some.inj heq)
      exact ⟨hp, fun _ => rfl⟩
    · refine h.known l e ?_
      rw [inFlight_of_ne heq] at hpos
      rwa [inFlight_none]

/-- A control functor is called exactly where and when its connection waits for it. -/
theorem Inv.awaited (h : Inv g (some (l, f)) s) (hf : f.controls = some p) :
    p < s.created ∧ s.awaits p (g p) = some (l, f) := by
  have hp : p < s.created := by
    rw [← ServerFunctor.ptr_eq hf]
    exact (h.known l f inFlight_called).1
  refine ⟨hp, ?_⟩
  by_contra hne
  have hone : 0 < s.inFlight (some (l, f)) l f := inFlight_called
  rw [h.control p hp l f hf, if_neg hne] at hone
  exact hone.false

/-- A connection moves to another stage while the functor it waited for is called; then the next
one is on its way. -/
theorem Inv.move (h : Inv g (s.awaits p (g p)) s) (hp : p < s.created) (g' : Stage)
    {c : TcpConnection} (hc : c.Between g') (history : ℕ → List (Milestone L))
    (hhistory : history = Function.update s.history p (g'.history s.loop (s.conn p).loop))
    (connections : Name → Option ℕ)
    (hlisted : ∀ n q, connections n = some q ↔
      q < s.created ∧ (s.conn q).name = n ∧ (Function.update g p g' q).listed = true) :
    Inv (Function.update g p g') (s.awaits p g')
      { s.setConnection p c with history := history, connections := connections } := by
  have hnone : ∀ k e, e.controls = some p → (s.queue k).all.count e = 0 := by
    intro k e he
    have hcount := h.control p hp k e he
    unfold inFlight at hcount
    omega
  refine ⟨h.ipPort, h.pool, h.nextConnId, h.few, ?_, ?_, ?_, ?_, ?_, ?_, ?_⟩
  · intro q hq
    exact (setConnection_name c q).trans (h.name q hq)
  · exact fun q hq => h.setConnection_between hc hq
  · intro n q
    refine (hlisted n q).trans ?_
    change _ ↔ _ ∧ ((s.setConnection p c).conn q).name = n ∧ _
    rw [setConnection_name]
    exact Iff.rfl
  · intro q hq
    change history q = Stage.history s.loop ((s.setConnection p c).conn q).loop _
    rw [hhistory, setConnection_loop]
    by_cases hqp : q = p
    · subst q
      rw [Function.update_self, Function.update_self]
    · rw [Function.update_of_ne hqp, Function.update_of_ne hqp]
      exact h.history q hq
  · intro q hq
    have hqp : q ≠ p := by
      rintro rfl
      exact absurd hp (not_lt.mpr hq)
    change history q = []
    rw [hhistory, Function.update_of_ne hqp]
    exact h.unborn q hq
  · intro q hq k e he
    change s.inFlight _ k e =
      if Stage.awaits s.loop ((s.setConnection p c).conn q).loop q _ = some (k, e) then 1 else 0
    rw [setConnection_loop]
    by_cases hqp : q = p
    · subst q
      rw [Function.update_self]
      unfold inFlight
      rw [hnone k e he, Nat.zero_add]
      rfl
    · rw [Function.update_of_ne hqp]
      refine Eq.trans ?_ (h.control q hq k e he)
      have hother : ∀ g'', s.awaits p g'' ≠ some (k, e) := fun g'' hg'' =>
        hqp (Option.some.inj (he.symm.trans (awaits_controls hg'')))
      rw [inFlight_of_ne (hother _), inFlight_of_ne (hother _)]
  · intro k e hpos
    change 0 < s.inFlight _ k e at hpos
    change e.ptr < s.created ∧ (_ → k = ((s.setConnection p c).conn e.ptr).loop)
    rw [setConnection_loop]
    by_cases he : e.controls = some p
    · rw [ServerFunctor.ptr_eq he]
      exact ⟨hp, fun hn => by rw [he] at hn; cases hn⟩
    · have hother : ∀ g'', s.awaits p g'' ≠ some (k, e) :=
        fun g'' hg'' => he (awaits_controls hg'')
      refine h.known k e ?_
      rw [inFlight_of_ne (hother _)] at hpos
      rwa [inFlight_of_ne (hother _)]

theorem Inv.setConnection (h : Inv g cur s) {c : TcpConnection}
    (hc : c.Between (g p)) : Inv g cur (s.setConnection p c) := by
  refine ⟨h.ipPort, h.pool, h.nextConnId, h.few, ?_, ?_, ?_, ?_, h.unborn, ?_, ?_⟩
  · intro q hq
    exact (setConnection_name c q).trans (h.name q hq)
  · intro q hq
    have hbetween := h.setConnection_between (p := p) hc hq
    rwa [Function.update_eq_self] at hbetween
  · intro n q
    rw [setConnection_name]
    exact h.listed n q
  · intro q hq
    rw [setConnection_loop]
    exact h.history q hq
  · intro q hq k e he
    unfold awaits
    rw [setConnection_loop]
    exact h.control q hq k e he
  · intro k e hpos
    rw [setConnection_loop]
    exact h.known k e hpos

end TcpServer
end MuduoWindows.Net
