import MuduoWindows.Library.Linearizable
import MuduoWindows.Net.Fault

/-! # base/atomic.h

A call is a sequence of accesses to `value_`, each of them atomic; between them other threads take
their steps.
-/

namespace MuduoWindows.Base
open Library Net

abbrev Int64t := BitVec 64

/-- What a call has still to do. -/
inductive Steps where
  | ret (r : Int64t)
  | load (k : Int64t → Steps)
  | store (x : Int64t) (p : Steps)
  | fetchAdd (x : Int64t) (k : Int64t → Steps)

namespace Steps

def next (v : Int64t) : Steps → Int64t × Steps
  | .ret r => (v, .ret r)
  | .load k => (v, k v)
  | .store x p => (x, p)
  | .fetchAdd x k => (v + x, k v)

/-- All accesses without a pause, with the result. -/
def run : Steps → Int64t → Int64t × Int64t
  | .ret r, v => (v, r)
  | .load k, v => (k v).run v
  | .store x p, _ => p.run x
  | .fetchAdd x k, v => (k v).run (v + x)

def Returned : Steps → Prop
  | .ret _ => True
  | .load _ | .store _ _ | .fetchAdd _ _ => False

instance : ∀ p : Steps, Decidable p.Returned
  | .ret _ => .isTrue trivial
  | .load _ | .store _ _ | .fetchAdd _ _ => .isFalse id

theorem exists_of_returned {p : Steps} (h : p.Returned) : ∃ r, p = .ret r := by
  cases p with
  | ret r => exact ⟨r, rfl⟩
  | load k | store x p | fetchAdd x k => exact absurd h id

/-- A store that is about to happen finds the value that the call is about to return. -/
def Keeps (v : Int64t) : Steps → Prop
  | .store _ (.ret r) => v = r
  | _ => True

end Steps

namespace AtomicInt

def get : Steps := .load fun v => .ret v

def getAndAdd (x : Int64t) : Steps := .fetchAdd x fun t => .ret t

def addAndGet (x : Int64t) : Steps := .fetchAdd x fun v => .ret (v + x)

def incrAndGet : Steps := addAndGet 1

def decrAndGet : Steps := addAndGet (-1)

def getAndSet (t : Int64t) : Steps := .load fun v => .store t (.ret v)

end AtomicInt

inductive AtomicOp where
  | get
  | getAndAdd (x : Int64t)
  | addAndGet (x : Int64t)
  | incrAndGet
  | decrAndGet
  | getAndSet (t : Int64t)
  deriving DecidableEq

namespace AtomicOp

def body : AtomicOp → Steps
  | .get => AtomicInt.get
  | .getAndAdd x => AtomicInt.getAndAdd x
  | .addAndGet x => AtomicInt.addAndGet x
  | .incrAndGet => AtomicInt.incrAndGet
  | .decrAndGet => AtomicInt.decrAndGet
  | .getAndSet t => AtomicInt.getAndSet t

def spec (v : Int64t) (op : AtomicOp) : Int64t × Int64t := op.body.run v

end AtomicOp

/-- An unfinished call. -/
structure AtomicCall where
  id : ℕ
  op : AtomicOp
  steps : Steps

/-- An `AtomicInt` with the threads that use it; `calls` calls have begun. -/
structure SharedAtomic (τ : Type) where
  value : Int64t
  running : τ → Option AtomicCall
  calls : ℕ
  history : History ℕ AtomicOp Int64t

namespace SharedAtomic
variable {τ : Type}

def create : SharedAtomic τ :=
  { value := 0, running := fun _ => none, calls := 0, history := [] }

inductive Event (τ : Type) where
  | invoke (t : τ) (op : AtomicOp)
  | step (t : τ)
  | respond (t : τ)

/-- The thread is in a call of which `p` holds. -/
def InCall (s : SharedAtomic τ) (t : τ) (p : Steps → Prop) : Prop :=
  ∃ c ∈ s.running t, p c.steps

variable [DecidableEq τ]

def step (s : SharedAtomic τ) (t : τ) (c : AtomicCall) : SharedAtomic τ :=
  let (value, steps) := c.steps.next s.value
  { s with value, running := Function.update s.running t (some { c with steps }) }

def respond (s : SharedAtomic τ) (t : τ) (c : AtomicCall) : SharedAtomic τ :=
  match c.steps with
  | .ret r =>
    { s with
      running := Function.update s.running t none
      history := s.history ++ [.respond c.id r] }
  | .load _ | .store _ _ | .fetchAdd _ _ => s

def machine : Machine (SharedAtomic τ) (Event τ) Fault where
  enabled s
    | .invoke t _ => s.running t = none
    | .step t => s.InCall t (¬ ·.Returned)
    | .respond t => s.InCall t Steps.Returned
  step s
    | .invoke t op => pure { s with
        running := Function.update s.running t (some ⟨s.calls, op, op.body⟩)
        calls := s.calls + 1
        history := s.history ++ [.invoke s.calls op] }
    | .step t => pure ((s.running t).elim s (s.step t))
    | .respond t => pure ((s.running t).elim s (s.respond t))

/-- No other call has changed the value between the load and the store of `getAndSet`. -/
def Undisturbed (s : SharedAtomic τ) : Event τ → Prop
  | .step t => ∀ c ∈ s.running t, c.steps.Keeps s.value
  | .invoke _ _ | .respond _ => True

omit [DecidableEq τ] in
/-- A call of `op` has not taken effect. -/
def Open (op : AtomicOp) (p : Steps) : Prop :=
  p = op.body ∨ ∃ t v, op = .getAndSet t ∧ p = .store t (.ret v)

theorem Open.not_returned {op : AtomicOp} {p : Steps} (h : Open op p) : ¬ p.Returned := by
  obtain rfl | ⟨t, v, rfl, rfl⟩ := h
  · cases op <;> exact id
  · exact id

/-- The next access of an undisturbed call leaves it without effect, or it is what the whole call
does on its own. -/
theorem Open.next {op : AtomicOp} {p : Steps} {v : Int64t} (h : Open op p) (hp : p.Keeps v) :
    (∃ p', p.next v = (v, p') ∧ Open op p') ∨
      p.next v = ((op.spec v).1, .ret (op.spec v).2) := by
  obtain rfl | ⟨t, v', rfl, rfl⟩ := h
  · cases op with
    | getAndSet t => exact .inl ⟨.store t (.ret v), rfl, .inr ⟨t, v, rfl, rfl⟩⟩
    | get | getAndAdd x | addAndGet x | incrAndGet | decrAndGet => exact .inr rfl
  · obtain rfl : v = v' := hp
    exact .inr rfl

/-- The call has this result, and may still have to return it. -/
def Sees (s : SharedAtomic τ) (i : ℕ) (r : Int64t) : Prop :=
  .respond i r ∈ s.history ∨ ∃ t c, s.running t = some c ∧ c.id = i ∧ c.steps = .ret r

variable {s u : SharedAtomic τ} {l : List (ℕ × AtomicOp × Int64t)} {t : τ} {c d : AtomicCall}
  {h : History ℕ AtomicOp Int64t}

omit [DecidableEq τ] in
/-- An unfinished call, with the history and the linearization so far. -/
structure Unfinished (h : History ℕ AtomicOp Int64t) (l : List (ℕ × AtomicOp × Int64t))
    (c : AtomicCall) : Prop where
  invoked : .invoke c.id c.op ∈ h
  unanswered : ∀ r, .respond c.id r ∉ h
  effect : Open c.op c.steps ∧ c.id ∉ l.map Prod.fst ∨
    ∃ r, c.steps = .ret r ∧ (c.id, c.op, r) ∈ l

theorem Unfinished.append {e : HistoryEvent ℕ AtomicOp Int64t} (hc : Unfinished h l c)
    (he : ∀ r, e ≠ .respond c.id r) : Unfinished (h ++ [e]) l c := by
  refine ⟨List.mem_append_left _ hc.invoked, fun r hr => ?_, hc.effect⟩
  obtain hr | hr := List.mem_append.mp hr
  · exact hc.unanswered r hr
  · exact he r (List.mem_singleton.mp hr).symm

theorem Unfinished.point {x : ℕ × AtomicOp × Int64t} (hc : Unfinished h l c) (hx : x.1 ≠ c.id) :
    Unfinished h (l ++ [x]) c := by
  refine ⟨hc.invoked, hc.unanswered, ?_⟩
  obtain ⟨hopen, hnot⟩ | ⟨r, hr, hmem⟩ := hc.effect
  · refine .inl ⟨hopen, fun hmem => ?_⟩
    rw [List.map_append] at hmem
    obtain hmem | hmem := List.mem_append.mp hmem
    · exact hnot hmem
    · exact hx (List.mem_singleton.mp hmem).symm
  · exact .inr ⟨r, hr, List.mem_append_left _ hmem⟩

/-- The unfinished calls and the linearization `l` of those that have taken effect. -/
structure Inv (s : SharedAtomic τ) (l : List (ℕ × AtomicOp × Int64t)) : Prop where
  linearizes : History.Linearizes AtomicOp.spec 0 s.value s.history l
  bound : ∀ i op, .invoke i op ∈ s.history → i < s.calls
  distinct : ∀ t c u d, s.running t = some c → s.running u = some d → c.id = d.id → t = u
  unfinished : ∀ t c, s.running t = some c → Unfinished s.history l c
  sees : ∀ x ∈ l, s.Sees x.1 x.2.2

omit [DecidableEq τ] in
theorem create_inv : (create : SharedAtomic τ).Inv [] :=
  ⟨History.linearizes_nil, nofun, nofun, nofun, nofun⟩

theorem running_update {o : Option AtomicCall} {v : τ}
    (hd : Function.update s.running t o v = some d) :
    v = t ∧ o = some d ∨ v ≠ t ∧ s.running v = some d := by
  obtain rfl | hne := eq_or_ne v t
  · rw [Function.update_self] at hd
    exact .inl ⟨rfl, hd⟩
  · rw [Function.update_of_ne hne] at hd
    exact .inr ⟨hne, hd⟩

theorem inv_of_update {o : Option AtomicCall} {l' : List (ℕ × AtomicOp × Int64t)}
    (h : s.Inv l) (hrunning : u.running = Function.update s.running t o)
    (hl : History.Linearizes AtomicOp.spec 0 u.value u.history l')
    (hbound : ∀ i op, .invoke i op ∈ u.history → i < u.calls)
    (hself : ∀ d, o = some d → Unfinished u.history l' d ∧
      ∀ v c, v ≠ t → s.running v = some c → d.id ≠ c.id)
    (hothers : ∀ v c, v ≠ t → s.running v = some c → Unfinished u.history l' c)
    (hsees : ∀ x ∈ l', u.Sees x.1 x.2.2) : u.Inv l' := by
  refine ⟨hl, hbound, fun v c w d hc hd heq => ?_, fun v d hd => ?_, hsees⟩
  · rw [hrunning] at hc hd
    obtain ⟨rfl, hc'⟩ | ⟨hv, hc'⟩ := running_update hc <;>
      obtain ⟨rfl, hd'⟩ | ⟨hw, hd'⟩ := running_update hd
    · rfl
    · exact absurd heq ((hself c hc').2 w d hw hd')
    · exact absurd heq.symm ((hself d hd').2 v c hv hc')
    · exact h.distinct v c w d hc' hd' heq
  · rw [hrunning] at hd
    obtain ⟨-, hd'⟩ | ⟨hv, hd'⟩ := running_update hd
    · exact (hself d hd').1
    · exact hothers v d hv hd'

theorem Sees.update {i : ℕ} {r : Int64t} {o : Option AtomicCall} (h : s.Sees i r)
    (hrunning : u.running = Function.update s.running t o)
    (hhistory : s.history ⊆ u.history)
    (hself : ∀ c, s.running t = some c → c.id = i → c.steps = .ret r → u.Sees i r) :
    u.Sees i r := by
  obtain hr | ⟨v, d, hd, hi, hr⟩ := h
  · exact .inl (hhistory hr)
  · obtain rfl | hne := eq_or_ne v t
    · exact hself d hd hi hr
    · exact .inr ⟨v, d, by rw [hrunning, Function.update_of_ne hne, hd], hi, hr⟩

theorem Inv.invoke (h : s.Inv l) (ht : s.running t = none) (op : AtomicOp) :
    ({ s with
      running := Function.update s.running t (some ⟨s.calls, op, op.body⟩)
      calls := s.calls + 1
      history := s.history ++ [.invoke s.calls op] } : SharedAtomic τ).Inv l := by
  have hnew : s.calls ∉ l.map Prod.fst := by
    intro hmem
    obtain ⟨x, hx, heq⟩ := List.mem_map.mp hmem
    exact absurd (heq ▸ h.bound _ _ (h.linearizes.invoked x hx)) (lt_irrefl _)
  refine inv_of_update h rfl (h.linearizes.invoke hnew) (fun i op' hi => ?_) ?_
    (fun v c _ hc => (h.unfinished v c hc).append nofun) fun x hx => ?_
  · obtain hi | hi := List.mem_append.mp hi
    · exact (h.bound i op' hi).trans (Nat.lt_succ_self _)
    · obtain ⟨rfl, -⟩ := HistoryEvent.invoke.inj (List.mem_singleton.mp hi)
      exact Nat.lt_succ_self _
  · rintro d hd
    obtain rfl := Option.some.inj hd
    refine ⟨⟨List.mem_append_right _ (List.mem_singleton_self _), fun r hr => ?_,
      .inl ⟨.inl rfl, hnew⟩⟩, fun v c _ hc => (h.bound _ _ (h.unfinished v c hc).invoked).ne'⟩
    have hold : .respond s.calls r ∈ s.history :=
      (List.mem_append.mp hr).resolve_right fun hr => absurd (List.mem_singleton.mp hr) nofun
    obtain ⟨op', hmem⟩ := h.linearizes.complete _ r hold
    exact hnew (List.mem_map_of_mem hmem)
  · exact (h.sees x hx).update rfl (List.subset_append_left _ _)
      fun c hc => absurd (ht.symm.trans hc) nofun

omit [DecidableEq τ] in
theorem Inv.id_ne (h : s.Inv l) (ht : s.running t = some c) {v : τ} (hv : v ≠ t)
    (hd : s.running v = some d) : c.id ≠ d.id := fun heq =>
  hv (h.distinct t c v d ht hd heq).symm

theorem Inv.sees_access (h : s.Inv l) (ht : s.running t = some c) (hopen : ¬ c.steps.Returned)
    {x : ℕ × AtomicOp × Int64t} (hx : x ∈ l)
    (hrunning : u.running = Function.update s.running t (some d))
    (hhistory : u.history = s.history) : u.Sees x.1 x.2.2 := by
  refine (h.sees x hx).update hrunning (hhistory ▸ List.Subset.refl _) fun e he _ hr => ?_
  obtain rfl := Option.some.inj (ht.symm.trans he)
  exact absurd (hr ▸ trivial) hopen

theorem Inv.access (h : s.Inv l) (ht : s.running t = some c) (hopen : ¬ c.steps.Returned)
    (hkeeps : c.steps.Keeps s.value) : ∃ l', (s.step t c).Inv l' := by
  have hc := h.unfinished t c ht
  obtain ⟨heffect, hnot⟩ | ⟨r, hr, -⟩ := hc.effect
  · unfold step
    obtain ⟨p', hnext, hp'⟩ | hnext := heffect.next hkeeps <;> rw [hnext]
    · refine ⟨l, inv_of_update h rfl h.linearizes h.bound (fun d hd => ?_)
        (fun v d _ hd => h.unfinished v d hd) fun x hx => h.sees_access ht hopen hx rfl rfl⟩
      obtain rfl := Option.some.inj hd
      exact ⟨⟨hc.invoked, hc.unanswered, .inl ⟨hp', hnot⟩⟩,
        fun v d hv hd => h.id_ne (c := c) ht hv hd⟩
    · have hpoint := h.linearizes.point hc.invoked hc.unanswered hnot
      refine ⟨_, inv_of_update h rfl hpoint h.bound (fun d hd => ?_)
        (fun v d hv hd => (h.unfinished v d hd).point (h.id_ne ht hv hd)) fun x hx => ?_⟩
      · obtain rfl := Option.some.inj hd
        refine ⟨⟨hc.invoked, hc.unanswered, .inr ⟨_, rfl, ?_⟩⟩,
          fun v d hv hd => h.id_ne (c := c) ht hv hd⟩
        exact List.mem_append_right _ (List.mem_singleton_self _)
      · obtain hx | hx := List.mem_append.mp hx
        · exact h.sees_access ht hopen hx rfl rfl
        · obtain rfl := List.mem_singleton.mp hx
          exact .inr ⟨t, _, Function.update_self _ _ _, rfl, rfl⟩
  · exact absurd (hr ▸ trivial) hopen

theorem Inv.respond {r : Int64t} (h : s.Inv l) (ht : s.running t = some c)
    (hr : c.steps = .ret r) :
    ({ s with
      running := Function.update s.running t none
      history := s.history ++ [.respond c.id r] } : SharedAtomic τ).Inv l := by
  have hmem : (c.id, c.op, r) ∈ l := by
    obtain ⟨heffect, -⟩ | ⟨r', hr', hmem⟩ := (h.unfinished t c ht).effect
    · exact absurd (hr ▸ trivial) heffect.not_returned
    · obtain rfl := Steps.ret.inj (hr.symm.trans hr')
      exact hmem
  refine inv_of_update h rfl (h.linearizes.respond hmem) (fun i op hi => ?_) nofun
    (fun v d hv hd => (h.unfinished v d hd).append fun r' heq => ?_) fun x hx => ?_
  · exact h.bound i op ((List.mem_append.mp hi).resolve_right fun hi =>
      absurd (List.mem_singleton.mp hi) nofun)
  · exact hv (h.distinct t c v d ht hd (HistoryEvent.respond.inj heq).1).symm
  · refine (h.sees x hx).update rfl (List.subset_append_left _ _) fun d hd hi hr' => ?_
    obtain rfl := Option.some.inj (ht.symm.trans hd)
    obtain rfl := Steps.ret.inj (hr.symm.trans hr')
    rw [← hi]
    exact .inl (List.mem_append_right _ (List.mem_singleton_self _))

theorem Inv.step {e : Event τ} (h : s.Inv l) (he : machine.enabled s e) (hp : s.Undisturbed e)
    (hu : machine.step s e = .ok u) : ∃ l', u.Inv l' := by
  cases e with
  | invoke t op =>
    obtain rfl := Except.ok.inj hu
    exact ⟨l, h.invoke he op⟩
  | step t =>
    obtain ⟨c, hc, hopen⟩ := he
    obtain rfl := Except.ok.inj hu
    rw [show s.running t = some c from hc]
    exact h.access hc hopen (hp c hc)
  | respond t =>
    obtain ⟨c, hc, hreturned⟩ := he
    obtain ⟨r, hr⟩ := Steps.exists_of_returned hreturned
    obtain rfl := Except.ok.inj hu
    rw [show s.running t = some c from hc]
    change ∃ l', (s.respond t c).Inv l'
    unfold SharedAtomic.respond
    rw [hr]
    exact ⟨l, h.respond hc hr⟩

omit [DecidableEq τ] in
theorem Inv.sees_iff (h : s.Inv l) {i : ℕ} {r : Int64t} :
    s.Sees i r ↔ ∃ op, (i, op, r) ∈ l := by
  constructor
  · rintro (hr | ⟨t, c, hc, rfl, hr⟩)
    · exact h.linearizes.complete i r hr
    · obtain ⟨heffect, -⟩ | ⟨r', hr', hmem⟩ := (h.unfinished t c hc).effect
      · exact absurd (hr ▸ trivial) heffect.not_returned
      · obtain rfl := Steps.ret.inj (hr.symm.trans hr')
        exact ⟨c.op, hmem⟩
  · rintro ⟨op, hmem⟩
    exact h.sees _ hmem

theorem ones_of_legal {l : List (AtomicOp × Int64t)} {w : Int64t}
    (hl : History.Legal AtomicOp.spec 1 l w) (hops : ∀ x ∈ l, x.1 = .getAndSet 1) :
    ∀ x ∈ l, x.2 = 1 := by
  induction l with
  | nil => exact nofun
  | cons x l ih =>
    obtain ⟨op, r⟩ := x
    obtain ⟨hop, hrest⟩ := List.forall_mem_cons.mp hops
    obtain rfl : op = .getAndSet 1 := hop
    obtain ⟨rfl, hlegal⟩ := hl
    exact List.forall_mem_cons.mpr ⟨rfl, ih hlegal hrest⟩

/-- Of calls of `getAndSet(1)` on a zero, the first one in a linearization sees the zero. -/
theorem starts_of_linearizes {w : Int64t}
    (hl : History.Linearizes AtomicOp.spec 0 w h l)
    (hops : ∀ i op, .invoke i op ∈ h → op = .getAndSet 1) :
    l = [] ∨ ∃ i rest, l = (i, .getAndSet 1, 0) :: rest ∧ ∀ x ∈ rest, x.2.2 = 1 := by
  cases l with
  | nil => exact .inl rfl
  | cons x rest =>
    obtain ⟨i, op, r⟩ := x
    have hall : ∀ x ∈ (i, op, r) :: rest, x.2.1 = .getAndSet 1 := fun x hx =>
      hops _ _ (hl.invoked x hx)
    obtain ⟨hop, hrest⟩ := List.forall_mem_cons.mp hall
    obtain rfl : op = .getAndSet 1 := hop
    obtain ⟨rfl, hlegal⟩ := hl.legal
    refine .inr ⟨i, rest, rfl, fun x hx => ?_⟩
    exact ones_of_legal hlegal (List.forall_mem_map.mpr hrest) _ (List.mem_map_of_mem hx)

theorem sees_zero_unique {w : Int64t} {i j : ℕ} {op op' : AtomicOp}
    (hl : History.Linearizes AtomicOp.spec 0 w h l)
    (hops : ∀ i op, .invoke i op ∈ h → op = .getAndSet 1) (hi : (i, op, 0) ∈ l)
    (hj : (j, op', 0) ∈ l) : i = j := by
  obtain rfl | ⟨k, rest, rfl, hrest⟩ := starts_of_linearizes hl hops
  · exact absurd hi List.not_mem_nil
  · have hhead : ∀ m op, (m, op, (0 : Int64t)) ∈ (k, AtomicOp.getAndSet 1, (0 : Int64t)) :: rest →
        m = k := by
      intro m op hm
      obtain heq | hm := List.mem_cons.mp hm
      · exact congrArg Prod.fst heq
      · exact absurd (show (0 : Int64t) = 1 from hrest _ hm) (by decide)
    exact (hhead i op hi).trans (hhead j op' hj).symm

/-- In runs where each store of `getAndSet` finds the value that its load has read, the calls are
linearizable; if they are all those of `start`, exactly one sees the zero. -/
theorem linearizable {es : List (Event τ)} (h : machine.Run Undisturbed create es s) :
    (∃ l, History.Linearizes AtomicOp.spec 0 s.value s.history l) ∧
      ((∀ i op, .invoke i op ∈ s.history → op = .getAndSet 1) →
        (∃ i r, s.Sees i r) → ∃! i, s.Sees i 0) := by
  obtain ⟨l, hl⟩ : ∃ l, s.Inv l := h.invariant (fun s : SharedAtomic τ => ∃ l, s.Inv l)
    ⟨[], create_inv⟩
    fun _ _ _ ⟨_, hl⟩ he hp hu => hl.step he hp hu
  refine ⟨⟨l, hl.linearizes⟩, fun hops ⟨i, r, hsees⟩ => ?_⟩
  obtain ⟨op, hmem⟩ := hl.sees_iff.mp hsees
  obtain rfl | ⟨k, rest, heq, -⟩ := starts_of_linearizes hl.linearizes hops
  · exact absurd hmem List.not_mem_nil
  · have hk : (k, AtomicOp.getAndSet 1, 0) ∈ l := heq ▸ List.mem_cons_self
    refine ⟨k, hl.sees_iff.mpr ⟨_, hk⟩, fun j hj => ?_⟩
    obtain ⟨op', hj⟩ := hl.sees_iff.mp hj
    exact sees_zero_unique hl.linearizes hops hj hk

instance (s : SharedAtomic τ) : ∀ e, Decidable (machine.enabled s e)
  | .invoke t _ => decidable_of_iff ((s.running t).isNone = true) Option.isNone_iff_eq_none
  | .step t => inferInstanceAs (Decidable (∃ c ∈ s.running t, ¬ c.steps.Returned))
  | .respond t => inferInstanceAs (Decidable (∃ c ∈ s.running t, c.steps.Returned))

instance (v : Int64t) : ∀ p : Steps, Decidable (p.Keeps v)
  | .store _ (.ret r) => inferInstanceAs (Decidable (v = r))
  | .ret _ | .load _ | .fetchAdd _ _ | .store _ (.load _) | .store _ (.store _ _)
  | .store _ (.fetchAdd _ _) => .isTrue trivial

omit [DecidableEq τ] in
instance (s : SharedAtomic τ) : ∀ e, Decidable (s.Undisturbed e)
  | .step t => inferInstanceAs (Decidable (∀ c ∈ s.running t, c.steps.Keeps s.value))
  | .invoke _ _ | .respond _ => .isTrue trivial

/-- A second `start` begins while the first one has stored and not returned yet. -/
theorem linearizable_start : ∃ s : SharedAtomic (Fin 2),
    machine.Run Undisturbed create [.invoke 0 (.getAndSet 1), .step 0, .step 0,
      .invoke 1 (.getAndSet 1), .step 1, .step 1, .respond 1, .respond 0] s ∧
    s.history = [.invoke 0 (.getAndSet 1), .invoke 1 (.getAndSet 1), .respond 1 1, .respond 0 0] ∧
    (∃ l, History.Linearizes AtomicOp.spec 0 s.value s.history l) ∧
      ((∀ i op, .invoke i op ∈ s.history → op = .getAndSet 1) →
        (∃ i r, s.Sees i r) → ∃! i, s.Sees i 0) := by
  obtain ⟨s, hs, hp⟩ := Machine.exists_run_of_exec machine Undisturbed
    (create : SharedAtomic (Fin 2))
    [.invoke 0 (.getAndSet 1), .step 0, .step 0, .invoke 1 (.getAndSet 1), .step 1, .step 1,
      .respond 1, .respond 0]
    (fun s => decide (s.history = [.invoke 0 (.getAndSet 1), .invoke 1 (.getAndSet 1),
      .respond 1 1, .respond 0 0])) (by decide)
  exact ⟨s, hs, of_decide_eq_true hp, linearizable hs⟩

/-- Two calls of `start` load the zero before either stores: both go on. -/
theorem both_start : ∃ s : SharedAtomic (Fin 2),
    machine.Run Machine.Any create [.invoke 0 (.getAndSet 1), .invoke 1 (.getAndSet 1), .step 0,
      .step 1, .step 0, .step 1, .respond 0, .respond 1] s ∧
    .respond 0 0 ∈ s.history ∧ .respond 1 0 ∈ s.history ∧
    ¬ ∃ l w, History.Linearizes AtomicOp.spec 0 w s.history l := by
  obtain ⟨s, hs, hp⟩ := Machine.exists_run_of_exec machine Machine.Any
    (create : SharedAtomic (Fin 2))
    [.invoke 0 (.getAndSet 1), .invoke 1 (.getAndSet 1), .step 0, .step 1, .step 0, .step 1,
      .respond 0, .respond 1]
    (fun s => decide (s.history = [.invoke 0 (.getAndSet 1), .invoke 1 (.getAndSet 1),
      .respond 0 0, .respond 1 0])) (by decide)
  have hhistory := of_decide_eq_true hp
  have hzero : .respond 0 0 ∈ s.history ∧ .respond 1 0 ∈ s.history := by
    rw [hhistory]
    exact ⟨by decide, by decide⟩
  refine ⟨s, hs, hzero.1, hzero.2, fun ⟨l, w, hl⟩ => ?_⟩
  obtain ⟨op, hi⟩ := hl.complete 0 0 hzero.1
  obtain ⟨op', hj⟩ := hl.complete 1 0 hzero.2
  refine absurd (sees_zero_unique hl (fun i op hop => ?_) hi hj) Nat.zero_ne_one
  rw [hhistory] at hop
  have hcases : i = 0 ∧ op = .getAndSet 1 ∨ i = 1 ∧ op = .getAndSet 1 := by simpa using hop
  exact hcases.elim And.right And.right

end SharedAtomic
end MuduoWindows.Base
