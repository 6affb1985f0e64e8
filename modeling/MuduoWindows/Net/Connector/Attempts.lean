import MuduoWindows.Net.Connector.Threads

/-! # Attempts to connect

The invariant names the socket of the attempt that is under way, if there is one. An attempt, a
pending timer, a queued `startInLoop` and a connection form one chain: at most one of them exists.
A channel without an attempt waits for its `resetChannel`, and no timer can fire before that.
-/

namespace MuduoWindows.Net
open Library

namespace Connector

def attempt (fd : ℕ) : Channel :=
  { fd := fd, events := Channel.kWriteEvent, revents := 0, index := .kAdded }

def detached (fd : ℕ) : Channel := { fd := fd, events := 0, revents := 0, index := .kNew }

theorem attempt_isWriting {fd : ℕ} : (attempt fd).isWriting = true := by
  rw [Channel.isWriting_iff]
  change Channel.kWriteEvent &&& Channel.kWriteEvent ≠ 0
  decide

structure Inv (o : Option ℕ) (s : Connector) : Prop where
  state : s.state = .kConnecting ↔ o ≠ none
  attempt : ∀ fd, o = some fd → fd < s.sockets ∧ s.channel = some (attempt fd)
  channels : s.channels = fun fd => if o = some fd then some fd else none
  ledger : ∀ i, s.closed i + s.handed i = if i < s.sockets ∧ o ≠ some i then 1 else 0
  chain : s.queue.all.count .startInLoop + s.timers.length +
    (if s.state = .kDisconnected then 0 else 1) ≤ 1
  reset : s.queue.all.count .resetChannel = if s.channel ≠ none ∧ o = none then 1 else 0
  /-- What is queued before a `startInLoop` is done when it runs. -/
  resetFirst : s.queue.all.Pairwise fun f f' => f = .startInLoop → f' ≠ .resetChannel
  stopFirst : s.connect_ = true →
    s.queue.all.Pairwise fun f f' => f = .startInLoop → f' ≠ .stopInLoop
  stopped : s.connect_ = true → .stopInLoop ∈ s.queue.all → .startInLoop ∈ s.queue.all
  timer : s.timers ≠ [] → s.channel ≠ none → s.pc = .handlers ∨
    s.pc = .functors ∧ .resetChannel ∈ s.queue.functors
  active : s.active ≠ none → o ≠ none ∧ (s.pc = .timers ∨ s.pc = .handlers)
  batch : s.pc ≠ .functors → s.queue.functors = []

/-- Nothing will connect, and no channel is left. -/
structure Clear (s : Connector) : Prop where
  channel : s.channel = none
  timers : s.timers = []
  start : .startInLoop ∉ s.queue.all

/-- Nothing of the connector is under way or left over. -/
structure Free (s : Connector) : Prop extends s.Clear where
  stop : .stopInLoop ∉ s.queue.all

variable {o : Option ℕ} {s : Connector} {fd : ℕ}

theorem create_inv : Inv none create := by
  constructor <;> simp [create]
  rfl

theorem Inv.none_iff (h : Inv o s) : o = none ↔ s.state ≠ .kConnecting := by
  rw [← not_iff_not, not_not, ← ne_eq, h.state]

theorem Inv.unregistered (h : Inv none s) (fd : ℕ) : s.channels fd = none := by
  rw [h.channels]
  exact if_neg nofun

theorem Inv.alone (h : Inv o s) (hs : s.state ≠ .kDisconnected) :
    .startInLoop ∉ s.queue.all ∧ s.timers = [] := by
  have hchain := h.chain
  rw [if_neg hs] at hchain
  constructor
  · apply List.count_eq_zero.mp
    omega
  · apply List.length_eq_zero_iff.mp
    omega

theorem connecting_eq (hchannel : s.channel = none) (hfree : s.channels fd = none) :
    s.connecting fd = .ok { s with
      state := .kConnecting, channel := some (attempt fd)
      channels := Function.update s.channels fd (some fd) } := by
  have hreg : EPollPoller.Registered s.channels fd (Channel.create fd).enableWriting := by
    exact hfree
  have hadded : EPollPoller.indexOf (Channel.create fd).enableWriting = .kAdded := if_neg nofun
  have hevents : (Channel.create fd).enableWriting.events = Channel.kWriteEvent :=
    BitVec.zero_or
  unfold connecting
  dsimp only [setState]
  rw [require_bind hchannel, EPollPoller.updateChannel_eq hreg, ok_bind, pure_eq_ok]
  dsimp only
  rw [hadded, hevents]
  rfl

/-- The connector after `removeAndResetChannel`. -/
def removed (s : Connector) (fd : ℕ) : Connector :=
  { s with channel := some (detached fd), channels := fun _ => none }.queueInLoop .resetChannel

theorem removeAndResetChannel_eq (hchannel : s.channel = some (attempt fd))
    (hmap : s.channels = fun x => if some fd = some x then some x else none) :
    s.removeAndResetChannel = .ok (fd, s.removed fd) := by
  have hreg : EPollPoller.Registered s.channels fd (attempt fd).disableAll := by
    unfold EPollPoller.Registered
    rw [if_neg nofun, hmap]
    exact if_pos rfl
  have hnone : Function.update (Function.update s.channels fd (some fd)) fd none =
      fun _ => none := by
    rw [Function.update_idem, hmap]
    funext x
    by_cases hx : x = fd
    · subst x
      rw [Function.update_self]
    · rw [Function.update_of_ne hx, if_neg (by simpa using Ne.symm hx)]
  have hdeleted : EPollPoller.indexOf (attempt fd).disableAll = .kDeleted := if_pos ⟨rfl, rfl⟩
  have hself : Function.update s.channels fd (some fd) fd = some fd := Function.update_self ..
  unfold removeAndResetChannel
  rw [hchannel]
  dsimp only
  rw [show (attempt fd).fd = fd from rfl, EPollPoller.updateChannel_eq hreg, ok_bind, hdeleted]
  dsimp only
  rw [EPollPoller.removeChannel_eq hself rfl (.inr rfl), ok_bind, pure_eq_ok]
  dsimp only
  rw [show (attempt fd).disableAll.fd = fd from rfl, hnone]
  rfl

theorem ledger_update {a b : ℕ → ℕ} {n i : ℕ} {p : ℕ → Prop} [DecidablePred p]
    (h : ∀ j, a j + b j = if p j then 1 else 0) (hi : ¬ p i) (hn : ∀ j, (p j ∨ j = i) ↔ j < n) :
    ∀ j, Function.update a i (a i + 1) j + b j = if j < n then 1 else 0 := by
  intro j
  have hj := h j
  by_cases hji : j = i
  · subst j
    rw [if_neg hi] at hj
    rw [Function.update_self, if_pos ((hn i).mp (.inr rfl))]
    omega
  · rw [Function.update_of_ne hji, hj]
    exact if_congr ⟨fun hp => (hn j).mp (.inl hp), fun hlt => ((hn j).mpr hlt).resolve_right hji⟩
      rfl rfl

theorem Inv.refused (h : Inv none s) :
    Inv none { s with
      sockets := s.sockets + 1
      closed := Function.update s.closed s.sockets (s.closed s.sockets + 1) } := by
  refine ⟨h.state, nofun, h.channels, fun i => ?_, h.chain, h.reset, h.resetFirst, h.stopFirst,
    h.stopped, h.timer, h.active, h.batch⟩
  have hledger := ledger_update (n := s.sockets + 1) (i := s.sockets) h.ledger
    (fun hc => absurd hc.1 (lt_irrefl _)) (fun j => by simp; omega) i
  simpa using hledger

theorem Inv.connecting (h : Inv none s) (hclear : s.Clear) :
    Inv (some s.sockets) { s with
      sockets := s.sockets + 1, state := .kConnecting, channel := some (Connector.attempt s.sockets)
      channels := Function.update s.channels s.sockets (some s.sockets) } := by
  refine ⟨iff_of_true rfl nofun, ?_, ?_, ?_, ?_, ?_, h.resetFirst, h.stopFirst, h.stopped, ?_, ?_,
    h.batch⟩
  · rintro fd hfd
    obtain rfl := Option.some.inj hfd
    exact ⟨Nat.lt_succ_self _, rfl⟩
  · funext fd
    dsimp only
    rw [h.channels]
    by_cases hfd : fd = s.sockets
    · subst fd
      rw [Function.update_self, if_pos rfl]
    · rw [Function.update_of_ne hfd, if_neg nofun, if_neg (by simpa using Ne.symm hfd)]
  · intro i
    refine (h.ledger i).trans (if_congr ?_ rfl rfl)
    simp
    omega
  · change s.queue.all.count .startInLoop + s.timers.length + 1 ≤ 1
    rw [List.count_eq_zero.mpr hclear.start, hclear.timers]
    exact le_rfl
  · rw [if_neg (by simp)]
    have hreset := h.reset
    rwa [if_neg (by simp [hclear.channel])] at hreset
  · intro htimers
    exact absurd hclear.timers htimers
  · intro hactive
    exact absurd rfl (h.active hactive).1

/-- The attempt on `fd` ends with its channel detached and its socket closed or handed over. -/
theorem Inv.ended (h : Inv (some fd) s) {state : ConnectorState} {closed handed : ℕ → ℕ}
    (hstate : state ≠ .kConnecting) (hactive : s.active = none)
    (hledger : ∀ i, closed i + handed i = if i < s.sockets then 1 else 0) :
    Inv none { s.removed fd with state := state, closed := closed, handed := handed } := by
  have hs : s.state ≠ .kDisconnected := by
    rw [h.state.mpr nofun]
    nofun
  obtain ⟨hstart, htimers⟩ := h.alone hs
  have hall : (s.removed fd).queue.all = s.queue.all ++ [.resetChannel] :=
    FunctorQueue.all_queueInLoop _ _
  have hreset := h.reset
  rw [if_neg (by simp)] at hreset
  refine ⟨iff_of_false hstate (by simp), nofun, ?_, ?_, ?_, ?_, ?_, ?_, ?_,
    fun hne => absurd htimers hne, fun hne => absurd hactive hne, h.batch⟩
  · funext x
    exact (if_neg nofun).symm
  · intro i
    rw [hledger i]
    simp [removed, Connector.queueInLoop]
  · dsimp only
    rw [hall, List.count_append, List.count_eq_zero.mpr hstart]
    change 0 + 0 + s.timers.length + _ ≤ 1
    rw [htimers]
    split_ifs <;> simp
  · dsimp only
    rw [hall, List.count_append, hreset]
    simp [removed, Connector.queueInLoop]
  · dsimp only
    rw [hall, List.pairwise_append]
    refine ⟨h.resetFirst, List.pairwise_singleton _ _, ?_⟩
    rintro f hf - - rfl
    exact absurd hf hstart
  · intro hc
    dsimp only
    rw [hall, List.pairwise_append]
    refine ⟨h.stopFirst hc, List.pairwise_singleton _ _, ?_⟩
    rintro f hf - - rfl
    exact absurd hf hstart
  · intro hc hstop
    dsimp only at hstop ⊢
    rw [hall, List.mem_append] at hstop ⊢
    refine .inl (h.stopped hc (hstop.resolve_right ?_))
    simp

theorem Inv.settle (h : Inv (some fd) s) : ∀ i,
    Function.update s.closed fd (s.closed fd + 1) i + s.handed i =
      (if i < s.sockets then 1 else 0) ∧
    s.closed i + Function.update s.handed fd (s.handed fd + 1) i =
      if i < s.sockets then 1 else 0 := by
  have hfd := (h.attempt fd rfl).1
  have hn : ∀ j, (j < s.sockets ∧ some fd ≠ some j ∨ j = fd) ↔ j < s.sockets := by
    intro j
    by_cases hj : j = fd
    · subst j
      exact iff_of_true (.inr rfl) hfd
    · simp [hj, Ne.symm hj]
  have hledger : ∀ i, s.handed i + s.closed i = if i < s.sockets ∧ some fd ≠ some i then 1 else 0 :=
    fun i => (Nat.add_comm _ _).trans (h.ledger i)
  intro i
  refine ⟨ledger_update h.ledger (by simp) hn i, ?_⟩
  rw [Nat.add_comm]
  exact ledger_update hledger (by simp) hn i

theorem Inv.removeAndResetChannel_eq (h : Inv (some fd) s) :
    s.removeAndResetChannel = .ok (fd, s.removed fd) :=
  Connector.removeAndResetChannel_eq (h.attempt fd rfl).2 h.channels

variable {t : Connector}

theorem Inv.pop (h : Inv o s) (hpc : s.pc = .functors) {f : ConnectorFunctor}
    {rest : List ConnectorFunctor} (hq : s.queue.functors = f :: rest) (hf : f ≠ .resetChannel) :
    Inv o { s with queue := { s.queue with functors := rest } } := by
  have hall := FunctorQueue.all_cons hq
  have hchain := h.chain
  have hreset := h.reset
  have hfirst := h.resetFirst
  have hstop := h.stopFirst
  have hstopped := h.stopped
  rw [hall] at hchain hreset hfirst hstop hstopped
  rw [List.count_cons] at hchain
  rw [List.count_cons_of_ne hf] at hreset
  rw [List.pairwise_cons] at hfirst
  simp only [List.pairwise_cons] at hstop
  refine ⟨h.state, h.attempt, h.channels, h.ledger, ?_, hreset, hfirst.2, fun hc => (hstop hc).2,
    ?_, ?_, h.active, fun hne => absurd hpc hne⟩
  · dsimp only
    omega
  · intro hc hmem
    -- a `startInLoop` that is taken has no `stopInLoop` behind it
    have hstart := hstopped hc (List.mem_cons_of_mem _ hmem)
    rcases List.mem_cons.mp hstart with heq | hstart
    · exact absurd rfl ((hstop hc).1 _ hmem heq.symm)
    · exact hstart
  · intro htimers hchannel
    rcases h.timer htimers hchannel with hhandlers | ⟨-, hmem⟩
    · rw [hpc] at hhandlers
      cases hhandlers
    · rw [hq] at hmem
      exact .inr ⟨hpc, (List.mem_cons.mp hmem).resolve_left hf.symm⟩

/-- When a `startInLoop` is taken that is to connect, the connector is free. -/
theorem Inv.pop_start (h : Inv o s) {rest : List ConnectorFunctor}
    (hq : s.queue.functors = .startInLoop :: rest) :
    s.state = .kDisconnected ∧ (s.connect_ = true →
      Free { s with queue := { s.queue with functors := rest } }) := by
  have hall := FunctorQueue.all_cons hq
  have hchain := h.chain
  rw [hall, List.count_cons_self] at hchain
  have hs : s.state = .kDisconnected := by
    by_contra hs
    rw [if_neg hs] at hchain
    omega
  have hone : o = none := h.none_iff.mpr (by rw [hs]; nofun)
  refine ⟨hs, fun hc => ⟨⟨?_, ?_, ?_⟩, ?_⟩⟩
  · by_contra hchannel
    have hreset := h.reset
    have hfirst := h.resetFirst
    rw [hall, List.pairwise_cons] at hfirst
    rw [if_pos ⟨hchannel, hone⟩, hall,
      List.count_cons_of_ne (a := ConnectorFunctor.resetChannel)
        (b := ConnectorFunctor.startInLoop) nofun] at hreset
    have hmem := List.count_pos_iff.mp (hreset ▸ Nat.one_pos)
    exact hfirst.1 _ hmem rfl rfl
  · apply List.length_eq_zero_iff.mp
    change s.timers.length = 0
    omega
  · apply List.count_eq_zero.mp
    change (FunctorQueue.all ⟨s.queue.pendingFunctors, rest⟩).count _ = 0
    omega
  · intro hmem
    have hstop := h.stopFirst hc
    rw [hall, List.pairwise_cons] at hstop
    exact hstop.1 _ hmem rfl rfl

theorem resetChannel_eq (h : ∀ fd, s.channels fd = none) :
    s.resetChannel = .ok { s with channel := none } := by
  unfold resetChannel
  cases hchannel : s.channel with
  | none =>
    have hsame : { s with channel := none } = s := by rw [← hchannel]
    rw [hsame]
    rfl
  | some c =>
    have hfree : s.channels c.fd ≠ some c.fd := by
      rw [h]
      nofun
    dsimp only
    rw [require_bind hfree, pure_eq_ok]

theorem Inv.popReset (h : Inv o s) (hpc : s.pc = .functors) {rest : List ConnectorFunctor}
    (hq : s.queue.functors = .resetChannel :: rest) :
    Inv none { s with queue := { s.queue with functors := rest }, channel := none } := by
  have hall := FunctorQueue.all_cons hq
  have hchain := h.chain
  have hreset := h.reset
  have hfirst := h.resetFirst
  have hstop := h.stopFirst
  have hstopped := h.stopped
  rw [hall] at hchain hreset hfirst hstop hstopped
  rw [List.count_cons_of_ne (a := ConnectorFunctor.startInLoop)
    (b := ConnectorFunctor.resetChannel) nofun] at hchain
  rw [List.count_cons_self] at hreset
  rw [List.pairwise_cons] at hfirst
  simp only [List.pairwise_cons] at hstop
  obtain ⟨hchannel, rfl⟩ : s.channel ≠ none ∧ o = none := by
    by_contra hne
    rw [if_neg hne] at hreset
    omega
  rw [if_pos ⟨hchannel, rfl⟩] at hreset
  refine ⟨h.state, nofun, h.channels, h.ledger, hchain, ?_, hfirst.2, fun hc => (hstop hc).2, ?_,
    ?_, h.active, fun hne => absurd hpc hne⟩
  · rw [if_neg (by simp)]
    dsimp only
    omega
  · intro hc hmem
    exact (List.mem_cons.mp (hstopped hc (List.mem_cons_of_mem _ hmem))).resolve_left nofun
  · intro _ hne
    exact absurd rfl hne

theorem Inv.allow (h : Inv none s) (hfree : s.Free) (retryDelayMs : ℕ) :
    Inv none { s with
      state := .kDisconnected, retryDelayMs := retryDelayMs, connect_ := true } := by
  refine ⟨by simp, nofun, h.channels, h.ledger, ?_, h.reset, h.resetFirst, fun _ => ?_, ?_, h.timer,
    h.active, h.batch⟩
  · change s.queue.all.count .startInLoop + s.timers.length + 0 ≤ 1
    rw [List.count_eq_zero.mpr hfree.start, hfree.timers]
    exact Nat.zero_le 1
  · apply List.pairwise_of_forall_mem_list
    rintro f hf - - rfl
    exact absurd hf hfree.start
  · intro _ hmem
    exact absurd hmem hfree.stop

theorem Inv.forbid (h : Inv o s) : Inv o { s with connect_ := false } :=
  ⟨h.state, h.attempt, h.channels, h.ledger, h.chain, h.reset, h.resetFirst, nofun, nofun, h.timer,
    h.active, h.batch⟩

theorem Inv.queueStop (h : Inv o s) (hconnect : s.connect_ = false) :
    Inv o (s.queueInLoop .stopInLoop) := by
  have hall : (s.queueInLoop .stopInLoop).queue.all = s.queue.all ++ [.stopInLoop] :=
    FunctorQueue.all_queueInLoop _ _
  refine ⟨h.state, h.attempt, h.channels, h.ledger, ?_, ?_, ?_, fun hc => ?_, fun hc => ?_, ?_,
    h.active, h.batch⟩
  · rw [hall, List.count_append]
    exact h.chain
  · rw [hall, List.count_append]
    exact h.reset
  · rw [hall, List.pairwise_append]
    refine ⟨h.resetFirst, List.pairwise_singleton _ _, ?_⟩
    rintro f - f' hf' -
    rw [List.mem_singleton.mp hf']
    nofun
  · exact absurd (hconnect.symm.trans hc) Bool.false_ne_true
  · exact absurd (hconnect.symm.trans hc) Bool.false_ne_true
  · exact h.timer

theorem Inv.queueStart (h : Inv none { s with connect_ := false }) (hs : s.state = .kDisconnected)
    (htimers : s.timers = []) (hstart : .startInLoop ∉ s.queue.all) :
    Inv none (s.queueInLoop .startInLoop) := by
  have hall : (s.queueInLoop .startInLoop).queue.all = s.queue.all ++ [.startInLoop] :=
    FunctorQueue.all_queueInLoop _ _
  refine ⟨h.state, h.attempt, h.channels, h.ledger, ?_, ?_, ?_, fun _ => ?_, fun _ _ => ?_, h.timer,
    h.active, h.batch⟩
  · rw [hall, List.count_append, List.count_eq_zero.mpr hstart]
    change 0 + 1 + s.timers.length + (if s.state = _ then 0 else 1) ≤ 1
    rw [htimers, if_pos hs]
    exact le_rfl
  · rw [hall, List.count_append]
    exact h.reset
  · rw [hall, List.pairwise_append]
    refine ⟨h.resetFirst, List.pairwise_singleton _ _, ?_⟩
    rintro f hf - - rfl
    exact absurd hf hstart
  · rw [hall, List.pairwise_append]
    refine ⟨?_, List.pairwise_singleton _ _, ?_⟩
    · apply List.pairwise_of_forall_mem_list
      rintro f hf - - rfl
      exact absurd hf hstart
    · rintro f hf - - rfl
      exact absurd hf hstart
  · rw [hall]
    exact List.mem_append_right _ (List.mem_singleton.mpr rfl)

theorem Inv.fire (h : Inv o s) (hpc : s.pc = .timers) {i : ℕ} (hi : i < s.timers.length) :
    Inv none { s with timers := s.timers.eraseIdx i } ∧ s.state = .kDisconnected ∧
      (s.connect_ = true → Free { s with timers := s.timers.eraseIdx i }) := by
  have hchain := h.chain
  have hs : s.state = .kDisconnected := by
    by_contra hs
    rw [if_neg hs] at hchain
    omega
  have hnone : s.timers.eraseIdx i = [] := by
    apply List.length_eq_zero_iff.mp
    rw [List.length_eraseIdx_of_lt hi]
    omega
  have hstart : .startInLoop ∉ s.queue.all := by
    apply List.count_eq_zero.mp
    omega
  have hchannel : s.channel = none := by
    by_contra hchannel
    have htimers : s.timers ≠ [] := List.length_pos_iff.mp (by omega)
    rcases h.timer htimers hchannel with hpc' | ⟨hpc', -⟩ <;> rw [hpc] at hpc' <;> cases hpc'
  obtain rfl : o = none := h.none_iff.mpr (by rw [hs]; nofun)
  refine ⟨⟨h.state, h.attempt, h.channels, h.ledger, ?_, h.reset, h.resetFirst, h.stopFirst,
    h.stopped, fun hne => absurd hnone hne, h.active, h.batch⟩, hs, fun hc =>
      ⟨⟨hchannel, hnone, hstart⟩, fun hstop => hstart (h.stopped hc hstop)⟩⟩
  dsimp only
  rw [hnone, List.length_nil]
  omega

theorem Inv.runAfter (h : Inv none s) (hs : s.state = .kDisconnected) (htimers : s.timers = [])
    (hstart : .startInLoop ∉ s.queue.all) (hpc : s.channel = none ∨ s.pc = .handlers)
    {delay retryDelayMs : ℕ} :
    Inv none { s with timers := s.timers ++ [delay], retryDelayMs := retryDelayMs } := by
  refine ⟨h.state, nofun, h.channels, h.ledger, ?_, h.reset, h.resetFirst, h.stopFirst, h.stopped,
    fun _ hchannel => .inl (hpc.resolve_left hchannel), h.active, h.batch⟩
  change s.queue.all.count .startInLoop + (s.timers ++ [delay]).length +
    (if s.state = _ then 0 else 1) ≤ 1
  rw [List.count_eq_zero.mpr hstart, htimers, if_pos hs]
  exact le_rfl

theorem Inv.goOn (h : Inv o s) {pc : LoopPc} {active : Option Events}
    (hactive : active ≠ none → o ≠ none ∧ (pc = .timers ∨ pc = .handlers))
    (hbatch : s.queue.functors = []) (htimer : pc = .handlers ∨ s.pc ≠ .handlers) :
    Inv o { s with pc := pc, active := active } := by
  refine ⟨h.state, h.attempt, h.channels, h.ledger, h.chain, h.reset, h.resetFirst, h.stopFirst,
    h.stopped, ?_, hactive, fun _ => hbatch⟩
  intro htimers hchannel
  rcases htimer with hpc | hpc
  · exact .inl hpc
  · rcases h.timer htimers hchannel with hhandlers | ⟨-, hmem⟩
    · exact absurd hhandlers hpc
    · rw [hbatch] at hmem
      exact absurd hmem List.not_mem_nil

theorem Inv.swap (h : Inv o s) (hpc : s.pc = .handlers) (hactive : s.active = none) :
    Inv o { s with pc := .functors, queue := s.queue.swap } := by
  have hbatch := h.batch (by rw [hpc]; nofun)
  have hall := FunctorQueue.all_swap hbatch
  refine ⟨h.state, h.attempt, h.channels, h.ledger, hall ▸ h.chain, hall ▸ h.reset,
    hall ▸ h.resetFirst, hall ▸ h.stopFirst, hall ▸ h.stopped, ?_,
    fun hne => absurd hactive hne, fun hne => absurd rfl hne⟩
  intro htimers hchannel
  have hone : o = none := by
    refine h.none_iff.mpr fun hs => htimers (h.alone ?_).2
    rw [hs]
    nofun
  have hreset := h.reset
  rw [if_pos ⟨hchannel, hone⟩, ← hall] at hreset
  have hmem := List.count_pos_iff.mp (hreset ▸ Nat.one_pos)
  unfold FunctorQueue.all at hmem
  rw [show s.queue.swap.pendingFunctors = [] from rfl, List.append_nil] at hmem
  exact .inr ⟨rfl, hmem⟩

theorem Inv.goesOn (h : Inv o s) {e : Event} (hgoes : ConnectorThreads.GoesOn e)
    (he : machine.enabled s e) : ∃ t, machine.step s e = .ok t ∧ Inv o t := by
  cases e with
  | loop =>
    change s.pc = .outside at he
    refine ⟨_, rfl, h.goOn ?_ (h.batch (by rw [he]; nofun)) (.inr (by rw [he]; nofun))⟩
    intro hactive
    rcases (h.active hactive).2 with hpc | hpc <;> rw [he] at hpc <;> cases hpc
  | polled revents =>
    obtain ⟨hpc, hregistered⟩ := he
    refine ⟨_, rfl, h.goOn ?_ (h.batch (by rw [hpc]; nofun)) (.inr (by rw [hpc]; nofun))⟩
    intro hrevents
    obtain ⟨c, -, hc⟩ := hregistered hrevents
    refine ⟨?_, .inl rfl⟩
    rintro rfl
    rw [h.channels] at hc
    cases hc
  | timersDone =>
    change s.pc = .timers at he
    exact ⟨_, rfl, h.goOn (fun hactive => ⟨(h.active hactive).1, .inr rfl⟩)
      (h.batch (by rw [he]; nofun)) (.inl rfl)⟩
  | swap => exact ⟨_, rfl, h.swap he.1 he.2⟩
  | functorsDone =>
    refine ⟨_, rfl, h.goOn ?_ he.2 (.inr (by rw [he.1]; nofun))⟩
    intro hactive
    rcases (h.active hactive).2 with hpc | hpc <;> rw [he.1] at hpc <;> cases hpc
  | start | restart | stop | timer | handleEvent | call => exact hgoes.elim

/-- The channel is in the poller with an interest in writing. -/
def WritingChannel (s : Connector) (fd : ℕ) : Prop :=
  ∃ c, s.channel = some c ∧ c.fd = fd ∧ s.channels fd = some fd ∧ c.index = .kAdded ∧
    c.isWriting = true

/-- The socket has been neither closed nor handed over. -/
def Opened (s : Connector) (fd : ℕ) : Prop :=
  fd < s.sockets ∧ s.closed fd = 0 ∧ s.handed fd = 0

theorem Inv.writingChannel (h : Inv o s) : s.WritingChannel fd ↔ o = some fd := by
  constructor
  · rintro ⟨c, -, -, hc, -⟩
    rw [h.channels] at hc
    by_contra hne
    exact absurd (hc.symm.trans (if_neg hne)) nofun
  · intro hfd
    refine ⟨_, (h.attempt fd hfd).2, rfl, ?_, rfl, attempt_isWriting⟩
    rw [h.channels]
    exact if_pos hfd

theorem Inv.opened (h : Inv o s) : s.Opened fd ↔ o = some fd := by
  have hledger := h.ledger fd
  constructor
  · rintro ⟨hlt, hclosed, hhanded⟩
    by_contra hne
    rw [if_pos ⟨hlt, hne⟩] at hledger
    omega
  · intro hfd
    rw [if_neg (by simp [hfd])] at hledger
    exact ⟨(h.attempt fd hfd).1, by omega, by omega⟩

/-- An attempt has failed and no other one is to come yet. -/
structure Retries (s : Connector) : Prop where
  state : s.state = .kDisconnected
  timers : s.timers = []
  start : .startInLoop ∉ s.queue.all

/-- What holds of the connector while a function on the loop's thread stands at a pause. -/
def Paused (s : Connector) : Option Pause → Prop
  | none => ∃ o, Inv o s
  | some (.startInLoop _) => Inv none s ∧ s.state = .kDisconnected ∧ (s.connect_ = true → s.Free)
  | some (.connect _) => Inv none s ∧ s.state = .kDisconnected ∧ s.Clear
  | some .retry => Inv none s ∧ s.Retries ∧
      (s.connect_ = true → s.channel = none ∨ s.pc = .handlers)
  | some .runAfter => Inv none s ∧ s.Retries ∧ (s.channel = none ∨ s.pc = .handlers)
  | some (.handleWrite fd) | some (.newConnectionCallback fd) =>
    Inv none (s.close fd) ∧ Inv none (s.newConnectionCallback fd)

theorem Paused.forbid {pause : Option Pause} (h : s.Paused pause) :
    Paused { s with connect_ := false } pause := by
  cases pause with
  | none =>
    obtain ⟨o, h⟩ := h
    exact ⟨o, h.forbid⟩
  | some pause =>
    cases pause with
    | startInLoop => exact ⟨h.1.forbid, h.2.1, nofun⟩
    | connect => exact ⟨h.1.forbid, h.2.1, ⟨h.2.2.channel, h.2.2.timers, h.2.2.start⟩⟩
    | retry => exact ⟨h.1.forbid, ⟨h.2.1.state, h.2.1.timers, h.2.1.start⟩, nofun⟩
    | runAfter => exact ⟨h.1.forbid, ⟨h.2.1.state, h.2.1.timers, h.2.1.start⟩, h.2.2⟩
    | handleWrite | newConnectionCallback => exact ⟨h.1.forbid, h.2.forbid⟩

theorem Paused.queueStop {pause : Option Pause} (h : s.Paused pause)
    (hconnect : s.connect_ = false) : Paused (s.queueInLoop .stopInLoop) pause := by
  have hstart (hs : .startInLoop ∉ s.queue.all) :
      .startInLoop ∉ (s.queueInLoop .stopInLoop).queue.all := by
    rw [show (s.queueInLoop .stopInLoop).queue.all = s.queue.all ++ [.stopInLoop] from
      FunctorQueue.all_queueInLoop _ _]
    simpa using hs
  have hoff {p : Prop} (hc : s.connect_ = true) : p :=
    absurd (hconnect.symm.trans hc) Bool.false_ne_true
  cases pause with
  | none =>
    obtain ⟨o, h⟩ := h
    exact ⟨o, h.queueStop hconnect⟩
  | some pause =>
    cases pause with
    | startInLoop => exact ⟨h.1.queueStop hconnect, h.2.1, hoff⟩
    | connect =>
      exact ⟨h.1.queueStop hconnect, h.2.1, ⟨h.2.2.channel, h.2.2.timers, hstart h.2.2.start⟩⟩
    | retry =>
      exact ⟨h.1.queueStop hconnect, ⟨h.2.1.state, h.2.1.timers, hstart h.2.1.start⟩, hoff⟩
    | runAfter =>
      exact ⟨h.1.queueStop hconnect, ⟨h.2.1.state, h.2.1.timers, hstart h.2.1.start⟩, h.2.2⟩
    | handleWrite | newConnectionCallback =>
      exact ⟨h.1.queueStop hconnect, h.2.queueStop hconnect⟩

end Connector
end MuduoWindows.Net
