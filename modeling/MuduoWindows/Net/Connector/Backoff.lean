import MuduoWindows.Library.Backoff
import MuduoWindows.Net.Connector.Handing

/-! # The retries of a connector

`retry` arms a timer with the delay that is due and doubles the delay; only `restart` takes it back
to the first one. An attempt that fails with an error of the last group of `connect` is given up
without a retry.
-/

namespace MuduoWindows.Net
open Library

/-- The errors behind which `connect` closes the socket and leaves it at that. -/
def ConnectErrno.abandons : ConnectErrno → Bool
  | .EACCES | .EPERM | .EAFNOSUPPORT | .EALREADY | .EBADF | .EFAULT | .ENOTSOCK | .unexpected =>
    true
  | .ok | .EINPROGRESS | .WSAEINTR | .EISCONN | .WSAEWOULDBLOCK | .EAGAIN | .EADDRINUSE
  | .EADDRNOTAVAIL | .ECONNREFUSED | .ENETUNREACH => false

namespace Connector

/-- The `savedErrno` of an attempt made in the step. -/
def Event.savedErrno : Event → ConnectErrno
  | .start _ savedErrno | .restart savedErrno | .timer _ savedErrno | .call savedErrno => savedErrno
  | .stop | .loop | .polled _ | .timersDone | .handleEvent _ _ | .swap | .functorsDone => .ok

/-- A connector that is to connect and has no attempt under way waits for a timer or a functor. -/
def Awaits (s : Connector) : Prop :=
  s.connect_ = true → s.state = .kDisconnected → s.timers ≠ [] ∨ .startInLoop ∈ s.queue.all

/-- At most one retry is armed, with the delay that is due. -/
structure Armed (s t : Connector) : Prop where
  connect_ : t.connect_ = s.connect_
  pc : t.pc = s.pc
  functors : t.queue.functors = s.queue.functors
  start : .startInLoop ∈ s.queue.all → .startInLoop ∈ t.queue.all
  timers : t.timers = s.timers ∧ t.retryDelayMs = s.retryDelayMs ∨
    t.timers = s.timers ++ [s.retryDelayMs] ∧
      t.retryDelayMs = min (s.retryDelayMs * 2) kMaxRetryDelayMs

/-- A function that starts no attempt. -/
structure Settles (s t : Connector) : Prop extends Armed s t where
  sockets : t.sockets = s.sockets
  awaits : s.Awaits → t.Awaits

variable {s t u : Connector} {fd : ℕ} {savedErrno : ConnectErrno}

theorem Armed.refl : Armed s s := ⟨rfl, rfl, rfl, id, .inl ⟨rfl, rfl⟩⟩

theorem Settles.refl : Settles s s := ⟨.refl, rfl, id⟩

theorem retry_armed (s : Connector) (fd : ℕ) :
    Armed s (s.retry fd) ∧ (s.retry fd).sockets = s.sockets ∧
      (s.retry fd).state = .kDisconnected ∧ (s.retry fd).Awaits := by
  unfold retry Awaits
  dsimp only
  by_cases hc : s.connect_ = true
  · rw [if_pos (by exact hc)]
    refine ⟨⟨rfl, rfl, rfl, id, .inr ⟨rfl, rfl⟩⟩, rfl, rfl, fun _ _ => .inl ?_⟩
    exact List.append_ne_nil_of_right_ne_nil _ (List.cons_ne_nil _ _)
  · rw [if_neg (by exact hc)]
    exact ⟨⟨rfl, rfl, rfl, id, .inl ⟨rfl, rfl⟩⟩, rfl, rfl, fun h => absurd h hc⟩

theorem removeAndResetChannel_plain (h : s.removeAndResetChannel = .ok (fd, t)) :
    Armed s t ∧ t.timers = s.timers ∧ t.retryDelayMs = s.retryDelayMs ∧
      t.sockets = s.sockets := by
  unfold removeAndResetChannel at h
  cases hchannel : s.channel with
  | none =>
    rw [hchannel] at h
    cases h
  | some ch =>
    rw [hchannel] at h
    obtain ⟨u, -, h⟩ := bind_eq_ok.mp h
    obtain ⟨r, -, h⟩ := bind_eq_ok.mp h
    obtain ⟨rfl, rfl⟩ := Prod.mk.inj (Except.ok.inj h)
    refine ⟨⟨rfl, rfl, rfl, fun hmem => ?_, .inl ⟨rfl, rfl⟩⟩, rfl, rfl, rfl⟩
    change _ ∈ (s.queue.queueInLoop .resetChannel).all
    rw [FunctorQueue.all_queueInLoop]
    exact List.mem_append_left _ hmem

theorem retry_settles (h : Armed s t) (htimers : t.timers = s.timers)
    (hdelay : t.retryDelayMs = s.retryDelayMs) (hsockets : t.sockets = s.sockets) :
    Settles s (t.retry fd) := by
  obtain ⟨hr, hrs, -, hawaits⟩ := retry_armed t fd
  refine ⟨⟨hr.connect_.trans h.connect_, hr.pc.trans h.pc, hr.functors.trans h.functors,
    hr.start ∘ h.start, ?_⟩, hrs.trans hsockets, fun _ => hawaits⟩
  rw [← htimers, ← hdelay]
  exact hr.timers

theorem connect_attempts (h : s.connect savedErrno = .ok t) :
    Armed s t ∧ t.sockets = s.sockets + 1 ∧ (savedErrno.abandons = false → t.Awaits) := by
  have hnext : Armed s { s with sockets := s.sockets + 1 } :=
    ⟨rfl, rfl, rfl, id, .inl ⟨rfl, rfl⟩⟩
  have hconnecting : ∀ {v}, ({ s with sockets := s.sockets + 1 } : Connector).connecting s.sockets =
      .ok v → Armed s v ∧ v.sockets = s.sockets + 1 ∧ (savedErrno.abandons = false → v.Awaits) := by
    intro v hv
    unfold connecting at hv
    obtain ⟨-, hv⟩ := require_bind_eq_ok.mp hv
    obtain ⟨u, -, hv⟩ := bind_eq_ok.mp hv
    obtain rfl := Except.ok.inj hv
    exact ⟨⟨rfl, rfl, rfl, id, .inl ⟨rfl, rfl⟩⟩, rfl, fun _ _ hs => by cases hs⟩
  have hretry := retry_armed { s with sockets := s.sockets + 1 } s.sockets
  unfold connect at h
  cases savedErrno with
  | ok | EINPROGRESS | WSAEINTR | EISCONN | WSAEWOULDBLOCK => exact hconnecting h
  | EAGAIN | EADDRINUSE | EADDRNOTAVAIL | ECONNREFUSED | ENETUNREACH =>
    obtain rfl := Except.ok.inj h
    obtain ⟨harmed, hsockets, -, hawaits⟩ := hretry
    exact ⟨⟨harmed.connect_, harmed.pc, harmed.functors, harmed.start, harmed.timers⟩, hsockets,
      fun _ => hawaits⟩
  | EACCES | EPERM | EAFNOSUPPORT | EALREADY | EBADF | EFAULT | ENOTSOCK | unexpected =>
    obtain rfl := Except.ok.inj h
    exact ⟨⟨rfl, rfl, rfl, id, .inl ⟨rfl, rfl⟩⟩, rfl, nofun⟩

theorem startInLoop_attempts (h : s.startInLoop savedErrno = .ok t) : Armed s t ∧
    (t = s ∧ s.connect_ = false ∨
      t.sockets = s.sockets + 1 ∧ (savedErrno.abandons = false → t.Awaits)) := by
  unfold startInLoop at h
  obtain ⟨-, h⟩ := require_bind_eq_ok.mp h
  split_ifs at h with hc
  · obtain ⟨harmed, hattempt⟩ := connect_attempts h
    exact ⟨harmed, .inr hattempt⟩
  · obtain rfl := Except.ok.inj h
    exact ⟨.refl, .inl ⟨rfl, Bool.eq_false_iff.mpr hc⟩⟩

theorem stopInLoop_settles (h : s.stopInLoop = .ok t) : Settles s t := by
  unfold stopInLoop at h
  split_ifs at h
  · obtain ⟨⟨fd, u⟩, hremove, h⟩ := bind_eq_ok.mp h
    obtain rfl := Except.ok.inj h
    obtain ⟨harmed, htimers, hdelay, hsockets⟩ := removeAndResetChannel_plain hremove
    exact retry_settles ⟨harmed.connect_, harmed.pc, harmed.functors, harmed.start, harmed.timers⟩
      htimers hdelay hsockets
  · exact Except.ok.inj h ▸ .refl

theorem resetChannel_settles (h : s.resetChannel = .ok t) : Settles s t := by
  unfold resetChannel at h
  cases hchannel : s.channel with
  | none =>
    rw [hchannel] at h
    exact Except.ok.inj h ▸ .refl
  | some ch =>
    rw [hchannel] at h
    obtain ⟨-, h⟩ := require_bind_eq_ok.mp h
    exact Except.ok.inj h ▸ ⟨⟨rfl, rfl, rfl, id, .inl ⟨rfl, rfl⟩⟩, rfl, id⟩

theorem handleError_settles (h : s.handleError = .ok t) :
    Settles s t ∧ (s.state = .kConnecting → t.state ≠ .kConnecting) := by
  unfold handleError at h
  split_ifs at h with hs
  · obtain ⟨⟨fd, u⟩, hremove, h⟩ := bind_eq_ok.mp h
    obtain rfl := Except.ok.inj h
    obtain ⟨harmed, htimers, hdelay, hsockets⟩ := removeAndResetChannel_plain hremove
    refine ⟨retry_settles harmed htimers hdelay hsockets, fun _ => ?_⟩
    rw [(retry_armed u fd).2.2.1]
    nofun
  · exact Except.ok.inj h ▸ ⟨.refl, fun hc => absurd hc hs⟩

theorem handleWrite_settles {err isSelfConnect : Bool}
    (h : s.handleWrite err isSelfConnect = .ok t) :
    Settles s t ∧ (s.state = .kConnecting → t.state ≠ .kConnecting) := by
  unfold handleWrite at h
  by_cases hs : s.state = .kConnecting
  · rw [if_pos hs] at h
    obtain ⟨⟨fd, u⟩, hremove, h⟩ := bind_eq_ok.mp h
    obtain ⟨harmed, htimers, hdelay, hsockets⟩ := removeAndResetChannel_plain hremove
    have hretry : Settles s (u.retry fd) ∧ (s.state = .kConnecting →
        (u.retry fd).state ≠ .kConnecting) := by
      refine ⟨retry_settles harmed htimers hdelay hsockets, fun _ => ?_⟩
      rw [(retry_armed u fd).2.2.1]
      nofun
    have hconnected : ∀ {v : Connector}, Armed u v → v.timers = u.timers →
        v.retryDelayMs = u.retryDelayMs → v.sockets = u.sockets → v.state = .kConnected →
        Settles s v ∧ (s.state = .kConnecting → v.state ≠ .kConnecting) := by
      intro v hv hvt hvd hvs hstate
      refine ⟨⟨⟨hv.connect_.trans harmed.connect_, hv.pc.trans harmed.pc,
        hv.functors.trans harmed.functors, hv.start ∘ harmed.start,
        .inl ⟨hvt.trans htimers, hvd.trans hdelay⟩⟩, hvs.trans hsockets, fun _ _ hd => ?_⟩,
        fun _ => by rw [hstate]; nofun⟩
      cases hstate.symm.trans hd
    dsimp only at h
    split_ifs at h
    · exact Except.ok.inj h ▸ hretry
    · exact Except.ok.inj h ▸ hretry
    · exact Except.ok.inj h ▸ hconnected ⟨rfl, rfl, rfl, id, .inl ⟨rfl, rfl⟩⟩ rfl rfl rfl rfl
    · exact Except.ok.inj h ▸ hconnected ⟨rfl, rfl, rfl, id, .inl ⟨rfl, rfl⟩⟩ rfl rfl rfl rfl
  · rw [if_neg hs] at h
    obtain ⟨-, h⟩ := require_bind_eq_ok.mp h
    exact Except.ok.inj h ▸ ⟨.refl, fun hc => absurd hc hs⟩

theorem runCallbacks_settles {err isSelfConnect : Bool} {callbacks : List Channel.Callback}
    (h : callbacks.foldlM (runCallback err isSelfConnect) s = .ok t) : Settles s t := by
  induction callbacks generalizing s with
  | nil => exact Except.ok.inj h ▸ .refl
  | cons callback callbacks ih =>
    rw [List.foldlM_cons] at h
    obtain ⟨u, hu, hrest⟩ := bind_eq_ok.mp h
    have hfirst : u = s ∨ Settles s u ∧ (s.state = .kConnecting → u.state ≠ .kConnecting) := by
      cases callback with
      | write => exact .inr (handleWrite_settles hu)
      | error => exact .inr (handleError_settles hu)
      | close | read => exact .inl (Except.ok.inj hu).symm
    rcases hfirst with hsame | ⟨hsettles, hends⟩
    · exact ih (hsame ▸ hrest)
    · by_cases hs : s.state = .kConnecting
      · exact runCallbacks_rest (hends hs) hrest ▸ hsettles
      · have hall : (callback :: callbacks).foldlM (runCallback err isSelfConnect) s = .ok t := by
          rw [List.foldlM_cons, hu]
          exact hrest
        exact runCallbacks_rest hs hall ▸ .refl

/-- The timers that are still pending when the step arms its own. -/
def left (s : Connector) : Event → List ℕ
  | .timer i _ => s.timers.eraseIdx i
  | .start _ _ | .restart _ | .stop | .loop | .polled _ | .timersDone | .handleEvent _ _ | .swap
  | .call _ | .functorsDone => s.timers

def due (s : Connector) : Event → ℕ
  | .restart _ => kInitRetryDelayMs
  | .start _ _ | .stop | .loop | .polled _ | .timer _ _ | .timersDone | .handleEvent _ _ | .swap
  | .call _ | .functorsDone => s.retryDelayMs

/-- Functors are taken only while the loop calls them. -/
def Taken (s : Connector) : Prop := s.pc ≠ .functors → s.queue.functors = []

/-- What a step does to the retries. -/
structure Plans (s t : Connector) (e : Event) : Prop where
  armed : ∃ s₀, Armed s₀ t ∧ s₀.timers = s.left e ∧ s₀.retryDelayMs = s.due e
  taken : t.Taken
  settled : t.sockets ≤ s.sockets → s.Awaits → t.Awaits
  attempted : s.sockets < t.sockets → e.savedErrno.abandons = false → t.Awaits

theorem Armed.taken (h : Armed s t) (k : s.Taken) : t.Taken := by
  unfold Taken
  rw [h.pc, h.functors]
  exact k

theorem Plans.quiet {e : Event} (htimers : t.timers = s.left e) (hdelay : t.retryDelayMs = s.due e)
    (htaken : t.Taken) (hsockets : t.sockets = s.sockets) (hawaits : s.Awaits → t.Awaits) :
    Plans s t e :=
  ⟨⟨t, .refl, htimers, hdelay⟩, htaken, fun _ => hawaits,
    fun hlt => absurd hsockets hlt.ne'⟩

theorem Plans.settles {e : Event} (h : Settles u t) (htimers : u.timers = s.left e)
    (hdelay : u.retryDelayMs = s.due e) (htaken : u.Taken) (hsockets : u.sockets = s.sockets)
    (hawaits : s.Awaits → u.Awaits) : Plans s t e :=
  ⟨⟨u, h.toArmed, htimers, hdelay⟩, h.toArmed.taken htaken, fun _ => h.awaits ∘ hawaits,
    fun hlt => absurd (h.sockets.trans hsockets) hlt.ne'⟩

theorem Plans.starts {e : Event} (h : u.startInLoop e.savedErrno = .ok t)
    (htimers : u.timers = s.left e) (hdelay : u.retryDelayMs = s.due e) (htaken : u.Taken)
    (hsockets : u.sockets = s.sockets) : Plans s t e := by
  obtain ⟨harmed, hrest⟩ := startInLoop_attempts h
  refine ⟨⟨u, harmed, htimers, hdelay⟩, harmed.taken htaken, fun hle _ => ?_, fun hlt => ?_⟩
  · rcases hrest with ⟨rfl, hconnect⟩ | ⟨hnew, -⟩
    · exact fun hc => absurd (hconnect.symm.trans hc) Bool.false_ne_true
    · omega
  · rcases hrest with ⟨rfl, -⟩ | ⟨-, hawaits⟩
    · omega
    · exact hawaits

theorem Awaits.pop (h : s.Awaits) {f : ConnectorFunctor} {rest : List ConnectorFunctor}
    (hqueue : s.queue.functors = f :: rest) (hf : f ≠ .startInLoop) :
    Awaits { s with queue := { s.queue with functors := rest } } := by
  intro hc hs
  refine (h hc hs).imp_right fun hmem => ?_
  rw [FunctorQueue.all_cons hqueue] at hmem
  exact (List.mem_cons.mp hmem).resolve_left hf.symm

theorem step_plans (hs : s.Taken) {e : Event} (he : machine.enabled s e)
    (h : machine.step s e = .ok t) : Plans s t e := by
  cases e with
  | start isInLoopThread savedErrno =>
    change s.start isInLoopThread savedErrno = _ at h
    unfold start at h
    dsimp only at h
    split_ifs at h
    · exact .starts h rfl rfl hs rfl
    · obtain rfl := Except.ok.inj h
      refine .quiet rfl rfl hs rfl fun _ _ _ => .inr ?_
      change _ ∈ (s.queue.queueInLoop .startInLoop).all
      rw [FunctorQueue.all_queueInLoop]
      exact List.mem_append_right _ List.mem_cons_self
  | restart savedErrno => exact .starts h rfl rfl hs rfl
  | stop => exact Except.ok.inj h ▸ .quiet rfl rfl hs rfl fun _ hc => by cases hc
  | loop =>
    have hpc : s.pc = .outside := he
    refine Except.ok.inj h ▸ .quiet rfl rfl (fun _ => ?_) rfl id
    exact hs (by rw [hpc]; nofun)
  | polled revents =>
    have hpc : s.pc = .polling := he.1
    refine Except.ok.inj h ▸ .quiet rfl rfl (fun _ => ?_) rfl id
    exact hs (by rw [hpc]; nofun)
  | timer i savedErrno => exact .starts h rfl rfl hs rfl
  | timersDone =>
    have hpc : s.pc = .timers := he
    refine Except.ok.inj h ▸ .quiet rfl rfl (fun _ => ?_) rfl id
    exact hs (by rw [hpc]; nofun)
  | handleEvent err isSelfConnect =>
    cases hactive : s.active with
    | none => exact absurd hactive he.2
    | some revents =>
      rw [step_handleEvent hactive] at h
      exact .settles (runCallbacks_settles h) rfl rfl hs rfl id
  | swap =>
    have hpc : s.pc = .handlers := he.1
    refine Except.ok.inj h ▸ .quiet rfl rfl (fun hne => absurd rfl hne) rfl fun hawaits hc hd => ?_
    refine (hawaits hc hd).imp_right fun hmem => ?_
    change _ ∈ s.queue.swap.all
    rwa [FunctorQueue.all_swap (hs (by rw [hpc]; nofun))]
  | call savedErrno =>
    cases hqueue : s.queue.functors with
    | nil => exact absurd hqueue he.2
    | cons f rest =>
      rw [step_call hqueue] at h
      have hpop : Taken { s with queue := { s.queue with functors := rest } } :=
        fun hne => absurd he.1 hne
      cases f with
      | startInLoop => exact .starts h rfl rfl hpop rfl
      | stopInLoop =>
        exact .settles (stopInLoop_settles h) rfl rfl hpop rfl
          fun hawaits => hawaits.pop hqueue nofun
      | resetChannel =>
        exact .settles (resetChannel_settles h) rfl rfl hpop rfl
          fun hawaits => hawaits.pop hqueue nofun
  | functorsDone => exact Except.ok.inj h ▸ .quiet rfl rfl (fun _ => he.2) rfl id

end Connector

/-- A connector, the delays of its retries since the last `restart`, and whether the last attempt
was given up. -/
structure Retries where
  connector : Connector
  delays : List ℕ
  gaveUp : Bool

namespace Retries
open Connector

def create : Retries := { connector := .create, delays := [], gaveUp := false }

/-- What `restart` leaves of the delays. -/
def kept (s : Retries) : Connector.Event → List ℕ
  | .restart _ => []
  | .start _ _ | .stop | .loop | .polled _ | .timer _ _ | .timersDone | .handleEvent _ _ | .swap
  | .call _ | .functorsDone => s.delays

/-- The connector has become `t` by the event. -/
def noted (s : Retries) (e : Connector.Event) (t : Connector) : Retries :=
  { connector := t
    delays := s.kept e ++ t.timers.drop (s.connector.left e).length
    gaveUp := if s.connector.sockets < t.sockets then e.savedErrno.abandons else s.gaveUp }

def machine : Machine Retries Connector.Event Fault where
  enabled s e := Connector.machine.enabled s.connector e
  step s e := do
    let t ← Connector.machine.step s.connector e
    pure (s.noted e t)

instance (s : Retries) (e : Connector.Event) : Decidable (machine.enabled s e) :=
  inferInstanceAs (Decidable (Connector.machine.enabled s.connector e))

/-- The delays so far are the first ones of the schedule, and the next one is due. -/
structure Scheduled (delays : List ℕ) (retryDelayMs : ℕ) : Prop where
  all : delays = schedule kInitRetryDelayMs kMaxRetryDelayMs delays.length
  due : retryDelayMs = backoff kInitRetryDelayMs kMaxRetryDelayMs delays.length

theorem Scheduled.nil : Scheduled [] kInitRetryDelayMs :=
  ⟨rfl, (backoff_zero (by decide)).symm⟩

theorem Scheduled.armed {delays : List ℕ} {s t : Connector} (h : Scheduled delays s.retryDelayMs)
    (k : Armed s t) : Scheduled (delays ++ t.timers.drop s.timers.length) t.retryDelayMs := by
  rcases k.timers with ⟨htimers, hdelay⟩ | ⟨htimers, hdelay⟩
  · rw [htimers, hdelay, List.drop_length, List.append_nil]
    exact h
  · rw [htimers, List.drop_left]
    constructor
    · rw [List.length_append, List.length_singleton, schedule_succ, ← h.all, ← h.due]
    · rw [hdelay, List.length_append, List.length_singleton, backoff_succ, ← h.due]

structure Inv (s : Retries) : Prop where
  scheduled : Scheduled s.delays s.connector.retryDelayMs
  taken : s.connector.Taken
  awaits : s.gaveUp = false → s.connector.Awaits

variable {s t : Retries}

theorem create_inv : create.Inv := ⟨.nil, fun _ => rfl, fun _ hc => by cases hc⟩

theorem Inv.step (h : s.Inv) {e : Connector.Event} (he : machine.enabled s e)
    (hs : machine.step s e = .ok t) : t.Inv := by
  obtain ⟨c, hc, hs⟩ := bind_eq_ok.mp hs
  obtain rfl := Except.ok.inj hs
  have hplans := step_plans h.taken he hc
  obtain ⟨s₀, harmed, htimers, hdelay⟩ := hplans.armed
  have hbefore : Scheduled (s.kept e) s₀.retryDelayMs := by
    rw [hdelay]
    cases e with
    | restart => exact .nil
    | _ => exact h.scheduled
  refine ⟨?_, hplans.taken, fun hgave => ?_⟩
  · have hafter := hbefore.armed harmed
    rw [htimers] at hafter
    exact hafter
  · change (if s.connector.sockets < c.sockets then _ else _) = false at hgave
    split_ifs at hgave with hlt
    · exact hplans.attempted hlt hgave
    · exact hplans.settled (Nat.le_of_not_lt hlt) (h.awaits hgave)

/-- The retries of a connector double their delay from one `restart` to the next, between the two
bounds, and a connector that is to connect goes on unless its last attempt was given up. -/
theorem retries_back_off {es : List Connector.Event} {s : Retries}
    (h : machine.Run Machine.Any create es s) :
    s.delays = schedule kInitRetryDelayMs kMaxRetryDelayMs s.delays.length ∧
    (∀ d ∈ s.connector.retryDelayMs :: s.delays, kInitRetryDelayMs ≤ d ∧ d ≤ kMaxRetryDelayMs) ∧
    (s.gaveUp = false → s.connector.connect_ = true → s.connector.state = .kDisconnected →
      s.connector.timers ≠ [] ∨ .startInLoop ∈ s.connector.queue.all) := by
  have hs := h.invariant Inv create_inv fun _ _ _ ht he _ hu => ht.step he hu
  have hbounds : kInitRetryDelayMs ≤ kMaxRetryDelayMs := by decide
  refine ⟨hs.scheduled.all, fun d hd => ?_, hs.awaits⟩
  rcases List.mem_cons.mp hd with rfl | hd
  · rw [hs.scheduled.due]
    exact ⟨le_backoff hbounds _, backoff_le _⟩
  · rw [hs.scheduled.all] at hd
    obtain ⟨k, -, rfl⟩ := List.mem_map.mp hd
    exact ⟨le_backoff hbounds _, backoff_le _⟩

/-- Seven attempts are refused. -/
theorem retries_back_off_seven : ∃ s, machine.Run Machine.Any create
    ([.start true .ECONNREFUSED, .loop] ++ (List.replicate 6 [.polled none,
      .timer 0 .ECONNREFUSED, .timersDone, .swap, .functorsDone]).flatten) s ∧
    s.delays = [500, 1000, 2000, 4000, 8000, 16000, 30000] ∧ s.connector.timers ≠ [] := by
  obtain ⟨s, hs, hp⟩ := Machine.exists_run_of_exec machine Machine.Any create
    ([.start true .ECONNREFUSED, .loop] ++ (List.replicate 6 [.polled none,
      .timer 0 .ECONNREFUSED, .timersDone, .swap, .functorsDone]).flatten)
    (fun s => decide (s.delays.length = 7 ∧ s.gaveUp = false ∧ s.connector.connect_ = true ∧
      s.connector.state = .kDisconnected ∧ s.connector.queue.all = [])) (by decide +kernel)
  obtain ⟨hlength, hgave, hconnect, hstate, hqueue⟩ := of_decide_eq_true hp
  obtain ⟨hdelays, -, hawaits⟩ := retries_back_off hs
  rw [hlength] at hdelays
  refine ⟨s, hs, hdelays, (hawaits hgave hconnect hstate).resolve_right ?_⟩
  rw [hqueue]
  exact List.not_mem_nil

end Retries
end MuduoWindows.Net
