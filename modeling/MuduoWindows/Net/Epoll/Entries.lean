import MuduoWindows.Net.Epoll.Polls

/-! # Entries of a completion queue

Dequeuing a completion goes one of five ways, each with the port that it leaves. The loop over the
attention list is replaced by an induction over its steps.
-/

namespace MuduoWindows.Net
open Library

namespace EpollPort
variable {P : Type} {port : EpollPort P} {s t o : ℕ} {d : EpollSockData P} {entry : Completion}

def owner (port : EpollPort P) (o : ℕ) : EpollSockData P := port.sockData (port.op o).sockData

/-- The poll `o` is dequeued and its socket data becomes `d`. -/
def take (port : EpollPort P) (o : ℕ) (d : EpollSockData P) : EpollPort P :=
  (port.leave o).setSockData (port.op o).sockData d

theorem take_self : (port.take o d).sockData (port.op o).sockData = d := setSockData_self

theorem take_of_ne (h : t ≠ (port.op o).sockData) :
    (port.take o d).sockData t = port.sockData t := setSockData_of_ne h

theorem take_sock (hsock : d.sock = (port.owner o).sock) (t : ℕ) :
    ((port.take o d).sockData t).sock = (port.sockData t).sock := by
  by_cases ht : t = (port.op o).sockData
  · subst t
    rw [take_self]
    exact hsock
  · rw [take_of_ne ht]

theorem take_find (hsock : d.sock = (port.owner o).sock) (t : ℕ) :
    (port.take o d).find t ↔ port.find t := by
  unfold find
  rw [take_sock hsock]
  rfl

/-- The generation is forgotten, or the poll was not the last one submitted. -/
theorem Valid.take (h : port.Valid) (ho : o ∈ port.inFlight) (hsock : d.sock = (port.owner o).sock)
    (hcount : (port.owner o).opCount - 1 ≤ d.opCount)
    (hgen : d.opGeneration = 0 ∨ d.opGeneration = (port.owner o).opGeneration ∧
      d.registeredEvents = (port.owner o).registeredEvents ∧
      (port.op o).generation ≠ d.opGeneration) : (port.take o d).Valid := by
  refine ⟨?_, ?_, h.attnNodup, ?_, h.nodup.erase o, ?_, ?_⟩
  · intro fd t ht
    rw [take_sock hsock]
    exact h.tree fd t ht
  · intro t ht
    exact (take_find hsock t).mpr (h.attn t ht)
  · intro o' ho'
    exact h.flight o' (List.mem_of_mem_erase ho')
  · intro t
    have hbound := h.count t
    change (((port.inFlight.erase o).countP fun o => (port.op o).sockData = t : ℕ) : ℤ) ≤ _
    rw [List.countP_erase]
    change ((port.pollCount t - _ : ℕ) : ℤ) ≤ _
    by_cases ht : t = (port.op o).sockData
    · subst t
      have hone := h.counted ho
      rw [take_self, if_pos ⟨ho, by simp⟩]
      change (port.pollCount _ : ℤ) ≤ (port.owner o).opCount at hbound
      change 1 ≤ (port.owner o).opCount at hone
      omega
    · rw [take_of_ne ht, if_neg (by simpa using fun _ => Ne.symm ht)]
      exact hbound
  · intro t ht
    by_cases hts : t = (port.op o).sockData
    · subst t
      rw [take_self] at ht ⊢
      obtain ⟨hsame, hevents, hne⟩ := hgen.resolve_left ht
      have hold : (port.owner o).opGeneration ≠ 0 := hsame ▸ ht
      obtain ⟨o', ho', hop, hgen', hmask⟩ := h.newest _ hold
      refine ⟨o', ?_, hop, hgen'.trans hsame.symm, by rw [hevents]; exact hmask⟩
      apply (List.mem_erase_of_ne ?_).mpr ho'
      rintro rfl
      exact hne (hgen'.trans hsame.symm)
    · rw [take_of_ne hts] at ht ⊢
      obtain ⟨o', ho', hop⟩ := h.newest t ht
      refine ⟨o', (List.mem_erase_of_ne ?_).mpr ho', hop⟩
      rintro rfl
      exact hts hop.1.symm

theorem modify_setSockData {f : EpollSockData P → EpollSockData P} :
    (port.setSockData s d).modify s f = port.setSockData s (f d) := by
  unfold modify
  rw [setSockData_self]
  unfold setSockData
  dsimp only
  rw [Function.update_idem]

theorem deleteOp_eq (hcount : 1 ≤ d.opCount) :
    (port.take o d).deleteOp o = .ok (port.take o { d with opCount := d.opCount - 1 }) := by
  have hpos : 0 ≤ ((port.take o d).sockData (port.op o).sockData).opCount - 1 := by
    rw [take_self]
    omega
  unfold deleteOp
  change (assert (0 ≤ ((port.take o d).sockData (port.op o).sockData).opCount - 1) _ >>= _) = _
  rw [require_bind hpos, pure_eq_ok]
  exact congrArg Except.ok modify_setSockData

theorem leave_eq_take : port.leave o = port.take o (port.owner o) := by
  unfold take
  exact setSockData_eq_self.symm

/-- The socket data after the newest poll has been dequeued. -/
def forgotten (d : EpollSockData P) : EpollSockData P := { d with opGeneration := 0 }

def settled (d : EpollSockData P) : EpollSockData P :=
  { d with opGeneration := 0, opCount := d.opCount - 1 }

theorem dequeue_superseded (h : port.Valid) (ho : entry.op ∈ port.inFlight)
    (hgen : (port.op entry.op).generation < (port.owner entry.op).opGeneration) :
    port.dequeue entry = .ok (port.take entry.op
      { port.owner entry.op with opCount := (port.owner entry.op).opCount - 1 }, none) := by
  have hcount : 1 ≤ (port.owner entry.op).opCount := h.counted ho
  refine (if_pos hgen).trans ?_
  rw [leave_eq_take, deleteOp_eq hcount, ok_bind]
  rfl

theorem find_forgotten : (port.take o (forgotten (port.owner o))).find t ↔ port.find t :=
  take_find (d := forgotten (port.owner o)) rfl t

section Newest
variable (h : port.Valid) (ho : entry.op ∈ port.inFlight)
  (hgen : (port.owner entry.op).opGeneration ≤ (port.op entry.op).generation)
include hgen

theorem dequeue_newest :
    port.dequeue entry =
      (port.take entry.op (forgotten (port.owner entry.op))).dequeueNewest entry :=
  if_neg (not_lt.mpr hgen)

include h ho

theorem dequeue_unregistered (hfind : ¬ port.find (port.op entry.op).sockData) :
    port.dequeue entry = .ok ((port.take entry.op (settled (port.owner entry.op))).release
      (port.op entry.op).sockData, none) := by
  have hcount : 1 ≤ (forgotten (port.owner entry.op)).opCount := h.counted ho
  rw [dequeue_newest hgen]
  refine (if_pos fun hc => hfind (find_forgotten.mp hc)).trans ?_
  rw [deleteOp_eq hcount, ok_bind]
  rfl

omit h ho in
theorem dequeue_failed (hfind : port.find (port.op entry.op).sockData)
    (hstatus : entry.success = false) :
    port.dequeue entry = .ok (port.take entry.op (forgotten (port.owner entry.op)),
      some ⟨EPOLLERR, (port.owner entry.op).userData⟩) := by
  rw [dequeue_newest hgen]
  refine (if_neg (not_not_intro (find_forgotten.mpr hfind))).trans ?_
  refine (if_pos hstatus).trans ?_
  change Except.ok (_, some (EpollEvent.mk EPOLLERR
    ((port.take entry.op _).sockData (port.op entry.op).sockData).userData)) = _
  rw [take_self]
  rfl

theorem dequeue_closed (hfind : port.find (port.op entry.op).sockData)
    (hstatus : entry.success = true) (hclose : has entry.afdEvents AFD_POLL_LOCAL_CLOSE = true) :
    port.dequeue entry = .ok (((port.take entry.op (settled (port.owner entry.op))).remove
      (port.op entry.op).sockData).release (port.op entry.op).sockData, none) := by
  have hcount : 1 ≤ (forgotten (port.owner entry.op)).opCount := h.counted ho
  -- the socket is taken out of the tree before the poll is deleted
  have hremove : ∀ d : EpollSockData P, d.sock = (port.owner entry.op).sock →
      (port.take entry.op d).remove (port.op entry.op).sockData = take { port with
        sockDataTree := Function.update port.sockDataTree (port.owner entry.op).sock none
        attnList := port.attnList.erase (port.op entry.op).sockData } entry.op d := by
    intro d hd
    unfold EpollPort.remove
    rw [take_self, hd]
    rfl
  rw [dequeue_newest hgen]
  refine (if_neg (not_not_intro (find_forgotten.mpr hfind))).trans ?_
  refine (if_neg (by simp [hstatus])).trans ?_
  refine (if_pos hclose).trans ?_
  change (((port.take entry.op (forgotten (port.owner entry.op))).remove
    (port.op entry.op).sockData).deleteOp entry.op >>= _) = _
  rw [hremove (forgotten (port.owner entry.op)) rfl, hremove (settled (port.owner entry.op)) rfl,
    deleteOp_eq hcount, ok_bind]
  rfl

theorem dequeue_reported (hfind : port.find (port.op entry.op).sockData)
    (hstatus : entry.success = true) (hclose : has entry.afdEvents AFD_POLL_LOCAL_CLOSE = false) :
    port.dequeue entry = .ok ((port.take entry.op (settled (port.owner entry.op))).report
      (port.op entry.op).sockData entry.afdEvents) := by
  have hcount : 1 ≤ (forgotten (port.owner entry.op)).opCount := h.counted ho
  rw [dequeue_newest hgen]
  refine (if_neg (not_not_intro (find_forgotten.mpr hfind))).trans ?_
  refine (if_neg (by simp [hstatus])).trans ?_
  refine (if_neg (by simp [hclose])).trans ?_
  rw [deleteOp_eq hcount, ok_bind]
  rfl

end Newest

theorem Valid.release (h : port.Valid) (s : ℕ) : (port.release s).Valid :=
  ⟨h.tree, h.attn, h.attnNodup, h.flight, h.nodup, h.count, h.newest⟩

/-- The five ways of a dequeued completion. -/
inductive Outcome (port : EpollPort P) (entry : Completion) :
    EpollPort P → Option (EpollEvent P) → Prop
  | superseded : (port.op entry.op).generation < (port.owner entry.op).opGeneration →
      Outcome port entry (port.take entry.op
        { port.owner entry.op with opCount := (port.owner entry.op).opCount - 1 }) none
  | unregistered : (port.owner entry.op).opGeneration ≤ (port.op entry.op).generation →
      ¬ port.find (port.op entry.op).sockData →
      Outcome port entry ((port.take entry.op (settled (port.owner entry.op))).release
        (port.op entry.op).sockData) none
  | failed : (port.owner entry.op).opGeneration ≤ (port.op entry.op).generation →
      port.find (port.op entry.op).sockData → entry.success = false →
      Outcome port entry (port.take entry.op (forgotten (port.owner entry.op)))
        (some ⟨EPOLLERR, (port.owner entry.op).userData⟩)
  | closed : (port.owner entry.op).opGeneration ≤ (port.op entry.op).generation →
      port.find (port.op entry.op).sockData → entry.success = true →
      has entry.afdEvents AFD_POLL_LOCAL_CLOSE = true →
      Outcome port entry (((port.take entry.op (settled (port.owner entry.op))).remove
        (port.op entry.op).sockData).release (port.op entry.op).sockData) none
  | reported : (port.owner entry.op).opGeneration ≤ (port.op entry.op).generation →
      port.find (port.op entry.op).sockData → entry.success = true →
      has entry.afdEvents AFD_POLL_LOCAL_CLOSE = false →
      Outcome port entry
        ((port.take entry.op (settled (port.owner entry.op))).report
          (port.op entry.op).sockData entry.afdEvents).1
        ((port.take entry.op (settled (port.owner entry.op))).report
          (port.op entry.op).sockData entry.afdEvents).2

theorem Valid.dequeue (h : port.Valid) (ho : entry.op ∈ port.inFlight) :
    ∃ port' event, port.dequeue entry = .ok (port', event) ∧ port.Outcome entry port' event := by
  rcases Nat.lt_or_ge (port.op entry.op).generation (port.owner entry.op).opGeneration with
    hgen | hgen
  · exact ⟨_, _, dequeue_superseded h ho hgen, .superseded hgen⟩
  by_cases hfind : port.find (port.op entry.op).sockData
  · cases hstatus : entry.success with
    | false => exact ⟨_, _, dequeue_failed hgen hfind hstatus, .failed hgen hfind hstatus⟩
    | true =>
      cases hclose : has entry.afdEvents AFD_POLL_LOCAL_CLOSE with
      | true =>
        exact ⟨_, _, dequeue_closed h ho hgen hfind hstatus hclose,
          .closed hgen hfind hstatus hclose⟩
      | false =>
        exact ⟨_, _, dequeue_reported h ho hgen hfind hstatus hclose,
          .reported hgen hfind hstatus hclose⟩
  · exact ⟨_, _, dequeue_unregistered h ho hgen hfind, .unregistered hgen hfind⟩

def withoutOut (d : EpollSockData P) : EpollSockData P :=
  { settled d with registeredEvents := d.registeredEvents &&& ~~~EPOLLOUT }

theorem report_eq (afdEvents : AfdEvents) :
    (port.take o (settled (port.owner o))).report (port.op o).sockData afdEvents =
      ((port.take o (withoutOut (port.owner o))).addAttn (port.op o).sockData,
        if reportedEvents afdEvents ≠ 0 then
          some ⟨reportedEvents afdEvents, (port.owner o).userData⟩ else none) := by
  have hmodify : ((port.take o (settled (port.owner o))).modify (port.op o).sockData fun d =>
      { d with registeredEvents := d.registeredEvents &&& ~~~EPOLLOUT }) =
      port.take o (withoutOut (port.owner o)) := modify_setSockData
  have hdata : ((port.take o (withoutOut (port.owner o))).addAttn (port.op o).sockData).sockData
      (port.op o).sockData = withoutOut (port.owner o) := take_self
  unfold report
  dsimp only
  rw [hmodify, hdata]
  rfl

variable {port' : EpollPort P} {event : Option (EpollEvent P)}

theorem Outcome.valid (h : port.Valid) (ho : entry.op ∈ port.inFlight)
    (hout : port.Outcome entry port' event) : port'.Valid := by
  have hcount : (port.owner entry.op).opCount - 1 ≤ (port.owner entry.op).opCount := by omega
  cases hout with
  | superseded hgen => exact h.take ho rfl le_rfl (.inr ⟨rfl, rfl, hgen.ne⟩)
  | unregistered =>
    exact (h.take (d := settled (port.owner entry.op)) ho rfl le_rfl (.inl rfl)).release _
  | failed => exact h.take ho rfl hcount (.inl rfl)
  | closed _ hfind =>
    have htake := h.take (d := settled (port.owner entry.op)) ho rfl le_rfl (.inl rfl)
    have hremove := htake.remove
      ((take_find (d := settled (port.owner entry.op)) rfl _).mpr hfind)
    exact hremove.release _
  | reported _ hfind =>
    have htake := h.take (d := withoutOut (port.owner entry.op)) ho rfl le_rfl (.inl rfl)
    rw [report_eq]
    exact htake.addAttn ((take_find (d := withoutOut (port.owner entry.op)) rfl _).mpr hfind)

theorem Outcome.frame (hout : port.Outcome entry port' event) :
    (∀ fd d, port'.sockDataTree fd = some d → port.sockDataTree fd = some d) ∧
    (∀ d, (port'.sockData d).userData = (port.sockData d).userData ∧
      has (port'.sockData d).registeredEvents EPOLLIN =
        has (port.sockData d).registeredEvents EPOLLIN) := by
  have hdata : ∀ data : EpollSockData P, data.userData = (port.owner entry.op).userData →
      has data.registeredEvents EPOLLIN = has (port.owner entry.op).registeredEvents EPOLLIN →
      ∀ d, ((port.take entry.op data).sockData d).userData = (port.sockData d).userData ∧
        has ((port.take entry.op data).sockData d).registeredEvents EPOLLIN =
          has (port.sockData d).registeredEvents EPOLLIN := by
    intro data huser hevents d
    by_cases hd : d = (port.op entry.op).sockData
    · subst d
      rw [take_self]
      exact ⟨huser, hevents⟩
    · rw [take_of_ne hd]
      exact ⟨rfl, rfl⟩
  cases hout with
  | superseded | unregistered | failed => exact ⟨fun _ _ h => h, hdata _ rfl rfl⟩
  | closed =>
    refine ⟨?_, hdata (settled (port.owner entry.op)) rfl rfl⟩
    intro fd d hd
    change Function.update port.sockDataTree _ none fd = some d at hd
    by_cases hfd : fd = ((port.take entry.op (settled (port.owner entry.op))).sockData
        (port.op entry.op).sockData).sock
    · rw [hfd, Function.update_self] at hd
      cases hd
    · rwa [Function.update_of_ne hfd] at hd
  | reported =>
    rw [report_eq]
    exact ⟨fun _ _ h => h, hdata (withoutOut (port.owner entry.op)) rfl (has_and rfl)⟩

/-- The entry has something to report if its socket is registered. -/
def Reports (entry : Completion) : Prop :=
  entry.success = false ∨
    (has entry.afdEvents AFD_POLL_LOCAL_CLOSE = false ∧ reportedEvents entry.afdEvents ≠ 0)

instance (entry : Completion) : Decidable (Reports entry) :=
  inferInstanceAs (Decidable (_ ∨ _))

theorem Outcome.reports {ev : EpollEvent P} (hout : port.Outcome entry port' event)
    (hev : event = some ev) : port.find (port.op entry.op).sockData ∧
      (port.owner entry.op).opGeneration ≤ (port.op entry.op).generation ∧
      ev.data = (port.owner entry.op).userData ∧ Reports entry := by
  cases hout with
  | superseded | unregistered | closed => cases hev
  | failed hgen hfind hstatus =>
    obtain rfl := Option.some.inj hev
    exact ⟨hfind, hgen, rfl, .inl hstatus⟩
  | reported hgen hfind hstatus hclose =>
    rw [report_eq] at hev
    split_ifs at hev with hzero
    obtain rfl := Option.some.inj hev
    exact ⟨hfind, hgen, rfl, .inr ⟨hclose, hzero⟩⟩

/-- An entry of the list gets a new poll, or nothing happens but an attempt. -/
theorem submitIdle_cases (port : EpollPort P) (s : ℕ) :
    (port.sockData s).opCount = 0 ∧ port.refused port.attempted = false ∧
        port.submitIdle s = port.started s ∨
      ((port.sockData s).opCount = 0 → port.refused port.attempted = true) ∧
        ∃ n, port.submitIdle s = { port with attempted := n } := by
  unfold submitIdle
  by_cases hcount : (port.sockData s).opCount = 0
  · rw [if_pos hcount]
    obtain ⟨hrefused, h⟩ | ⟨hrefused, h⟩ := port.submit_cases s <;> rw [h]
    · exact .inr ⟨fun _ => hrefused, _, rfl⟩
    · exact .inl ⟨hcount, hrefused, rfl⟩
  · rw [if_neg hcount]
    exact .inr ⟨fun hzero => absurd hzero hcount, port.attempted, rfl⟩

theorem submitIdle_attnList (attnList : List ℕ) :
    submitIdle { port with attnList := attnList } s =
      { port.submitIdle s with attnList := attnList } := by
  unfold submitIdle submit
  dsimp only
  split_ifs <;> rfl

theorem foldl_submitIdle (l attnList : List ℕ) :
    l.foldl submitIdle { port with attnList := attnList } =
      { l.foldl submitIdle port with attnList := attnList } := by
  induction l generalizing port with
  | nil => rfl
  | cons s l ih =>
    rw [List.foldl_cons, List.foldl_cons, submitIdle_attnList]
    exact ih

/-- What holds through every step of the loop over the attention list, where a socket leaves the
list with its step, holds after the loop. -/
theorem submitAll_induction {motive : EpollPort P → Prop}
    (hstep : ∀ port s rest, motive port → port.attnList = s :: rest →
      motive { port.submitIdle s with attnList := rest }) (h : motive port) :
    motive port.submitAll := by
  obtain ⟨l, hl⟩ : ∃ l, port.attnList = l := ⟨_, rfl⟩
  induction l generalizing port with
  | nil =>
    have hself : port.submitAll = port := by
      unfold submitAll
      rw [hl, List.foldl_nil, ← hl]
    rwa [hself]
  | cons s rest ih =>
    have hnext := ih (hstep port s rest h hl) rfl
    have hsame : submitAll { port.submitIdle s with attnList := rest } = port.submitAll := by
      unfold submitAll
      dsimp only
      rw [hl, List.foldl_cons, foldl_submitIdle]
    rwa [hsame] at hnext

theorem Valid.dropAttn (h : port.Valid) {rest : List ℕ} (hattn : port.attnList = s :: rest) :
    Valid { port with attnList := rest } := by
  have hsub : rest ⊆ port.attnList := by
    rw [hattn]
    exact List.subset_cons_self s rest
  have hnodup := h.attnNodup
  rw [hattn] at hnodup
  exact ⟨h.tree, fun t ht => h.attn t (hsub ht), (List.nodup_cons.mp hnodup).2, h.flight, h.nodup,
    h.count, h.newest⟩

theorem Valid.submitIdle (h : port.Valid) (hs : port.find s) : (port.submitIdle s).Valid := by
  obtain ⟨-, -, heq⟩ | ⟨-, n, heq⟩ := port.submitIdle_cases s <;> rw [heq]
  · exact h.started (h.find_lt hs)
  · exact h.attempted n

theorem submitIdle_sockData (port : EpollPort P) (s d : ℕ) :
    ((port.submitIdle s).sockData d).userData = (port.sockData d).userData ∧
      ((port.submitIdle s).sockData d).registeredEvents = (port.sockData d).registeredEvents := by
  obtain ⟨-, -, heq⟩ | ⟨-, n, heq⟩ := port.submitIdle_cases s <;> rw [heq]
  · by_cases hd : d = s
    · subst d
      have hself : (port.started s).sockData s = polling (port.sockData s) := setSockData_self
      rw [hself]
      exact ⟨rfl, rfl⟩
    · exact ⟨congrArg _ (Function.update_of_ne hd _ _), congrArg _ (Function.update_of_ne hd _ _)⟩
  · exact ⟨rfl, rfl⟩

theorem submitIdle_tree : (port.submitIdle s).sockDataTree = port.sockDataTree := by
  obtain ⟨-, -, heq⟩ | ⟨-, n, heq⟩ := port.submitIdle_cases s
  · rw [heq]
    rfl
  · rw [heq]

theorem submitIdle_attn : (port.submitIdle s).attnList = port.attnList := by
  obtain ⟨-, -, heq⟩ | ⟨-, n, heq⟩ := port.submitIdle_cases s
  · rw [heq]
    rfl
  · rw [heq]

theorem Valid.submitAll (h : port.Valid) : port.submitAll.Valid ∧
    port.submitAll.sockDataTree = port.sockDataTree ∧
    ∀ d, (port.submitAll.sockData d).userData = (port.sockData d).userData ∧
      (port.submitAll.sockData d).registeredEvents = (port.sockData d).registeredEvents := by
  refine submitAll_induction (motive := fun port' => port'.Valid ∧
    port'.sockDataTree = port.sockDataTree ∧
    ∀ d, (port'.sockData d).userData = (port.sockData d).userData ∧
      (port'.sockData d).registeredEvents = (port.sockData d).registeredEvents) ?_
    ⟨h, rfl, fun _ => ⟨rfl, rfl⟩⟩
  rintro port' s rest ⟨hvalid, htree, hdata⟩ hattn
  have hfind : port'.find s := hvalid.attn s (by rw [hattn]; exact List.mem_cons_self)
  refine ⟨(hvalid.submitIdle hfind).dropAttn (submitIdle_attn.trans hattn),
    submitIdle_tree.trans htree, ?_⟩
  intro d
  obtain ⟨huser, hevents⟩ := submitIdle_sockData port' s d
  exact ⟨huser.trans (hdata d).1, hevents.trans (hdata d).2⟩

end EpollPort
end MuduoWindows.Net
