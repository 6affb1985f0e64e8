import MuduoWindows.Net.Epoll.Entries

/-! # Events that a socket is polled for

An event is kept for a socket if a poll in flight asks for it, or if the next call of `submit` will.
-/

namespace MuduoWindows.Net
open Library

namespace EpollPort
variable {P : Type} {port port' : EpollPort P} {s t o : ℕ} {d : EpollSockData P}
  {entry : Completion} {mask : AfdEvents}

/-- A poll in flight for the socket asks for the event. -/
def Polls (port : EpollPort P) (t : ℕ) (mask : AfdEvents) : Prop :=
  ∃ o ∈ port.inFlight, (port.op o).sockData = t ∧ has (port.op o).events mask = true

def Asks (port : EpollPort P) (t : ℕ) (mask : AfdEvents) : Prop :=
  has (afdEvents (port.sockData t).registeredEvents) mask = true

/-- `submit` will poll for the event. -/
def Waits (port : EpollPort P) (t : ℕ) (mask : AfdEvents) : Prop :=
  t ∈ port.attnList ∧ (port.sockData t).opCount = 0 ∧ port.Asks t mask

/-- The event is kept; while the newest poll is in flight, the registered events ask for it. -/
def Kept (port : EpollPort P) (t : ℕ) (mask : AfdEvents) : Prop :=
  (port.Polls t mask ∨ port.Waits t mask) ∧
    ((port.sockData t).opGeneration ≠ 0 → port.Asks t mask)

theorem Kept.attempted (h : port.Kept t mask) (n : ℕ) :
    Kept { port with attempted := n } t mask := h

/-- A step that leaves a socket's data, its polls and its place in the attention list. -/
structure Spares (port : EpollPort P) (t : ℕ) (port' : EpollPort P) : Prop where
  data : port'.sockData t = port.sockData t
  polls : ∀ o ∈ port.inFlight, (port.op o).sockData = t →
    o ∈ port'.inFlight ∧ port'.op o = port.op o
  only : ∀ o < port'.submitted, (port'.op o).sockData = t → o < port.submitted ∧
    port'.op o = port.op o ∧ (o ∈ port'.inFlight → o ∈ port.inFlight)
  attn : t ∈ port.attnList → t ∈ port'.attnList

theorem Kept.spared (h : port.Kept t mask) (hs : port.Spares t port') : port'.Kept t mask := by
  obtain ⟨hkept, hgen⟩ := h
  have hasks : port.Asks t mask → port'.Asks t mask := by
    unfold Asks
    rw [hs.data]
    exact id
  constructor
  · rcases hkept with ⟨o, ho, hop, hmask⟩ | ⟨hattn, hcount, hevents⟩
    · obtain ⟨ho', hsame⟩ := hs.polls o ho hop
      rw [← hsame] at hop hmask
      exact .inl ⟨o, ho', hop, hmask⟩
    · rw [← hs.data] at hcount
      exact .inr ⟨hs.attn hattn, hcount, hasks hevents⟩
  · rw [hs.data]
    exact fun h => hasks (hgen h)

theorem Registers.kept {fd : ℕ} {events : Events} {data : P}
    (h : port.Registers fd events data t port')
    (hmask : has (afdEvents (events ||| EPOLLERR ||| EPOLLHUP)) mask = true) :
    port'.Kept t mask := by
  obtain ⟨d, hdata, -, -, hevents, -, hop⟩ := h.data
  rw [← hevents] at hmask
  constructor
  · apply Or.inl
    refine ⟨port.submitted, ?_, ?_, ?_⟩
    · rw [h.inFlight]
      exact List.mem_cons_self
    · rw [hop, Function.update_self]
      rfl
    · rw [hop, Function.update_self]
      exact hmask
  · intro _
    unfold Asks
    rw [hdata, Function.update_self]
    exact hmask

theorem op_of_ne (hs : s ≠ t) (ho : o < port.submitted + 1)
    (hop : (Function.update port.op port.submitted (newOp s d) o).sockData = t) :
    o < port.submitted ∧ Function.update port.op port.submitted (newOp s d) o = port.op o ∧
      (o ∈ port.submitted :: port.inFlight → o ∈ port.inFlight) := by
  have hne : o ≠ port.submitted := by
    rintro rfl
    rw [Function.update_self] at hop
    exact hs hop
  refine ⟨by omega, Function.update_of_ne hne _ _, ?_⟩
  exact fun hmem => (List.mem_cons.mp hmem).resolve_left hne

theorem Registers.spares {fd : ℕ} {events : Events} {data : P} (hport : port.Valid)
    (h : port.Registers fd events data s port') (ht : t ≠ s) : port.Spares t port' := by
  obtain ⟨d, hdata, -, -, -, -, hop⟩ := h.data
  refine ⟨?_, ?_, ?_, ?_⟩
  · rw [hdata, Function.update_of_ne ht]
  · intro o ho _
    rw [h.inFlight, hop, hport.op_submitted ho]
    exact ⟨List.mem_cons_of_mem _ ho, rfl⟩
  · rw [h.submitted, hop, h.inFlight]
    exact fun o => op_of_ne ht.symm
  · rw [h.attn]
    exact id

theorem Valid.delete_spares (h : port.Valid) {fd fd' : ℕ} (ht : port.sockDataTree fd' = some t)
    (hne : fd' ≠ fd) : port.Spares t (port.delete fd) := by
  obtain ⟨hflight, hop, hsubmitted⟩ := delete_polls port fd
  refine ⟨?_, ?_, ?_, (h.mem_delete ht hne).mpr⟩
  · rw [delete_sockData]
  · intro o ho _
    rw [hflight, hop]
    exact ⟨ho, rfl⟩
  · rw [hflight, hop, hsubmitted]
    exact fun o ho _ => ⟨ho, rfl, id⟩

theorem Kept.started_self (h : port.Kept t mask) (hport : port.Valid)
    (hcount : (port.sockData t).opCount = 0) (rest : List ℕ) :
    Kept { port.started t with attnList := rest } t mask := by
  have hasks : port.Asks t mask := by
    rcases h.1 with ⟨o, ho, hop, -⟩ | ⟨-, -, hasks⟩
    · exact absurd hop (hport.idle hcount o ho)
    · exact hasks
  have hdata : (port.started t).sockData t = polling (port.sockData t) := setSockData_self
  constructor
  · apply Or.inl
    refine ⟨port.submitted, List.mem_cons_self, ?_⟩
    change (Function.update port.op port.submitted (newOp t (port.sockData t)) _).sockData = t ∧ _
    rw [Function.update_self]
    refine ⟨rfl, ?_⟩
    change has (Function.update port.op port.submitted (newOp t (port.sockData t)) _).events _ = _
    rw [Function.update_self]
    exact hasks
  · intro _
    unfold Asks
    change has (afdEvents ((port.started t).sockData t).registeredEvents) mask = true
    rw [hdata]
    exact hasks

theorem Kept.dropAttn (h : port.Kept t mask) (hcount : (port.sockData t).opCount ≠ 0)
    (rest : List ℕ) : Kept { port with attnList := rest } t mask := by
  refine ⟨.inl ?_, h.2⟩
  rcases h.1 with hpolls | ⟨-, hzero, -⟩
  · exact hpolls
  · exact absurd hzero hcount

theorem Valid.submitIdle_spares (h : port.Valid) {rest : List ℕ} (hattn : port.attnList = s :: rest)
    (ht : t ≠ s) : port.Spares t { port.submitIdle s with attnList := rest } := by
  have hmem : t ∈ port.attnList → t ∈ rest := by
    rw [hattn]
    exact fun hmem => (List.mem_cons.mp hmem).resolve_left ht
  obtain ⟨-, -, heq⟩ | ⟨-, n, heq⟩ := port.submitIdle_cases s <;> rw [heq]
  · refine ⟨Function.update_of_ne ht _ _, ?_, fun o => op_of_ne ht.symm, hmem⟩
    intro o ho _
    exact ⟨List.mem_cons_of_mem _ ho, h.op_submitted ho⟩
  · exact ⟨rfl, fun o ho _ => ⟨ho, rfl⟩, fun o ho _ => ⟨ho, rfl, id⟩, hmem⟩

/-- Which polls are refused does not depend on the list that is kept meanwhile. -/
theorem refusedPolls_attnList (l attnList : List ℕ) :
    refusedPolls { port with attnList := attnList } l = port.refusedPolls l := by
  induction l generalizing port with
  | nil => rfl
  | cons s l ih =>
    rw [refusedPolls, refusedPolls, submitIdle_attnList, ih]

theorem Kept.submitAll (h : port.Kept t mask) (hport : port.Valid)
    (ht : t ∉ port.refusedPolls port.attnList) : port.submitAll.Kept t mask := by
  refine (submitAll_induction (motive := fun port' => port'.Valid ∧
    t ∉ port'.refusedPolls port'.attnList ∧ port'.Kept t mask) ?_ ⟨hport, ht, h⟩).2.2
  rintro port' s rest ⟨hvalid, ht, hkept⟩ hattn
  have hfind : port'.find s := hvalid.attn s (by rw [hattn]; exact List.mem_cons_self)
  rw [hattn, refusedPolls] at ht
  refine ⟨(hvalid.submitIdle hfind).dropAttn (submitIdle_attn.trans hattn), ?_, ?_⟩
  · rw [refusedPolls_attnList]
    split_ifs at ht
    · exact fun hmem => ht (List.mem_cons_of_mem _ hmem)
    · exact ht
  by_cases hts : t = s
  · subst t
    obtain ⟨hcount, -, heq⟩ | ⟨hrefused, n, heq⟩ := port'.submitIdle_cases s
    · rw [heq]
      exact hkept.started_self hvalid hcount rest
    · have hcount : (port'.sockData s).opCount ≠ 0 := by
        intro hzero
        rw [if_pos ⟨hzero, hrefused hzero⟩] at ht
        exact ht List.mem_cons_self
      rw [heq]
      exact (hkept.attempted n).dropAttn hcount rest
  · exact hkept.spared (hvalid.submitIdle_spares hattn hts)

theorem take_spares (ht : t ≠ (port.op o).sockData) : port.Spares t (port.take o d) := by
  refine ⟨take_of_ne ht, ?_, fun o' ho' _ => ⟨ho', rfl, List.mem_of_mem_erase⟩, id⟩
  intro o' ho' hop
  refine ⟨(List.mem_erase_of_ne ?_).mpr ho', rfl⟩
  rintro rfl
  exact ht hop.symm

theorem Outcome.spares {event : Option (EpollEvent P)} (hout : port.Outcome entry port' event)
    (ht : t ≠ (port.op entry.op).sockData) : port.Spares t port' := by
  cases hout with
  | superseded | failed => exact take_spares ht
  | unregistered =>
    obtain ⟨hdata, hpolls, honly, hattn⟩ := take_spares (d := settled (port.owner entry.op)) ht
    exact ⟨hdata, hpolls, honly, hattn⟩
  | closed =>
    obtain ⟨hdata, hpolls, honly, -⟩ := take_spares (d := settled (port.owner entry.op)) ht
    exact ⟨hdata, hpolls, honly, (List.mem_erase_of_ne ht).mpr⟩
  | reported =>
    obtain ⟨hdata, hpolls, honly, -⟩ := take_spares (d := withoutOut (port.owner entry.op)) ht
    rw [report_eq]
    exact ⟨hdata, hpolls, honly, List.mem_insert_of_mem⟩

theorem Outcome.tree {event : Option (EpollEvent P)} {fd : ℕ}
    (hout : port.Outcome entry port' event) (hd : port.sockDataTree fd = some t)
    (hkept : t = (port.op entry.op).sockData →
      ¬ (entry.success = true ∧ has entry.afdEvents AFD_POLL_LOCAL_CLOSE = true)) :
    port'.sockDataTree fd = some t := by
  cases hout with
  | superseded | unregistered | failed => exact hd
  | closed _ hfind hstatus hclose =>
    have ht : t ≠ (port.op entry.op).sockData := fun heq => hkept heq ⟨hstatus, hclose⟩
    change Function.update port.sockDataTree ((port.take entry.op _).sockData
      (port.op entry.op).sockData).sock none fd = some t
    rw [take_self, Function.update_of_ne]
    · exact hd
    · rintro rfl
      exact ht (Option.some.inj (hd.symm.trans hfind))
  | reported =>
    rw [report_eq]
    exact hd

theorem covered_polls (hcover : ∃ o ∈ port.inFlight.erase entry.op,
      (port.op o).sockData = (port.op entry.op).sockData ∧ has (port.op o).events mask = true) :
    (port.take entry.op d).Polls (port.op entry.op).sockData mask := hcover

theorem Kept.superseded (h : port.Kept (port.op entry.op).sockData mask) (hport : port.Valid)
    (hgen : (port.op entry.op).generation < (port.owner entry.op).opGeneration)
    (hevents : d.registeredEvents = (port.owner entry.op).registeredEvents) :
    (port.take entry.op d).Kept (port.op entry.op).sockData mask := by
  have hne : (port.sockData (port.op entry.op).sockData).opGeneration ≠ 0 := by
    change (port.owner entry.op).opGeneration ≠ 0
    omega
  have hasks := h.2 hne
  obtain ⟨o, ho, hop, hnewest, hmask⟩ := hport.newest _ hne
  constructor
  · apply Or.inl
    refine ⟨o, (List.mem_erase_of_ne ?_).mpr ho, hop, ?_⟩
    · rintro rfl
      exact hgen.ne hnewest
    · change has (port.op o).events mask = true
      rw [hmask]
      exact hasks
  · intro _
    unfold Asks
    rw [take_self, hevents]
    exact hasks

end EpollPort
end MuduoWindows.Net
