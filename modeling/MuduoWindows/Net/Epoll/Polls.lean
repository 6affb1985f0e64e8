import MuduoWindows.Net.Epoll

/-! # Polls in flight

The invariant of a port ties the polls in flight to the socket data that count them. What
`epoll_add` and `epoll_mod` leave is described once for both, as a registration.
-/

namespace MuduoWindows.Net
open Library

namespace EpollPort
variable {P : Type} {port : EpollPort P} {s t o : ℕ} {d : EpollSockData P} {refused : ℕ → Bool}

/-- The number of polls in flight for a socket. -/
def pollCount (port : EpollPort P) (s : ℕ) : ℕ :=
  port.inFlight.countP fun o => (port.op o).sockData = s

structure Valid (port : EpollPort P) : Prop where
  tree : ∀ fd s, port.sockDataTree fd = some s →
    s < port.allocated ∧ (port.sockData s).sock = fd
  attn : ∀ s ∈ port.attnList, port.find s
  attnNodup : port.attnList.Nodup
  flight : ∀ o ∈ port.inFlight, o < port.submitted ∧ (port.op o).sockData < port.allocated
  nodup : port.inFlight.Nodup
  count : ∀ s, port.pollCount s ≤ (port.sockData s).opCount
  /-- Until a newest poll is dequeued, the last one submitted is in flight. -/
  newest : ∀ s, (port.sockData s).opGeneration ≠ 0 → ∃ o ∈ port.inFlight,
    (port.op o).sockData = s ∧ (port.op o).generation = (port.sockData s).opGeneration ∧
      (port.op o).events = afdEvents (port.sockData s).registeredEvents

theorem create_valid : (create refused : EpollPort P).Valid := by
  constructor <;> simp [create, pollCount]

@[simp] theorem setSockData_self : (port.setSockData s d).sockData s = d := Function.update_self ..

theorem setSockData_of_ne (h : t ≠ s) : (port.setSockData s d).sockData t = port.sockData t :=
  Function.update_of_ne h ..

theorem Valid.idle (h : port.Valid) (hcount : (port.sockData s).opCount = 0) :
    ∀ o ∈ port.inFlight, (port.op o).sockData ≠ s := by
  intro o ho hs
  have hzero := h.count s
  rw [hcount] at hzero
  have hpos : 0 < port.pollCount s := List.countP_pos_iff.mpr ⟨o, ho, by simpa using hs⟩
  omega

theorem Valid.counted (h : port.Valid) (ho : o ∈ port.inFlight) :
    1 ≤ (port.sockData (port.op o).sockData).opCount := by
  have hcount := h.count (port.op o).sockData
  have hpos : 0 < port.pollCount (port.op o).sockData :=
    List.countP_pos_iff.mpr ⟨o, ho, by simp⟩
  omega

theorem Valid.attempted (h : port.Valid) (n : ℕ) : Valid { port with attempted := n } :=
  ⟨h.tree, h.attn, h.attnNodup, h.flight, h.nodup, h.count, h.newest⟩

/-- The poll that `submit` makes. -/
def newOp (s : ℕ) (d : EpollSockData P) : EpollOp :=
  ⟨(d.opGeneration + 1) % 2 ^ 32, s, afdEvents d.registeredEvents⟩

/-- The socket data after `submit`. -/
def polling (d : EpollSockData P) : EpollSockData P :=
  { d with opCount := d.opCount + 1, opGeneration := (d.opGeneration + 1) % 2 ^ 32 }

theorem started_setSockData : (port.setSockData s d).started s =
    { port.setSockData s (polling d) with
      op := Function.update port.op port.submitted (newOp s d)
      submitted := port.submitted + 1
      inFlight := port.submitted :: port.inFlight
      attempted := port.attempted + 1 } := by
  unfold started
  dsimp only
  rw [setSockData_self]
  unfold setSockData
  dsimp only
  rw [Function.update_idem]
  rfl

theorem setSockData_eq_self : port.setSockData s (port.sockData s) = port := by
  unfold setSockData
  rw [Function.update_eq_self]

theorem Valid.op_submitted (h : port.Valid) {op : EpollOp} (ho : o ∈ port.inFlight) :
    Function.update port.op port.submitted op o = port.op o :=
  Function.update_of_ne (h.flight o ho).1.ne _ _

theorem Valid.started_setSockData (h : port.Valid) (hs : s < port.allocated)
    (hsock : d.sock = (port.sockData s).sock) (hcount : d.opCount = (port.sockData s).opCount) :
    ((port.setSockData s d).started s).Valid := by
  rw [EpollPort.started_setSockData]
  have hsame : ∀ t,
      ((port.setSockData s (polling d)).sockData t).sock = (port.sockData t).sock := by
    intro t
    by_cases ht : t = s
    · subst t
      rw [setSockData_self]
      exact hsock
    · rw [setSockData_of_ne ht]
  refine ⟨?_, ?_, h.attnNodup, ?_, ?_, ?_, ?_⟩
  · intro fd t ht
    obtain ⟨hlt, hfd⟩ := h.tree fd t ht
    exact ⟨hlt, (hsame t).trans hfd⟩
  · intro t ht
    have hfind := h.attn t ht
    unfold find at hfind ⊢
    dsimp only
    rw [hsame]
    exact hfind
  · intro o ho
    change o ∈ port.submitted :: port.inFlight at ho
    change o < port.submitted + 1 ∧ _
    rcases List.mem_cons.mp ho with rfl | ho
    · refine ⟨Nat.lt_succ_self _, ?_⟩
      dsimp only
      rw [Function.update_self]
      exact hs
    · dsimp only
      rw [h.op_submitted ho]
      exact ⟨(h.flight o ho).1.trans (Nat.lt_succ_self _), (h.flight o ho).2⟩
  · exact List.nodup_cons.mpr ⟨fun hmem => (h.flight _ hmem).1.false, h.nodup⟩
  · intro t
    have hold :
        port.inFlight.countP (fun o =>
          (Function.update port.op port.submitted (newOp s d) o).sockData = t) =
        port.pollCount t := by
      apply List.countP_congr
      intro o ho
      rw [h.op_submitted ho]
    have hbound := h.count t
    change (((port.submitted :: port.inFlight).countP fun o =>
      (Function.update port.op port.submitted (newOp s d) o).sockData = t : ℕ) : ℤ) ≤
        ((port.setSockData s (polling d)).sockData t).opCount
    rw [List.countP_cons, hold, Function.update_self]
    by_cases ht : t = s
    · subst t
      rw [setSockData_self]
      change _ ≤ d.opCount + 1
      split_ifs <;> omega
    · have hother : ¬ decide ((newOp s d).sockData = t) = true := by simp [newOp, Ne.symm ht]
      rw [setSockData_of_ne ht, if_neg hother]
      exact hbound
  · intro t hgen
    by_cases ht : t = s
    · subst t
      refine ⟨port.submitted, List.mem_cons_self, ?_⟩
      dsimp only
      rw [Function.update_self, setSockData_self]
      exact ⟨rfl, rfl, rfl⟩
    · dsimp only at hgen ⊢
      rw [setSockData_of_ne ht] at hgen ⊢
      obtain ⟨o, ho, hop⟩ := h.newest t hgen
      refine ⟨o, List.mem_cons_of_mem _ ho, ?_⟩
      rw [h.op_submitted ho]
      exact hop

theorem Valid.started (h : port.Valid) (hs : s < port.allocated) : (port.started s).Valid := by
  have hstarted := h.started_setSockData hs rfl rfl
  rwa [setSockData_eq_self] at hstarted

theorem submit_cases (port : EpollPort P) (s : ℕ) :
    port.refused port.attempted = true ∧
        port.submit s = ({ port with attempted := port.attempted + 1 }, false) ∨
      port.refused port.attempted = false ∧ port.submit s = (port.started s, true) := by
  unfold submit
  by_cases h : port.refused port.attempted
  · exact .inl ⟨h, if_pos h⟩
  · exact .inr ⟨Bool.eq_false_iff.mpr h, if_neg h⟩

theorem register_cases (port : EpollPort P) (s : ℕ) (events : Events) (data : P) :
    port.register s events data = none ∨ port.register s events data =
      some ((port.setSockData s { port.sockData s with
        registeredEvents := events ||| EPOLLERR ||| EPOLLHUP
        userData := some data }).started s) := by
  unfold register
  obtain ⟨-, h⟩ | ⟨-, h⟩ := submit_cases (port.setSockData s { port.sockData s with
    registeredEvents := events ||| EPOLLERR ||| EPOLLHUP, userData := some data }) s <;> rw [h]
  · exact .inl rfl
  · exact .inr rfl

theorem Valid.find_lt (h : port.Valid) (hs : port.find s) : s < port.allocated :=
  (h.tree _ s hs).1

/-- What `epoll_add` and `epoll_mod` leave: the socket is registered as `s` with new events, and
one more poll is in flight, for `s`. -/
structure Registers (port : EpollPort P) (fd : ℕ) (events : Events) (data : P) (s : ℕ)
    (port' : EpollPort P) : Prop where
  valid : port'.Valid
  known : port.sockDataTree fd = some s ∨
    port.sockDataTree fd = none ∧ s = port.allocated
  tree : port'.sockDataTree = Function.update port.sockDataTree fd (some s)
  attn : port'.attnList = port.attnList
  data : ∃ d, port'.sockData = Function.update port.sockData s (polling d) ∧
    d.sock = fd ∧ d.userData = some data ∧
    d.registeredEvents = events ||| EPOLLERR ||| EPOLLHUP ∧
    d.opGeneration = (if port.sockDataTree fd = some s then (port.sockData s).opGeneration else 0) ∧
    port'.op = Function.update port.op port.submitted (newOp s d)
  inFlight : port'.inFlight = port.submitted :: port.inFlight
  submitted : port'.submitted = port.submitted + 1
  allocated : port.allocated ≤ port'.allocated
  deleted : port'.deleted = port.deleted

theorem Valid.insert (h : port.Valid) {sock : ℕ} (hsock : port.sockDataTree sock = none) :
    Valid { port.setSockData port.allocated ⟨sock, 0, 0, none, 0⟩ with
      allocated := port.allocated + 1
      sockDataTree := Function.update port.sockDataTree sock (some port.allocated) } := by
  have hfresh : ∀ t < port.allocated, t ≠ port.allocated := fun t ht => ht.ne
  refine ⟨?_, ?_, h.attnNodup, ?_, h.nodup, ?_, ?_⟩
  · intro fd t ht
    dsimp only at ht ⊢
    by_cases hfd : fd = sock
    · subst fd
      rw [Function.update_self] at ht
      obtain rfl := Option.some.inj ht
      exact ⟨Nat.lt_succ_self _, by rw [setSockData_self]⟩
    · rw [Function.update_of_ne hfd] at ht
      obtain ⟨hlt, hsame⟩ := h.tree fd t ht
      rw [setSockData_of_ne (hfresh t hlt)]
      exact ⟨hlt.trans (Nat.lt_succ_self _), hsame⟩
  · intro t ht
    have hfind := h.attn t ht
    unfold find at hfind ⊢
    have hne : (port.sockData t).sock ≠ sock := by
      intro heq
      rw [heq, hsock] at hfind
      cases hfind
    dsimp only
    rw [setSockData_of_ne (hfresh t (h.find_lt (h.attn t ht))), Function.update_of_ne hne]
    exact hfind
  · intro o ho
    exact ⟨(h.flight o ho).1, (h.flight o ho).2.trans (Nat.lt_succ_self _)⟩
  · intro t
    by_cases ht : t = port.allocated
    · subst t
      have hzero : port.pollCount port.allocated = 0 := by
        apply List.countP_eq_zero.mpr
        intro o ho
        simpa using (h.flight o ho).2.ne
      change (port.pollCount port.allocated : ℤ) ≤ _
      dsimp only
      rw [hzero, setSockData_self]
      exact le_rfl
    · dsimp only
      rw [setSockData_of_ne ht]
      exact h.count t
  · intro t hgen
    by_cases ht : t = port.allocated
    · subst t
      dsimp only at hgen
      rw [setSockData_self] at hgen
      exact absurd rfl hgen
    · dsimp only at hgen ⊢
      rw [setSockData_of_ne ht] at hgen ⊢
      exact h.newest t hgen

theorem Valid.epollAdd (h : port.Valid) {fd : ℕ} (events : Events) (data : P)
    (hfd : port.sockDataTree fd = none) : port.epollAdd fd events data = none ∨
    ∃ port', port.epollAdd fd events data = some port' ∧
      port.Registers fd events data port.allocated port' := by
  let d : EpollSockData P := { sock := fd, registeredEvents := events ||| EPOLLERR ||| EPOLLHUP,
                               opGeneration := 0, userData := some data, opCount := 0 }
  have hvalid := (h.insert hfd).started_setSockData (d := d) (Nat.lt_succ_self port.allocated)
    (by dsimp only; rw [setSockData_self]) (by dsimp only; rw [setSockData_self])
  unfold EpollPort.epollAdd
  rw [hfd]
  dsimp only
  obtain hnone | hsome := register_cases { port.setSockData port.allocated ⟨fd, 0, 0, none, 0⟩ with
    allocated := port.allocated + 1
    sockDataTree := Function.update port.sockDataTree fd (some port.allocated) } port.allocated
    events data
  · exact .inl hnone
  · rw [hsome]
    dsimp only at hvalid ⊢
    rw [setSockData_self]
    refine .inr ⟨_, rfl, hvalid, .inr ⟨hfd, rfl⟩, rfl, rfl, ?_, rfl, rfl, Nat.le_succ _, rfl⟩
    refine ⟨d, ?_, rfl, rfl, rfl, ?_, ?_⟩
    · rw [EpollPort.started_setSockData]
      unfold setSockData
      dsimp only
      rw [Function.update_idem]
    · rw [if_neg (by rw [hfd]; nofun)]
    · rw [EpollPort.started_setSockData]
      rfl

theorem Valid.epollMod (h : port.Valid) (fd : ℕ) (events : Events) (data : P) :
    port.epollMod fd events data = none ∨ ∃ s port', port.epollMod fd events data = some port' ∧
      port.Registers fd events data s port' := by
  unfold EpollPort.epollMod
  cases hfd : port.sockDataTree fd with
  | none =>
    obtain hnone | ⟨port', hport', hregisters⟩ := h.epollAdd events data hfd
    · exact .inl hnone
    · exact .inr ⟨_, port', hport', hregisters⟩
  | some s =>
    obtain ⟨hs, hsock⟩ := h.tree fd s hfd
    dsimp only
    obtain hnone | hsome := register_cases port s events data
    · exact .inl hnone
    · refine .inr ⟨s, _, hsome, h.started_setSockData hs rfl rfl, .inl hfd, ?_, rfl, ?_, rfl, rfl,
        le_rfl, rfl⟩
      · exact (Function.update_eq_self_iff.mpr hfd.symm).symm
      · refine ⟨{ port.sockData s with
          registeredEvents := events ||| EPOLLERR ||| EPOLLHUP, userData := some data }, ?_, hsock,
          rfl, rfl, (if_pos hfd).symm, ?_⟩
        · rw [EpollPort.started_setSockData]
          rfl
        · rw [EpollPort.started_setSockData]

theorem Valid.remove (h : port.Valid) (hs : port.find s) : (port.remove s).Valid := by
  refine ⟨?_, ?_, h.attnNodup.erase s, h.flight, h.nodup, h.count, h.newest⟩
  · intro fd t ht
    change Function.update port.sockDataTree (port.sockData s).sock none fd = some t at ht
    by_cases hfd : fd = (port.sockData s).sock
    · subst fd
      rw [Function.update_self] at ht
      cases ht
    · rw [Function.update_of_ne hfd] at ht
      exact h.tree fd t ht
  · intro t ht
    obtain ⟨hne, hmem⟩ := h.attnNodup.mem_erase_iff.mp ht
    have hfind := h.attn t hmem
    change Function.update port.sockDataTree (port.sockData s).sock none (port.sockData t).sock =
      some t
    rw [Function.update_of_ne]
    · exact hfind
    · intro heq
      unfold find at hfind hs
      rw [heq, hs] at hfind
      exact hne (Option.some.inj hfind).symm

/-- `epoll_del`, where -1 leaves the port. -/
def delete (port : EpollPort P) (fd : ℕ) : EpollPort P := (port.epollDel fd).getD port

theorem delete_sockData (fd : ℕ) : (port.delete fd).sockData = port.sockData := by
  unfold delete epollDel
  cases port.sockDataTree fd <;> rfl

theorem delete_polls (port : EpollPort P) (fd : ℕ) : (port.delete fd).inFlight = port.inFlight ∧
    (port.delete fd).op = port.op ∧ (port.delete fd).submitted = port.submitted := by
  unfold delete epollDel
  cases port.sockDataTree fd <;> exact ⟨rfl, rfl, rfl⟩

theorem Valid.delete_tree (h : port.Valid) (fd : ℕ) :
    (port.delete fd).sockDataTree = Function.update port.sockDataTree fd none := by
  unfold delete epollDel
  cases hfd : port.sockDataTree fd with
  | none => exact (Function.update_eq_self_iff.mpr hfd.symm).symm
  | some d =>
    change Function.update port.sockDataTree (port.sockData d).sock none = _
    rw [(h.tree fd d hfd).2]

theorem Valid.mem_delete (h : port.Valid) {fd fd' : ℕ} (hd : port.sockDataTree fd' = some t)
    (hne : fd' ≠ fd) : t ∈ (port.delete fd).attnList ↔ t ∈ port.attnList := by
  unfold delete epollDel
  cases hfd : port.sockDataTree fd with
  | none => exact Iff.rfl
  | some d =>
    have htd : t ≠ d := by
      rintro rfl
      exact hne ((h.tree fd' t hd).2.symm.trans (h.tree fd t hfd).2)
    exact List.mem_erase_of_ne htd

theorem Valid.delete (h : port.Valid) (fd : ℕ) : (port.delete fd).Valid := by
  unfold EpollPort.delete epollDel
  cases hfd : port.sockDataTree fd with
  | none => exact h
  | some d =>
    apply h.remove
    unfold find
    rw [(h.tree fd d hfd).2, hfd]

theorem Valid.addAttn (h : port.Valid) (hs : port.find s) : (port.addAttn s).Valid := by
  refine ⟨h.tree, ?_, h.attnNodup.insert, h.flight, h.nodup, h.count, h.newest⟩
  intro t ht
  rcases List.mem_insert_iff.mp ht with rfl | hmem
  · exact hs
  · exact h.attn t hmem

end EpollPort
end MuduoWindows.Net
