import MuduoWindows.Net.Epoll.Interests

/-! # Generations

`epoll_wait` tells that a poll is superseded from its generation. That is right as long as no poll
of a socket outlives the newest one, whose completion resets the generation.
-/

namespace MuduoWindows.Net
open Library

namespace EpollPort
variable {P : Type} {port port' : EpollPort P} {s t o : ℕ} {d : EpollSockData P}
  {entry : Completion} {event : Option (EpollEvent P)}

/-- Another poll has been submitted for the socket since. -/
def Superseded (port : EpollPort P) (o : ℕ) : Prop :=
  ∃ o' < port.submitted, o < o' ∧ (port.op o').sockData = (port.op o).sockData

instance (port : EpollPort P) (o : ℕ) : Decidable (port.Superseded o) :=
  inferInstanceAs (Decidable (∃ o' < _, _))

/-- A poll of the registered socket is still in flight after the newest one has been dequeued. -/
def Stale (port : EpollPort P) (t : ℕ) : Prop :=
  port.find t ∧ (port.sockData t).opGeneration = 0 ∧ ∃ o ∈ port.inFlight, (port.op o).sockData = t

instance (port : EpollPort P) (t : ℕ) : Decidable (port.Stale t) :=
  inferInstanceAs (Decidable (_ ∧ _))

/-- The poll is the last one submitted for the socket, and has its greatest generation. -/
structure Leading (port : EpollPort P) (t o : ℕ) : Prop where
  inFlight : o ∈ port.inFlight
  sockData : (port.op o).sockData = t
  generation : (port.op o).generation = (port.sockData t).opGeneration
  last : ∀ o' < port.submitted, (port.op o').sockData = t → o' ≤ o
  others : ∀ o' ∈ port.inFlight, (port.op o').sockData = t → o' ≠ o →
    (port.op o').generation < (port.sockData t).opGeneration

/-- Every registered socket that has a generation has a leading poll. -/
def Ordered (port : EpollPort P) : Prop :=
  ∀ t, port.find t → (port.sockData t).opGeneration ≠ 0 → ∃ o, port.Leading t o

theorem create_ordered {refused : ℕ → Bool} : (create refused : EpollPort P).Ordered :=
  fun _ h => nomatch h

theorem Ordered.generation_lt (h : port.Ordered) (hfind : port.find (port.op o).sockData)
    (hgen : (port.owner o).opGeneration ≠ 0) (ho : o ∈ port.inFlight) (hs : port.Superseded o) :
    (port.op o).generation < (port.owner o).opGeneration := by
  obtain ⟨o', hlead⟩ := h _ hfind hgen
  obtain ⟨later, hsubmitted, hlt, hop⟩ := hs
  apply hlead.others o ho rfl
  rintro rfl
  exact absurd (hlead.last later hsubmitted hop) (not_le.mpr hlt)

theorem Leading.spared (h : port.Leading t o) (hvalid : port'.Valid)
    (hs : port.Spares t port') : port'.Leading t o := by
  obtain ⟨hmem, hsame⟩ := hs.polls o h.inFlight h.sockData
  refine ⟨hmem, ?_, ?_, ?_, ?_⟩
  · rw [hsame]
    exact h.sockData
  · rw [hsame, hs.data]
    exact h.generation
  · intro o' hlt hop
    obtain ⟨hlt', hsame', -⟩ := hs.only o' hlt hop
    rw [hsame'] at hop
    exact h.last o' hlt' hop
  · intro o' ho' hop hne
    obtain ⟨-, hsame', hold⟩ := hs.only o' (hvalid.flight o' ho').1 hop
    rw [hsame', hs.data]
    rw [hsame'] at hop
    exact h.others o' (hold ho') hop hne

theorem Ordered.bounded (h : port.Ordered) (hfind : port.find s) (hstale : ¬ port.Stale s)
    (ho : o ∈ port.inFlight) (hop : (port.op o).sockData = s) :
    (port.op o).generation ≤ (port.sockData s).opGeneration := by
  have hgen : (port.sockData s).opGeneration ≠ 0 := fun hzero => hstale ⟨hfind, hzero, o, ho, hop⟩
  obtain ⟨o', hlead⟩ := h s hfind hgen
  by_cases hne : o = o'
  · subst o'
    exact hlead.generation.le
  · exact (hlead.others o ho hop hne).le

theorem Valid.leading_submitted (h : port.Valid) (hwrap : d.opGeneration + 1 < 2 ^ 32)
    (hbound : ∀ o ∈ port.inFlight, (port.op o).sockData = s →
      (port.op o).generation ≤ d.opGeneration)
    (hdata : port'.sockData s = polling d)
    (hop : port'.op = Function.update port.op port.submitted (newOp s d))
    (hflight : port'.inFlight = port.submitted :: port.inFlight)
    (hsubmitted : port'.submitted = port.submitted + 1) : port'.Leading s port.submitted := by
  have hself : port'.op port.submitted = newOp s d := by rw [hop, Function.update_self]
  have hgeneration : (port'.sockData s).opGeneration = d.opGeneration + 1 := by
    rw [hdata]
    exact Nat.mod_eq_of_lt hwrap
  refine ⟨?_, ?_, ?_, ?_, ?_⟩
  · rw [hflight]
    exact List.mem_cons_self
  · rw [hself]
    rfl
  · rw [hself, hdata]
    rfl
  · intro o' hlt _
    rw [hsubmitted] at hlt
    omega
  · intro o' ho' hop' hne
    rw [hflight] at ho'
    have hold := (List.mem_cons.mp ho').resolve_left hne
    rw [hop, h.op_submitted hold] at hop' ⊢
    have hle := hbound o' hold hop'
    omega

theorem Ordered.registers {fd : ℕ} {events : Events} {data : P} (h : port.Ordered)
    (hport : port.Valid) (hregisters : port.Registers fd events data s port')
    (hfree : port.sockDataTree fd = some s →
      ¬ port.Stale s ∧ (port.sockData s).opGeneration + 1 < 2 ^ 32) : port'.Ordered := by
  obtain ⟨d, hdata, -, -, -, hgeneration, hop⟩ := hregisters.data
  intro t hfind hgen
  by_cases ht : t = s
  · subst t
    refine ⟨port.submitted, hport.leading_submitted ?_ ?_ ?_ hop hregisters.inFlight
      hregisters.submitted⟩
    · rw [hgeneration]
      split_ifs with hknown
      · exact (hfree hknown).2
      · norm_num
    · intro o ho hso
      rw [hgeneration]
      split_ifs with hknown
      · apply h.bounded _ (hfree hknown).1 ho hso
        unfold find
        rw [(hport.tree fd s hknown).2]
        exact hknown
      · rcases hregisters.known with hknown' | ⟨-, hfresh⟩
        · exact absurd hknown' hknown
        · exact absurd (hso.trans hfresh) (hport.flight o ho).2.ne
    · rw [hdata, Function.update_self]
  · have hspares := hregisters.spares hport ht
    have hsock : (port.sockData t).sock ≠ fd := by
      intro heq
      unfold find at hfind
      rw [hspares.data, hregisters.tree, heq, Function.update_self] at hfind
      exact ht (Option.some.inj hfind).symm
    unfold find at hfind
    rw [hspares.data, hregisters.tree, Function.update_of_ne hsock] at hfind
    rw [hspares.data] at hgen
    obtain ⟨o, hlead⟩ := h t hfind hgen
    exact ⟨o, hlead.spared hregisters.valid hspares⟩

theorem Ordered.delete (h : port.Ordered) (hport : port.Valid) (fd : ℕ) :
    (port.delete fd).Ordered := by
  intro t hfind hgen
  unfold find at hfind
  rw [delete_sockData, hport.delete_tree] at hfind
  rw [delete_sockData] at hgen
  have hsock : (port.sockData t).sock ≠ fd := by
    intro heq
    rw [heq, Function.update_self] at hfind
    cases hfind
  rw [Function.update_of_ne hsock] at hfind
  obtain ⟨o, hlead⟩ := h t hfind hgen
  exact ⟨o, hlead.spared (hport.delete fd) (hport.delete_spares hfind hsock)⟩

theorem Ordered.submitIdle (h : port.Ordered) (hport : port.Valid) {rest : List ℕ}
    (hattn : port.attnList = s :: rest) :
    Ordered { port.submitIdle s with attnList := rest } := by
  have hfinds : port.find s := hport.attn s (by rw [hattn]; exact List.mem_cons_self)
  intro t hfind hgen
  by_cases ht : t = s
  · subst t
    obtain ⟨hcount, -, hsame⟩ | ⟨-, n, hsame⟩ := port.submitIdle_cases s
    · -- no poll of the socket is in flight, so that it has no generation
      have hidle := hport.idle hcount
      have hzero : (port.sockData s).opGeneration = 0 := by
        by_contra hne
        obtain ⟨o, ho, hop, -⟩ := hport.newest s hne
        exact hidle o ho hop
      rw [hsame]
      refine ⟨port.submitted, hport.leading_submitted (d := port.sockData s) ?_ ?_ ?_ rfl rfl rfl⟩
      · rw [hzero]
        norm_num
      · exact fun o ho hop => absurd hop (hidle o ho)
      · exact setSockData_self
    · rw [hsame] at hfind hgen ⊢
      obtain ⟨o, hlead⟩ := h s hfind hgen
      exact ⟨o, hlead.inFlight, hlead.sockData, hlead.generation, hlead.last, hlead.others⟩
  · have hspares := hport.submitIdle_spares hattn ht
    have hvalid := (hport.submitIdle hfinds).dropAttn (submitIdle_attn.trans hattn)
    unfold find at hfind
    rw [hspares.data] at hfind hgen
    have htree : ({ port.submitIdle s with attnList := rest } : EpollPort P).sockDataTree =
        port.sockDataTree := submitIdle_tree
    rw [htree] at hfind
    obtain ⟨o, hlead⟩ := h t hfind hgen
    exact ⟨o, hlead.spared hvalid hspares⟩

theorem Ordered.submitAll (h : port.Ordered) (hport : port.Valid) : port.submitAll.Ordered := by
  refine (submitAll_induction (motive := fun port' => port'.Valid ∧ port'.Ordered) ?_
    ⟨hport, h⟩).2
  rintro port' s rest ⟨hvalid, hordered⟩ hattn
  have hfind : port'.find s := hvalid.attn s (by rw [hattn]; exact List.mem_cons_self)
  exact ⟨(hvalid.submitIdle hfind).dropAttn (submitIdle_attn.trans hattn),
    hordered.submitIdle hvalid hattn⟩

/-- The generation of the entry's socket is kept if the poll is superseded and reset otherwise. -/
theorem Outcome.generation (hout : port.Outcome entry port' event) :
    ((port.op entry.op).generation < (port.owner entry.op).opGeneration ∧
      (port'.sockData (port.op entry.op).sockData).opGeneration =
        (port.owner entry.op).opGeneration) ∨
    (port'.sockData (port.op entry.op).sockData).opGeneration = 0 := by
  cases hout with
  | superseded hgen =>
    refine .inl ⟨hgen, ?_⟩
    rw [take_self]
  | unregistered =>
    apply Or.inr
    change ((port.take entry.op _).sockData _).opGeneration = 0
    rw [take_self]
    rfl
  | failed =>
    apply Or.inr
    rw [take_self]
    rfl
  | closed =>
    apply Or.inr
    change ((port.take entry.op _).sockData _).opGeneration = 0
    rw [take_self]
    rfl
  | reported =>
    apply Or.inr
    rw [report_eq]
    change ((port.take entry.op _).sockData _).opGeneration = 0
    rw [take_self]
    rfl

theorem Outcome.flight (hout : port.Outcome entry port' event) :
    port'.inFlight = port.inFlight.erase entry.op ∧ port'.op = port.op ∧
      port'.submitted = port.submitted := by
  cases hout with
  | superseded | unregistered | failed | closed => exact ⟨rfl, rfl, rfl⟩
  | reported =>
    rw [report_eq]
    exact ⟨rfl, rfl, rfl⟩

theorem Outcome.sock (hout : port.Outcome entry port' event) (t : ℕ) :
    (port'.sockData t).sock = (port.sockData t).sock := by
  cases hout with
  | superseded =>
    exact take_sock (d := { port.owner entry.op with
      opCount := (port.owner entry.op).opCount - 1 }) rfl t
  | failed => exact take_sock (d := forgotten (port.owner entry.op)) rfl t
  | unregistered | closed => exact take_sock (d := settled (port.owner entry.op)) rfl t
  | reported =>
    rw [report_eq]
    exact take_sock (d := withoutOut (port.owner entry.op)) rfl t

theorem Outcome.find (hout : port.Outcome entry port' event) (hfind : port'.find t) :
    port.find t := by
  unfold EpollPort.find at hfind
  rw [hout.sock] at hfind
  exact hout.frame.1 _ _ hfind

theorem Ordered.dequeued (h : port.Ordered) (hport : port.Valid) (ho : entry.op ∈ port.inFlight)
    (hout : port.Outcome entry port' event) : port'.Ordered := by
  intro t hfind hgen
  have hold := hout.find hfind
  by_cases ht : t = (port.op entry.op).sockData
  · subst t
    obtain ⟨hlt, hsame⟩ := hout.generation.resolve_right hgen
    rw [hsame] at hgen
    obtain ⟨o, hlead⟩ := h _ hold hgen
    obtain ⟨hflight, hop, hsubmitted⟩ := hout.flight
    have hne : o ≠ entry.op := by
      rintro rfl
      exact hlt.ne hlead.generation
    refine ⟨o, ?_, ?_, ?_, ?_, ?_⟩
    · rw [hflight]
      exact (List.mem_erase_of_ne hne).mpr hlead.inFlight
    · rw [hop]
      exact hlead.sockData
    · rw [hop, hsame]
      exact hlead.generation
    · rw [hop, hsubmitted]
      exact hlead.last
    · rw [hflight, hop, hsame]
      exact fun o' ho' => hlead.others o' (List.mem_of_mem_erase ho')
  · have hspares := hout.spares ht
    rw [hspares.data] at hgen
    obtain ⟨o, hlead⟩ := h t hold hgen
    exact ⟨o, hlead.spared (hout.valid hport ho) hspares⟩

end EpollPort
end MuduoWindows.Net
