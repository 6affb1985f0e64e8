import MuduoWindows.Net.Epoll.Generations

/-! # Deleted socket data

A socket data is deleted when it counts no poll and is not registered, so that no poll in flight
and no socket refers to it afterwards.
-/

namespace MuduoWindows.Net
open Library

namespace EpollPort
variable {P : Type} {port port' : EpollPort P} {s t o : ℕ} {entry : Completion}
  {event : Option (EpollEvent P)}

/-- Nothing refers to a socket data that has been deleted. -/
structure Abandoned (port : EpollPort P) (s : ℕ) : Prop where
  allocated : s < port.allocated
  tree : ∀ fd, port.sockDataTree fd ≠ some s
  flight : ∀ o ∈ port.inFlight, (port.op o).sockData ≠ s

def Sound (port : EpollPort P) : Prop := ∀ s ∈ port.deleted, port.Abandoned s

theorem create_sound {refused : ℕ → Bool} : (create refused : EpollPort P).Sound := nofun

theorem Abandoned.registers {fd : ℕ} {events : Events} {data : P} (h : port.Abandoned s)
    (hport : port.Valid) (hregisters : port.Registers fd events data t port') :
    port'.Abandoned s := by
  have hne : t ≠ s := by
    rintro rfl
    rcases hregisters.known with hknown | ⟨-, hfresh⟩
    · exact h.tree fd hknown
    · exact h.allocated.ne hfresh
  obtain ⟨d, -, -, -, -, -, hop⟩ := hregisters.data
  refine ⟨h.allocated.trans_le hregisters.allocated, ?_, ?_⟩
  · intro fd' hd
    rw [hregisters.tree] at hd
    by_cases hfd : fd' = fd
    · subst fd'
      rw [Function.update_self] at hd
      exact hne (Option.some.inj hd)
    · rw [Function.update_of_ne hfd] at hd
      exact h.tree fd' hd
  · intro o ho
    rw [hregisters.inFlight] at ho
    rw [hop]
    rcases List.mem_cons.mp ho with rfl | ho
    · rw [Function.update_self]
      exact hne
    · rw [hport.op_submitted ho]
      exact h.flight o ho

theorem Sound.registers {fd : ℕ} {events : Events} {data : P} (h : port.Sound)
    (hport : port.Valid) (hregisters : port.Registers fd events data t port') : port'.Sound := by
  intro s hs
  rw [hregisters.deleted] at hs
  exact (h s hs).registers hport hregisters

theorem delete_deleted (port : EpollPort P) (fd : ℕ) : (port.delete fd).deleted = port.deleted ∧
    (port.delete fd).allocated = port.allocated := by
  unfold delete epollDel
  cases port.sockDataTree fd <;> exact ⟨rfl, rfl⟩

theorem Sound.delete (h : port.Sound) (hport : port.Valid) (fd : ℕ) : (port.delete fd).Sound := by
  obtain ⟨hdeleted, hallocated⟩ := delete_deleted port fd
  obtain ⟨hflight, hop, -⟩ := delete_polls port fd
  intro s hs
  rw [hdeleted] at hs
  obtain ⟨hlt, htree, hpolls⟩ := h s hs
  refine ⟨by rwa [hallocated], ?_, by rwa [hflight, hop]⟩
  intro fd' hd
  rw [hport.delete_tree] at hd
  by_cases hfd : fd' = fd
  · subst fd'
    rw [Function.update_self] at hd
    cases hd
  · rw [Function.update_of_ne hfd] at hd
    exact htree fd' hd

theorem Sound.submitIdle (h : port.Sound) (hport : port.Valid) {rest : List ℕ}
    (hattn : port.attnList = s :: rest) :
    Sound { port.submitIdle s with attnList := rest } := by
  have hfind : port.find s := hport.attn s (by rw [hattn]; exact List.mem_cons_self)
  obtain ⟨-, -, heq⟩ | ⟨-, n, heq⟩ := port.submitIdle_cases s <;> rw [heq]
  · intro t ht
    obtain ⟨hlt, htree, hpolls⟩ := h t ht
    refine ⟨hlt, htree, ?_⟩
    intro o ho
    change o ∈ port.submitted :: port.inFlight at ho
    change (Function.update port.op port.submitted (newOp s (port.sockData s)) o).sockData ≠ t
    rcases List.mem_cons.mp ho with rfl | ho
    · rw [Function.update_self]
      rintro rfl
      exact htree _ hfind
    · rw [hport.op_submitted ho]
      exact hpolls o ho
  · intro t ht
    obtain ⟨hlt, htree, hpolls⟩ := h t ht
    exact ⟨hlt, htree, hpolls⟩

theorem Sound.submitAll (h : port.Sound) (hport : port.Valid) : port.submitAll.Sound := by
  refine (submitAll_induction (motive := fun port' => port'.Valid ∧ port'.Sound) ?_ ⟨hport, h⟩).2
  rintro port' s rest ⟨hvalid, hsound⟩ hattn
  have hfind : port'.find s := hvalid.attn s (by rw [hattn]; exact List.mem_cons_self)
  exact ⟨(hvalid.submitIdle hfind).dropAttn (submitIdle_attn.trans hattn),
    hsound.submitIdle hvalid hattn⟩

/-- Only the socket data of the entry can be deleted, and only if it counts no poll and is not
registered. -/
theorem Outcome.deleted (hport : port.Valid) (hout : port.Outcome entry port' event)
    (hs : s ∈ port'.deleted) : s ∈ port.deleted ∨ (s = (port.op entry.op).sockData ∧
      (port'.sockData s).opCount = 0 ∧ ∀ fd, port'.sockDataTree fd ≠ some s) := by
  have hsock := hout.sock s
  cases hout with
  | superseded | failed => exact .inl hs
  | unregistered _ hfind =>
    change s ∈ if ((port.take entry.op _).sockData _).opCount = 0 then _ else _ at hs
    split_ifs at hs with hcount
    · rcases List.mem_cons.mp hs with rfl | hs
      · refine .inr ⟨rfl, hcount, ?_⟩
        intro fd hd
        apply hfind
        unfold EpollPort.find
        rw [(hport.tree fd _ hd).2]
        exact hd
      · exact .inl hs
    · exact .inl hs
  | closed _ hfind =>
    change s ∈ if ((port.take entry.op _).sockData _).opCount = 0 then _ else _ at hs
    split_ifs at hs with hcount
    · rcases List.mem_cons.mp hs with rfl | hs
      · refine .inr ⟨rfl, hcount, ?_⟩
        intro fd hd
        change Function.update port.sockDataTree
          ((port.take entry.op _).sockData _).sock none fd = _ at hd
        by_cases hfd : fd = ((port.take entry.op (settled (port.owner entry.op))).sockData
            (port.op entry.op).sockData).sock
        · rw [hfd, Function.update_self] at hd
          cases hd
        · rw [Function.update_of_ne hfd] at hd
          apply hfd
          rw [← (hport.tree fd _ hd).2]
          exact hsock.symm
      · exact .inl hs
    · exact .inl hs
  | reported =>
    rw [report_eq] at hs
    exact .inl hs

theorem Outcome.allocated (hout : port.Outcome entry port' event) :
    port'.allocated = port.allocated := by
  cases hout with
  | superseded | unregistered | failed | closed => rfl
  | reported => rw [report_eq]; rfl

theorem Sound.dequeued (h : port.Sound) (hport : port.Valid) (ho : entry.op ∈ port.inFlight)
    (hout : port.Outcome entry port' event) : port'.Sound := by
  intro s hs
  obtain ⟨hflight, hop, -⟩ := hout.flight
  rcases hout.deleted hport hs with hold | ⟨rfl, hcount, htree⟩
  · obtain ⟨hlt, htree, hpolls⟩ := h s hold
    refine ⟨by rwa [hout.allocated], fun fd hd => htree fd (hout.frame.1 fd s hd), ?_⟩
    rw [hflight, hop]
    exact fun o ho => hpolls o (List.mem_of_mem_erase ho)
  · refine ⟨?_, htree, (hout.valid hport ho).idle hcount⟩
    rw [hout.allocated]
    exact (hport.flight _ ho).2

end EpollPort
end MuduoWindows.Net
