import MuduoWindows.Net.TcpServer

/-! # The stages of a server's connection

A connection goes through five stages. The stage fixes its state, whether the map holds it, what
has happened to it, and which one of its three control functors is in flight. The functions of
the connection are described as steps between stages.
-/

namespace MuduoWindows.Net
open Library

inductive Stage where
  | fresh
  | up
  | closing
  | removed
  | destroyed
  deriving DecidableEq

namespace Stage
variable {L : Type}

/-- The map holds connections up to their removal. -/
def listed : Stage → Bool
  | fresh | up | closing => true
  | removed | destroyed => false

/-- The milestones passed, for a connection of the loop `own`. -/
def history (base own : L) : Stage → List (Milestone L)
  | fresh => []
  | up | closing => [.established own]
  | removed => [.established own, .removed base]
  | destroyed => [.established own, .removed base, .destroyed own]

/-- The control functor in flight, with the loop whose queue it is in. -/
def awaits (base own : L) (p : ℕ) : Stage → Option (L × ServerFunctor)
  | fresh => some (own, .connectEstablished p)
  | closing => some (base, .removeConnectionInLoop p)
  | removed => some (own, .connectDestroyed p)
  | up | destroyed => none

end Stage

namespace TcpConnection

/-- A connection between two calls of its functions. -/
structure Between (c : TcpConnection) (g : Stage) : Prop where
  registered : c.Registered
  todo : c.todo = []
  pending : c.pendingFunctors = []
  close : c.callbacks.close = true
  fresh : g = .fresh → c.state = .kConnecting
  up : g = .up → c.state = .kConnected ∨ c.state = .kDisconnecting
  down : g ≠ .fresh → g ≠ .up → c.state = .kDisconnected
  interest : c.channel.events ≠ 0 ↔ g = .up
  known : g = .closing ∨ g = .removed → c.channel.index ≠ .kNew

/-- The connection with the tasks and functors that a call left handed on. -/
def handOn (c : TcpConnection) : TcpConnection := { c with todo := [], pendingFunctors := [] }

variable {c c' : TcpConnection}

theorem create_between (fd : ℕ) {callbacks : Callbacks} (highWaterMark : ℕ)
    (h : callbacks.close = true) : (create fd callbacks highWaterMark).Between .fresh :=
  ⟨rfl, rfl, rfl, h, fun _ => rfl, by simp, by simp, by simp [create, Channel.create], by simp⟩

theorem Between.handOn {g : Stage} (h : c.Between g) : c.handOn.Between g :=
  ⟨h.registered, rfl, rfl, h.close, h.fresh, h.up, h.down, h.interest, h.known⟩

theorem Between.connectEstablished (h : c.Between .fresh) :
    ∃ c', c.connectEstablished = .ok c' ∧ c'.handOn.Between .up ∧ c'.pendingFunctors = [] ∧
      ∀ task ∈ c'.todo, task = .user := by
  refine ⟨_, connectEstablished_eq h.registered (h.fresh rfl), ⟨updated_registered _ _, rfl, rfl,
    h.close, by simp, fun _ => .inl rfl, by simp, ?_, by simp⟩, h.pending, ?_⟩
  · refine iff_of_true ?_ rfl
    exact Channel.events_ne_zero (.inl Channel.isReading_enableReading)
  · intro task htask
    change task ∈ (if c.callbacks.connection then Task.user :: c.todo else c.todo) at htask
    rw [h.todo] at htask
    split_ifs at htask
    · exact List.mem_singleton.mp htask
    · exact absurd htask List.not_mem_nil

/-- `handleClose` of a connection that is up; the close callback is called behind the user. -/
theorem Between.handleClose (h : c.Between .up) :
    ∃ c', c.handleClose = .ok c' ∧ c'.handOn.Between .closing ∧ c'.pendingFunctors = [] ∧
      (c'.todo = [.user, .closeCallback] ∨ c'.todo = [.closeCallback]) := by
  have hup := h.up rfl
  refine ⟨c.closed, ?_, ⟨updated_registered _ _, rfl, rfl, h.close, by simp, by simp,
    fun _ _ => rfl, ?_, ?_⟩, h.pending, ?_⟩
  · unfold TcpConnection.handleClose
    rw [require_bind hup, update_eq (setState_registered.mpr h.registered) changes_disableAll,
      ok_bind, pure_eq_ok]
    rfl
  · exact iff_of_false (fun hne => hne rfl) (by simp)
  · intro _
    change EPollPoller.indexOf c.channel.disableAll ≠ .kNew
    unfold EPollPoller.indexOf
    split_ifs <;> simp
  · have htodo : c.closed.todo = if c.callbacks.connection then
        Task.user :: (if c.callbacks.close then Task.closeCallback :: c.todo else c.todo)
      else (if c.callbacks.close then Task.closeCallback :: c.todo else c.todo) := rfl
    rw [htodo, if_pos h.close, h.todo]
    split_ifs
    · exact .inl rfl
    · exact .inr rfl

theorem Between.handleRead (h : c.Between .up) :
    ∃ c', c.handleRead [] = .ok c' ∧ c'.handOn.Between .closing ∧ c'.pendingFunctors = [] ∧
      (c'.todo = [.user, .closeCallback] ∨ c'.todo = [.closeCallback]) := by
  obtain ⟨b, hb⟩ : ∃ b, c.inputBuffer.readFd [] = .ok (0, b) := by
    unfold Buffer.readFd
    dsimp only [List.length_nil]
    rw [if_pos (Nat.zero_le _)]
    exact ⟨_, rfl⟩
  have hinput : Between { c with inputBuffer := b } .up :=
    ⟨h.registered, h.todo, h.pending, h.close, h.fresh, h.up, h.down, h.interest, h.known⟩
  unfold TcpConnection.handleRead
  rw [hb, ok_bind]
  exact hinput.handleClose

theorem Between.forceClose {g : Stage} (h : c.Between g) :
    c.forceClose.handOn.Between g ∧ c.forceClose.todo = [] ∧
      (c.forceClose.pendingFunctors = [] ∨ c.forceClose.pendingFunctors = [.forceCloseInLoop]) := by
  unfold TcpConnection.forceClose
  split_ifs with hs
  · have hg : g = .up := by
      by_contra hne
      by_cases hfresh : g = .fresh
      · rw [h.fresh hfresh] at hs
        simp at hs
      · rw [h.down hfresh hne] at hs
        simp at hs
    refine ⟨⟨h.registered, rfl, rfl, h.close, by simp [hg], fun _ => .inr rfl, by simp [hg],
      h.interest, h.known⟩, h.todo, .inr ?_⟩
    change c.pendingFunctors ++ [ConnFunctor.forceCloseInLoop] = _
    rw [h.pending]
    rfl
  · exact ⟨⟨h.registered, rfl, rfl, h.close, h.fresh, h.up, h.down, h.interest, h.known⟩, h.todo,
      .inl h.pending⟩

/-- `forceCloseInLoop` closes a connection that is up and does nothing to another one. -/
theorem Between.forceCloseInLoop_up (h : c.Between .up) :
    c.forceCloseInLoop = c.handleClose := if_pos (h.up rfl)

theorem Between.forceCloseInLoop_other {g : Stage} (h : c.Between g) (hg : g ≠ .up) :
    c.forceCloseInLoop = .ok c := by
  refine if_neg ?_
  by_cases hfresh : g = .fresh
  · simp [h.fresh hfresh]
  · simp [h.down hfresh hg]

theorem Between.unlist (h : c.Between .closing) : c.Between .removed :=
  ⟨h.registered, h.todo, h.pending, h.close, by simp, by simp,
    fun _ _ => h.down (by simp) (by simp), h.interest.trans (by simp), fun _ => h.known (.inl rfl)⟩

/-- `connectDestroyed` of a removed connection leaves `channel_->remove()` to do. -/
theorem Between.connectDestroyed (h : c.Between .removed) :
    ∃ c', c.connectDestroyed = .ok c' ∧ c'.handOn.Between .removed ∧ c'.pendingFunctors = [] ∧
      c'.todo = [.remove] := by
  have hs : c.state ≠ .kConnected := by simp [h.down (by simp) (by simp)]
  refine ⟨{ c with destroyed := true, todo := .remove :: c.todo }, ?_, ⟨h.registered, rfl, rfl,
    h.close, h.fresh, h.up, h.down, h.interest, h.known⟩, h.pending, ?_⟩
  · rw [connectDestroyed_eq h.registered, if_neg hs]
  · rw [h.todo]

theorem Between.remove (h : c.Between .removed) :
    ∃ c', c.remove = .ok c' ∧ c'.Between .destroyed := by
  have h0 : c.channel.events = 0 := by
    by_contra hne
    cases h.interest.mp hne
  have hindex := h.known (.inr rfl)
  have hreg := h.registered
  unfold Registered EPollPoller.Registered at hreg
  rw [if_neg hindex] at hreg
  have hadded : c.channel.index = .kAdded ∨ c.channel.index = .kDeleted := by
    cases hi : c.channel.index with
    | kNew => exact absurd hi hindex
    | kAdded => exact .inl rfl
    | kDeleted => exact .inr rfl
  have hnone : c.channel.isNoneEvent = true := Channel.isNoneEvent_iff.mpr h0
  obtain ⟨c', hc'⟩ : ∃ c', c.remove = .ok c' := by
    unfold TcpConnection.remove
    rw [require_bind hnone, EPollPoller.removeChannel_eq hreg hnone hadded, ok_bind]
    exact ⟨_, rfl⟩
  refine ⟨c', hc', ?_⟩
  obtain ⟨-, rfl⟩ := remove_ok hc'
  refine ⟨?_, h.todo, h.pending, h.close, by simp, by simp, fun _ _ => h.down (by simp) (by simp),
    ?_, by simp⟩
  · unfold Registered EPollPoller.Registered removed
    rw [if_pos rfl]
    exact Function.update_self _ _ _
  · exact iff_of_false (fun hne => hne h0) (by simp)

end TcpConnection
end MuduoWindows.Net
