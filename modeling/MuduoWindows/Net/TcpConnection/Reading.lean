import MuduoWindows.Net.TcpConnection

/-! # What a connection makes of a read

`sockets::readv` does not look at the result of `WSARecv` and returns the byte count, which a failed
call leaves at 0: nothing is left of the failure behind it.
-/

namespace MuduoWindows.Net
open Library

namespace sockets

/-- What `WSARecv` does. -/
inductive WSARecv where
  | success (received : List UInt8)
  | socketError (error : Errno)
  deriving DecidableEq

/-- The bytes stored, whose number `bytesRead` is the result of `readv`. -/
def readv : WSARecv → List UInt8
  | .success received => received
  | .socketError _ => []

end sockets

namespace TcpConnection
open sockets

/-- What `handleRead` can call. -/
inductive ReadCall where
  | messageCallback
  | handleClose
  | handleError
  deriving DecidableEq

/-- The tests of `handleRead`. As `n` is unsigned the last branch is never taken. -/
def readCall (c : TcpConnection) (n : ℕ) : Option ReadCall :=
  if 0 < n then
    if c.callbacks.message then some .messageCallback else none
  else if n = 0 then
    some .handleClose
  else
    some .handleError

/-- `handleError` only logs. -/
def ReadCall.run (c : TcpConnection) : ReadCall → Result TcpConnection
  | .messageCallback => pure ({ c with todo := .user :: c.todo }.emit .messageCallback)
  | .handleClose => c.handleClose
  | .handleError => pure c

/-- `handleRead` up to its call. -/
def receive (c : TcpConnection) (r : WSARecv) : Result (Option ReadCall × TcpConnection) := do
  let (n, inputBuffer) ← c.inputBuffer.readFd (readv r)
  let c := { c with inputBuffer := inputBuffer }
  pure (c.readCall n, c)

/-- Data, the end of the stream and a failure go three ways. -/
def KeepsApart (c : TcpConnection) (r : WSARecv) : Prop :=
  ∃ call c', c.receive r = .ok (call, c') ∧
    (call = some .handleClose ↔ r = .success []) ∧
    (call = some .messageCallback ↔
      c.callbacks.message = true ∧ ∃ received, r = .success received ∧ received ≠ []) ∧
    (∀ received, r = .success received →
      c'.inputBuffer.readable = c.inputBuffer.readable ++ received) ∧
    ∀ error, r = .socketError error →
      call = some .handleError ∧ c.handleRead (readv r) = .ok c

variable {c : TcpConnection}

theorem handleRead_eq (c : TcpConnection) (r : WSARecv) :
    c.handleRead (readv r) = (do
      let (call, c) ← c.receive r
      match call with
      | none => pure c
      | some call => call.run c) := by
  unfold handleRead receive
  cases c.inputBuffer.readFd (readv r) with
  | error fault => rfl
  | ok read =>
    obtain ⟨n, b⟩ := read
    simp only [ok_bind, pure_eq_ok]
    unfold readCall
    by_cases hn : 0 < n
    · by_cases hm : c.callbacks.message = true
      · simp [hn, hm, ReadCall.run]
      · simp [hn, hm]
    · simp [Nat.eq_zero_of_not_pos hn, ReadCall.run]

theorem receive_eq (hv : c.inputBuffer.Valid) (r : WSARecv) :
    ∃ b, c.receive r = .ok (c.readCall (readv r).length, { c with inputBuffer := b }) ∧
      b.readable = c.inputBuffer.readable ++ readv r := by
  obtain ⟨b, hb, -, hq⟩ := Buffer.readFd_eq hv (readv r)
  refine ⟨b, ?_, hq⟩
  unfold receive
  rw [hb, ok_bind]
  rfl

theorem readCall_ne_handleError (n : ℕ) : c.readCall n ≠ some .handleError := by
  unfold readCall
  by_cases hn : 0 < n
  · rw [if_pos hn]
    split_ifs <;> simp
  · rw [if_neg hn, if_pos (Nat.eq_zero_of_not_pos hn)]
    simp

theorem readCall_eq_handleClose {n : ℕ} : c.readCall n = some .handleClose ↔ n = 0 := by
  unfold readCall
  by_cases hn : 0 < n
  · rw [if_pos hn]
    split_ifs <;> simp [hn.ne']
  · simp [Nat.eq_zero_of_not_pos hn]

theorem readCall_eq_messageCallback {n : ℕ} :
    c.readCall n = some .messageCallback ↔ c.callbacks.message = true ∧ n ≠ 0 := by
  unfold readCall
  by_cases hn : 0 < n
  · rw [if_pos hn]
    split_ifs with hm <;> simp [hm, hn.ne']
  · simp [Nat.eq_zero_of_not_pos hn]

theorem not_keepsApart (error : Errno) : ¬ c.KeepsApart (.socketError error) := by
  rintro ⟨call, c', hreceive, -, -, -, hfail⟩
  obtain ⟨rfl, -⟩ := hfail error rfl
  unfold receive at hreceive
  obtain ⟨⟨n, b⟩, -, hreceive⟩ := bind_eq_ok.mp hreceive
  exact readCall_ne_handleError n (Prod.mk.inj (Except.ok.inj hreceive)).1

/-- The outcomes of a read are kept apart exactly when `WSARecv` does not fail. -/
theorem handleRead_keepsApart (hv : c.inputBuffer.Valid) (r : WSARecv) :
    c.KeepsApart r ↔ ∀ error, r ≠ .socketError error := by
  constructor
  · rintro happart error rfl
    exact not_keepsApart error happart
  · intro hsuccess
    cases r with
    | socketError error => exact absurd rfl (hsuccess error)
    | success received =>
      obtain ⟨b, hreceive, hq⟩ := receive_eq hv (.success received)
      refine ⟨_, _, hreceive, ?_, ?_, ?_, fun error he => by cases he⟩
      · rw [readCall_eq_handleClose]
        simp [readv]
      · rw [readCall_eq_messageCallback]
        simp [readv]
      · rintro received' he
        cases he
        exact hq

/-- One byte arrives. -/
theorem handleRead_keepsApart_byte :
    (create 3 ⟨true, true, true, true, true⟩ 64).KeepsApart (.success [1]) :=
  (handleRead_keepsApart (Buffer.ofSize_valid _) _).mpr (by simp)

/-- A connection that is up closes when a read would block. -/
theorem handleRead_would_block : ∃ es c c',
    machine.Run Machine.Any (create 3 ⟨true, true, true, true, true⟩ 64) es c ∧
      c.state = .kConnected ∧ c.handleRead (readv (.socketError .WSAEWOULDBLOCK)) = .ok c' ∧
      c'.state = .kDisconnected ∧ c'.channel.isNoneEvent = true ∧
      ¬ c.KeepsApart (.socketError .WSAEWOULDBLOCK) := by
  obtain ⟨c, hc, hp⟩ := Machine.exists_run_of_exec machine Machine.Any
    (create 3 ⟨true, true, true, true, true⟩ 64) [.connectEstablished, .userDone]
    (fun c => decide (c.state = .kConnected) &&
      match c.handleRead (readv (.socketError .WSAEWOULDBLOCK)) with
      | .ok c' => decide (c'.state = .kDisconnected ∧ c'.channel.isNoneEvent = true)
      | .error _ => false) (by decide +kernel)
  obtain ⟨hs, hp⟩ := Bool.and_eq_true_iff.mp hp
  split at hp
  · next c' hread =>
    obtain ⟨hdown, hnone⟩ := of_decide_eq_true hp
    exact ⟨_, c, c', hc, of_decide_eq_true hs, hread, hdown, hnone, not_keepsApart _⟩
  · exact absurd hp Bool.false_ne_true

end TcpConnection
end MuduoWindows.Net
