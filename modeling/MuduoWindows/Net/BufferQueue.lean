import MuduoWindows.Net.Buffer

/-! # A buffer is a queue of bytes

The abstract buffer is a list of bytes: writers extend it at the back, `prepend` at the front,
and readers drop from the front. Every operation whose argument satisfies its own assertion
succeeds, keeps the index order and acts on the readable bytes as its abstract counterpart.
-/

namespace MuduoWindows.Net.Buffer
open Library

/-- The index order, with room for the cheap prepend area. -/
structure Valid (b : Buffer) : Prop where
  cheap : kCheapPrepend ≤ b.buffer.length
  reader : b.readerIndex ≤ b.writerIndex
  writer : b.writerIndex ≤ b.buffer.length

/-- The call succeeded and left a valid buffer with content `q`. -/
def Holds (r : Result Buffer) (q : List UInt8) : Prop :=
  ∃ b, r = .ok b ∧ b.Valid ∧ b.readable = q

variable {b : Buffer}

theorem Valid.readable_length (h : b.Valid) : b.readable.length = b.readableBytes :=
  window_length h.writer

theorem ofSize_valid (n : ℕ) : (ofSize n).Valid := by
  constructor <;> simp [ofSize]

@[simp] theorem ofSize_readable (n : ℕ) : (ofSize n).readable = [] := window_self _ _

theorem create_eq (n : ℕ) : create n = .ok (ofSize n) := by
  unfold create
  rw [require_bind (by simp [ofSize, readableBytes]),
    require_bind (by simp [ofSize, writableBytes]),
    require_bind (by simp [ofSize, prependableBytes]), pure_eq_ok]

theorem retrieveAll_valid (h : b.Valid) : b.retrieveAll.Valid :=
  ⟨h.cheap, le_rfl, h.cheap⟩

@[simp] theorem retrieveAll_readable (b : Buffer) : b.retrieveAll.readable = [] := window_self _ _

theorem retrieve_holds (h : b.Valid) {len : ℕ} (hlen : len ≤ b.readableBytes) :
    Holds (b.retrieve len) (b.readable.drop len) := by
  unfold retrieve
  rw [require_bind hlen]
  split_ifs with hlt
  · unfold readableBytes at hlt
    have hr := h.reader
    exact ⟨_, rfl, ⟨h.cheap, by dsimp only; omega, h.writer⟩, window_drop _ _ _ _⟩
  · refine ⟨_, rfl, retrieveAll_valid h, ?_⟩
    rw [retrieveAll_readable, List.drop_eq_nil_of_le (by rw [h.readable_length]; omega)]

theorem retrieveUntil_holds (h : b.Valid) {len : ℕ} (hlen : len ≤ b.readableBytes) :
    Holds (b.retrieveUntil (b.peek + len)) (b.readable.drop len) := by
  have hr := h.reader
  unfold readableBytes at hlen
  unfold retrieveUntil
  rw [require_bind (Nat.le_add_right _ _), require_bind (by unfold peek beginWrite; omega),
    Nat.add_sub_cancel_left]
  exact retrieve_holds h hlen

theorem retrieveAsString_eq (h : b.Valid) {len : ℕ} (hlen : len ≤ b.readableBytes) :
    ∃ b', b.retrieveAsString len = .ok (b.readable.take len, b') ∧ b'.Valid ∧
      b'.readable = b.readable.drop len := by
  obtain ⟨b', hb', hv, hq⟩ := retrieve_holds h hlen
  have hr := h.reader
  have hfit : b.readerIndex + len ≤ b.writerIndex := by
    unfold readableBytes at hlen
    omega
  refine ⟨b', ?_, hv, hq⟩
  unfold retrieveAsString
  rw [require_bind hlen, hb', ok_bind, pure_eq_ok]
  exact congrArg (fun s => Except.ok (s, b')) (window_take hfit)

theorem makeSpace_holds (h : b.Valid) {len : ℕ} (hlen : b.writableBytes < len) :
    ∃ b', b.makeSpace len = .ok b' ∧ b'.Valid ∧ b'.readable = b.readable ∧
      len ≤ b'.writableBytes := by
  have hr := h.reader
  have hw := h.writer
  unfold writableBytes at hlen
  unfold makeSpace writableBytes prependableBytes
  split_ifs with hgrow
  · refine ⟨_, rfl, ⟨?_, hr, ?_⟩, window_resize hw (Nat.le_add_right _ _), ?_⟩
    · have hc := h.cheap
      dsimp only
      rw [resize_length]
      omega
    · rw [resize_length]
      exact Nat.le_add_right _ _
    · dsimp only
      rw [resize_length]
      omega
  · -- the guard failed, so the prependable area holds more than `kCheapPrepend`
    have hmove : kCheapPrepend < b.readerIndex := by omega
    have hread : (window b.buffer b.readerIndex b.writerIndex).length =
        b.writerIndex - b.readerIndex := window_length hw
    have hstore : (store b.buffer kCheapPrepend
        (window b.buffer b.readerIndex b.writerIndex)).length = b.buffer.length :=
      store_length (by rw [hread]; omega)
    rw [require_bind hmove, require_bind (by unfold readableBytes; dsimp only; omega)]
    refine ⟨_, rfl, ⟨?_, Nat.le_add_right _ _, ?_⟩, ?_, ?_⟩
    · rw [hstore]
      exact h.cheap
    · rw [hstore]
      unfold readableBytes
      dsimp only
      omega
    · unfold readable readableBytes
      dsimp only
      rw [← hread]
      exact window_store_self (by omega)
    · dsimp only
      rw [hstore]
      unfold readableBytes
      omega

theorem ensureWritableBytes_eq (h : b.Valid) (len : ℕ) :
    ∃ b', b.ensureWritableBytes len = .ok b' ∧ b'.Valid ∧ b'.readable = b.readable ∧
      len ≤ b'.writableBytes := by
  unfold ensureWritableBytes
  by_cases hlen : b.writableBytes < len
  · obtain ⟨b', hb', hv, hq, hroom⟩ := makeSpace_holds h hlen
    refine ⟨b', ?_, hv, hq, hroom⟩
    simp only [if_pos hlen, hb', ok_bind, require_bind hroom, pure_eq_ok]
  · have hroom : len ≤ b.writableBytes := by omega
    refine ⟨b, ?_, h, rfl, hroom⟩
    simp only [if_neg hlen, ok_bind, require_bind hroom, pure_eq_ok]

/-- Bytes stored at `beginWrite()` become content when they are counted as written. -/
theorem hasWritten_holds (h : b.Valid) {data : List UInt8} (hfit : data.length ≤ b.writableBytes) :
    Holds ((b.fill data).hasWritten data.length) (b.readable ++ data) := by
  have hw := h.writer
  unfold writableBytes at hfit
  have hlen : (store b.buffer b.writerIndex data).length = b.buffer.length :=
    store_length (by omega)
  unfold hasWritten fill beginWrite writableBytes
  dsimp only
  rw [require_bind (by rw [hlen]; omega)]
  refine ⟨_, rfl, ⟨?_, ?_, ?_⟩, ?_⟩
  · rw [hlen]
    exact h.cheap
  · have hr := h.reader
    dsimp only
    omega
  · dsimp only
    rw [hlen]
    omega
  · exact window_store_append h.reader (by omega)

theorem append_holds (h : b.Valid) (data : List UInt8) :
    Holds (b.append data) (b.readable ++ data) := by
  obtain ⟨b', hb', hv, hq, hroom⟩ := ensureWritableBytes_eq h data.length
  unfold append
  rw [hb', ok_bind, ← hq]
  exact hasWritten_holds hv hroom

theorem unwrite_holds (h : b.Valid) {len : ℕ} (hlen : len ≤ b.readableBytes) :
    Holds (b.unwrite len) (b.readable.take (b.readable.length - len)) := by
  have hr := h.reader
  have hw := h.writer
  have hcut := h.readable_length
  unfold unwrite
  rw [require_bind hlen, hcut]
  unfold readableBytes at hlen ⊢
  refine ⟨_, rfl, ⟨h.cheap, by dsimp only; omega, by dsimp only; omega⟩, ?_⟩
  have hpos : b.writerIndex - len = b.readerIndex + (b.writerIndex - b.readerIndex - len) := by
    omega
  unfold readable
  dsimp only
  rw [hpos]
  exact window_take (by omega)

theorem prepend_holds (h : b.Valid) {data : List UInt8}
    (hfit : data.length ≤ b.prependableBytes) : Holds (b.prepend data) (data ++ b.readable) := by
  have hr := h.reader
  have hw := h.writer
  unfold prepend
  rw [require_bind hfit]
  unfold prependableBytes at hfit
  have hlen : (store b.buffer (b.readerIndex - data.length) data).length = b.buffer.length :=
    store_length (by omega)
  have hback : b.readerIndex - data.length + data.length = b.readerIndex := by omega
  refine ⟨_, rfl, ⟨?_, by dsimp only; omega, ?_⟩, ?_⟩
  · rw [hlen]
    exact h.cheap
  · rw [hlen]
    exact hw
  · unfold readable
    dsimp only
    rw [window_store_prepend (by omega) hw, hback]

theorem readFd_length {received : List UInt8} {n : ℕ} {b' : Buffer}
    (h : b.readFd received = .ok (n, b')) : n = received.length := by
  unfold readFd at h
  dsimp only at h
  split_ifs at h
  · exact (Prod.mk.inj (Except.ok.inj h)).1.symm
  · obtain ⟨b'', -, h⟩ := bind_eq_ok.mp h
    exact (Prod.mk.inj (Except.ok.inj h)).1.symm

/-- Whatever `readv` delivered within the offered areas is appended, over both areas. -/
theorem readFd_eq (h : b.Valid) (received : List UInt8) :
    ∃ b', b.readFd received = .ok (received.length, b') ∧ b'.Valid ∧
      b'.readable = b.readable ++ received := by
  have hw := h.writer
  unfold readFd
  by_cases hone : received.length ≤ b.writableBytes
  · obtain ⟨b', hb', hv, hq⟩ := hasWritten_holds h hone
    simp only [List.take_of_length_le hone, if_pos hone]
    unfold hasWritten at hb'
    obtain ⟨-, hb'⟩ := require_bind_eq_ok.mp hb'
    obtain rfl := Except.ok.inj hb'
    exact ⟨_, rfl, hv, hq⟩
  · simp only [if_neg hone]
    have hcut : (received.take b.writableBytes).length = b.writableBytes := by
      rw [List.length_take]
      omega
    obtain ⟨b', hb', hv, hq⟩ := hasWritten_holds h hcut.le
    have hfull : ({ b.fill (received.take b.writableBytes) with
        writerIndex := (b.fill (received.take b.writableBytes)).buffer.length } : Buffer) = b' := by
      unfold hasWritten at hb'
      obtain ⟨-, hb'⟩ := require_bind_eq_ok.mp hb'
      obtain rfl := Except.ok.inj hb'
      unfold writableBytes at hcut
      have hlen : (store b.buffer b.writerIndex (received.take b.writableBytes)).length =
          b.buffer.length := store_length (by unfold writableBytes; omega)
      unfold fill beginWrite writableBytes
      unfold writableBytes at hlen
      dsimp only
      rw [hlen, hcut]
      congr 1
      omega
    obtain ⟨b'', hb'', hv'', hq''⟩ := append_holds hv (received.drop b.writableBytes)
    refine ⟨b'', ?_, hv'', ?_⟩
    · rw [hfull, hb'', ok_bind, pure_eq_ok]
    · rw [hq'', hq, List.append_assoc, List.take_append_drop]

inductive Op where
  | append (data : List UInt8)
  | ensureWritableBytes (len : ℕ)
  | hasWritten (data : List UInt8)
  | unwrite (len : ℕ)
  | prepend (data : List UInt8)
  | retrieve (len : ℕ)
  | retrieveUntil (len : ℕ)
  | retrieveAll
  | retrieveAsString (len : ℕ)
  | retrieveAllAsString
  | readFd (received : List UInt8)

/-- The assertion of the operation on its own argument; for `readFd`, what `readv` can return.
`hasWritten data` stores `data` at `beginWrite()` first, and `retrieveUntil len` passes the
pointer `peek() + len`. -/
def Op.accepts (b : Buffer) : Op → Prop
  | .hasWritten data => data.length ≤ b.writableBytes
  | .unwrite len | .retrieve len | .retrieveUntil len | .retrieveAsString len =>
      len ≤ b.readableBytes
  | .prepend data => data.length ≤ b.prependableBytes
  | .readFd received => received.length ≤ b.iovec.sum
  | .append _ | .ensureWritableBytes _ | .retrieveAll | .retrieveAllAsString => True

instance (b : Buffer) : ∀ op : Op, Decidable (op.accepts b)
  | .hasWritten data => inferInstanceAs (Decidable (data.length ≤ b.writableBytes))
  | .unwrite len | .retrieve len | .retrieveUntil len | .retrieveAsString len =>
      inferInstanceAs (Decidable (len ≤ b.readableBytes))
  | .prepend data => inferInstanceAs (Decidable (data.length ≤ b.prependableBytes))
  | .readFd received => inferInstanceAs (Decidable (received.length ≤ b.iovec.sum))
  | .append _ | .ensureWritableBytes _ | .retrieveAll | .retrieveAllAsString =>
      inferInstanceAs (Decidable True)

def Op.apply (b : Buffer) : Op → Result Buffer
  | .append data => b.append data
  | .ensureWritableBytes len => b.ensureWritableBytes len
  | .hasWritten data => (b.fill data).hasWritten data.length
  | .unwrite len => b.unwrite len
  | .prepend data => b.prepend data
  | .retrieve len => b.retrieve len
  | .retrieveUntil len => b.retrieveUntil (b.peek + len)
  | .retrieveAll => pure b.retrieveAll
  | .retrieveAsString len => Prod.snd <$> b.retrieveAsString len
  | .retrieveAllAsString => Prod.snd <$> b.retrieveAllAsString
  | .readFd received => Prod.snd <$> b.readFd received

def Op.queue (q : List UInt8) : Op → List UInt8
  | .append data | .hasWritten data | .readFd data => q ++ data
  | .ensureWritableBytes _ => q
  | .unwrite len => q.take (q.length - len)
  | .prepend data => data ++ q
  | .retrieve len | .retrieveUntil len | .retrieveAsString len => q.drop len
  | .retrieveAll | .retrieveAllAsString => []

theorem map_snd_holds {α : Type} {r : Result (α × Buffer)} {a : α} {q : List UInt8}
    (h : ∃ b, r = .ok (a, b) ∧ b.Valid ∧ b.readable = q) : Holds (Prod.snd <$> r) q := by
  obtain ⟨b, rfl, hv, hq⟩ := h
  exact ⟨b, rfl, hv, hq⟩

theorem apply_holds (h : b.Valid) (op : Op) (ha : op.accepts b) :
    Holds (op.apply b) (op.queue b.readable) := by
  cases op with
  | append data => exact append_holds h data
  | ensureWritableBytes len =>
    obtain ⟨b', hb', hv, hq, -⟩ := ensureWritableBytes_eq h len
    exact ⟨b', hb', hv, hq⟩
  | hasWritten data => exact hasWritten_holds h ha
  | unwrite len => exact unwrite_holds h ha
  | prepend data => exact prepend_holds h ha
  | retrieve len => exact retrieve_holds h ha
  | retrieveUntil len => exact retrieveUntil_holds h ha
  | retrieveAll => exact ⟨_, rfl, retrieveAll_valid h, retrieveAll_readable b⟩
  | retrieveAsString len => exact map_snd_holds (retrieveAsString_eq h ha)
  | retrieveAllAsString =>
    obtain ⟨b', hb', hv, hq⟩ := retrieveAsString_eq h le_rfl
    rw [List.drop_eq_nil_of_le (by rw [h.readable_length])] at hq
    exact map_snd_holds ⟨b', hb', hv, hq⟩
  | readFd received => exact map_snd_holds (readFd_eq h received)

section Pool
variable {ι : Type} [DecidableEq ι]

inductive PoolOp (ι : Type) where
  | on (i : ι) (op : Op)
  | swap (i j : ι)

/-- Any number of buffers, operated on one at a time and swapped in pairs. -/
def pool : Machine (ι → Buffer) (PoolOp ι) Fault where
  enabled σ
    | .on i op => op.accepts (σ i)
    | .swap _ _ => True
  step σ
    | .on i op => do
      let b ← op.apply (σ i)
      pure (Function.update σ i b)
    | .swap i j => pure (Function.update (Function.update σ i (σ j)) j (σ i))

instance (σ : ι → Buffer) : ∀ op : PoolOp ι, Decidable (pool.enabled σ op)
  | .on i op => inferInstanceAs (Decidable (op.accepts (σ i)))
  | .swap _ _ => inferInstanceAs (Decidable True)

def PoolOp.queues (q : ι → List UInt8) : PoolOp ι → ι → List UInt8
  | .on i op => Function.update q i (op.queue (q i))
  | .swap i j => Function.update (Function.update q i (q j)) j (q i)

/-- The same operations on plain lists, from empty ones. -/
def queues (ops : List (PoolOp ι)) : ι → List UInt8 :=
  ops.foldl PoolOp.queues (fun _ => [])

/-- Every buffer of the pool is valid and holds its queue. -/
def Refines (σ : ι → Buffer) (q : ι → List UInt8) : Prop :=
  ∀ i, (σ i).Valid ∧ (σ i).readable = q i

theorem Refines.update {σ : ι → Buffer} {q : ι → List UInt8} (h : Refines σ q) (i : ι) {b : Buffer}
    {p : List UInt8} (hb : b.Valid) (hp : b.readable = p) :
    Refines (Function.update σ i b) (Function.update q i p) := by
  intro j
  by_cases hj : j = i
  · subst j
    simpa using ⟨hb, hp⟩
  · simpa [hj] using h j

theorem Refines.step {σ : ι → Buffer} {q : ι → List UInt8} (h : Refines σ q) {op : PoolOp ι}
    (he : pool.enabled σ op) : ∃ τ, pool.step σ op = .ok τ ∧ Refines τ (op.queues q) := by
  cases op with
  | on i op =>
    obtain ⟨hv, hq⟩ := h i
    obtain ⟨b, hb, hbv, hbq⟩ := apply_holds hv op he
    refine ⟨Function.update σ i b, ?_, h.update i hbv (by rw [hbq, hq])⟩
    change (op.apply (σ i) >>= fun b => pure (Function.update σ i b)) = _
    rw [hb, ok_bind, pure_eq_ok]
  | swap i j =>
    exact ⟨_, rfl, (h.update i (h j).1 (h j).2).update j (h i).1 (h i).2⟩

theorem refines_run {sizes : ι → ℕ} {ops : List (PoolOp ι)} {σ : ι → Buffer}
    (h : pool.Run Machine.Any (fun i => ofSize (sizes i)) ops σ) : Refines σ (queues ops) := by
  refine h.invariant_trace (fun ops σ => Refines σ (queues ops)) ?_ ?_
  · exact fun i => ⟨ofSize_valid _, ofSize_readable _⟩
  · intro ops σ op τ ih he _ hτ
    obtain ⟨τ', hτ', href⟩ := ih.step he
    obtain rfl := Except.ok.inj (hτ'.symm.trans hτ)
    simpa [queues, List.foldl_append] using href

/-- From any initial sizes, over any run: the constructors' assertions hold, the indices stay in
order, the readable bytes are those of the queues, and no further operation can stop. -/
theorem buffers_refine_queues (sizes : ι → ℕ) {ops : List (PoolOp ι)} {σ : ι → Buffer}
    (h : pool.Run Machine.Any (fun i => ofSize (sizes i)) ops σ) :
    (∀ i, create (sizes i) = .ok (ofSize (sizes i))) ∧
      (∀ i, kCheapPrepend ≤ (σ i).buffer.length ∧ (σ i).readerIndex ≤ (σ i).writerIndex ∧
        (σ i).writerIndex ≤ (σ i).buffer.length) ∧
      (∀ i, (σ i).readable = queues ops i) ∧
      ∀ op, pool.enabled σ op → ∃ τ, pool.step σ op = .ok τ := by
  have href := refines_run h
  refine ⟨fun i => create_eq _, fun i => ?_, fun i => (href i).2, fun op he => ?_⟩
  · exact ⟨(href i).1.cheap, (href i).1.reader, (href i).1.writer⟩
  · obtain ⟨τ, hτ, -⟩ := href.step he
    exact ⟨τ, hτ⟩

/-- Two buffers of four bytes: one grows, is read and prepended to, and is swapped away. -/
theorem buffers_refine_queues_swapped :
    ∃ σ : Bool → Buffer, pool.Run Machine.Any (fun _ => ofSize 4)
      [.on false (.append [1, 2, 3, 4, 5, 6]), .on false (.retrieve 2), .on false (.prepend [9]),
        .swap false true, .on true (.unwrite 1)] σ ∧ (σ true).readable = [9, 3, 4, 5] := by
  obtain ⟨σ, hσ, -⟩ := Machine.exists_run_of_exec pool Machine.Any
    (fun _ : Bool => ofSize 4)
    [.on false (.append [1, 2, 3, 4, 5, 6]), .on false (.retrieve 2),
      .on false (.prepend [9]), .swap false true, .on true (.unwrite 1)]
    (fun _ => true) (by decide)
  exact ⟨σ, hσ, ((buffers_refine_queues (fun _ => 4) hσ).2.2.1 true).trans (by decide)⟩

end Pool
end MuduoWindows.Net.Buffer
