import MuduoWindows.Base.StringPiece
import MuduoWindows.Net.Buffer.Integers

/-! # `shrink`, and all operations of a buffer

`shrink` passes the content through a `StringPiece`, whose length is an `int`, back to a `size_t`.
So its parts are given here for any `size_t`.
-/

namespace MuduoWindows.Net.Buffer
open Library Base

/-- `max_size()` of a vector of `char`. -/
def maxSize : ℕ := 2 ^ 63 - 1

/-- `makeSpace` for any `size_t`: sums wrap, and a vector does not grow beyond `max_size()`. -/
def makeSpaceSize (b : Buffer) (len : ℕ) : Result Buffer :=
  if b.writableBytes + b.prependableBytes < (len + kCheapPrepend) % 2 ^ 64 then
    if (b.writerIndex + len) % 2 ^ 64 ≤ maxSize then
      pure { b with buffer := resize 0 b.buffer ((b.writerIndex + len) % 2 ^ 64) }
    else .error (.exception "vector too long")
  else do
    assert (kCheapPrepend < b.readerIndex) "kCheapPrepend < readerIndex_"
    let readable := b.readableBytes
    let b' : Buffer :=
      { buffer := store b.buffer kCheapPrepend (window b.buffer b.readerIndex b.writerIndex)
        readerIndex := kCheapPrepend
        writerIndex := kCheapPrepend + readable }
    assert (readable = b'.readableBytes) "readable == readableBytes()"
    pure b'

def ensureWritableBytesSize (b : Buffer) (len : ℕ) : Result Buffer := do
  let b' ← if b.writableBytes < len then b.makeSpaceSize len else pure b
  assert (len ≤ b'.writableBytes) "writableBytes() >= len"
  pure b'

/-- `append(data, len)`, where the bytes in `data` can be read. -/
def appendSize (b : Buffer) (data : List UInt8) (len : ℕ) : Result Buffer := do
  let b' ← b.ensureWritableBytesSize len
  if len ≤ data.length then (b'.fill (data.take len)).hasWritten len
  else .error (.outOfBounds "data")

def toStringPiece (b : Buffer) : StringPiece :=
  { data := b.readable, length := StringPiece.toInt b.readableBytes }

def appendPiece (b : Buffer) (str : StringPiece) : Result Buffer :=
  b.appendSize str.data (StringPiece.toSize str.size)

/-- `swap(other)` leaves the buffer with what `other` has. -/
def shrink (b : Buffer) (reserve : ℕ) : Result Buffer := do
  let other ← create kInitialSize
  let other ← other.ensureWritableBytesSize ((b.readableBytes + reserve) % 2 ^ 64)
  other.appendPiece b.toStringPiece

variable {b : Buffer} {len : ℕ}

theorem ensureWritableBytesSize_eq (hlen : len + kCheapPrepend < 2 ^ 64)
    (hfit : b.writerIndex + len ≤ maxSize) :
    b.ensureWritableBytesSize len = b.ensureWritableBytes len := by
  have hindex : (b.writerIndex + len) % 2 ^ 64 = b.writerIndex + len := by
    unfold maxSize at hfit
    exact Nat.mod_eq_of_lt (by omega)
  unfold ensureWritableBytesSize ensureWritableBytes makeSpaceSize makeSpace
  rw [Nat.mod_eq_of_lt hlen, hindex, if_pos hfit]

theorem makeSpace_readerIndex {b' : Buffer} (h : b.makeSpace len = .ok b') :
    b'.readerIndex = b.readerIndex ∨ b'.readerIndex = kCheapPrepend := by
  unfold makeSpace at h
  split_ifs at h
  · obtain rfl := Except.ok.inj h
    exact .inl rfl
  · obtain ⟨-, h⟩ := require_bind_eq_ok.mp h
    obtain ⟨-, h⟩ := require_bind_eq_ok.mp h
    obtain rfl := Except.ok.inj h
    exact .inr rfl

theorem ensureWritableBytes_readerIndex {b' : Buffer} (h : b.ensureWritableBytes len = .ok b') :
    b'.readerIndex = b.readerIndex ∨ b'.readerIndex = kCheapPrepend := by
  unfold ensureWritableBytes at h
  split_ifs at h
  · obtain ⟨b'', hspace, h⟩ := bind_eq_ok.mp h
    obtain ⟨-, h⟩ := require_bind_eq_ok.mp h
    obtain rfl := Except.ok.inj h
    exact makeSpace_readerIndex hspace
  · obtain ⟨-, h⟩ := require_bind_eq_ok.mp h
    obtain rfl := Except.ok.inj h
    exact .inl rfl

theorem fresh_cases (hlen : len ≤ maxSize) :
    (kCheapPrepend + len ≤ maxSize ∧ ∃ other,
      (ofSize kInitialSize).ensureWritableBytesSize len = .ok other ∧ other.Valid ∧
        other.readable = [] ∧ other.readerIndex = kCheapPrepend ∧ len ≤ other.writableBytes) ∨
    (maxSize < kCheapPrepend + len ∧ (ofSize kInitialSize).ensureWritableBytesSize len =
      .error (.exception "vector too long")) := by
  have hsmall : len + kCheapPrepend < 2 ^ 64 := by
    unfold maxSize at hlen
    unfold kCheapPrepend
    omega
  by_cases hfit : kCheapPrepend + len ≤ maxSize
  · obtain ⟨other, heq, hv, hq, hroom⟩ :=
      ensureWritableBytes_eq (ofSize_valid kInitialSize) len
    refine .inl ⟨hfit, other, (ensureWritableBytesSize_eq hsmall hfit).trans heq, hv,
      hq.trans (ofSize_readable _), ?_, hroom⟩
    exact (ensureWritableBytes_readerIndex heq).elim id id
  · refine .inr ⟨not_le.mp hfit, ?_⟩
    have hindex : (kCheapPrepend + len) % 2 ^ 64 = kCheapPrepend + len :=
      Nat.mod_eq_of_lt (by omega)
    have hgrow : (ofSize kInitialSize).writableBytes < len := by
      unfold maxSize kCheapPrepend at hfit
      unfold ofSize writableBytes kCheapPrepend kInitialSize
      dsimp only
      rw [List.length_replicate]
      omega
    have hspace : (ofSize kInitialSize).makeSpaceSize len =
        .error (.exception "vector too long") := by
      unfold makeSpaceSize
      rw [if_pos, if_neg]
      · change ¬ (kCheapPrepend + len) % 2 ^ 64 ≤ maxSize
        rwa [hindex]
      · rw [Nat.mod_eq_of_lt hsmall]
        exact Nat.add_lt_add_right hgrow _
    unfold ensureWritableBytesSize
    rw [if_pos hgrow, hspace, error_bind]

theorem appendSize_fits (h : b.Valid) {data : List UInt8} (hdata : len ≤ data.length)
    (hroom : len ≤ b.writableBytes) : ∃ b', b.appendSize data len = .ok b' ∧ b'.Valid ∧
      b'.readable = b.readable ++ data.take len ∧ b'.readerIndex = b.readerIndex ∧
      b'.writableBytes = b.writableBytes - len := by
  have hlength : (data.take len).length = len := List.length_take_of_le hdata
  obtain ⟨b', hb', hv, hq⟩ := hasWritten_holds h (hlength.trans_le hroom)
  rw [hlength] at hb'
  refine ⟨b', ?_, hv, hq, ?_⟩
  · have hensure : b.ensureWritableBytesSize len = .ok b := by
      unfold ensureWritableBytesSize
      rw [if_neg (not_lt.mpr hroom), pure_eq_ok, ok_bind]
      exact require_bind hroom _
    unfold appendSize
    rw [hensure, ok_bind, if_pos hdata, hb']
  · obtain ⟨-, hb'⟩ := require_bind_eq_ok.mp hb'
    obtain rfl := Except.ok.inj hb'
    have hw := h.writer
    have hstore : (store b.buffer b.writerIndex (data.take len)).length = b.buffer.length :=
      store_length (by
        unfold writableBytes at hroom
        omega)
    refine ⟨rfl, ?_⟩
    unfold writableBytes fill beginWrite
    dsimp only
    rw [hstore]
    omega

theorem appendSize_le {data : List UInt8} {b' : Buffer} (h : b.appendSize data len = .ok b') :
    len ≤ data.length := by
  obtain ⟨_, -, h⟩ := bind_eq_ok.mp h
  by_contra hlen
  rw [if_neg hlen] at h
  cases h

/-- As many bytes survive as the length says that has passed through an `int`. -/
def pieceLength (b : Buffer) : ℕ := StringPiece.toSize (StringPiece.toInt b.readableBytes)

theorem pieceLength_of_lt (h : b.readableBytes < 2 ^ 31) : b.pieceLength = b.readableBytes := by
  unfold pieceLength
  rw [StringPiece.toInt_of_lt h, StringPiece.toSize_natCast (by omega)]

theorem pieceLength_of_le (h : 2 ^ 31 ≤ b.readableBytes) :
    b.pieceLength < b.readableBytes ∧ b.pieceLength < 2 ^ 31 ∨
      2 ^ 64 - 2 ^ 31 ≤ b.pieceLength ∧ b.pieceLength < 2 ^ 64 :=
  StringPiece.toSize_toInt_of_le h

theorem shrink_cases (h : b.Valid) {reserve : ℕ} (hsum : b.readableBytes + reserve ≤ maxSize) :
    (b.pieceLength ≤ b.readableBytes ∧ kCheapPrepend + (b.readableBytes + reserve) ≤ maxSize ∧
      ∃ b', b.shrink reserve = .ok b' ∧ b'.Valid ∧ b'.readable = b.readable.take b.pieceLength ∧
        b'.readerIndex = kCheapPrepend ∧ reserve ≤ b'.writableBytes) ∨
    ((b.readableBytes < b.pieceLength ∨ maxSize < kCheapPrepend + (b.readableBytes + reserve)) ∧
      ∀ b', b.shrink reserve ≠ .ok b') := by
  have hsize : (b.readableBytes + reserve) % 2 ^ 64 = b.readableBytes + reserve := by
    unfold maxSize at hsum
    exact Nat.mod_eq_of_lt (by omega)
  have hlength := h.readable_length
  have hpiece : StringPiece.toSize b.toStringPiece.size = b.pieceLength :=
    congrArg StringPiece.toSize (StringPiece.size_mk _ _)
  unfold shrink appendPiece
  rw [create_eq, ok_bind, hsize, hpiece]
  obtain ⟨hfit, other, hother, hv, hq, hreader, hroom⟩ | ⟨hlong, hfails⟩ := fresh_cases hsum
  · rw [hother, ok_bind]
    by_cases hle : b.pieceLength ≤ b.readableBytes
    · obtain ⟨b', hb', hv', hcut, hindex, hleft⟩ :=
        appendSize_fits hv (hle.trans hlength.ge) (by omega)
      rw [hq, List.nil_append] at hcut
      exact .inl ⟨hle, hfit, b', hb', hv', hcut, hindex.trans hreader, by omega⟩
    · exact .inr ⟨.inl (not_le.mp hle), fun b' hb' =>
        hle ((appendSize_le hb').trans hlength.le)⟩
  · rw [hfails, error_bind]
    exact .inr ⟨.inr hlong, nofun⟩

/-- `shrink` keeps the content of a buffer exactly when its size is an `int` and the new vector
is not too long. -/
theorem shrink_iff (h : b.Valid) {reserve : ℕ} (hsum : b.readableBytes + reserve ≤ maxSize) :
    (∃ b', b.shrink reserve = .ok b' ∧ b'.readable = b.readable ∧
      b'.prependableBytes = kCheapPrepend ∧ reserve ≤ b'.writableBytes) ↔
    b.readableBytes < 2 ^ 31 ∧ kCheapPrepend + b.readableBytes + reserve ≤ maxSize := by
  have hlength := h.readable_length
  rw [Nat.add_assoc]
  obtain ⟨hle, hfit, b', hb', -, hcut, hindex, hroom⟩ | ⟨hwhy, hfails⟩ := shrink_cases h hsum
  · constructor
    · rintro ⟨b'', hb'', hsame, -⟩
      obtain rfl := Except.ok.inj (hb'.symm.trans hb'')
      refine ⟨?_, hfit⟩
      by_contra hbig
      have hcount := congrArg List.length (hcut.symm.trans hsame)
      rw [List.length_take, hlength] at hcount
      have hpiece := pieceLength_of_le (not_lt.mp hbig)
      unfold maxSize at hsum
      omega
    · rintro ⟨hint, -⟩
      refine ⟨b', hb', ?_, hindex, hroom⟩
      rw [hcut, pieceLength_of_lt hint, ← hlength]
      exact List.take_length
  · constructor
    · rintro ⟨b', hb', -⟩
      exact absurd hb' (hfails b')
    · rintro ⟨hint, hfit⟩
      rw [pieceLength_of_lt hint] at hwhy
      omega

theorem empty_ensure (h : b.Valid) (hreader : b.readerIndex = kCheapPrepend)
    (hwriter : b.writerIndex = kCheapPrepend) {b' : Buffer}
    (hb' : b.ensureWritableBytesSize len = .ok b') :
    b'.Valid ∧ b'.readerIndex = kCheapPrepend ∧ b'.writerIndex = kCheapPrepend ∧
      len ≤ b'.writableBytes := by
  unfold ensureWritableBytesSize at hb'
  split_ifs at hb' with hgrow
  · obtain ⟨b'', hspace, hb'⟩ := bind_eq_ok.mp hb'
    obtain ⟨hroom, hb'⟩ := require_bind_eq_ok.mp hb'
    obtain rfl := Except.ok.inj hb'
    unfold makeSpaceSize at hspace
    split_ifs at hspace with hlong hfit
    · obtain rfl := Except.ok.inj hspace
      unfold prependableBytes at hlong
      rw [hreader] at hlong
      rw [hwriter, Nat.add_comm] at hroom ⊢
      have hlength : kCheapPrepend ≤
          (resize 0 b.buffer ((len + kCheapPrepend) % 2 ^ 64)).length := by
        rw [resize_length]
        omega
      exact ⟨⟨hlength, hreader.le, hlength⟩, hreader, rfl, hroom⟩
    · obtain ⟨hmoved, -⟩ := require_bind_eq_ok.mp hspace
      rw [hreader] at hmoved
      exact absurd hmoved (lt_irrefl _)
  · obtain ⟨hroom, hb'⟩ := require_bind_eq_ok.mp hb'
    obtain rfl := Except.ok.inj hb'
    exact ⟨h, hreader, hwriter, hroom⟩

/-- Whatever its argument, what `shrink` leaves is well formed, behind the cheap prepend area. -/
theorem shrink_valid {reserve : ℕ} {b' : Buffer} (hb' : b.shrink reserve = .ok b') :
    b'.Valid ∧ b'.readerIndex = kCheapPrepend := by
  unfold shrink appendPiece appendSize at hb'
  rw [create_eq, ok_bind] at hb'
  obtain ⟨other, hother, hb'⟩ := bind_eq_ok.mp hb'
  obtain ⟨hv, hreader, hwriter, -⟩ := empty_ensure (ofSize_valid _) rfl rfl hother
  obtain ⟨other', hother', hb'⟩ := bind_eq_ok.mp hb'
  obtain ⟨hv', hreader', -, hroom⟩ := empty_ensure hv hreader hwriter hother'
  split_ifs at hb' with hlen
  have hlength := List.length_take_of_le hlen
  obtain ⟨b'', hb'', hv'', -⟩ := hasWritten_holds hv' (hlength.trans_le hroom)
  rw [hlength] at hb''
  obtain rfl := Except.ok.inj (hb''.symm.trans hb')
  obtain ⟨-, hb''⟩ := require_bind_eq_ok.mp hb''
  obtain rfl := Except.ok.inj hb''
  exact ⟨hv'', hreader'⟩

inductive Operation where
  | basic (op : Op)
  | appendInt (x : TypedInt)
  | prependInt (x : TypedInt)
  | readInt (w : IntWidth)
  | shrink (reserve : ℕ)

/-- The assertion of the operation on its own argument. -/
def Operation.accepts (b : Buffer) : Operation → Prop
  | .basic op => op.accepts b
  | .appendInt _ => True
  | .prependInt x => x.width.sizeof ≤ b.prependableBytes
  | .readInt w => w.sizeof ≤ b.readableBytes
  | .shrink _ => True

instance (b : Buffer) : ∀ o : Operation, Decidable (o.accepts b)
  | .basic op => inferInstanceAs (Decidable (op.accepts b))
  | .prependInt x => inferInstanceAs (Decidable (x.width.sizeof ≤ b.prependableBytes))
  | .readInt w => inferInstanceAs (Decidable (w.sizeof ≤ b.readableBytes))
  | .appendInt _ | .shrink _ => inferInstanceAs (Decidable True)

def Operation.apply (b : Buffer) : Operation → Result Buffer
  | .basic op => op.apply b
  | .appendInt x => b.appendInt x
  | .prependInt x => b.prependInt x
  | .readInt w => Prod.snd <$> b.readTyped w
  | .shrink reserve => b.shrink reserve

def Operation.Forward : Operation → Prop
  | .basic (.prepend _) | .prependInt _ => False
  | _ => True

theorem map_readInt_retrieve {α : Type} {peek : Result α} {retrieve : Result Buffer}
    {c : α → TypedInt} {b' : Buffer}
    (h : Prod.snd <$> (Prod.map c id <$> readInt peek retrieve) = .ok b') : retrieve = .ok b' := by
  cases peek with
  | error f => cases h
  | ok x =>
    cases retrieve with
    | error f => cases h
    | ok b => exact h

theorem readTyped_retrieve {w : IntWidth} {b' : Buffer}
    (h : Prod.snd <$> b.readTyped w = .ok b') : b.retrieve w.sizeof = .ok b' := by
  cases w with
  | int8 | int16 | int32 | int64 => exact map_readInt_retrieve h

theorem operation_valid (h : b.Valid) {o : Operation} (ha : o.accepts b) {b' : Buffer}
    (hb' : o.apply b = .ok b') : b'.Valid := by
  have hholds : ∀ {r : Result Buffer} {q : List UInt8}, Holds r q → r = .ok b' → b'.Valid := by
    rintro r q ⟨b'', rfl, hv, -⟩ heq
    obtain rfl := Except.ok.inj heq
    exact hv
  cases o with
  | basic op => exact hholds (apply_holds h op ha) hb'
  | appendInt x => exact hholds (append_holds h x.encode) ((appendInt_eq b x).symm.trans hb')
  | prependInt x =>
    exact hholds (prepend_holds h (x.encode_length.trans_le ha))
      ((prependInt_eq b x).symm.trans hb')
  | readInt w => exact hholds (retrieve_holds h ha) (readTyped_retrieve hb')
  | shrink reserve => exact (shrink_valid hb').1

/-- The readable bytes begin behind the cheap prepend area. -/
def Cheap (b : Buffer) : Prop := kCheapPrepend ≤ b.prependableBytes

variable {b' : Buffer}

theorem cheap_of_index (h : b.Cheap)
    (hindex : b'.readerIndex = b.readerIndex ∨ b'.readerIndex = kCheapPrepend) : b'.Cheap :=
  hindex.elim (fun heq => h.trans heq.ge) fun heq => heq.ge

theorem Cheap.append (h : b.Cheap) {data : List UInt8} (hb' : b.append data = .ok b') :
    b'.Cheap := by
  obtain ⟨b'', hensure, hb'⟩ := bind_eq_ok.mp hb'
  obtain ⟨-, hb'⟩ := require_bind_eq_ok.mp hb'
  obtain rfl := Except.ok.inj hb'
  have hindex := ensureWritableBytes_readerIndex hensure
  exact cheap_of_index h hindex

theorem Cheap.retrieve (h : b.Cheap) (hb' : b.retrieve len = .ok b') : b'.Cheap := by
  obtain ⟨-, hb'⟩ := require_bind_eq_ok.mp hb'
  split_ifs at hb'
  · obtain rfl := Except.ok.inj hb'
    exact h.trans (Nat.le_add_right _ _)
  · obtain rfl := Except.ok.inj hb'
    exact le_rfl

theorem map_snd_ok {α : Type} {r : Result (α × Buffer)} (h : Prod.snd <$> r = .ok b') :
    ∃ a, r = .ok (a, b') := by
  cases r with
  | error f => cases h
  | ok p => exact ⟨p.1, congrArg (fun b => Except.ok (p.1, b)) (Except.ok.inj h)⟩

theorem Cheap.retrieveAsString (h : b.Cheap)
    (hb' : Prod.snd <$> b.retrieveAsString len = .ok b') : b'.Cheap := by
  obtain ⟨_, hb'⟩ := map_snd_ok hb'
  obtain ⟨-, hb'⟩ := require_bind_eq_ok.mp hb'
  obtain ⟨b'', hretrieve, hb'⟩ := bind_eq_ok.mp hb'
  obtain ⟨-, rfl⟩ := Prod.mk.inj (Except.ok.inj hb')
  exact h.retrieve hretrieve

theorem Cheap.readFd (h : b.Cheap) {received : List UInt8}
    (hb' : Prod.snd <$> b.readFd received = .ok b') : b'.Cheap := by
  obtain ⟨_, hb'⟩ := map_snd_ok hb'
  unfold Buffer.readFd at hb'
  dsimp only at hb'
  split_ifs at hb'
  · obtain ⟨-, rfl⟩ := Prod.mk.inj (Except.ok.inj hb')
    exact h
  · obtain ⟨b'', happend, hb'⟩ := bind_eq_ok.mp hb'
    obtain ⟨-, rfl⟩ := Prod.mk.inj (Except.ok.inj hb')
    exact Cheap.append (b := { b.fill (received.take b.writableBytes) with
      writerIndex := (b.fill (received.take b.writableBytes)).buffer.length }) h happend

theorem Cheap.basic (h : b.Cheap) {op : Op} (hop : (Operation.basic op).Forward)
    (hb' : op.apply b = .ok b') : b'.Cheap := by
  cases op with
  | append data => exact h.append hb'
  | ensureWritableBytes len => exact cheap_of_index h (ensureWritableBytes_readerIndex hb')
  | hasWritten data | unwrite len =>
    obtain ⟨-, hb'⟩ := require_bind_eq_ok.mp hb'
    obtain rfl := Except.ok.inj hb'
    exact h
  | prepend data => exact hop.elim
  | retrieve len => exact h.retrieve hb'
  | retrieveUntil len =>
    obtain ⟨-, hb'⟩ := require_bind_eq_ok.mp hb'
    obtain ⟨-, hb'⟩ := require_bind_eq_ok.mp hb'
    exact h.retrieve hb'
  | retrieveAll =>
    obtain rfl := Except.ok.inj hb'
    exact le_rfl
  | retrieveAsString len => exact h.retrieveAsString hb'
  | retrieveAllAsString => exact h.retrieveAsString hb'
  | readFd received => exact h.readFd hb'

theorem Cheap.operation (h : b.Cheap) {o : Operation} (hforward : o.Forward)
    (hb' : o.apply b = .ok b') : b'.Cheap := by
  cases o with
  | basic op => exact h.basic hforward hb'
  | appendInt x => exact h.append ((appendInt_eq b x).symm.trans hb')
  | prependInt x => exact hforward.elim
  | readInt w => exact h.retrieve (readTyped_retrieve hb')
  | shrink reserve => exact (shrink_valid hb').2.ge

section Pool
variable {ι : Type} [DecidableEq ι]

inductive PoolOperation (ι : Type) where
  | on (i : ι) (o : Operation)
  | swap (i j : ι)

def PoolOperation.Forward : PoolOperation ι → Prop
  | .on _ o => o.Forward
  | .swap _ _ => True

def buffers : Machine (ι → Buffer) (PoolOperation ι) Fault where
  enabled σ
    | .on i o => o.accepts (σ i)
    | .swap _ _ => True
  step σ
    | .on i o => do
      let b ← o.apply (σ i)
      pure (Function.update σ i b)
    | .swap i j => pure (Function.update (Function.update σ i (σ j)) j (σ i))

instance (σ : ι → Buffer) : ∀ o : PoolOperation ι, Decidable (buffers.enabled σ o)
  | .on i o => inferInstanceAs (Decidable (o.accepts (σ i)))
  | .swap _ _ => inferInstanceAs (Decidable True)

/-- What holds of every buffer and is kept by every operation on one holds in every run. -/
theorem buffers_invariant {P : Buffer → Prop} {Q : (ι → Buffer) → PoolOperation ι → Prop}
    (hfresh : ∀ n, P (ofSize n))
    (hstep : ∀ σ i o b', P (σ i) → o.accepts (σ i) → Q σ (.on i o) → o.apply (σ i) = .ok b' → P b')
    {sizes : ι → ℕ} {os : List (PoolOperation ι)} {σ : ι → Buffer}
    (h : buffers.Run Q (fun i => ofSize (sizes i)) os σ) : ∀ i, P (σ i) := by
  have hupdate : ∀ (σ : ι → Buffer) i b, (∀ i, P (σ i)) → P b →
      ∀ j, P (Function.update σ i b j) := by
    intro σ i b hσ hb j
    obtain rfl | hne := eq_or_ne j i
    · rwa [Function.update_self]
    · rw [Function.update_of_ne hne]
      exact hσ j
  refine h.invariant (fun σ => ∀ i, P (σ i)) (fun i => hfresh _) fun σ e τ hσ he hq hτ => ?_
  cases e with
  | on i o =>
    obtain ⟨b', hb', hτ⟩ := bind_eq_ok.mp hτ
    obtain rfl := Except.ok.inj hτ
    exact hupdate σ i b' hσ (hstep σ i o b' (hσ i) he hq hb')
  | swap i j =>
    obtain rfl := Except.ok.inj hτ
    exact hupdate _ j _ (hupdate σ i _ hσ (hσ j)) (hσ i)

theorem run_valid {Q : (ι → Buffer) → PoolOperation ι → Prop} {sizes : ι → ℕ}
    {os : List (PoolOperation ι)} {σ : ι → Buffer}
    (h : buffers.Run Q (fun i => ofSize (sizes i)) os σ) (i : ι) : (σ i).Valid :=
  buffers_invariant ofSize_valid (fun _ _ _ _ hv ha _ => operation_valid hv ha) h i

/-- Where nothing was put in front, all buffers keep their cheap prepend area. -/
theorem forward_cheap {P : (ι → Buffer) → PoolOperation ι → Prop} {sizes : ι → ℕ}
    {os : List (PoolOperation ι)} {σ : ι → Buffer}
    (h : buffers.Run P (fun i => ofSize (sizes i)) os σ) (hos : ∀ o ∈ os, o.Forward) (i : ι) :
    kCheapPrepend ≤ (σ i).prependableBytes :=
  buffers_invariant (P := Cheap) (fun _ => le_rfl)
    (fun _ _ _ _ hb _ hforward hb' => hb.operation hforward hb') (h.of_forall_mem hos) i

/-- Integers of any widths come back through a buffer of any history. -/
theorem ints_survive {sizes : ι → ℕ} {os : List (PoolOperation ι)} {σ : ι → Buffer}
    (h : buffers.Run Machine.Any (fun i => ofSize (sizes i)) os σ) (i : ι) :
    ((∀ o ∈ os, o.Forward) → kCheapPrepend ≤ (σ i).prependableBytes) ∧
    ∀ xs ys, ∃ b₁, (σ i).appendInts xs = .ok b₁ ∧
      ((encodeAll ys).length ≤ b₁.prependableBytes → ∃ b₂ b₃ b₄ b₅,
        b₁.prependInts ys.reverse = .ok b₂ ∧
        b₂.readable = encodeAll ys ++ (σ i).readable ++ encodeAll xs ∧
        b₂.readInts (ys.map TypedInt.width) = .ok (ys, b₃) ∧
        b₃.readInts (List.replicate (σ i).readableBytes .int8) =
          .ok ((σ i).readable.map ofByte, b₄) ∧
        b₄.readInts (xs.map TypedInt.width) = .ok (xs, b₅) ∧ b₅.readableBytes = 0) :=
  ⟨fun hos => forward_cheap h hos i, fun xs ys => ints_roundTrip (run_valid h i) xs ys⟩

/-- A buffer to which a byte was appended takes an integer at each end. -/
theorem ints_survive_two : ∃ b b₁ b₂ b₃ b₄ b₅ : Buffer,
    b.readable = [7] ∧ kCheapPrepend ≤ b.prependableBytes ∧ b.appendInts [.int16 258] = .ok b₁ ∧
      b₁.prependInts [.int32 16909060] = .ok b₂ ∧ b₂.readable = [1, 2, 3, 4, 7, 1, 2] ∧
      b₂.readInts [.int32] = .ok ([.int32 16909060], b₃) ∧
      b₃.readInts [.int8] = .ok ([.int8 7], b₄) ∧
      b₄.readInts [.int16] = .ok ([.int16 258], b₅) ∧ b₅.readableBytes = 0 := by
  obtain ⟨σ, hrun, hσ⟩ := Machine.exists_run_of_exec (buffers (ι := Unit)) Machine.Any
    (fun _ => ofSize 3) [.on () (.basic (.append [7]))]
    (fun σ => decide (σ () = ⟨[0, 0, 0, 0, 0, 0, 0, 0, 7, 0, 0], 8, 9⟩)) (by decide)
  have hσ := of_decide_eq_true hσ
  obtain ⟨hcheap, hall⟩ := ints_survive hrun ()
  obtain ⟨b₁, hb₁, hall⟩ := hall [.int16 258] [.int32 16909060]
  rw [hσ] at hb₁
  have happend : appendInts ⟨[0, 0, 0, 0, 0, 0, 0, 0, 7, 0, 0], 8, 9⟩ [.int16 258] =
      .ok ⟨[0, 0, 0, 0, 0, 0, 0, 0, 7, 1, 2], 8, 11⟩ := by decide
  obtain rfl := Except.ok.inj (hb₁.symm.trans happend)
  obtain ⟨b₂, b₃, b₄, b₅, hb₂, hread, hb₃, hb₄, hb₅, hempty⟩ := hall (by decide)
  have hcontent : (σ ()).readable = [7] := by
    rw [hσ]
    rfl
  have hcount : (σ ()).readableBytes = 1 := by
    rw [hσ]
    rfl
  rw [hcontent] at hread hb₄
  rw [hcount] at hb₄
  have hforward : ∀ o ∈ [PoolOperation.on () (.basic (.append [7]))], o.Forward := by
    rintro o ho
    obtain rfl := List.mem_singleton.mp ho
    trivial
  refine ⟨σ (), _, b₂, b₃, b₄, b₅, hcontent, hcheap hforward, hσ ▸ happend, hb₂, ?_, hb₃, hb₄,
    hb₅, hempty⟩
  rw [hread]
  decide

/-- In any history, `shrink` keeps the content exactly when its size is an `int` and the new vector
is not too long. -/
theorem shrink_preserves_iff {sizes : ι → ℕ} {os : List (PoolOperation ι)} {σ : ι → Buffer}
    (h : buffers.Run Machine.Any (fun i => ofSize (sizes i)) os σ) (i : ι) {reserve : ℕ}
    (hsum : (σ i).readableBytes + reserve ≤ maxSize) :
    (∃ b', (σ i).shrink reserve = .ok b' ∧ b'.readable = (σ i).readable ∧
      b'.prependableBytes = kCheapPrepend ∧ reserve ≤ b'.writableBytes) ↔
    (σ i).readableBytes < 2 ^ 31 ∧ kCheapPrepend + (σ i).readableBytes + reserve ≤ maxSize :=
  shrink_iff (run_valid h i) hsum

theorem shrink_preserves_two :
    ∃ b b' : Buffer, b.readable = [7, 8] ∧ b.shrink 5 = .ok b' ∧ b'.readable = [7, 8] ∧
      b'.prependableBytes = kCheapPrepend ∧ 5 ≤ b'.writableBytes := by
  obtain ⟨σ, hrun, hσ⟩ := Machine.exists_run_of_exec (buffers (ι := Unit)) Machine.Any
    (fun _ => ofSize 3) [.on () (.basic (.append [7, 8]))]
    (fun σ => decide ((σ ()).readable = [7, 8] ∧ (σ ()).readableBytes = 2)) (by decide)
  obtain ⟨hcontent, hcount⟩ := of_decide_eq_true hσ
  have hsum : (σ ()).readableBytes + 5 ≤ maxSize := by
    rw [hcount]
    decide
  have hiff := shrink_preserves_iff hrun () hsum
  obtain ⟨b', hb', hsame, hcheap, hroom⟩ := hiff.mpr (by rw [hcount]; decide)
  exact ⟨σ (), b', hcontent, hb', hsame.trans hcontent, hcheap, hroom⟩

theorem append_reached (n : ℕ) (data : List UInt8) :
    ∃ b : Buffer, buffers.Run Machine.Any (fun _ : Unit => ofSize n)
      [.on () (.basic (.append data))] (fun _ => b) ∧ b.Valid ∧ b.readable = data := by
  obtain ⟨b, hb, hv, hq⟩ := append_holds (ofSize_valid n) data
  rw [ofSize_readable, List.nil_append] at hq
  refine ⟨b, Machine.Run.single trivial trivial ?_, hv, hq⟩
  change (do
    let b ← (ofSize n).append data
    pure (Function.update (fun _ : Unit => ofSize n) () b)) = _
  rw [hb, ok_bind, pure_eq_ok]
  exact congrArg Except.ok (funext fun _ => rfl)

/-- A size of `2 ^ 31` becomes a negative `int`, and from it a `size_t` no vector can have. -/
theorem shrink_loses_content : ¬ ∀ (os : List (PoolOperation Unit)) (σ : Unit → Buffer),
    buffers.Run Machine.Any (fun _ => ofSize kInitialSize) os σ → ∀ reserve,
    (σ ()).readableBytes + reserve ≤ maxSize →
    ∃ b', (σ ()).shrink reserve = .ok b' ∧ b'.readable = (σ ()).readable ∧
      b'.prependableBytes = kCheapPrepend ∧ reserve ≤ b'.writableBytes := by
  intro hall
  obtain ⟨data, hdata⟩ : ∃ data : List UInt8, data.length = 2 ^ 31 :=
    ⟨List.replicate _ 0, List.length_replicate⟩
  obtain ⟨b, hrun, hv, hq⟩ := append_reached kInitialSize data
  have hcount : b.readableBytes = 2 ^ 31 := by
    rw [← hv.readable_length, hq, hdata]
  have hsum : b.readableBytes + 0 ≤ maxSize := by
    unfold maxSize
    omega
  have hint := ((shrink_iff hv hsum).mp (hall _ _ hrun 0 hsum)).1
  exact absurd hcount hint.ne

end Pool
end MuduoWindows.Net.Buffer
