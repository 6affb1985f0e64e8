import MuduoWindows.Library.ByteOrder
import MuduoWindows.Net.BufferQueue

/-! # net/endian.h, and the integers of net/buffer.h

The host stores integers with the least significant byte first, so `hton` and `ntoh` swap bytes. The
value of a signed integer is its bit pattern.
-/

namespace MuduoWindows.Net
open Library ByteOrder

def hostToNetwork64 (x : BitVec 64) : BitVec 64 := swapBytes 8 x
def hostToNetwork32 (x : BitVec 32) : BitVec 32 := swapBytes 4 x
def hostToNetwork16 (x : BitVec 16) : BitVec 16 := swapBytes 2 x
def networkToHost64 (x : BitVec 64) : BitVec 64 := swapBytes 8 x
def networkToHost32 (x : BitVec 32) : BitVec 32 := swapBytes 4 x
def networkToHost16 (x : BitVec 16) : BitVec 16 := swapBytes 2 x

namespace Buffer

def appendInt64 (b : Buffer) (x : BitVec 64) : Result Buffer :=
  b.append (memory 8 (hostToNetwork64 x))
def appendInt32 (b : Buffer) (x : BitVec 32) : Result Buffer :=
  b.append (memory 4 (hostToNetwork32 x))
def appendInt16 (b : Buffer) (x : BitVec 16) : Result Buffer :=
  b.append (memory 2 (hostToNetwork16 x))
def appendInt8 (b : Buffer) (x : BitVec 8) : Result Buffer := b.append (memory 1 x)

def prependInt64 (b : Buffer) (x : BitVec 64) : Result Buffer :=
  b.prepend (memory 8 (hostToNetwork64 x))
def prependInt32 (b : Buffer) (x : BitVec 32) : Result Buffer :=
  b.prepend (memory 4 (hostToNetwork32 x))
def prependInt16 (b : Buffer) (x : BitVec 16) : Result Buffer :=
  b.prepend (memory 2 (hostToNetwork16 x))
def prependInt8 (b : Buffer) (x : BitVec 8) : Result Buffer := b.prepend (memory 1 x)

/-- The assertion of the `peek` functions, then the integer of `k` bytes at `peek()`, converted by
`ntoh`. -/
def peekInt (b : Buffer) (k : ℕ) (text : String) (ntoh : BitVec (8 * k) → BitVec (8 * k)) :
    Result (BitVec (8 * k)) := do
  assert (k ≤ b.readableBytes) text
  pure (ntoh (load k (window b.buffer b.peek (b.peek + k))))

def peekInt64 (b : Buffer) : Result (BitVec 64) :=
  b.peekInt 8 "readableBytes() >= sizeof(int64_t)" networkToHost64
def peekInt32 (b : Buffer) : Result (BitVec 32) :=
  b.peekInt 4 "readableBytes() >= sizeof(int32_t)" networkToHost32
def peekInt16 (b : Buffer) : Result (BitVec 16) :=
  b.peekInt 2 "readableBytes() >= sizeof(int16_t)" networkToHost16
def peekInt8 (b : Buffer) : Result (BitVec 8) :=
  b.peekInt 1 "readableBytes() >= sizeof(int8_t)" id

def retrieveInt64 (b : Buffer) : Result Buffer := b.retrieve 8
def retrieveInt32 (b : Buffer) : Result Buffer := b.retrieve 4
def retrieveInt16 (b : Buffer) : Result Buffer := b.retrieve 2
def retrieveInt8 (b : Buffer) : Result Buffer := b.retrieve 1

def readInt {α : Type} (peek : Result α) (retrieve : Result Buffer) : Result (α × Buffer) := do
  let result ← peek
  let b ← retrieve
  pure (result, b)

def readInt64 (b : Buffer) : Result (BitVec 64 × Buffer) := readInt b.peekInt64 b.retrieveInt64
def readInt32 (b : Buffer) : Result (BitVec 32 × Buffer) := readInt b.peekInt32 b.retrieveInt32
def readInt16 (b : Buffer) : Result (BitVec 16 × Buffer) := readInt b.peekInt16 b.retrieveInt16
def readInt8 (b : Buffer) : Result (BitVec 8 × Buffer) := readInt b.peekInt8 b.retrieveInt8

end Buffer

inductive IntWidth where
  | int8
  | int16
  | int32
  | int64
  deriving DecidableEq

inductive TypedInt where
  | int8 (x : BitVec 8)
  | int16 (x : BitVec 16)
  | int32 (x : BitVec 32)
  | int64 (x : BitVec 64)
  deriving DecidableEq

def IntWidth.sizeof : IntWidth → ℕ
  | .int8 => 1
  | .int16 => 2
  | .int32 => 4
  | .int64 => 8

namespace TypedInt

def width : TypedInt → IntWidth
  | .int8 _ => .int8
  | .int16 _ => .int16
  | .int32 _ => .int32
  | .int64 _ => .int64

def value : TypedInt → ℕ
  | .int8 x => x.toNat
  | .int16 x => x.toNat
  | .int32 x => x.toNat
  | .int64 x => x.toNat

/-- Most significant byte first. -/
def encode (x : TypedInt) : List UInt8 := bigEndian x.width.sizeof x.value

@[simp] theorem encode_length (x : TypedInt) : x.encode.length = x.width.sizeof :=
  bigEndian_length _ _

end TypedInt

namespace Buffer

def appendInt (b : Buffer) : TypedInt → Result Buffer
  | .int8 x => b.appendInt8 x
  | .int16 x => b.appendInt16 x
  | .int32 x => b.appendInt32 x
  | .int64 x => b.appendInt64 x

def prependInt (b : Buffer) : TypedInt → Result Buffer
  | .int8 x => b.prependInt8 x
  | .int16 x => b.prependInt16 x
  | .int32 x => b.prependInt32 x
  | .int64 x => b.prependInt64 x

def readTyped (b : Buffer) : IntWidth → Result (TypedInt × Buffer)
  | .int8 => Prod.map .int8 id <$> b.readInt8
  | .int16 => Prod.map .int16 id <$> b.readInt16
  | .int32 => Prod.map .int32 id <$> b.readInt32
  | .int64 => Prod.map .int64 id <$> b.readInt64

theorem memory_one (x : BitVec (8 * 1)) : memory 1 x = bigEndian 1 x.toNat :=
  lowBytes_reverse 1 _

theorem appendInt_eq (b : Buffer) (x : TypedInt) : b.appendInt x = b.append x.encode := by
  cases x with
  | int8 x => exact congrArg b.append (memory_one x)
  | int16 x => exact congrArg b.append (memory_swapBytes (k := 2) x)
  | int32 x => exact congrArg b.append (memory_swapBytes (k := 4) x)
  | int64 x => exact congrArg b.append (memory_swapBytes (k := 8) x)

theorem prependInt_eq (b : Buffer) (x : TypedInt) : b.prependInt x = b.prepend x.encode := by
  cases x with
  | int8 x => exact congrArg b.prepend (memory_one x)
  | int16 x => exact congrArg b.prepend (memory_swapBytes (k := 2) x)
  | int32 x => exact congrArg b.prepend (memory_swapBytes (k := 4) x)
  | int64 x => exact congrArg b.prepend (memory_swapBytes (k := 8) x)

variable {b : Buffer} {rest : List UInt8}

theorem peekInt_eq (h : b.Valid) {k : ℕ} {bytes : List UInt8} (hk : bytes.length = k)
    (hq : b.readable = bytes ++ rest) (text : String) (ntoh : BitVec (8 * k) → BitVec (8 * k)) :
    b.peekInt k text ntoh = .ok (ntoh (load k bytes)) := by
  have hlen : k ≤ b.readableBytes := by
    rw [← h.readable_length, hq, List.length_append]
    omega
  have hfit : b.readerIndex + k ≤ b.writerIndex := by
    have hr := h.reader
    unfold readableBytes at hlen
    omega
  have hwindow : window b.buffer b.peek (b.peek + k) = bytes := by
    have htake : (bytes ++ rest).take k = bytes := List.take_left' hk
    rw [← htake, ← hq]
    exact window_take hfit
  unfold peekInt
  rw [require_bind hlen, hwindow, pure_eq_ok]

theorem map_readInt {α : Type} {peek : Result α} {retrieve : Result Buffer} {x : α} {b : Buffer}
    {c : α → TypedInt} (hp : peek = .ok x) (hr : retrieve = .ok b) :
    Prod.map c id <$> readInt peek retrieve = .ok (c x, b) := by
  rw [hp, hr]
  rfl

theorem readTyped_eq (h : b.Valid) {x : TypedInt} (hq : b.readable = x.encode ++ rest) :
    ∃ b', b.readTyped x.width = .ok (x, b') ∧ b'.Valid ∧ b'.readable = rest := by
  have hlen : x.width.sizeof ≤ b.readableBytes := by
    rw [← h.readable_length, hq, List.length_append, TypedInt.encode_length]
    omega
  obtain ⟨b', hb', hv, hrest⟩ := retrieve_holds h hlen
  rw [hq, ← x.encode_length, List.drop_left] at hrest
  refine ⟨b', ?_, hv, hrest⟩
  have hpeek := fun text ntoh => peekInt_eq h x.encode_length hq text ntoh
  cases x with
  | int8 x =>
    have hload : load 1 (bigEndian 1 x.toNat) = x := memory_one x ▸ load_memory (k := 1) x
    exact map_readInt ((hpeek _ id).trans (congrArg Except.ok hload)) hb'
  | int16 x =>
    exact map_readInt ((hpeek _ networkToHost16).trans
      (congrArg Except.ok (swapBytes_load_bigEndian (k := 2) x))) hb'
  | int32 x =>
    exact map_readInt ((hpeek _ networkToHost32).trans
      (congrArg Except.ok (swapBytes_load_bigEndian (k := 4) x))) hb'
  | int64 x =>
    exact map_readInt ((hpeek _ networkToHost64).trans
      (congrArg Except.ok (swapBytes_load_bigEndian (k := 8) x))) hb'

def appendInts (b : Buffer) (xs : List TypedInt) : Result Buffer := xs.foldlM appendInt b

def prependInts (b : Buffer) (xs : List TypedInt) : Result Buffer := xs.foldlM prependInt b

def readInts (b : Buffer) : List IntWidth → Result (List TypedInt × Buffer)
  | [] => pure ([], b)
  | w :: ws => do
    let (x, b) ← b.readTyped w
    let (xs, b) ← b.readInts ws
    pure (x :: xs, b)

def encodeAll (xs : List TypedInt) : List UInt8 := (xs.map TypedInt.encode).flatten

@[simp] theorem encodeAll_nil : encodeAll [] = [] := rfl

@[simp] theorem encodeAll_cons (x : TypedInt) (xs : List TypedInt) :
    encodeAll (x :: xs) = x.encode ++ encodeAll xs := rfl

@[simp] theorem encodeAll_append (xs ys : List TypedInt) :
    encodeAll (xs ++ ys) = encodeAll xs ++ encodeAll ys := by
  simp [encodeAll]

theorem appendInts_holds (h : b.Valid) (xs : List TypedInt) :
    Holds (b.appendInts xs) (b.readable ++ encodeAll xs) := by
  induction xs generalizing b with
  | nil => exact ⟨b, rfl, h, (List.append_nil _).symm⟩
  | cons x xs ih =>
    obtain ⟨b', hb', hv, hq⟩ := append_holds h x.encode
    obtain ⟨b'', hb'', hv', hq'⟩ := ih hv
    refine ⟨b'', ?_, hv', ?_⟩
    · change b.appendInt x >>= (appendInts · xs) = _
      rw [appendInt_eq, hb', ok_bind, hb'']
    · rw [hq', hq, List.append_assoc, encodeAll_cons]

theorem prepend_prependableBytes {data : List UInt8} {b' : Buffer}
    (h : b.prepend data = .ok b') :
    b'.prependableBytes = b.prependableBytes - data.length := by
  obtain ⟨-, h⟩ := require_bind_eq_ok.mp h
  obtain rfl := Except.ok.inj h
  rfl

theorem prependInts_holds (h : b.Valid) {xs : List TypedInt}
    (hfit : (encodeAll xs).length ≤ b.prependableBytes) :
    Holds (b.prependInts xs) (encodeAll xs.reverse ++ b.readable) := by
  induction xs generalizing b with
  | nil => exact ⟨b, rfl, h, rfl⟩
  | cons x xs ih =>
    rw [encodeAll_cons, List.length_append] at hfit
    have hroom₁ : x.encode.length ≤ b.prependableBytes := by omega
    obtain ⟨b', hb', hv, hq⟩ := prepend_holds h hroom₁
    have hroom := prepend_prependableBytes hb'
    obtain ⟨b'', hb'', hv', hq'⟩ := ih hv (by omega)
    refine ⟨b'', ?_, hv', ?_⟩
    · change b.prependInt x >>= (prependInts · xs) = _
      rw [prependInt_eq, hb', ok_bind, hb'']
    · rw [hq', hq, List.reverse_cons, encodeAll_append, encodeAll_cons, encodeAll_nil,
        List.append_nil, List.append_assoc]

theorem readInts_eq (h : b.Valid) {xs : List TypedInt} (hq : b.readable = encodeAll xs ++ rest) :
    ∃ b', b.readInts (xs.map TypedInt.width) = .ok (xs, b') ∧ b'.Valid ∧ b'.readable = rest := by
  induction xs generalizing b with
  | nil => exact ⟨b, rfl, h, hq⟩
  | cons x xs ih =>
    rw [encodeAll_cons, List.append_assoc] at hq
    obtain ⟨b', hb', hv, hq'⟩ := readTyped_eq h hq
    obtain ⟨b'', hb'', hv', hrest⟩ := ih hv hq'
    refine ⟨b'', ?_, hv', hrest⟩
    rw [List.map_cons, readInts, hb', ok_bind]
    dsimp only
    rw [hb'', ok_bind, pure_eq_ok]

/-- A byte as `readInt8` gives it. -/
def ofByte (c : UInt8) : TypedInt := .int8 c.toBitVec

theorem encodeAll_ofByte (bytes : List UInt8) : encodeAll (bytes.map ofByte) = bytes := by
  induction bytes with
  | nil => rfl
  | cons c bytes ih =>
    have hc : (ofByte c).encode = [c] := by
      change [UInt8.ofNat (c.toNat / 256 ^ 0)] = [c]
      rw [pow_zero, Nat.div_one, UInt8.ofNat_toNat]
    rw [List.map_cons, encodeAll_cons, ih, hc, List.singleton_append]

/-- The integers appended and those prepended come back around the old content, and leave an empty
buffer. -/
theorem ints_roundTrip (h : b.Valid) (xs ys : List TypedInt) :
    ∃ b₁, b.appendInts xs = .ok b₁ ∧ ((encodeAll ys).length ≤ b₁.prependableBytes →
      ∃ b₂ b₃ b₄ b₅, b₁.prependInts ys.reverse = .ok b₂ ∧
        b₂.readable = encodeAll ys ++ b.readable ++ encodeAll xs ∧
        b₂.readInts (ys.map TypedInt.width) = .ok (ys, b₃) ∧
        b₃.readInts (List.replicate b.readableBytes .int8) = .ok (b.readable.map ofByte, b₄) ∧
        b₄.readInts (xs.map TypedInt.width) = .ok (xs, b₅) ∧ b₅.readableBytes = 0) := by
  obtain ⟨b₁, hb₁, hv₁, hq₁⟩ := appendInts_holds h xs
  refine ⟨b₁, hb₁, fun hfit => ?_⟩
  have hreverse : (encodeAll ys.reverse).length ≤ b₁.prependableBytes := by
    have hlength : (encodeAll ys.reverse).length = (encodeAll ys).length := by
      unfold encodeAll
      simp
    omega
  obtain ⟨b₂, hb₂, hv₂, hq₂⟩ := prependInts_holds hv₁ hreverse
  rw [List.reverse_reverse, hq₁] at hq₂
  obtain ⟨b₃, hb₃, hv₃, hq₃⟩ := readInts_eq hv₂ hq₂
  rw [← encodeAll_ofByte b.readable] at hq₃
  obtain ⟨b₄, hb₄, hv₄, hq₄⟩ := readInts_eq hv₃ hq₃
  rw [← List.append_nil (encodeAll xs)] at hq₄
  obtain ⟨b₅, hb₅, hv₅, hq₅⟩ := readInts_eq hv₄ hq₄
  have hwidths : (b.readable.map ofByte).map TypedInt.width =
      List.replicate b.readableBytes .int8 := by
    rw [List.map_map, ← h.readable_length]
    exact List.map_const
  refine ⟨b₂, b₃, b₄, b₅, hb₂, ?_, hb₃, hwidths ▸ hb₄, hb₅, ?_⟩
  · rw [hq₂, List.append_assoc]
  · rw [← hv₅.readable_length, hq₅, List.length_nil]

end Buffer
end MuduoWindows.Net
