import MuduoWindows.Library.Machine
import MuduoWindows.Base.LogStream
import MuduoWindows.Base.LogStream.Convert

/-! # base/logStream.cpp: the operators of LogStream

The buffer with its array. Some operators ask first whether a text fits; others want room for any
number, write in place and add its length afterwards.
-/

namespace MuduoWindows.Base
open Library Net

/-- `LogStream::Buffer`: `data_`, and `cur_` as a position in it. -/
structure LogStream where
  data : List UInt8
  cur : ℕ
  deriving DecidableEq

def kSmallBuffer : ℕ := 4096
def kMaxNumericSize : ℕ := 48

/-- What `snprintf` stored in `buf_`, up to the terminator. -/
structure Fmt where
  text : List UInt8
  fits : text.length < 32
  deriving DecidableEq

/-- The constructor, where `printed` is what the format gives for the value. -/
def Fmt.create (printed : List UInt8) : Result Fmt :=
  if h : printed.length < 32 then pure ⟨printed, h⟩
  else .error (.assertion "static_cast<size_t>(length_) < sizeof buf_")

theorem Fmt.create_eq {printed : List UInt8} (h : printed.length < 32) :
    Fmt.create printed = .ok ⟨printed, h⟩ := dif_pos h

namespace LogStream

def create (data : List UInt8) : LogStream := { data := data, cur := 0 }

/-- The characters from `data_` to `cur_`. -/
def text (s : LogStream) : List UInt8 := window s.data 0 s.cur

def length (s : LogStream) : ℤ := s.cur
def avail (s : LogStream) : ℤ := s.data.length - s.cur
def add (s : LogStream) (len : ℕ) : LogStream := { s with cur := s.cur + len }
def toStringPiece (s : LogStream) : StringPiece := ⟨s.text, s.length⟩

/-- `memcpy(cur_, buf, len)` -/
def memcpy (s : LogStream) (buf : List UInt8) (len : ℕ) : Result LogStream :=
  if len ≤ buf.length then
    if s.cur + len ≤ s.data.length then
      pure { s with data := store s.data s.cur (buf.take len) }
    else .error (.outOfBounds "data_")
  else .error (.outOfBounds "buf")

/-- The comparison converts `avail()` to `size_t`. -/
def append (s : LogStream) (buf : List UInt8) (len : ℕ) : Result LogStream :=
  if StringPiece.toSize s.avail > len then do
    let s ← s.memcpy buf len
    pure (s.add len)
  else pure s

/-- An `int` length becomes a `size_t`. -/
def appendInt (s : LogStream) (data : List UInt8) (len : ℤ) : Result LogStream :=
  s.append data (StringPiece.toSize len)

def reset (s : LogStream) : LogStream := { data := List.replicate s.data.length 0, cur := 0 }

def debugString (s : LogStream) : Result LogStream := do
  let data ← put s.data s.cur 0
  pure { s with data := data }

def formatInteger {T : IntegerType} (s : LogStream) (v : T.Value) : Result LogStream :=
  if s.avail ≥ kMaxNumericSize then do
    let (len, data) ← convert s.data s.cur v
    pure ({ s with data := data }.add len)
  else pure s

def formatPointer (s : LogStream) (v : IntegerType.uintptr.Value) : Result LogStream :=
  if s.avail ≥ kMaxNumericSize then do
    let data ← put s.data s.cur 48
    let data ← put data (s.cur + 1) 120
    let (len, data) ← convertHex data (s.cur + 2) v
    pure ({ s with data := data }.add (len + 2))
  else pure s

/-- `snprintf(current(), kMaxNumericSize, "%.12g", v)`, where `printed` is what the format gives. It
stores what fits before a terminator, and returns the length of all. -/
def formatDouble (s : LogStream) (printed : List UInt8) : Result LogStream :=
  if s.avail ≥ kMaxNumericSize then do
    let stored := printed.take (kMaxNumericSize - 1) ++ [0]
    let s' ← s.memcpy stored stored.length
    pure (s'.add printed.length)
  else pure s

/-- The right operand of `<<`. A floating-point number comes with what `"%.12g"` gives for it, a
string of C with the characters before its terminator. -/
inductive Arg where
  | bool (v : Bool)
  | short (v : IntegerType.short.Value)
  | unsignedShort (v : IntegerType.unsignedShort.Value)
  | int (v : IntegerType.int.Value)
  | unsignedInt (v : IntegerType.unsignedInt.Value)
  | long (v : IntegerType.long.Value)
  | unsignedLong (v : IntegerType.unsignedLong.Value)
  | longLong (v : IntegerType.longLong.Value)
  | unsignedLongLong (v : IntegerType.unsignedLongLong.Value)
  | pointer (v : IntegerType.uintptr.Value)
  | float (printed : List UInt8)
  | double (printed : List UInt8)
  | char (v : UInt8)
  | cstring (str : Option (List UInt8))
  | unsignedCstring (str : Option (List UInt8))
  | string (v : List UInt8)
  | stringPiece (v : StringPiece)
  | buffer (v : LogStream)
  | ownBuffer
  | fmt (v : Fmt)

def outCstring (s : LogStream) : Option (List UInt8) → Result LogStream
  | some str => s.append str str.length
  | none => s.append (ascii "(null)") 6

def outStringPiece (s : LogStream) (v : StringPiece) : Result LogStream :=
  s.append v.data (StringPiece.toSize v.size)

/-- `operator<<` -/
def out (s : LogStream) : Arg → Result LogStream
  | .bool v => s.append (ascii (if v then "1" else "0")) 1
  | .short v => s.formatInteger (T := .int) (v.widen (by decide))
  | .unsignedShort v => s.formatInteger (T := .unsignedInt) (v.widen (by decide))
  | .int v => s.formatInteger v
  | .unsignedInt v => s.formatInteger v
  | .long v => s.formatInteger v
  | .unsignedLong v => s.formatInteger v
  | .longLong v => s.formatInteger v
  | .unsignedLongLong v => s.formatInteger v
  | .pointer v => s.formatPointer v
  | .float printed | .double printed => s.formatDouble printed
  | .char v => s.append [v] 1
  | .cstring str | .unsignedCstring str => s.outCstring str
  | .string v => s.append v v.length
  | .stringPiece v => s.outStringPiece v
  | .buffer v => s.outStringPiece v.toStringPiece
  | .ownBuffer => s.outStringPiece s.toStringPiece
  | .fmt v => s.appendInt v.text v.text.length

/-- A text that is appended if it fits, a text appended if any number would fit, or none, where the
length is negative. -/
inductive Chunk where
  | piece (text : List UInt8)
  | number (text : List UInt8)
  | nothing

def Chunk.text : Chunk → List UInt8
  | .piece text | .number text => text
  | .nothing => []

def Chunk.put (chunk : Chunk) (text : List UInt8) : List UInt8 :=
  match chunk with
  | .piece t => if text.length + t.length < kSmallBuffer then text ++ t else text
  | .number t => if text.length + kMaxNumericSize ≤ kSmallBuffer then text ++ t else text
  | .nothing => text

/-- The first `len` characters. -/
def Chunk.ofInt (data : List UInt8) (len : ℤ) : Chunk :=
  if len < 0 then .nothing else .piece (data.take len.toNat)

/-- The complete text of an operand, in a stream that contains `own`. -/
def Arg.chunk (own : List UInt8) : Arg → Chunk
  | .bool v => .piece (ascii (if v then "1" else "0"))
  | .short v => .number (integerText v.toInt)
  | .unsignedShort v => .number (integerText v.toInt)
  | .int v => .number (integerText v.toInt)
  | .unsignedInt v => .number (integerText v.toInt)
  | .long v => .number (integerText v.toInt)
  | .unsignedLong v => .number (integerText v.toInt)
  | .longLong v => .number (integerText v.toInt)
  | .unsignedLongLong v => .number (integerText v.toInt)
  | .pointer v => .number (48 :: 120 :: hexadecimal.numeral v.toInt.natAbs)
  | .float printed | .double printed => .number printed
  | .char v => .piece [v]
  | .cstring str | .unsignedCstring str => .piece (str.getD (ascii "(null)"))
  | .string v => .piece v
  | .stringPiece v => .ofInt v.data v.length
  | .buffer v => .piece v.text
  | .ownBuffer => .piece own
  | .fmt v => .piece v.text

/-- All operations keep the array, and `cur_` before its last character. -/
structure Valid (s : LogStream) : Prop where
  size : s.data.length = kSmallBuffer
  cur : s.cur < kSmallBuffer

/-- Formats are shorter than `kMaxNumericSize`, and a `StringPiece` can be read. -/
def Arg.accepts : Arg → Prop
  | .float printed | .double printed => printed.length < kMaxNumericSize
  | .stringPiece v => IntegerType.int.InRange v.length ∧ v.length ≤ v.data.length
  | .buffer v => v.Valid
  | _ => True

/-- The call succeeded and left a valid stream with the text `q`. -/
def Holds (r : Result LogStream) (q : List UInt8) : Prop :=
  ∃ s, r = .ok s ∧ s.Valid ∧ s.text = q

theorem Holds.of_ok {r : Result LogStream} {q : List UInt8} (h : Holds r q) {s : LogStream}
    (hs : r = .ok s) : s.Valid ∧ s.text = q := by
  obtain ⟨s', hs', hv, htext⟩ := h
  obtain rfl := Except.ok.inj (hs'.symm.trans hs)
  exact ⟨hv, htext⟩

variable {s : LogStream}

theorem create_valid {data : List UInt8} (h : data.length = kSmallBuffer) : (create data).Valid :=
  ⟨h, Nat.succ_pos 4095⟩

theorem create_text (data : List UInt8) : (create data).text = [] := window_self data 0

theorem Valid.text_length (h : s.Valid) : s.text.length = s.cur := by
  have hlt := h.cur
  exact window_length (by rw [h.size]; omega)

theorem Valid.avail (h : s.Valid) : s.avail = (kSmallBuffer - s.cur : ℕ) := by
  have hlt := h.cur
  unfold LogStream.avail
  rw [h.size]
  omega

theorem toSize_nat {n : ℕ} (h : n ≤ kSmallBuffer) : StringPiece.toSize n = n :=
  StringPiece.toSize_natCast (by unfold kSmallBuffer at h; omega)

theorem Valid.put_piece (h : s.Valid) (t : List UInt8) : Chunk.put (.piece t) s.text =
    if s.cur + t.length < kSmallBuffer then s.text ++ t else s.text := by
  unfold Chunk.put
  dsimp only
  rw [h.text_length]

theorem Valid.put_number (h : s.Valid) (t : List UInt8) : Chunk.put (.number t) s.text =
    if s.cur + kMaxNumericSize ≤ kSmallBuffer then s.text ++ t else s.text := by
  unfold Chunk.put
  dsimp only
  rw [h.text_length]

/-- Characters stored at `current()` and added, where others may be stored behind them. -/
theorem store_holds (h : s.Valid) {t rest : List UInt8}
    (hfit : s.cur + (t ++ rest).length ≤ kSmallBuffer) (hlt : s.cur + t.length < kSmallBuffer) :
    Valid { data := store s.data s.cur (t ++ rest), cur := s.cur + t.length } ∧
      text { data := store s.data s.cur (t ++ rest), cur := s.cur + t.length } = s.text ++ t := by
  rw [← h.size] at hfit
  refine ⟨⟨(store_length hfit).trans h.size, hlt⟩, ?_⟩
  rw [List.length_append] at hfit
  unfold text
  dsimp only
  have hbehind : store (store s.data s.cur t) (s.cur + t.length) rest =
      store s.data s.cur (t ++ rest) := store_store_append (by omega)
  have hlen : (store s.data s.cur t).length = s.data.length := store_length (by omega)
  rw [← hbehind, window_store_before le_rfl (by omega)]
  exact window_store_append (Nat.zero_le _) (by omega)

theorem append_holds (h : s.Valid) {buf : List UInt8} {len : ℕ} (hlen : len ≤ buf.length) :
    Holds (s.append buf len) (Chunk.put (.piece (buf.take len)) s.text) := by
  have htake : (buf.take len).length = len := List.length_take_of_le hlen
  have hcur := h.cur
  rw [h.put_piece, htake]
  unfold append
  rw [h.avail, toSize_nat (Nat.sub_le _ _)]
  by_cases hfit : s.cur + len < kSmallBuffer
  · have hroom : s.cur + len ≤ s.data.length := by
      rw [h.size]
      exact hfit.le
    have hfits : s.cur + (buf.take len ++ []).length ≤ kSmallBuffer := by
      rw [List.append_nil, htake]
      exact hfit.le
    obtain ⟨hv, ht⟩ := store_holds h hfits (by rw [htake]; exact hfit)
    rw [List.append_nil, htake] at hv ht
    rw [if_pos (by omega), if_pos hfit]
    unfold memcpy
    rw [if_pos hlen, if_pos hroom, pure_eq_ok, ok_bind]
    exact ⟨_, rfl, hv, ht⟩
  · rw [if_neg (by omega), if_neg hfit]
    exact ⟨s, rfl, h, rfl⟩

theorem append_all (h : s.Valid) (buf : List UInt8) :
    Holds (s.append buf buf.length) (Chunk.put (.piece buf) s.text) := by
  have hall := append_holds h (le_refl buf.length)
  rwa [List.take_length] at hall

theorem appendInt_holds (h : s.Valid) {data : List UInt8} {len : ℤ}
    (hint : IntegerType.int.InRange len) (hlen : len ≤ data.length) :
    Holds (s.appendInt data len) ((Chunk.ofInt data len).put s.text) := by
  have hlow : -2 ^ 31 ≤ len := hint.1
  have hhigh : len < 2 ^ 31 := hint.2
  unfold appendInt Chunk.ofInt
  split_ifs with hneg
  · have hsize : kSmallBuffer < StringPiece.toSize len := by
      unfold StringPiece.toSize kSmallBuffer
      omega
    have havail : ¬ StringPiece.toSize s.avail > StringPiece.toSize len := by
      rw [h.avail, toSize_nat (Nat.sub_le _ _)]
      omega
    exact ⟨s, if_neg havail, h, rfl⟩
  · have hsize : StringPiece.toSize len = len.toNat := by
      unfold StringPiece.toSize
      omega
    rw [hsize]
    exact append_holds h (by omega)

theorem number_holds (h : s.Valid) {t : List UInt8} (ht : t.length < kMaxNumericSize)
    {write : Result LogStream} (hwrite : s.cur + t.length + 1 ≤ s.data.length →
      write = .ok { data := store s.data s.cur (t ++ [0]), cur := s.cur + t.length }) :
    Holds (if s.avail ≥ kMaxNumericSize then write else pure s)
      (Chunk.put (.number t) s.text) := by
  have hcur := h.cur
  rw [h.put_number, h.avail]
  by_cases hfit : s.cur + kMaxNumericSize ≤ kSmallBuffer
  · have hroom : s.cur + (t ++ [0]).length ≤ kSmallBuffer := by
      rw [List.length_append, List.length_singleton]
      omega
    obtain ⟨hv, htext⟩ := store_holds h hroom (by omega)
    rw [if_pos (by omega), if_pos hfit, hwrite (by rw [h.size]; omega)]
    exact ⟨_, rfl, hv, htext⟩
  · rw [if_neg (by omega), if_neg hfit]
    exact ⟨s, rfl, h, rfl⟩

theorem formatInteger_holds (h : s.Valid) {T : IntegerType} (hT : T.width ≤ 64) (v : T.Value) :
    Holds (s.formatInteger v) (Chunk.put (.number (integerText v.toInt)) s.text) := by
  have hlength := integerText_length v hT
  refine number_holds h (by unfold kMaxNumericSize; omega) fun hroom => ?_
  rw [convert_eq v (by omega), ok_bind]
  rfl

theorem formatPointer_holds (h : s.Valid) (v : IntegerType.uintptr.Value) :
    Holds (s.formatPointer v)
      (Chunk.put (.number (48 :: 120 :: hexadecimal.numeral v.toInt.natAbs)) s.text) := by
  have hlength := hexadecimal_length v
  refine number_holds h ?_ fun hroom => ?_
  · rw [List.length_cons, List.length_cons]
    unfold kMaxNumericSize
    omega
  · generalize htext : hexadecimal.numeral v.toInt.natAbs = text at *
    rw [List.length_cons, List.length_cons] at hroom
    have hx : (store s.data s.cur [48]).length = s.data.length :=
      store_length (by rw [List.length_singleton]; omega)
    have htwo : store (store s.data s.cur [48]) (s.cur + 1) [120] =
        store s.data s.cur [48, 120] :=
      store_store_append (by rw [List.length_singleton]; omega)
    have hlen : (store s.data s.cur [48, 120]).length = s.data.length :=
      store_length (by rw [List.length_cons, List.length_singleton]; omega)
    have hall : store (store s.data s.cur [48, 120]) (s.cur + 2) (text ++ [0]) =
        store s.data s.cur (48 :: 120 :: text ++ [0]) :=
      store_store_append (d := [48, 120]) (by rw [List.length_cons, List.length_singleton]; omega)
    rw [put_eq (by omega), ok_bind, put_eq (by omega), ok_bind, htwo,
      convertHex_eq v (by rw [htext]; omega), ok_bind, htext]
    dsimp only
    rw [hall]
    rfl

theorem formatDouble_holds (h : s.Valid) {printed : List UInt8}
    (hp : printed.length < kMaxNumericSize) :
    Holds (s.formatDouble printed) (Chunk.put (.number printed) s.text) := by
  refine number_holds h hp fun hroom => ?_
  have htake : printed.take (kMaxNumericSize - 1) = printed :=
    List.take_of_length_le (by omega)
  have hlength : (printed ++ [0]).length = printed.length + 1 := List.length_append
  unfold memcpy
  dsimp only
  rw [htake, if_pos le_rfl, if_pos (by omega), List.take_length, pure_eq_ok, ok_bind]
  rfl

theorem toStringPiece_eq (h : s.Valid) : s.toStringPiece = ⟨s.text, s.text.length⟩ := by
  unfold toStringPiece length
  rw [h.text_length]

theorem outStringPiece_all (h : s.Valid) {text : List UInt8} (hsmall : text.length < kSmallBuffer) :
    Holds (s.outStringPiece ⟨text, text.length⟩) (Chunk.put (.piece text) s.text) := by
  unfold outStringPiece
  rw [StringPiece.size_mk, toSize_nat hsmall.le]
  exact append_all h text

theorem out_holds (h : s.Valid) {a : Arg} (ha : a.accepts) :
    Holds (s.out a) ((a.chunk s.text).put s.text) := by
  cases a with
  | bool v =>
    cases v with
    | false => exact append_all h (ascii "0")
    | true => exact append_all h (ascii "1")
  | short v | unsignedShort v | int v | unsignedInt v | long v | unsignedLong v | longLong v
  | unsignedLongLong v => exact formatInteger_holds h (by decide) _
  | pointer v => exact formatPointer_holds h v
  | float printed | double printed => exact formatDouble_holds h ha
  | char v => exact append_all h [v]
  | cstring str | unsignedCstring str =>
    cases str with
    | none => exact append_all h (ascii "(null)")
    | some str => exact append_all h str
  | string v => exact append_all h v
  | stringPiece v => exact appendInt_holds h ha.1 ha.2
  | buffer v =>
    have hv : v.Valid := ha
    change Holds (s.outStringPiece v.toStringPiece) _
    rw [toStringPiece_eq hv]
    exact outStringPiece_all h (hv.text_length.trans_lt hv.cur)
  | ownBuffer =>
    change Holds (s.outStringPiece s.toStringPiece) _
    rw [toStringPiece_eq h]
    exact outStringPiece_all h (h.text_length.trans_lt h.cur)
  | fmt v =>
    have hfits := v.fits
    change Holds (s.append v.text (StringPiece.toSize v.text.length)) _
    rw [toSize_nat (by unfold kSmallBuffer; omega)]
    exact append_all h v.text

inductive Op where
  | out (a : Arg)
  | append (data : List UInt8) (len : ℤ)
  | resetBuffer

/-- Any operations on the stream; `append` takes an `int` and a pointer to as many characters. -/
def stream : Machine LogStream Op Fault where
  enabled _
    | .out a => a.accepts
    | .append data len => IntegerType.int.InRange len ∧ len ≤ data.length
    | .resetBuffer => True
  step s
    | .out a => s.out a
    | .append data len => s.appendInt data len
    | .resetBuffer => pure s.reset

/-- The complete text an operation is to append. -/
def Op.text (own : List UInt8) : Op → List UInt8
  | .out a => (a.chunk own).text
  | .append data len => (Chunk.ofInt data len).text
  | .resetBuffer => []

theorem Chunk.put_cases (chunk : Chunk) (text : List UInt8) :
    chunk.put text = text ∨ chunk.put text = text ++ chunk.text := by
  cases chunk with
  | piece t | number t =>
    unfold put
    dsimp only
    split_ifs
    · exact .inr rfl
    · exact .inl rfl
  | nothing => exact .inl rfl

theorem Chunk.put_length_le (chunk : Chunk) (text : List UInt8) :
    (chunk.put text).length ≤ text.length + chunk.text.length := by
  obtain heq | heq := chunk.put_cases text
  · rw [heq]
    exact Nat.le_add_right _ _
  · rw [heq, List.length_append]

theorem Chunk.ofInt_text_length (data : List UInt8) (len : ℤ) :
    (Chunk.ofInt data len).text.length ≤ data.length := by
  unfold Chunk.ofInt
  split_ifs
  · exact Nat.zero_le _
  · exact List.length_take_le' _ _

theorem Chunk.ofInt_natCast (data : List UInt8) : Chunk.ofInt data data.length = .piece data := by
  unfold Chunk.ofInt
  rw [if_neg (by omega), Int.toNat_natCast, List.take_length]

theorem Chunk.put_piece_of_lt {t text : List UInt8} (h : text.length + t.length < kSmallBuffer) :
    Chunk.put (.piece t) text = text ++ t := if_pos h

theorem Chunk.put_number_of_le {t text : List UInt8}
    (h : text.length + kMaxNumericSize ≤ kSmallBuffer) :
    Chunk.put (.number t) text = text ++ t := if_pos h

theorem Chunk.put_full (chunk : Chunk) {text : List UInt8} (h : text.length + 1 = kSmallBuffer) :
    chunk.put text = text := by
  cases chunk with
  | piece t =>
    unfold put
    dsimp only
    split_ifs with hfit
    · obtain rfl := List.eq_nil_of_length_eq_zero (l := t) (by omega)
      exact List.append_nil text
    · rfl
  | number t =>
    refine if_neg ?_
    unfold kMaxNumericSize
    omega
  | nothing => rfl

theorem Chunk.le_of_put_number {t text : List UInt8} (ht : t ≠ [])
    (h : Chunk.put (.number t) text = text ++ t) :
    text.length + kMaxNumericSize ≤ kSmallBuffer := by
  by_contra hfit
  have hkept : Chunk.put (.number t) text = text := if_neg hfit
  exact ht (List.self_eq_append_right.mp (hkept.symm.trans h))

theorem step_holds (h : s.Valid) {op : Op} (he : stream.enabled s op) : ∃ s',
    stream.step s op = .ok s' ∧ s'.Valid ∧ (op = .resetBuffer ∧ s'.text = [] ∨
      op ≠ .resetBuffer ∧ (s'.text = s.text ∨ s'.text = s.text ++ op.text s.text)) := by
  cases op with
  | out a =>
    obtain ⟨s', hs', hv, htext⟩ := out_holds h he
    refine ⟨s', hs', hv, .inr ⟨nofun, ?_⟩⟩
    rw [htext]
    exact Chunk.put_cases _ _
  | append data len =>
    obtain ⟨s', hs', hv, htext⟩ := appendInt_holds h he.1 he.2
    refine ⟨s', hs', hv, .inr ⟨nofun, ?_⟩⟩
    rw [htext]
    exact Chunk.put_cases _ _
  | resetBuffer =>
    exact ⟨s.reset, rfl, ⟨List.length_replicate.trans h.size, Nat.zero_lt_of_lt h.cur⟩,
      .inl ⟨rfl, window_self _ _⟩⟩

variable {data : List UInt8} {ops : List Op}

theorem run_valid (hdata : data.length = kSmallBuffer)
    (h : stream.Run Machine.Any (create data) ops s) : s.Valid := by
  refine h.invariant Valid (create_valid hdata) fun t op u ht he _ hu => ?_
  obtain ⟨s', hs', hv, -⟩ := step_holds ht he
  obtain rfl := Except.ok.inj (hs'.symm.trans hu)
  exact hv

theorem debugString_holds (h : s.Valid) : ∃ s', s.debugString = .ok s' ∧ s'.text = s.text ∧
    s'.data[s.cur]? = some 0 := by
  have hlt : s.cur < s.data.length := h.cur.trans_eq h.size.symm
  unfold debugString
  rw [put_eq hlt, ok_bind]
  exact ⟨_, rfl, window_store_before le_rfl hlt.le, getElem?_store 0 hlt.le⟩

/-- Whatever is streamed, the buffer keeps room for a terminator, and each operation appends its
complete text or nothing. -/
theorem writes_all_or_nothing (hdata : data.length = kSmallBuffer)
    (h : stream.Run Machine.Any (create data) ops s) :
    (0 ≤ s.length ∧ s.length ≤ kSmallBuffer - 1 ∧ s.length = s.text.length) ∧
    (∀ op, stream.enabled s op → ∃ s', stream.step s op = .ok s' ∧
      (op = .resetBuffer ∧ s'.text = [] ∨
        op ≠ .resetBuffer ∧ (s'.text = s.text ∨ s'.text = s.text ++ op.text s.text))) ∧
    ∃ s', s.debugString = .ok s' ∧ s'.text = s.text ∧ s'.data[s.cur]? = some 0 := by
  have hv := run_valid hdata h
  have hcur := hv.cur
  refine ⟨⟨?_, ?_, ?_⟩, fun op he => ?_, debugString_holds hv⟩
  · exact Int.natCast_nonneg _
  · unfold length
    omega
  · rw [hv.text_length]
    rfl
  · obtain ⟨s', hs', -, htext⟩ := step_holds hv he
    exact ⟨s', hs', htext⟩

/-- A negative length, after a text. -/
theorem writes_all_or_nothing_two : ∃ s s' : LogStream, s.text = ascii "ab" ∧
    s.length ≤ kSmallBuffer - 1 ∧ stream.step s (.append (ascii "abc") (-1)) = .ok s' ∧
      s'.text = ascii "ab" := by
  obtain ⟨data, hdata⟩ : ∃ data : List UInt8, data.length = kSmallBuffer :=
    ⟨List.replicate _ 0, List.length_replicate⟩
  obtain ⟨s, hs, -, htext⟩ := out_holds (create_valid hdata) (a := .string (ascii "ab")) trivial
  rw [create_text] at htext
  have hrun : stream.Run Machine.Any (create data) [.out (.string (ascii "ab"))] s :=
    Machine.Run.single trivial trivial hs
  obtain ⟨⟨-, hlength, -⟩, hstep, -⟩ := writes_all_or_nothing hdata hrun
  obtain ⟨s', hs', ⟨heq, -⟩ | ⟨-, hkept⟩⟩ :=
    hstep (.append (ascii "abc") (-1)) ⟨by decide, by decide⟩
  · cases heq
  · refine ⟨s, s', htext, hlength, hs', ?_⟩
    obtain hsame | hsame := hkept
    · exact hsame.trans htext
    · rw [hsame, htext]
      rfl

/-- For every integer type and every address: what is written is the canonical numeral with its
terminator, and no stream is written past its end. -/
theorem numbers_canonical {T : IntegerType} (hT : T.width ≤ 64) (x : T.Value)
    (p : IntegerType.uintptr.Value) {cells : List UInt8} {buf : ℕ}
    (hroom : buf + kMaxNumericSize ≤ cells.length) (hdata : data.length = kSmallBuffer)
    (h : stream.Run Machine.Any (create data) ops s) :
    (convert cells buf x = .ok ((integerText x.toInt).length,
        store cells buf (integerText x.toInt ++ [0])) ∧
      Canonical (integerText x.toInt) x.toInt ∧
      (integerText x.toInt ++ [0]).length ≤ kMaxNumericSize ∧
      ∀ y, integerText x.toInt = integerText y → x.toInt = y) ∧
    (convertHex cells buf p = .ok ((hexadecimal.numeral p.toInt.natAbs).length,
        store cells buf (hexadecimal.numeral p.toInt.natAbs ++ [0])) ∧
      hexadecimal.IsNumeral (hexadecimal.numeral p.toInt.natAbs) p.toInt.natAbs ∧
      (ascii "0x" ++ hexadecimal.numeral p.toInt.natAbs ++ [0]).length ≤ kMaxNumericSize ∧
      ∀ n, hexadecimal.numeral p.toInt.natAbs = hexadecimal.numeral n → p.toInt.natAbs = n) ∧
    (∃ s', s.formatInteger x = .ok s') ∧ ∃ s', s.formatPointer p = .ok s' := by
  have hv := run_valid hdata h
  have hinteger := integerText_length x hT
  have haddress := hexadecimal_length p
  unfold kMaxNumericSize at *
  refine ⟨⟨convert_eq x (by omega), integerText_canonical _, ?_,
    fun y heq => integerText_injective heq⟩, ⟨convertHex_eq p (by omega),
    hexadecimal.numeral_isNumeral _, ?_, fun n heq => hexadecimal.numeral_injective heq⟩, ?_, ?_⟩
  · rw [List.length_append, List.length_singleton]
    omega
  · rw [List.length_append, List.length_append, List.length_singleton]
    exact Nat.succ_le_of_lt (by change 2 + _ < 48; omega)
  · obtain ⟨s', hs', -⟩ := formatInteger_holds hv hT x
    exact ⟨s', hs'⟩
  · obtain ⟨s', hs', -⟩ := formatPointer_holds hv p
    exact ⟨s', hs'⟩

/-- The least `long long`, whose negation would overflow, and the greatest address. -/
theorem numbers_canonical_extremes :
    ∃ (x : IntegerType.longLong.Value) (p : IntegerType.uintptr.Value) (text hex : List UInt8)
      (cells cells' : List UInt8), x.toInt = -9223372036854775808 ∧
      convert (List.replicate 48 0) 0 x = .ok (text.length, cells) ∧
      parseInteger text = some (-9223372036854775808) ∧ p.toInt = 18446744073709551615 ∧
      convertHex (List.replicate 48 0) 0 p = .ok (hex.length, cells') ∧
      hexadecimal.parse hex = some 18446744073709551615 := by
  obtain ⟨data, hdata⟩ : ∃ data : List UInt8, data.length = kSmallBuffer :=
    ⟨List.replicate _ 0, List.length_replicate⟩
  let x : IntegerType.longLong.Value := ⟨-9223372036854775808, by decide⟩
  let p : IntegerType.uintptr.Value := ⟨18446744073709551615, by decide⟩
  have hroom : 0 + kMaxNumericSize ≤ (List.replicate 48 (0 : UInt8)).length := by decide
  obtain ⟨⟨hx, hcanonical, -⟩, ⟨hp, hnumeral, -⟩, -⟩ :=
    numbers_canonical (by decide) x p hroom hdata .nil
  exact ⟨x, p, _, _, _, _, rfl, hx, hcanonical.parse, rfl, hp, hnumeral.parse⟩

end LogStream
end MuduoWindows.Base
