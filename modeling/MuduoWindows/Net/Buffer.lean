import MuduoWindows.Library.Window
import MuduoWindows.Net.Fault

/-! # net/buffer.h and net/buffer.cpp

The vector of bytes with its two indices. Sizes stay below the vector's `max_size`, so no sum of
sizes wraps and the sizes are natural numbers. A pointer into the vector is its position in it.
-/

namespace MuduoWindows.Net
open Library

structure Buffer where
  buffer : List UInt8
  readerIndex : ℕ
  writerIndex : ℕ
  deriving DecidableEq, Repr

namespace Buffer

def kCheapPrepend : ℕ := 8
def kInitialSize : ℕ := 1024

def readableBytes (b : Buffer) : ℕ := b.writerIndex - b.readerIndex
def writableBytes (b : Buffer) : ℕ := b.buffer.length - b.writerIndex
def prependableBytes (b : Buffer) : ℕ := b.readerIndex
def peek (b : Buffer) : ℕ := b.readerIndex
def beginWrite (b : Buffer) : ℕ := b.writerIndex

/-- The content between `peek()` and `beginWrite()`. -/
def readable (b : Buffer) : List UInt8 := window b.buffer b.readerIndex b.writerIndex

def ofSize (initialSize : ℕ) : Buffer :=
  { buffer := List.replicate (kCheapPrepend + initialSize) 0
    readerIndex := kCheapPrepend
    writerIndex := kCheapPrepend }

def create (initialSize : ℕ) : Result Buffer := do
  let b := ofSize initialSize
  assert (b.readableBytes = 0) "readableBytes() == 0"
  assert (b.writableBytes = initialSize) "writableBytes() == initialSize"
  assert (b.prependableBytes = kCheapPrepend) "prependableBytes() == kCheapPrepend"
  pure b

def retrieveAll (b : Buffer) : Buffer :=
  { b with readerIndex := kCheapPrepend, writerIndex := kCheapPrepend }

def retrieve (b : Buffer) (len : ℕ) : Result Buffer := do
  assert (len ≤ b.readableBytes) "len <= readableBytes()"
  if len < b.readableBytes then
    pure { b with readerIndex := b.readerIndex + len }
  else
    pure b.retrieveAll

def retrieveUntil (b : Buffer) (stop : ℕ) : Result Buffer := do
  assert (b.peek ≤ stop) "peek() <= end"
  assert (stop ≤ b.beginWrite) "end <= beginWrite()"
  b.retrieve (stop - b.peek)

def retrieveAsString (b : Buffer) (len : ℕ) : Result (List UInt8 × Buffer) := do
  assert (len ≤ b.readableBytes) "len <= readableBytes()"
  let result := window b.buffer b.peek (b.peek + len)
  let b' ← b.retrieve len
  pure (result, b')

def retrieveAllAsString (b : Buffer) : Result (List UInt8 × Buffer) :=
  b.retrieveAsString b.readableBytes

/-- Grow, or move the readable data to the front to make space inside the buffer. -/
def makeSpace (b : Buffer) (len : ℕ) : Result Buffer :=
  if b.writableBytes + b.prependableBytes < len + kCheapPrepend then
    pure { b with buffer := resize 0 b.buffer (b.writerIndex + len) }
  else do
    assert (kCheapPrepend < b.readerIndex) "kCheapPrepend < readerIndex_"
    let readable := b.readableBytes
    let b' : Buffer :=
      { buffer := store b.buffer kCheapPrepend (window b.buffer b.readerIndex b.writerIndex)
        readerIndex := kCheapPrepend
        writerIndex := kCheapPrepend + readable }
    assert (readable = b'.readableBytes) "readable == readableBytes()"
    pure b'

def ensureWritableBytes (b : Buffer) (len : ℕ) : Result Buffer := do
  let b' ← if b.writableBytes < len then b.makeSpace len else pure b
  assert (len ≤ b'.writableBytes) "writableBytes() >= len"
  pure b'

def hasWritten (b : Buffer) (len : ℕ) : Result Buffer := do
  assert (len ≤ b.writableBytes) "len <= writableBytes()"
  pure { b with writerIndex := b.writerIndex + len }

def unwrite (b : Buffer) (len : ℕ) : Result Buffer := do
  assert (len ≤ b.readableBytes) "len <= readableBytes()"
  pure { b with writerIndex := b.writerIndex - len }

/-- Store bytes at `beginWrite()`, without counting them as written. -/
def fill (b : Buffer) (data : List UInt8) : Buffer :=
  { b with buffer := store b.buffer b.beginWrite data }

def append (b : Buffer) (data : List UInt8) : Result Buffer := do
  let b' ← b.ensureWritableBytes data.length
  (b'.fill data).hasWritten data.length

def prepend (b : Buffer) (data : List UInt8) : Result Buffer := do
  assert (data.length ≤ b.prependableBytes) "len <= prependableBytes()"
  let readerIndex := b.readerIndex - data.length
  pure { b with buffer := store b.buffer readerIndex data, readerIndex := readerIndex }

/-- `sizeof extrabuf` -/
def extrabufSize : ℕ := 65536

/-- The lengths of the areas `readFd` offers to `sockets::readv`. The first is stored in a
32-bit field. -/
def iovec (b : Buffer) : List ℕ :=
  if b.writableBytes < extrabufSize then [b.writableBytes % 2 ^ 32, extrabufSize]
  else [b.writableBytes % 2 ^ 32]

/-- `received` is what `sockets::readv` stored, first at `beginWrite()` and then in `extrabuf`.
Its result `n` is unsigned, so the branch for `n < 0` is never taken. -/
def readFd (b : Buffer) (received : List UInt8) : Result (ℕ × Buffer) := do
  let writable := b.writableBytes
  let n := received.length
  let b' := b.fill (received.take writable)
  if n ≤ writable then
    pure (n, { b' with writerIndex := b'.writerIndex + n })
  else do
    let b'' ← { b' with writerIndex := b'.buffer.length }.append (received.drop writable)
    pure (n, b'')

end Buffer
end MuduoWindows.Net
