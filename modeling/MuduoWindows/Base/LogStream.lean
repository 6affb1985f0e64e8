import MuduoWindows.Net.Fault

/-! # base/logStream.h: FixedBuffer

A buffer holds the bytes before `cur_`, which never passes the end of `data_`.
-/

namespace MuduoWindows.Base

def kLargeBuffer : ℕ := 4096 * 1024

/-- `FixedBuffer<SIZE>`: the bytes from `data_` to `cur_`. -/
structure FixedBuffer (SIZE : ℕ) where
  data : List UInt8
  fits : data.length ≤ SIZE
  deriving DecidableEq

namespace FixedBuffer
variable {SIZE : ℕ} {b : FixedBuffer SIZE} {buf : List UInt8}

def create : FixedBuffer SIZE := ⟨[], Nat.zero_le _⟩

def length (b : FixedBuffer SIZE) : ℕ := b.data.length

def avail (b : FixedBuffer SIZE) : ℕ := SIZE - b.length

def append (b : FixedBuffer SIZE) (buf : List UInt8) : FixedBuffer SIZE :=
  if h : b.avail > buf.length then
    ⟨b.data ++ buf, by
      rw [List.length_append]
      have hfits := b.fits
      unfold avail length at h
      omega⟩
  else b

def reset (_ : FixedBuffer SIZE) : FixedBuffer SIZE := create

@[simp] theorem data_create : (create : FixedBuffer SIZE).data = [] := rfl

@[simp] theorem reset_eq : b.reset = create := rfl

theorem append_data (h : b.avail > buf.length) : (b.append buf).data = b.data ++ buf := by
  unfold append
  rw [dif_pos h]

end FixedBuffer
end MuduoWindows.Base
