import Mathlib.Tactic

/-! # Integers in memory

A word of `k` bytes lies in memory with its least significant byte first. Swapping its bytes gives
the word that lies there with the most significant byte first.
-/

namespace MuduoWindows.Library.ByteOrder

/-- The low `k` bytes of `n`, least significant first. -/
def lowBytes : ℕ → ℕ → List UInt8
  | 0, _ => []
  | k + 1, n => .ofNat n :: lowBytes k (n / 256)

/-- The low `k` bytes of `n`, most significant first. -/
def bigEndian : ℕ → ℕ → List UInt8
  | 0, _ => []
  | k + 1, n => .ofNat (n / 256 ^ k) :: bigEndian k n

def valueOf (bytes : List UInt8) : ℕ := bytes.foldr (fun b n => b.toNat + 256 * n) 0

@[simp] theorem lowBytes_length (k n : ℕ) : (lowBytes k n).length = k := by
  induction k generalizing n with
  | zero => rfl
  | succ k ih => exact congrArg Nat.succ (ih _)

@[simp] theorem bigEndian_length (k n : ℕ) : (bigEndian k n).length = k := by
  induction k with
  | zero => rfl
  | succ k ih => exact congrArg Nat.succ ih

/-- The last of the bytes is the most significant one. -/
theorem lowBytes_succ (k n : ℕ) : lowBytes (k + 1) n = lowBytes k n ++ [.ofNat (n / 256 ^ k)] := by
  induction k generalizing n with
  | zero => rw [pow_zero, Nat.div_one]; rfl
  | succ k ih =>
    rw [lowBytes, ih, Nat.div_div_eq_div_mul, ← pow_succ']
    rfl

theorem lowBytes_reverse (k n : ℕ) : (lowBytes k n).reverse = bigEndian k n := by
  induction k with
  | zero => rfl
  | succ k ih => rw [lowBytes_succ, List.reverse_concat, ih]; rfl

theorem valueOf_lt (bytes : List UInt8) : valueOf bytes < 256 ^ bytes.length := by
  induction bytes with
  | nil => exact Nat.one_pos
  | cons b bytes ih =>
    have hb : b.toNat < 256 := b.toNat_lt
    change b.toNat + 256 * valueOf bytes < _
    rw [List.length_cons, pow_succ']
    omega

theorem lowBytes_valueOf (bytes : List UInt8) : lowBytes bytes.length (valueOf bytes) = bytes := by
  induction bytes with
  | nil => rfl
  | cons b bytes ih =>
    have hb : b.toNat < 256 := b.toNat_lt
    have hdiv : (b.toNat + 256 * valueOf bytes) / 256 = valueOf bytes := by omega
    have hhead : UInt8.ofNat (b.toNat + 256 * valueOf bytes) = b := by
      apply UInt8.toNat.inj
      rw [UInt8.toNat_ofNat']
      omega
    change UInt8.ofNat (b.toNat + 256 * valueOf bytes) ::
      lowBytes bytes.length ((b.toNat + 256 * valueOf bytes) / 256) = _
    rw [hhead, hdiv, ih]

theorem valueOf_lowBytes {k n : ℕ} (h : n < 256 ^ k) : valueOf (lowBytes k n) = n := by
  induction k generalizing n with
  | zero => exact (Nat.lt_one_iff.mp h).symm
  | succ k ih =>
    have hdiv : n / 256 < 256 ^ k := by
      rw [pow_succ'] at h
      omega
    change (UInt8.ofNat n).toNat + 256 * valueOf (lowBytes k (n / 256)) = n
    rw [ih hdiv, UInt8.toNat_ofNat']
    omega

variable {k : ℕ}

/-- The bytes of a word in memory. -/
def memory (k : ℕ) (x : BitVec (8 * k)) : List UInt8 := lowBytes k x.toNat

/-- The word that lies in memory. -/
def load (k : ℕ) (bytes : List UInt8) : BitVec (8 * k) := .ofNat (8 * k) (valueOf bytes)

def swapBytes (k : ℕ) (x : BitVec (8 * k)) : BitVec (8 * k) := load k (memory k x).reverse

@[simp] theorem memory_length (x : BitVec (8 * k)) : (memory k x).length = k := lowBytes_length k _

@[simp] theorem load_memory (x : BitVec (8 * k)) : load k (memory k x) = x := by
  have hx : x.toNat < 256 ^ k := by
    rw [show 256 = 2 ^ 8 from rfl, ← pow_mul]
    exact x.isLt
  unfold load memory
  rw [valueOf_lowBytes hx, BitVec.ofNat_toNat, BitVec.setWidth_eq]

theorem memory_load {bytes : List UInt8} (h : bytes.length = k) :
    memory k (load k bytes) = bytes := by
  have hlt : valueOf bytes < 2 ^ (8 * k) := by
    rw [pow_mul, ← h]
    exact valueOf_lt bytes
  unfold memory load
  rw [BitVec.toNat_ofNat, Nat.mod_eq_of_lt hlt, ← h, lowBytes_valueOf]

theorem memory_swapBytes (x : BitVec (8 * k)) :
    memory k (swapBytes k x) = bigEndian k x.toNat := by
  unfold swapBytes
  rw [memory_load (by simp), memory, lowBytes_reverse]

theorem swapBytes_load_bigEndian (x : BitVec (8 * k)) :
    swapBytes k (load k (bigEndian k x.toNat)) = x := by
  unfold swapBytes
  rw [memory_load (bigEndian_length k _), ← lowBytes_reverse, List.reverse_reverse]
  exact load_memory x

end MuduoWindows.Library.ByteOrder
