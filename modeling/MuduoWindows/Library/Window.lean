import Mathlib.Tactic

/-! # Windows into a flat store

A flat store is a list of cells. A window is the stretch of cells between two positions; `store`
overwrites a stretch in place and `resize` grows the store. The lemmas say how each write looks
through a window that ends or starts at it.
-/

namespace MuduoWindows.Library

variable {α : Type*}

/-- The cells from position `i` up to, and without, position `j`. -/
def window (xs : List α) (i j : ℕ) : List α := (xs.take j).drop i

/-- Overwrite the cells from position `i` on by `d`. -/
def store (xs : List α) (i : ℕ) (d : List α) : List α := xs.take i ++ d ++ xs.drop (i + d.length)

/-- Make the store `n` cells long, cutting it or filling it with `a`. -/
def resize (a : α) (xs : List α) (n : ℕ) : List α := xs.take n ++ List.replicate (n - xs.length) a

theorem window_length {xs : List α} {i j : ℕ} (hj : j ≤ xs.length) :
    (window xs i j).length = j - i := by
  simp [window, hj]

@[simp] theorem window_self (xs : List α) (i : ℕ) : window xs i i = [] := by
  simp [window]

theorem window_drop (xs : List α) (i j k : ℕ) : window xs (i + k) j = (window xs i j).drop k := by
  simp [window]

theorem window_take {xs : List α} {i j k : ℕ} (hij : i + k ≤ j) :
    window xs i (i + k) = (window xs i j).take k := by
  simp only [window, List.take_drop, List.take_take]
  rw [min_eq_left hij]

theorem store_length {xs d : List α} {i : ℕ} (h : i + d.length ≤ xs.length) :
    (store xs i d).length = xs.length := by
  simp only [store, List.length_append, List.length_take, List.length_drop]
  omega

/-- A window that stops where the write starts sees nothing of it. -/
theorem window_store_before {xs d : List α} {i j k : ℕ} (hj : j ≤ k) (hk : k ≤ xs.length) :
    window (store xs k d) i j = window xs i j := by
  simp only [window, store, List.append_assoc]
  rw [List.take_append_of_le_length (by rw [List.length_take]; omega), List.take_take,
    min_eq_left hj]

/-- A window that starts where the write ends sees nothing of it. -/
theorem window_store_after {xs d : List α} {i j k : ℕ} (hk : k ≤ xs.length)
    (hi : k + d.length ≤ i) :
    window (store xs k d) i j = window xs i j := by
  have hlen : (xs.take k ++ d).length = k + d.length := by simp [hk]
  simp only [window, store, List.drop_take]
  rw [List.drop_append, hlen, List.drop_eq_nil_of_le (by rw [hlen]; exact hi), List.nil_append,
    List.drop_drop]
  congr 2
  omega

theorem window_store_self {xs d : List α} {i : ℕ} (hi : i ≤ xs.length) :
    window (store xs i d) i (i + d.length) = d := by
  have hlen : (xs.take i).length = i := by simp [hi]
  simp only [window, store, List.drop_take, List.append_assoc]
  rw [List.drop_append_of_le_length hlen.ge, List.drop_eq_nil_of_le hlen.le, List.nil_append]
  simp

theorem window_append {xs : List α} {i j k : ℕ} (hij : i ≤ j) (hjk : j ≤ k) :
    window xs i k = window xs i j ++ window xs j k := by
  have h : window xs i (i + (j - i)) = (window xs i k).take (j - i) := window_take (by omega)
  have hd := window_drop xs i k (j - i)
  rw [Nat.add_sub_cancel' hij] at h hd
  rw [h, hd, List.take_append_drop]

/-- Writing right behind a window extends what it shows. -/
theorem window_store_append {xs d : List α} {i j : ℕ} (hij : i ≤ j)
    (h : j + d.length ≤ xs.length) :
    window (store xs j d) i (j + d.length) = window xs i j ++ d := by
  rw [window_append hij (Nat.le_add_right _ _), window_store_before le_rfl (by omega),
    window_store_self (by omega)]

/-- Writing right in front of a window extends what it shows. -/
theorem window_store_prepend {xs d : List α} {i j : ℕ} (hij : i + d.length ≤ j)
    (hj : j ≤ xs.length) :
    window (store xs i d) i j = d ++ window xs (i + d.length) j := by
  rw [window_append (Nat.le_add_right _ _) hij, window_store_self (by omega),
    window_store_after (by omega) le_rfl]

theorem getElem?_store {xs d : List α} {i : ℕ} (a : α) (h : i ≤ xs.length) :
    (store xs i (a :: d))[i]? = some a := by
  have hlen : (xs.take i).length = i := List.length_take_of_le h
  unfold store
  rw [List.append_assoc, List.getElem?_append_right hlen.le, hlen, Nat.sub_self]
  rfl

theorem store_store_append {xs d e : List α} {i : ℕ} (h : i + d.length ≤ xs.length) :
    store (store xs i d) (i + d.length) e = store xs i (d ++ e) := by
  have hlen : (xs.take i ++ d).length = i + d.length := by
    rw [List.length_append, List.length_take, min_eq_left (by omega)]
  have htake : (store xs i d).take (i + d.length) = xs.take i ++ d := by
    unfold store
    rw [List.take_append_of_le_length hlen.ge, List.take_of_length_le hlen.le]
  have hdrop : (store xs i d).drop (i + d.length + e.length) =
      xs.drop (i + (d ++ e).length) := by
    unfold store
    rw [← List.drop_drop, List.drop_left' hlen, List.drop_drop, List.length_append, Nat.add_assoc]
  rw [store, htake, hdrop, store, List.append_assoc _ d e]

theorem store_store_prefix {xs d d' e : List α} {i : ℕ} (hd : d'.length = d.length)
    (h : i + (d ++ e).length ≤ xs.length) :
    store (store xs i (d ++ e)) i d' = store xs i (d' ++ e) := by
  rw [List.length_append] at h
  have hlen : (xs.take i).length = i := List.length_take_of_le (by omega)
  have htake : (store xs i (d ++ e)).take i = xs.take i := by
    unfold store
    rw [List.append_assoc, List.take_append_of_le_length hlen.ge, List.take_of_length_le hlen.le]
  have hdrop : (store xs i (d ++ e)).drop (i + d'.length) =
      e ++ xs.drop (i + (d' ++ e).length) := by
    unfold store
    rw [hd, List.append_assoc, ← List.drop_drop, List.drop_left' hlen, List.append_assoc,
      List.drop_left, List.length_append, List.length_append, hd]
  rw [store, htake, hdrop, store, List.append_assoc, List.append_assoc, List.append_assoc]

theorem resize_length (a : α) (xs : List α) (n : ℕ) : (resize a xs n).length = n := by
  simp only [resize, List.length_append, List.length_take, List.length_replicate]
  omega

/-- Growing the store leaves every window into the old cells as it was. -/
theorem window_resize {a : α} {xs : List α} {i j n : ℕ} (hj : j ≤ xs.length) (hn : j ≤ n) :
    window (resize a xs n) i j = window xs i j := by
  simp only [window, resize]
  rw [List.take_append_of_le_length (by rw [List.length_take]; omega), List.take_take,
    min_eq_left hn]

end MuduoWindows.Library
