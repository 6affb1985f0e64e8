import Mathlib.Tactic

/-! # Lists whose elements know their position

A list without repetitions in which every element stores its position. An element is added at the
end, and removed by swapping the last one into its place, which needs one new position only.
-/

namespace MuduoWindows.Library

variable {α β : Type*}

/-- Exchange two entries. -/
def swap (l : List α) (i j : ℕ) : List α :=
  if h : i < l.length ∧ j < l.length then (l.set i l[j]).set j l[i] else l

/-- Swap the last entry to position `i` and drop the end. -/
def swapRemove (l : List α) (i : ℕ) : List α := (swap l i (l.length - 1)).dropLast

/-- Every element stores its position. -/
def Numbered (l : List α) (index : α → ℤ) : Prop := ∀ (i : ℕ) p, l[i]? = some p → index p = i

theorem swap_map (f : α → β) (l : List α) (i j : ℕ) : swap (l.map f) i j = (swap l i j).map f := by
  unfold swap
  simp only [List.length_map]
  split_ifs with h
  · simp only [List.getElem_map, List.map_set]
  · rfl

theorem swapRemove_map (f : α → β) (l : List α) (i : ℕ) :
    swapRemove (l.map f) i = (swapRemove l i).map f := by
  unfold swapRemove
  rw [List.length_map, swap_map, List.map_dropLast]

theorem swapRemove_last (l : List α) : swapRemove l (l.length - 1) = l.dropLast := by
  refine List.ext_getElem? fun j => ?_
  unfold swapRemove swap
  split_ifs with h
  · rw [List.getElem?_dropLast, List.getElem?_dropLast, List.length_set, List.length_set]
    split_ifs with hj
    · rw [List.getElem?_set_ne (by omega), List.getElem?_set_ne (by omega)]
    · rfl
  · rfl

theorem swap_length (l : List α) (i j : ℕ) : (swap l i j).length = l.length := by
  unfold swap
  split_ifs
  · rw [List.length_set, List.length_set]
  · rfl

theorem swapRemove_length (l : List α) (i : ℕ) : (swapRemove l i).length = l.length - 1 := by
  unfold swapRemove
  rw [List.length_dropLast, swap_length]

/-- The last entry stands at position `i`, the others where they stood. -/
theorem getElem?_swapRemove {l : List α} {i j : ℕ} (hi : i < l.length) (hj : j < l.length - 1) :
    (swapRemove l i)[j]? = if j = i then l[l.length - 1]? else l[j]? := by
  have hlast : l.length - 1 < l.length := by omega
  unfold swapRemove swap
  rw [dif_pos ⟨hi, hlast⟩, List.getElem?_dropLast, List.length_set, List.length_set, if_pos hj,
    List.getElem?_set_ne (by omega), List.getElem?_set]
  split_ifs with hij hji hji
  · rw [List.getElem?_eq_getElem hlast]
  · exact absurd hij.symm hji
  · exact absurd hji.symm hij
  · rfl

variable {l : List α} {index : α → ℤ}

theorem Numbered.of_mem (h : Numbered l index) {p : α} (hp : p ∈ l) :
    ∃ i : ℕ, l[i]? = some p ∧ index p = i ∧ i < l.length := by
  obtain ⟨i, hi, rfl⟩ := List.getElem_of_mem hp
  exact ⟨i, List.getElem?_eq_getElem hi, h i _ (List.getElem?_eq_getElem hi), hi⟩

theorem Numbered.injective (h : Numbered l index) {p q : α} (hp : p ∈ l) (hq : q ∈ l)
    (heq : index p = index q) : p = q := by
  obtain ⟨i, hi, hpi, -⟩ := h.of_mem hp
  obtain ⟨j, hj, hqj, -⟩ := h.of_mem hq
  obtain rfl : i = j := by
    rw [hpi, hqj] at heq
    exact_mod_cast heq
  exact Option.some.inj (hi.symm.trans hj)

theorem Numbered.nodup (h : Numbered l index) : l.Nodup := by
  refine List.nodup_iff_getElem?_ne_getElem?.mpr fun i j hij hj heq => ?_
  have hi : i < l.length := hij.trans hj
  have hii := h i _ (List.getElem?_eq_getElem hi)
  have hjj := h j _ (heq.symm.trans (List.getElem?_eq_getElem hi))
  omega

/-- Who stands nowhere cannot have a negative position. -/
theorem Numbered.not_mem_of_neg (h : Numbered l index) {p : α} (hp : index p < 0) : p ∉ l := by
  intro hmem
  obtain ⟨i, -, hi, -⟩ := h.of_mem hmem
  omega

/-- Exactly the element that stood at position `i` is gone. -/
theorem Numbered.mem_swapRemove (h : Numbered l index) {i : ℕ} {p : α} (hp : l[i]? = some p)
    {q : α} : q ∈ Library.swapRemove l i ↔ q ∈ l ∧ q ≠ p := by
  have hi : i < l.length := (List.getElem?_eq_some_iff.mp hp).1
  constructor
  · intro hq
    obtain ⟨j, hj, rfl⟩ := List.getElem_of_mem hq
    have hjl : j < l.length - 1 := by rwa [swapRemove_length] at hj
    have hget := List.getElem?_eq_getElem hj
    rw [getElem?_swapRemove hi hjl] at hget
    split_ifs at hget with hji
    · refine ⟨List.mem_of_getElem? hget, fun heq => ?_⟩
      rw [heq] at hget
      have h1 := h _ p hget
      have h2 := h i p hp
      omega
    · refine ⟨List.mem_of_getElem? hget, fun heq => ?_⟩
      rw [heq] at hget
      have h1 := h _ p hget
      have h2 := h i p hp
      omega
  · rintro ⟨hq, hne⟩
    obtain ⟨j, hj, -, hjl⟩ := h.of_mem hq
    have hji : j ≠ i := by
      rintro rfl
      exact hne (Option.some.inj (hj.symm.trans hp))
    by_cases hlast : j = l.length - 1
    · refine List.mem_of_getElem? (i := i) ?_
      rw [getElem?_swapRemove hi (by omega), if_pos rfl, ← hlast]
      exact hj
    · refine List.mem_of_getElem? (i := j) ?_
      rw [getElem?_swapRemove hi (by omega), if_neg hji]
      exact hj

variable [DecidableEq α]

theorem Numbered.append (h : Numbered l index) {p : α} (hp : p ∉ l) :
    Numbered (l ++ [p]) (Function.update index p l.length) := by
  intro i q hq
  rcases lt_or_ge i l.length with hi | hi
  · rw [List.getElem?_append_left hi] at hq
    have hne : q ≠ p := by
      rintro rfl
      exact hp (List.mem_of_getElem? hq)
    rw [Function.update_of_ne hne]
    exact h i q hq
  · rw [List.getElem?_append_right hi, List.getElem?_singleton] at hq
    split_ifs at hq with h0
    obtain rfl : p = q := Option.some.inj hq
    rw [Function.update_self]
    omega

theorem Numbered.swapRemove (h : Numbered l index) {i : ℕ} (hi : i < l.length) {p : α}
    (hlast : l[l.length - 1]? = some p) :
    Numbered (swapRemove l i) (Function.update index p i) := by
  intro j q hq
  have hj : j < l.length - 1 := by
    rw [← swapRemove_length l i]
    exact (List.getElem?_eq_some_iff.mp hq).1
  rw [getElem?_swapRemove hi hj] at hq
  split_ifs at hq with hji
  · obtain rfl : q = p := Option.some.inj (hq.symm.trans hlast)
    rw [Function.update_self, hji]
  · have hne : q ≠ p := by
      rintro rfl
      have h1 := h j q hq
      have h2 := h _ q hlast
      omega
    rw [Function.update_of_ne hne]
    exact h j q hq

/-- Writing the entry of an element is an update of the entries. -/
theorem Numbered.map_set (h : Numbered l index) {i : ℕ} {p : α} (hp : l[i]? = some p) (f : α → β)
    (b : β) : (l.map f).set i b = l.map (Function.update f p b) := by
  refine List.ext_getElem? fun j => ?_
  rw [List.getElem?_set, List.length_map]
  by_cases hij : i = j
  · subst j
    rw [if_pos rfl, if_pos (List.getElem?_eq_some_iff.mp hp).1, List.getElem?_map, hp,
      Option.map_some, Function.update_self]
  · rw [if_neg hij, List.getElem?_map, List.getElem?_map]
    cases hq : l[j]? with
    | none => rfl
    | some q =>
      have hne : q ≠ p := by
        rintro rfl
        have h1 := h i q hp
        have h2 := h j q hq
        omega
      rw [Option.map_some, Option.map_some, Function.update_of_ne hne]

theorem map_update_of_not_mem (f : α → β) {p : α} (hp : p ∉ l) (b : β) :
    l.map (Function.update f p b) = l.map f := by
  refine List.map_congr_left fun q hq => Function.update_of_ne ?_ _ _
  rintro rfl
  exact hp hq

end MuduoWindows.Library
