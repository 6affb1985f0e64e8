import Mathlib.Tactic

/-! # A binary heap whose elements know their position

The heap is an array with the number of cells in use, and every element stores the position it
was last written to. Sifting moves a hole and writes the moved elements' positions on the way; a
loop carries its bound as fuel, and the bound given by the callers is shown to be enough.
Cells from `size` on keep whatever was written there last.
-/

namespace MuduoWindows.Library

structure IndexedHeap (α : Type) where
  event : ℕ → α
  size : ℕ
  idx : α → ℤ

namespace IndexedHeap
variable {α κ : Type} [LinearOrder κ] (key : α → κ)

def parent (i : ℕ) : ℕ := (i - 1) / 2

theorem parent_lt {i : ℕ} (hi : 0 < i) : parent i < i := by
  unfold parent
  omega

/-- The smaller child, when the right one would be `right`; the left one on a tie. -/
def minChild (h : IndexedHeap α) (right : ℕ) : ℕ :=
  if right = h.size ∨ key (h.event (right - 1)) < key (h.event right) then right - 1 else right

/-- The first element, if there is one. -/
def top (h : IndexedHeap α) : Option α := if h.size = 0 then none else some (h.event 0)

/-- Every element in use stores its own position. -/
def Indexed (h : IndexedHeap α) : Prop := ∀ i < h.size, h.idx (h.event i) = i

/-- No element in use is less than its parent. -/
def Ordered (h : IndexedHeap α) : Prop :=
  ∀ i, 0 < i → i < h.size → key (h.event (parent i)) ≤ key (h.event i)

def Mem (h : IndexedHeap α) (x : α) : Prop := ∃ i < h.size, h.event i = x

/-- The elements in use, each as often as it occurs. -/
def elements (h : IndexedHeap α) : Multiset α := (Multiset.range h.size).map h.event

theorem mem_elements {h : IndexedHeap α} {x : α} : x ∈ h.elements ↔ h.Mem x := by
  unfold elements Mem
  simp only [Multiset.mem_map, Multiset.mem_range]

/-- The stored position tells two elements in use apart. -/
theorem Indexed.injective {h : IndexedHeap α} (hi : h.Indexed) {i j : ℕ} (hil : i < h.size)
    (hjl : j < h.size) (he : h.event i = h.event j) : i = j := by
  have hii := hi i hil
  rw [he, hi j hjl] at hii
  exact_mod_cast hii.symm

theorem Indexed.nodup_elements {h : IndexedHeap α} (hi : h.Indexed) : h.elements.Nodup := by
  refine Multiset.Nodup.map_on ?_ (Multiset.nodup_range _)
  intro i hil j hjl he
  exact hi.injective (Multiset.mem_range.mp hil) (Multiset.mem_range.mp hjl) he

/-- Heaps without repetitions whose elements differ by one. -/
theorem Indexed.elements_cons {h k : IndexedHeap α} (hi : h.Indexed) (ki : k.Indexed) {e : α}
    (he : ¬ h.Mem e) (hmem : ∀ x, k.Mem x ↔ h.Mem x ∨ x = e) : k.elements = e ::ₘ h.elements := by
  have hnodup : (e ::ₘ h.elements).Nodup :=
    Multiset.nodup_cons.mpr ⟨mt mem_elements.mp he, hi.nodup_elements⟩
  refine (Multiset.Nodup.ext ki.nodup_elements hnodup).mpr fun x => ?_
  rw [Multiset.mem_cons, mem_elements, mem_elements, hmem, or_comm]

theorem minChild_cases (h : IndexedHeap α) (right : ℕ) :
    minChild key h right = right - 1 ∨ minChild key h right = right ∧ right ≠ h.size := by
  unfold minChild
  split_ifs with hc
  · exact .inl rfl
  · exact .inr ⟨rfl, fun he => hc (.inl he)⟩

/-- The chosen child is a child of the hole and in use. -/
theorem minChild_spec (h : IndexedHeap α) {hole : ℕ} (hr : 2 * (hole + 1) ≤ h.size) :
    hole < minChild key h (2 * (hole + 1)) ∧ minChild key h (2 * (hole + 1)) < h.size ∧
      parent (minChild key h (2 * (hole + 1))) = hole := by
  unfold parent
  rcases minChild_cases key h (2 * (hole + 1)) with hc | ⟨hc, hne⟩ <;> rw [hc] <;> omega

/-- `w` comes from `v` by moving elements that are in use: nothing enters or leaves, every element
in use still stores its position, and the stored position of any other element is untouched. -/
structure Sifted (v w : IndexedHeap α) : Prop where
  size : w.size = v.size
  indexed : w.Indexed
  mem : ∀ x, w.Mem x ↔ v.Mem x
  frame : ∀ x, ¬ v.Mem x → w.idx x = v.idx x

theorem Sifted.refl {v : IndexedHeap α} (hv : v.Indexed) : Sifted v v :=
  ⟨rfl, hv, fun _ => Iff.rfl, fun _ _ => rfl⟩

theorem Sifted.trans {u v w : IndexedHeap α} (huv : Sifted u v) (hvw : Sifted v w) : Sifted u w :=
  ⟨hvw.size.trans huv.size, hvw.indexed, fun x => (hvw.mem x).trans (huv.mem x),
    fun x hx => (hvw.frame x (mt (huv.mem x).mp hx)).trans (huv.frame x hx)⟩

section Sifting
variable [DecidableEq α]

/-- Write `e` to cell `i` and the position into `e`. -/
def place (h : IndexedHeap α) (i : ℕ) (e : α) : IndexedHeap α :=
  { h with event := Function.update h.event i e, idx := Function.update h.idx e i }

/-- Move the hole up while the element above it is greater than `e`, then fill it with `e`. -/
def shiftUp : ℕ → IndexedHeap α → ℕ → α → IndexedHeap α
  | 0, h, hole, e => h.place hole e
  | fuel + 1, h, hole, e =>
      if 0 < hole ∧ key e < key (h.event (parent hole)) then
        shiftUp fuel (h.place hole (h.event (parent hole))) (parent hole) e
      else h.place hole e

/-- Move the hole down while `e` is greater than the smaller child, then fill it with `e`. -/
def shiftDown : ℕ → IndexedHeap α → ℕ → α → IndexedHeap α
  | 0, h, hole, e => h.place hole e
  | fuel + 1, h, hole, e =>
      if 2 * (hole + 1) ≤ h.size ∧ key (h.event (minChild key h (2 * (hole + 1)))) < key e then
        shiftDown fuel (h.place hole (h.event (minChild key h (2 * (hole + 1)))))
          (minChild key h (2 * (hole + 1))) e
      else h.place hole e

/-- Add `e` behind the last element and sift it up. -/
def push (h : IndexedHeap α) (e : α) : IndexedHeap α :=
  shiftUp key h.size { h with size := h.size + 1 } h.size e

/-- Drop the first element: the last one is sifted down from its place. -/
def pop (h : IndexedHeap α) : IndexedHeap α :=
  if h.size = 0 then h
  else shiftDown key h.size { h with size := h.size - 1 } 0 (h.event (h.size - 1))

/-- Drop the element stored at position `i`: the last one is sifted from there. -/
def removeAt (h : IndexedHeap α) (i : ℕ) : IndexedHeap α :=
  if 0 < i ∧ key (h.event (h.size - 1)) < key (h.event (parent i)) then
    shiftUp key i { h with size := h.size - 1 } i (h.event (h.size - 1))
  else shiftDown key h.size { h with size := h.size - 1 } i (h.event (h.size - 1))

@[simp] theorem place_size (h : IndexedHeap α) (i : ℕ) (e : α) : (h.place i e).size = h.size := rfl

@[simp] theorem place_event_self (h : IndexedHeap α) (i : ℕ) (e : α) :
    (h.place i e).event i = e := by simp [place]

theorem place_event_of_ne (h : IndexedHeap α) {i j : ℕ} (e : α) (hj : j ≠ i) :
    (h.place i e).event j = h.event j := by simp [place, hj]

@[simp] theorem place_idx_self (h : IndexedHeap α) (i : ℕ) (e : α) :
    (h.place i e).idx e = i := by simp [place]

theorem place_idx_of_ne (h : IndexedHeap α) {x e : α} (i : ℕ) (hx : x ≠ e) :
    (h.place i e).idx x = h.idx x := by simp [place, hx]

/-- Moving the hole from `i` to `j` exchanges what the two cells hold. -/
theorem Sifted.exchange {h : IndexedHeap α} {i j : ℕ} {e : α} (hi : i < h.size) (hj : j < h.size)
    (hij : j ≠ i) (hv : (h.place i e).Indexed) :
    Sifted (h.place i e) ((h.place i (h.event j)).place j e) := by
  have hjv : (h.place i e).event j = h.event j := place_event_of_ne h e hij
  have hpe : h.event j ≠ e := by
    intro he
    exact hij (hv.injective hj hi (by rw [hjv, he, place_event_self]))
  have hcell : ∀ k, k ≠ i → k ≠ j →
      ((h.place i (h.event j)).place j e).event k = (h.place i e).event k := by
    intro k hki hkj
    rw [place_event_of_ne _ _ hkj, place_event_of_ne _ _ hki, place_event_of_ne _ _ hki]
  have hcelli : ((h.place i (h.event j)).place j e).event i = h.event j := by
    rw [place_event_of_ne _ _ hij.symm, place_event_self]
  refine ⟨rfl, ?_, ?_, ?_⟩
  · intro k hk
    by_cases hkj : k = j
    · subst k
      rw [place_event_self, place_idx_self]
    · by_cases hki : k = i
      · subst k
        rw [hcelli, place_idx_of_ne _ _ hpe, place_idx_self]
      · have hx := hv k hk
        have hxe : (h.place i e).event k ≠ e := by
          intro he
          exact hki (hv.injective hk hi (by rw [he, place_event_self]))
        have hxp : (h.place i e).event k ≠ h.event j := by
          intro he
          exact hkj (hv.injective hk hj (by rw [he, hjv]))
        rw [hcell k hki hkj, place_idx_of_ne _ _ hxe, place_idx_of_ne _ _ hxp]
        rwa [place_idx_of_ne _ _ hxe] at hx
  · intro x
    constructor
    · rintro ⟨k, hk, rfl⟩
      by_cases hkj : k = j
      · subst k
        exact ⟨i, hi, by rw [place_event_self, place_event_self]⟩
      · by_cases hki : k = i
        · subst k
          exact ⟨j, hj, by rw [hcelli, hjv]⟩
        · exact ⟨k, hk, (hcell k hki hkj).symm⟩
    · rintro ⟨k, hk, rfl⟩
      by_cases hkj : k = j
      · subst k
        exact ⟨i, hi, by rw [hcelli, hjv]⟩
      · by_cases hki : k = i
        · subst k
          exact ⟨j, hj, by rw [place_event_self, place_event_self]⟩
        · exact ⟨k, hk, hcell k hki hkj⟩
  · intro x hx
    have hxe : x ≠ e := by
      rintro rfl
      exact hx ⟨i, hi, place_event_self h i x⟩
    have hxp : x ≠ h.event j := by
      rintro rfl
      exact hx ⟨j, hj, hjv⟩
    rw [place_idx_of_ne _ _ hxe, place_idx_of_ne _ _ hxp, place_idx_of_ne _ _ hxe]

theorem shiftUp_sifted (fuel : ℕ) {h : IndexedHeap α} {hole : ℕ} {e : α} (hhole : hole < h.size)
    (hv : (h.place hole e).Indexed) : Sifted (h.place hole e) (shiftUp key fuel h hole e) := by
  induction fuel generalizing h hole with
  | zero => exact .refl hv
  | succ fuel ih =>
    rw [shiftUp]
    split_ifs with hup
    · have hp := parent_lt hup.1
      have hex := Sifted.exchange hhole (hp.trans hhole) hp.ne hv
      exact hex.trans (ih (hp.trans hhole) hex.indexed)
    · exact .refl hv

theorem shiftDown_sifted (fuel : ℕ) {h : IndexedHeap α} {hole : ℕ} {e : α} (hhole : hole < h.size)
    (hv : (h.place hole e).Indexed) : Sifted (h.place hole e) (shiftDown key fuel h hole e) := by
  induction fuel generalizing h hole with
  | zero => exact .refl hv
  | succ fuel ih =>
    rw [shiftDown]
    split_ifs with hdown
    · obtain ⟨hgt, hlt, -⟩ := minChild_spec key h hdown.1
      have hex := Sifted.exchange hhole hlt hgt.ne' hv
      exact hex.trans (ih hlt hex.indexed)
    · exact .refl hv

end Sifting
end IndexedHeap
end MuduoWindows.Library
