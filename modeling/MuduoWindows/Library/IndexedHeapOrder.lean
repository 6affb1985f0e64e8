import MuduoWindows.Library.IndexedHeap

/-! # Sifting orders the heap

While a hole moves, the heap with the hole filled is ordered but for one pair: the pair above the
hole on the way up, the pairs below it on the way down. `push`, `pop` and `removeAt` start a sift
from such a state, so each keeps the positions, the order and all other elements.
-/

namespace MuduoWindows.Library.IndexedHeap

variable {α κ : Type} [LinearOrder κ] {key : α → κ}

/-- The first element of an ordered heap is a least one. -/
theorem Ordered.first_le {h : IndexedHeap α} (ho : h.Ordered key) {i : ℕ} (hi : i < h.size) :
    key (h.event 0) ≤ key (h.event i) := by
  induction i using Nat.strongRecOn with
  | ind i ih =>
    rcases Nat.eq_zero_or_pos i with rfl | hpos
    · exact le_rfl
    · have hp := parent_lt hpos
      exact (ih _ hp (hp.trans hi)).trans (ho i hpos hi)

theorem Ordered.congr {key' : α → κ} {h : IndexedHeap α} (ho : h.Ordered key)
    (hk : ∀ x, h.Mem x → key' x = key x) : h.Ordered key' := by
  intro i hi hs
  rw [hk _ ⟨i, hs, rfl⟩, hk _ ⟨parent i, (parent_lt hi).trans hs, rfl⟩]
  exact ho i hi hs

/-- The chosen child is not greater than any child of the hole. -/
theorem minChild_le (h : IndexedHeap α) {hole i : ℕ} (hi : 0 < i) (hs : i < h.size)
    (hp : parent i = hole) :
    key (h.event (minChild key h (2 * (hole + 1)))) ≤ key (h.event i) := by
  have hchild : i = 2 * (hole + 1) - 1 ∨ i = 2 * (hole + 1) := by
    unfold parent at hp
    omega
  unfold minChild
  split_ifs with hc <;> rcases hchild with rfl | rfl
  · exact le_rfl
  · rcases hc with hc | hc
    · omega
    · exact hc.le
  · exact not_lt.mp fun hlt => hc (.inr hlt)
  · exact le_rfl

section Sifting
variable [DecidableEq α]

/-- On the way up: only the pair of the hole and its parent may be out of order, and the hole's
children are at or above its parent. -/
structure Rising (key : α → κ) (h : IndexedHeap α) (hole : ℕ) (e : α) : Prop where
  pairs : ∀ i, 0 < i → i < h.size → i ≠ hole →
    key ((h.place hole e).event (parent i)) ≤ key ((h.place hole e).event i)
  across : 0 < hole → ∀ i, 0 < i → i < h.size → parent i = hole →
    key (h.event (parent hole)) ≤ key (h.event i)

/-- On the way down: only the pairs of the hole and its children may be out of order, and the
children are at or above the hole's parent. -/
structure Sinking (key : α → κ) (h : IndexedHeap α) (hole : ℕ) (e : α) : Prop where
  pairs : ∀ i, 0 < i → i < h.size → parent i ≠ hole →
    key ((h.place hole e).event (parent i)) ≤ key ((h.place hole e).event i)
  across : 0 < hole → ∀ i, 0 < i → i < h.size → parent i = hole →
    key (h.event (parent hole)) ≤ key (h.event i)

theorem Rising.settle {h : IndexedHeap α} {hole : ℕ} {e : α} (o : Rising key h hole e)
    (hstop : ¬ (0 < hole ∧ key e < key (h.event (parent hole)))) :
    (h.place hole e).Ordered key := by
  intro i hi hs
  by_cases hh : i = hole
  · subst i
    have hp := parent_lt hi
    rw [place_event_self, place_event_of_ne _ _ hp.ne]
    exact not_lt.mp fun hlt => hstop ⟨hi, hlt⟩
  · exact o.pairs i hi hs hh

theorem Rising.step {h : IndexedHeap α} {hole : ℕ} {e : α} (o : Rising key h hole e)
    (hpos : 0 < hole) (hhole : hole < h.size) (hlt : key e < key (h.event (parent hole))) :
    Rising key (h.place hole (h.event (parent hole))) (parent hole) e := by
  have hp := parent_lt hpos
  have hpair : ∀ i, 0 < i → i < h.size → i ≠ hole → parent i ≠ hole →
      key (h.event (parent i)) ≤ key (h.event i) := by
    intro i hi hs hih hph
    have h1 := o.pairs i hi hs hih
    rwa [place_event_of_ne _ _ hih, place_event_of_ne _ _ hph] at h1
  constructor
  · intro i hi hs hiq
    by_cases hih : i = hole
    · subst i
      rw [place_event_self, place_event_of_ne _ _ hp.ne', place_event_self]
      exact hlt.le
    · rw [place_event_of_ne _ _ hiq, place_event_of_ne _ _ hih]
      by_cases hph : parent i = hole
      · rw [hph, place_event_of_ne _ _ hp.ne', place_event_self]
        exact o.across hpos i hi hs hph
      · by_cases hpq : parent i = parent hole
        · rw [hpq, place_event_self]
          have h1 := hpair i hi hs hih hph
          rw [hpq] at h1
          exact hlt.le.trans h1
        · rw [place_event_of_ne _ _ hpq, place_event_of_ne _ _ hph]
          exact hpair i hi hs hih hph
  · intro hq i hi hs hiq
    have hpq := parent_lt hq
    have habove := hpair (parent hole) hq (hp.trans hhole) hp.ne (by omega)
    rw [place_event_of_ne _ _ (by omega : parent (parent hole) ≠ hole)]
    by_cases hih : i = hole
    · subst i
      rw [place_event_self]
      exact habove
    · rw [place_event_of_ne _ _ hih]
      have h1 := hpair i hi hs hih (by omega)
      rw [hiq] at h1
      exact habove.trans h1

/-- The way up ends in order, with fuel for every level. -/
theorem shiftUp_ordered {fuel : ℕ} {h : IndexedHeap α} {hole : ℕ} {e : α} (hf : hole ≤ fuel)
    (hhole : hole < h.size) (o : Rising key h hole e) :
    (shiftUp key fuel h hole e).Ordered key := by
  induction fuel generalizing h hole with
  | zero =>
    obtain rfl : hole = 0 := by omega
    exact o.settle fun hc => hc.1.false
  | succ fuel ih =>
    rw [shiftUp]
    split_ifs with hup
    · have hp := parent_lt hup.1
      exact ih (by omega) (hp.trans hhole) (o.step hup.1 hhole hup.2)
    · exact o.settle hup

theorem Sinking.settle {h : IndexedHeap α} {hole : ℕ} {e : α} (o : Sinking key h hole e)
    (hstop : ¬ (2 * (hole + 1) ≤ h.size ∧
      key (h.event (minChild key h (2 * (hole + 1)))) < key e)) :
    (h.place hole e).Ordered key := by
  intro i hi hs
  by_cases hp : parent i = hole
  · have hle : key (h.event (minChild key h (2 * (hole + 1)))) ≤ key (h.event i) :=
      minChild_le h hi hs hp
    have hr : 2 * (hole + 1) ≤ h.size := by
      rw [place_size] at hs
      unfold parent at hp
      omega
    have hne : i ≠ hole := by
      have := parent_lt hi
      omega
    rw [hp, place_event_self, place_event_of_ne _ _ hne]
    exact (not_lt.mp fun hlt => hstop ⟨hr, hlt⟩).trans hle
  · exact o.pairs i hi hs hp

theorem Sinking.step {h : IndexedHeap α} {hole c : ℕ} {e : α} (o : Sinking key h hole e)
    (hc : 0 < c) (hcs : c < h.size) (hcp : parent c = hole)
    (hmin : ∀ i, 0 < i → i < h.size → parent i = hole → key (h.event c) ≤ key (h.event i))
    (hlt : key (h.event c) < key e) : Sinking key (h.place hole (h.event c)) c e := by
  have hhc : hole < c := hcp ▸ parent_lt hc
  have hpair : ∀ i, 0 < i → i < h.size → i ≠ hole → parent i ≠ hole →
      key (h.event (parent i)) ≤ key (h.event i) := by
    intro i hi hs hih hph
    have h1 := o.pairs i hi hs hph
    rwa [place_event_of_ne _ _ hih, place_event_of_ne _ _ hph] at h1
  constructor
  · intro i hi hs hpc
    rw [place_event_of_ne _ _ hpc]
    by_cases hph : parent i = hole
    · rw [hph, place_event_self]
      by_cases hic : i = c
      · subst i
        rw [place_event_self]
        exact hlt.le
      · have hih : i ≠ hole := by
          have := parent_lt hi
          omega
        rw [place_event_of_ne _ _ hic, place_event_of_ne _ _ hih]
        exact hmin i hi hs hph
    · rw [place_event_of_ne _ _ hph]
      have hic : i ≠ c := by
        rintro rfl
        exact hph hcp
      rw [place_event_of_ne _ _ hic]
      by_cases hih : i = hole
      · subst i
        rw [place_event_self]
        exact o.across hi c hc hcs hcp
      · rw [place_event_of_ne _ _ hih]
        exact hpair i hi hs hih hph
  · intro _ i hi hs hpc
    have hih : i ≠ hole := by
      have := parent_lt hi
      omega
    rw [hcp, place_event_self, place_event_of_ne _ _ hih, ← hpc]
    exact hpair i hi hs hih (by omega)

/-- The way down ends in order, with fuel for every cell below the hole. -/
theorem shiftDown_ordered {fuel : ℕ} {h : IndexedHeap α} {hole : ℕ} {e : α}
    (hf : h.size ≤ fuel + hole) (o : Sinking key h hole e) :
    (shiftDown key fuel h hole e).Ordered key := by
  induction fuel generalizing h hole with
  | zero => exact o.settle fun hc => by omega
  | succ fuel ih =>
    rw [shiftDown]
    split_ifs with hdown
    · obtain ⟨hgt, hlt, hp⟩ := minChild_spec key h hdown.1
      refine ih ?_ (o.step (by omega) hlt hp (fun i hi hs hip => minChild_le h hi hs hip) hdown.2)
      rw [place_size]
      omega
    · exact o.settle hdown

theorem push_sifted {h : IndexedHeap α} {e : α} (hi : h.Indexed) (he : ¬ h.Mem e) :
    Sifted ({ h with size := h.size + 1 } |>.place h.size e) (push key h e) := by
  refine shiftUp_sifted key _ (Nat.lt_succ_self _) ?_
  intro i hs
  by_cases hih : i = h.size
  · subst i
    rw [place_event_self, place_idx_self]
  · have hs' : i < h.size := by
      rw [place_size] at hs
      dsimp only at hs
      omega
    rw [place_event_of_ne _ _ hih, place_idx_of_ne]
    · exact hi i hs'
    · rintro rfl
      exact he ⟨i, hs', rfl⟩

theorem mem_grow {h : IndexedHeap α} {e x : α} :
    ({ h with size := h.size + 1 } |>.place h.size e).Mem x ↔ h.Mem x ∨ x = e := by
  constructor
  · rintro ⟨i, hs, rfl⟩
    by_cases hih : i = h.size
    · subst i
      exact .inr (place_event_self _ _ _)
    · refine .inl ⟨i, ?_, (place_event_of_ne _ _ hih).symm⟩
      rw [place_size] at hs
      dsimp only at hs
      omega
  · rintro (⟨i, hs, rfl⟩ | rfl)
    · exact ⟨i, Nat.lt_succ_of_lt hs, place_event_of_ne _ _ hs.ne⟩
    · exact ⟨h.size, Nat.lt_succ_self _, place_event_self _ _ _⟩

/-- Pushing a new element adds it and leaves every element outside alone. -/
theorem push_spec {h : IndexedHeap α} {e : α} (hi : h.Indexed) (ho : h.Ordered key)
    (he : ¬ h.Mem e) :
    (push key h e).Indexed ∧ (push key h e).Ordered key ∧ (push key h e).size = h.size + 1 ∧
      (∀ x, (push key h e).Mem x ↔ h.Mem x ∨ x = e) ∧
      ∀ x, ¬ h.Mem x → x ≠ e → (push key h e).idx x = h.idx x := by
  have hs : Sifted _ (push key h e) := push_sifted hi he
  refine ⟨hs.indexed, ?_, hs.size, fun x => (hs.mem x).trans mem_grow, ?_⟩
  · refine shiftUp_ordered le_rfl (Nat.lt_succ_self _) ⟨?_, ?_⟩
    · intro i hpos his hih
      dsimp only at his
      have hp := parent_lt hpos
      rw [place_event_of_ne _ _ hih, place_event_of_ne _ _ (by omega)]
      exact ho i hpos (by omega)
    · intro _ i hpos his hip
      have hp := parent_lt hpos
      dsimp only at his
      omega
  · intro x hx hxe
    rw [hs.frame x (fun hm => (mem_grow.mp hm).elim hx hxe), place_idx_of_ne _ _ hxe]

/-- Filling cell `i` with the last element takes away what the cell held. -/
theorem mem_shrink {h : IndexedHeap α} (hi : h.Indexed) {i : ℕ} (hs : i < h.size - 1) {x : α} :
    ({ h with size := h.size - 1 } |>.place i (h.event (h.size - 1))).Mem x ↔
      h.Mem x ∧ x ≠ h.event i := by
  constructor
  · rintro ⟨k, hk, rfl⟩
    change k < h.size - 1 at hk
    by_cases hki : k = i
    · subst k
      rw [place_event_self]
      exact ⟨⟨h.size - 1, by omega, rfl⟩, fun he => by
        have := hi.injective (by omega) (by omega) he
        omega⟩
    · rw [place_event_of_ne _ _ hki]
      exact ⟨⟨k, by omega, rfl⟩, fun he => hki (hi.injective (by omega) (by omega) he)⟩
  · rintro ⟨⟨k, hk, rfl⟩, hne⟩
    by_cases hlast : k = h.size - 1
    · subst k
      exact ⟨i, hs, place_event_self _ _ _⟩
    · have hki : k ≠ i := by
        rintro rfl
        exact hne rfl
      exact ⟨k, (by omega : k < h.size - 1), place_event_of_ne _ _ hki⟩

theorem indexed_shrink {h : IndexedHeap α} (hi : h.Indexed) (i : ℕ) :
    ({ h with size := h.size - 1 } |>.place i (h.event (h.size - 1))).Indexed := by
  intro k hk
  change k < h.size - 1 at hk
  by_cases hki : k = i
  · subst k
    rw [place_event_self, place_idx_self]
  · rw [place_event_of_ne _ _ hki, place_idx_of_ne]
    · exact hi k (by omega)
    · intro he
      have := hi.injective (i := k) (j := h.size - 1) (by omega) (by omega) he
      omega

theorem removeAt_sifted {h : IndexedHeap α} (hi : h.Indexed) {i : ℕ} (hs : i < h.size - 1) :
    Sifted ({ h with size := h.size - 1 } |>.place i (h.event (h.size - 1)))
      (removeAt key h i) := by
  have hv := indexed_shrink hi i
  unfold removeAt
  split_ifs
  · exact shiftUp_sifted key _ hs hv
  · exact shiftDown_sifted key _ hs hv

theorem removeAt_ordered {h : IndexedHeap α} (ho : h.Ordered key) {i : ℕ} (hs : i < h.size - 1) :
    (removeAt key h i).Ordered key := by
  have hacross : 0 < i → ∀ k, 0 < k → k < h.size - 1 → parent k = i →
      key (h.event (parent i)) ≤ key (h.event k) := by
    intro hpos k hk hks hkp
    have h1 := ho k hk (by omega)
    rw [hkp] at h1
    exact (ho i hpos (by omega)).trans h1
  have hpair : ∀ k, 0 < k → k < h.size - 1 → k ≠ i → parent k ≠ i →
      key (({ h with size := h.size - 1 } |>.place i (h.event (h.size - 1))).event (parent k)) ≤
        key (({ h with size := h.size - 1 } |>.place i (h.event (h.size - 1))).event k) := by
    intro k hk hks hki hkp
    rw [place_event_of_ne _ _ hki, place_event_of_ne _ _ hkp]
    exact ho k hk (by omega)
  unfold removeAt
  split_ifs with hup
  · -- the moved element is less than the parent, so it is at or below the hole's children too
    refine shiftUp_ordered le_rfl hs ⟨?_, hacross⟩
    intro k hk hks hki
    by_cases hkp : parent k = i
    · rw [hkp, place_event_self, place_event_of_ne _ _ hki]
      exact hup.2.le.trans (hacross hup.1 k hk hks hkp)
    · exact hpair k hk hks hki hkp
  · refine shiftDown_ordered (by dsimp only; omega) ⟨?_, hacross⟩
    intro k hk hks hkp
    by_cases hki : k = i
    · subst k
      have hp := parent_lt hk
      rw [place_event_self, place_event_of_ne _ _ hp.ne]
      exact not_lt.mp fun hlt => hup ⟨hk, hlt⟩
    · exact hpair k hk hks hki hkp

/-- Removing the last element only shortens the heap and writes the position into it. -/
theorem removeAt_last {h : IndexedHeap α} (ho : h.Ordered key) (hs : h.size ≠ 0) :
    removeAt key h (h.size - 1) =
      ({ h with size := h.size - 1 } |>.place (h.size - 1) (h.event (h.size - 1))) := by
  unfold removeAt
  rw [if_neg (fun hc => (ho _ hc.1 (by omega)).not_gt hc.2)]
  obtain ⟨n, hn⟩ := Nat.exists_eq_succ_of_ne_zero hs
  rw [hn, shiftDown, if_neg]
  dsimp only
  omega

/-- Removing keeps the rest, its order and its positions. The removed element keeps the position
it was removed from, and no element outside is written to. -/
theorem removeAt_spec {h : IndexedHeap α} (hi : h.Indexed) (ho : h.Ordered key) {i : ℕ}
    (hs : i < h.size) :
    (removeAt key h i).Indexed ∧ (removeAt key h i).Ordered key ∧
      (removeAt key h i).size = h.size - 1 ∧
      (∀ x, (removeAt key h i).Mem x ↔ h.Mem x ∧ x ≠ h.event i) ∧
      (∀ x, ¬ h.Mem x → (removeAt key h i).idx x = h.idx x) ∧
      (removeAt key h i).idx (h.event i) = i := by
  by_cases hlast : i = h.size - 1
  · subst i
    have hfar : ∀ k, k < h.size - 1 → h.event k ≠ h.event (h.size - 1) := by
      intro k hk he
      have := hi.injective (by omega) hs he
      omega
    rw [removeAt_last ho (by omega)]
    refine ⟨?_, ?_, rfl, ?_, ?_, place_idx_self _ _ _⟩
    · intro k hk
      change k < h.size - 1 at hk
      rw [place_event_of_ne _ _ hk.ne, place_idx_of_ne _ _ (hfar k hk)]
      exact hi k (by omega)
    · intro k hpos hk
      change k < h.size - 1 at hk
      have hp := parent_lt hpos
      rw [place_event_of_ne _ _ hk.ne, place_event_of_ne _ _ (by omega)]
      exact ho k hpos (by omega)
    · intro x
      constructor
      · rintro ⟨k, hk, rfl⟩
        change k < h.size - 1 at hk
        rw [place_event_of_ne _ _ hk.ne]
        exact ⟨⟨k, by omega, rfl⟩, hfar k hk⟩
      · rintro ⟨⟨k, hk, rfl⟩, hne⟩
        have hkl : k < h.size - 1 := by
          have : k ≠ h.size - 1 := fun he => hne (by rw [he])
          omega
        exact ⟨k, hkl, place_event_of_ne _ _ hkl.ne⟩
    · intro x hx
      exact place_idx_of_ne _ _ fun he => hx ⟨h.size - 1, hs, he.symm⟩
  · have hlt : i < h.size - 1 := by omega
    have hsift : Sifted _ (removeAt key h i) := removeAt_sifted hi hlt
    have hmem := fun x => (hsift.mem x).trans (mem_shrink hi hlt)
    have hold : ∀ x, (¬ h.Mem x ∨ x = h.event i) → (removeAt key h i).idx x = h.idx x := by
      intro x hx
      rw [hsift.frame x fun hm => ?_, place_idx_of_ne]
      · rintro rfl
        rcases hx with hx | hx
        · exact hx ⟨h.size - 1, by omega, rfl⟩
        · exact hlast (hi.injective (by omega) hs hx).symm
      · exact hx.elim (fun hx => hx ((mem_shrink hi hlt).mp hm).1)
          fun hx => ((mem_shrink hi hlt).mp hm).2 hx
    exact ⟨hsift.indexed, removeAt_ordered ho hlt, hsift.size, hmem, fun x hx => hold x (.inl hx),
      (hold _ (.inr rfl)).trans (hi i hs)⟩

theorem pop_eq_removeAt {h : IndexedHeap α} (hs : h.size ≠ 0) : pop key h = removeAt key h 0 := by
  rw [pop, if_neg hs, removeAt, if_neg fun hc => hc.1.false]

theorem push_elements {h : IndexedHeap α} {e : α} (hi : h.Indexed) (ho : h.Ordered key)
    (he : ¬ h.Mem e) : (push key h e).elements = e ::ₘ h.elements := by
  obtain ⟨hidx, -, -, hmem, -⟩ := push_spec hi ho he
  exact hi.elements_cons hidx he hmem

theorem removeAt_elements {h : IndexedHeap α} (hi : h.Indexed) (ho : h.Ordered key) {i : ℕ}
    (hs : i < h.size) : h.elements = h.event i ::ₘ (removeAt key h i).elements := by
  obtain ⟨hidx, -, -, hmem, -⟩ := removeAt_spec hi ho hs
  refine hidx.elements_cons hi (fun hm => ((hmem _).mp hm).2 rfl) fun x => ?_
  rw [hmem]
  by_cases hx : x = h.event i
  · exact iff_of_true ⟨i, hs, hx.symm⟩ (.inr hx)
  · rw [and_iff_left hx, or_iff_left hx]

end Sifting
end MuduoWindows.Library.IndexedHeap
