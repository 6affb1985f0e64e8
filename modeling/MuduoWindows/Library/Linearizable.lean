import Mathlib.Tactic

/-! # Linearizability

A history lists the beginnings and ends of calls. It is linearizable if the calls that have taken
effect can be put into one order that explains every result by running the calls one after the
other, and where a call that ended before another began does not come after it. A linearization
grows with the run: a call is added at its linearization point.
-/

namespace MuduoWindows.Library

inductive HistoryEvent (ι Op R : Type*) where
  | invoke (i : ι) (op : Op)
  | respond (i : ι) (r : R)
  deriving DecidableEq

abbrev History (ι Op R : Type*) := List (HistoryEvent ι Op R)

namespace History
variable {ι Op R V : Type*}

/-- The call `a` ends before `b` begins. -/
def Precedes (h : History ι Op R) (a b : ι) : Prop :=
  ∃ h₁ h₂, h = h₁ ++ h₂ ∧ (∃ r, .respond a r ∈ h₁) ∧ ∃ op, .invoke b op ∈ h₂

/-- Run one after the other, the calls have these results and lead from `v` to `w`. -/
def Legal (spec : V → Op → V × R) : V → List (Op × R) → V → Prop
  | v, [], w => v = w
  | v, (op, r) :: l, w => (spec v op).2 = r ∧ Legal spec (spec v op).1 l w

/-- The list `l` of calls with their results is a linearization of `h` that leads from `v` to
`w`. -/
structure Linearizes (spec : V → Op → V × R) (v w : V) (h : History ι Op R)
    (l : List (ι × Op × R)) : Prop where
  nodup : (l.map Prod.fst).Nodup
  invoked : ∀ x ∈ l, .invoke x.1 x.2.1 ∈ h
  complete : ∀ i r, .respond i r ∈ h → ∃ op, (i, op, r) ∈ l
  legal : Legal spec v (l.map Prod.snd) w
  realTime : l.Pairwise fun x y => ¬ h.Precedes y.1 x.1

variable {spec : V → Op → V × R} {v w : V} {h : History ι Op R} {l : List (ι × Op × R)}
  {i a b : ι} {op : Op} {r : R}

theorem Legal.snoc {l : List (Op × R)} (hl : Legal spec v l w) (op : Op) :
    Legal spec v (l ++ [(op, (spec w op).2)]) (spec w op).1 := by
  induction l generalizing v with
  | nil =>
    obtain rfl : v = w := hl
    exact ⟨rfl, rfl⟩
  | cons x l ih => exact ⟨hl.1, ih hl.2⟩

/-- Only the beginning of a call can come after something. -/
theorem precedes_append {e : HistoryEvent ι Op R} (hab : Precedes (h ++ [e]) a b) :
    h.Precedes a b ∨ ∃ op, e = .invoke b op := by
  obtain ⟨h₁, h₂, heq, ha, op, hb⟩ := hab
  obtain rfl | ⟨h₂, x, rfl⟩ := List.eq_nil_or_concat h₂
  · exact absurd hb List.not_mem_nil
  · rw [List.concat_eq_append] at hb
    rw [List.concat_eq_append, ← List.append_assoc] at heq
    obtain ⟨rfl, hx⟩ := List.append_inj' heq rfl
    obtain hb | hb := List.mem_append.mp hb
    · exact .inl ⟨h₁, h₂, rfl, ha, op, hb⟩
    · rw [← hx] at hb
      exact .inr ⟨op, (List.mem_singleton.mp hb).symm⟩

theorem linearizes_nil : Linearizes spec v v ([] : History ι Op R) [] :=
  ⟨List.nodup_nil, nofun, nofun, rfl, .nil⟩

theorem Linearizes.invoke (hl : Linearizes spec v w h l) (hi : i ∉ l.map Prod.fst) :
    Linearizes spec v w (h ++ [.invoke i op]) l := by
  refine ⟨hl.nodup, fun x hx => List.mem_append_left _ (hl.invoked x hx), fun j r hj => ?_,
    hl.legal, ?_⟩
  · obtain hj | hj := List.mem_append.mp hj
    · exact hl.complete j r hj
    · exact absurd (List.mem_singleton.mp hj) nofun
  · refine hl.realTime.imp_of_mem fun {x y} hx _ hxy hprec => ?_
    obtain hprec | ⟨op', heq⟩ := precedes_append hprec
    · exact hxy hprec
    · obtain ⟨rfl, -⟩ := HistoryEvent.invoke.inj heq
      exact hi (List.mem_map_of_mem hx)

/-- A call takes effect between its beginning and its end. -/
theorem Linearizes.point (hl : Linearizes spec v w h l) (hop : .invoke i op ∈ h)
    (hpending : ∀ r, .respond i r ∉ h) (hi : i ∉ l.map Prod.fst) :
    Linearizes spec v (spec w op).1 h (l ++ [(i, op, (spec w op).2)]) := by
  refine ⟨?_, fun x hx => ?_, fun j r hj => ?_, ?_, ?_⟩
  · rw [List.map_append]
    exact List.Nodup.append hl.nodup (List.nodup_singleton i)
      (List.disjoint_singleton.mpr hi)
  · obtain hx | hx := List.mem_append.mp hx
    · exact hl.invoked x hx
    · obtain rfl := List.mem_singleton.mp hx
      exact hop
  · obtain ⟨op', hmem⟩ := hl.complete j r hj
    exact ⟨op', List.mem_append_left _ hmem⟩
  · rw [List.map_append]
    exact hl.legal.snoc op
  · refine List.pairwise_append.mpr ⟨hl.realTime, List.pairwise_singleton _ _, ?_⟩
    rintro x - y hy ⟨h₁, h₂, rfl, ⟨r, hr⟩, -⟩
    obtain rfl := List.mem_singleton.mp hy
    exact hpending r (List.mem_append_left _ hr)

theorem Linearizes.respond (hl : Linearizes spec v w h l) (hi : (i, op, r) ∈ l) :
    Linearizes spec v w (h ++ [.respond i r]) l := by
  refine ⟨hl.nodup, fun x hx => List.mem_append_left _ (hl.invoked x hx), fun j s hj => ?_,
    hl.legal, ?_⟩
  · obtain hj | hj := List.mem_append.mp hj
    · exact hl.complete j s hj
    · obtain ⟨rfl, rfl⟩ := HistoryEvent.respond.inj (List.mem_singleton.mp hj)
      exact ⟨op, hi⟩
  · refine hl.realTime.imp fun {x y} hxy hprec => ?_
    obtain hprec | ⟨op', heq⟩ := precedes_append hprec
    · exact hxy hprec
    · exact absurd heq nofun

end History
end MuduoWindows.Library
