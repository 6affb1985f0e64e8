import MuduoWindows.Library.Checked

/-! # Machines, their runs and their invariants

A machine receives events. An event may be impossible in a state; a possible one is executed by
a checked program, which can stop with a fault. A run collects the possible events, each
satisfying a side condition `P` on the state before it, that were executed without a fault.
-/

namespace MuduoWindows.Library

/-- Which events can arrive in a state, and the program that handles each of them. -/
structure Machine (S E φ : Type*) where
  enabled : S → E → Prop
  step : S → E → Except φ S

namespace Machine
variable {S E φ : Type*} (m : Machine S E φ) (P Q : S → E → Prop)

/-- The finite runs whose steps all meet `P`, with the events executed and the state reached. -/
inductive Run (s : S) : List E → S → Prop
  | nil : Run s [] s
  | snoc {es : List E} {t u : S} {e : E} : Run s es t → m.enabled t e → P t e →
      m.step t e = .ok u → Run s (es ++ [e]) u

/-- Every event is allowed. -/
def Any : S → E → Prop := fun _ _ => True

variable {m P Q}

/-- The invariant rule: what holds at the start and is kept by each step holds after every run. -/
theorem Run.invariant {s t : S} {es : List E} (I : S → Prop) (hs : I s)
    (hstep : ∀ t e u, I t → m.enabled t e → P t e → m.step t e = .ok u → I u)
    (h : m.Run P s es t) : I t := by
  induction h with
  | nil => exact hs
  | snoc _ he hp hu ih => exact hstep _ _ _ ih he hp hu

/-- The invariant rule with the executed events in view. -/
theorem Run.invariant_trace {s t : S} {es : List E} (I : List E → S → Prop) (hs : I [] s)
    (hstep : ∀ es t e u, I es t → m.enabled t e → P t e → m.step t e = .ok u → I (es ++ [e]) u)
    (h : m.Run P s es t) : I es t := by
  induction h with
  | nil => exact hs
  | snoc _ he hp hu ih => exact hstep _ _ _ _ ih he hp hu

/-- Side conditions can be exchanged where an invariant makes one follow from the other. -/
theorem Run.mono_of_invariant {s t : S} {es : List E} (I : S → Prop) (hs : I s)
    (hstep : ∀ t e u, I t → m.enabled t e → m.step t e = .ok u → I u)
    (hPQ : ∀ t e, I t → m.enabled t e → P t e → Q t e) (h : m.Run P s es t) : m.Run Q s es t := by
  induction h with
  | nil => exact .nil
  | snoc h he hp hu ih =>
    have ht := h.invariant I hs fun t e u ht he _ hu => hstep t e u ht he hu
    exact .snoc ih he (hPQ _ _ ht he hp) hu

/-- A side condition on the events alone can be read off the trace. -/
theorem Run.of_forall_mem {R : E → Prop} {s t : S} {es : List E} (h : m.Run P s es t)
    (hR : ∀ e ∈ es, R e) : m.Run (fun _ e => R e) s es t := by
  induction h with
  | nil => exact .nil
  | snoc _ he _ hu ih =>
    exact .snoc (ih fun e hmem => hR e (List.mem_append_left _ hmem)) he
      (hR _ List.mem_concat_self) hu

theorem Run.append {s t u : S} {es fs : List E} (h : m.Run P s es t) (k : m.Run P t fs u) :
    m.Run P s (es ++ fs) u := by
  induction k with
  | nil => simpa using h
  | snoc _ he hp hu ih => rw [← List.append_assoc]; exact .snoc ih he hp hu

theorem Run.single {s t : S} {e : E} (he : m.enabled s e) (hp : P s e) (hu : m.step s e = .ok t) :
    m.Run P s [e] t := .snoc .nil he hp hu

theorem Run.cons {s t u : S} {e : E} {es : List E} (he : m.enabled s e) (hp : P s e)
    (hu : m.step s e = .ok t) (h : m.Run P t es u) : m.Run P s (e :: es) u :=
  (Run.single he hp hu).append h

instance (s : S) (e : E) : Decidable (Any s e) := .isTrue trivial

section Execution
variable (m P) [∀ s e, Decidable (m.enabled s e)] [∀ s e, Decidable (P s e)]

/-- Execute a list of events; `none` when one is impossible, violates `P` or stops with a
fault. -/
def exec (s : S) : List E → Option S
  | [] => some s
  | e :: es => if m.enabled s e ∧ P s e then
      match m.step s e with
      | .ok t => exec t es
      | .error _ => none
    else none

theorem run_of_exec {s t : S} {es : List E} (h : m.exec P s es = some t) : m.Run P s es t := by
  induction es generalizing s with
  | nil =>
    obtain rfl : s = t := by simpa [exec] using h
    exact .nil
  | cons e es ih =>
    rw [exec] at h
    split at h
    · next he =>
      split at h
      · next u hu => exact .cons he.1 he.2 hu (ih h)
      · simp at h
    · simp at h

/-- A run ending in a state with property `p`, found by executing its events. -/
theorem exists_run_of_exec (s : S) (es : List E) (p : S → Bool)
    (h : (m.exec P s es).map p = some true) : ∃ t, m.Run P s es t ∧ p t = true := by
  obtain ⟨t, ht, hp⟩ := Option.map_eq_some_iff.mp h
  exact ⟨t, run_of_exec m P ht, hp⟩

/-- A run after which an event stops with a given fault, found by executing the events. -/
theorem exists_fault_of_exec [DecidableEq φ] (s : S) (es : List E) (e : E) (fault : φ)
    (h : (m.exec P s es).any (fun t => decide (m.enabled t e) &&
      match m.step t e with
      | .ok _ => false
      | .error f => decide (f = fault)) = true) :
    ∃ t, m.Run P s es t ∧ m.enabled t e ∧ m.step t e = .error fault := by
  obtain ⟨t, ht, hp⟩ := (Option.any_eq_true _ _).mp h
  obtain ⟨he, hf⟩ := Bool.and_eq_true_iff.mp hp
  refine ⟨t, run_of_exec m P ht, of_decide_eq_true he, ?_⟩
  split at hf
  · cases hf
  · next f hstep => rw [hstep, of_decide_eq_true hf]

end Execution
end Machine
end MuduoWindows.Library
