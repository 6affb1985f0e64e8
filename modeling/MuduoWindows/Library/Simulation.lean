import MuduoWindows.Library.Machine

/-! # Simulations between machines

A simulation answers each step of one machine by a run of another one, over the events that the step
shows, and keeps a relation between the two states. Whole runs are then answered.
-/

namespace MuduoWindows.Library.Machine
variable {S T E F φ ψ : Type*}

/-- The steps of `m` under `P` are runs of `n` under `Q`, over the events that `shows` gives. -/
def Simulates (m : Machine S E φ) (n : Machine T F ψ) (P : S → E → Prop) (Q : T → F → Prop)
    (shows : E → List F) (R : S → T → Prop) : Prop :=
  ∀ ⦃s t e s'⦄, R s t → m.enabled s e → P s e → m.step s e = .ok s' →
    ∃ t', n.Run Q t (shows e) t' ∧ R s' t'

variable {m : Machine S E φ} {n : Machine T F ψ} {P : S → E → Prop} {Q : T → F → Prop}
  {f : E → List F} {R : S → T → Prop}

theorem Simulates.run (h : m.Simulates n P Q f R) {s s' : S} {t : T} {es : List E} (hst : R s t)
    (hrun : m.Run P s es s') : ∃ t', n.Run Q t (es.flatMap f) t' ∧ R s' t' := by
  induction hrun with
  | nil => exact ⟨t, .nil, hst⟩
  | @snoc es s₁ s₂ e _ he hp hs ih =>
    obtain ⟨t₁, ht₁, hR₁⟩ := ih
    obtain ⟨t₂, ht₂, hR₂⟩ := h hR₁ he hp hs
    refine ⟨t₂, ?_, hR₂⟩
    rw [List.flatMap_append, List.flatMap_singleton]
    exact ht₁.append ht₂

theorem simulates_of_step {e' : E → F}
    (h : ∀ ⦃s t e s'⦄, R s t → m.enabled s e → P s e → m.step s e = .ok s' →
      n.enabled t (e' e) ∧ Q t (e' e) ∧ ∃ t', n.step t (e' e) = .ok t' ∧ R s' t') :
    m.Simulates n P Q (fun e => [e' e]) R := by
  intro s t e s' hst he hp hs
  obtain ⟨he', hq, t', ht, hst'⟩ := h hst he hp hs
  exact ⟨t', .single he' hq ht, hst'⟩

end MuduoWindows.Library.Machine
