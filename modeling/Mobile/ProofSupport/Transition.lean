import Mathlib.Logic.Relation

/-!
# Labelled transition systems

Runs of a step relation with their labels, the invariant rule, and runs all of
whose steps meet a condition on the state before the step.
-/

namespace Mobile.ProofSupport.Transition

variable {S A : Type*} {step : S → A → S → Prop}

inductive Run (step : S → A → S → Prop) (s : S) : List A → S → Prop
  | nil : Run step s [] s
  | snoc {as : List A} {a : A} {t u : S} (run : Run step s as t) (last : step t a u) :
      Run step s (as ++ [a]) u

def Restrict (step : S → A → S → Prop) (ok : S → A → Prop) (s : S) (a : A) (t : S) : Prop :=
  step s a t ∧ ok s a

theorem Run.mono {step' : S → A → S → Prop} (hmono : ∀ s a t, step s a t → step' s a t)
    {s t : S} {as : List A} (h : Run step s as t) : Run step' s as t := by
  induction h with
  | nil => exact .nil
  | snoc _ last ih => exact ih.snoc (hmono _ _ _ last)

theorem Run.of_restrict {ok : S → A → Prop} {s t : S} {as : List A}
    (h : Run (Restrict step ok) s as t) : Run step s as t :=
  h.mono fun _ _ _ hstep => hstep.1

theorem Run.snoc_restrict {ok : S → A → Prop} {s t u : S} {as : List A} {a : A}
    (h : Run (Restrict step ok) s as t) (last : step t a u) (hok : ok t a) :
    Run (Restrict step ok) s (as ++ [a]) u :=
  h.snoc ⟨last, hok⟩

theorem Run.invariant (inv : S → Prop) (hstep : ∀ s a t, step s a t → inv s → inv t)
    {s t : S} {as : List A} (hs : inv s) (h : Run step s as t) : inv t := by
  induction h with
  | nil => exact hs
  | snoc _ last ih => exact hstep _ _ _ last ih

theorem Run.single {s t : S} {a : A} (h : step s a t) : Run step s [a] t :=
  Run.nil.snoc h

theorem Run.append {s t u : S} {as bs : List A} (h : Run step s as t) (h' : Run step t bs u) :
    Run step s (as ++ bs) u := by
  induction h' with
  | nil => simpa using h
  | snoc _ last ih =>
      rw [← List.append_assoc]
      exact ih.snoc last

/-- The invariant rule for a fold of a partial step function. -/
theorem foldlM_invariant {f : S → A → Option S} (inv : S → Prop)
    (hstep : ∀ s a t, f s a = some t → inv s → inv t) {s t : S} {as : List A} (hs : inv s)
    (h : as.foldlM f s = some t) : inv t := by
  induction as generalizing s with
  | nil =>
      cases h
      exact hs
  | cons a as ih =>
      rw [List.foldlM_cons, Option.bind_eq_bind, Option.bind_eq_some_iff] at h
      obtain ⟨u, hfirst, hrest⟩ := h
      exact ih (hstep s a u hfirst hs) hrest

end Mobile.ProofSupport.Transition
