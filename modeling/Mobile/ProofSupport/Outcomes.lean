import Mathlib.Logic.Basic

/-!
# Computations that may stop

What a computation gives, when it gives something, and why it may stop: for one
computation, and for two of which the second does not say why.
-/

namespace Mobile.ProofSupport.Outcomes

variable {ε α β γ δ σ τ : Type} {bad : ε → Prop}

/-- The computation gives a value with `P`, or stops for a reason that is `bad`. -/
inductive Gives (bad : ε → Prop) (P : α → Prop) : Except ε α → Prop
  | ok {a : α} (h : P a) : Gives bad P (.ok a)
  | stop {e : ε} (h : bad e) : Gives bad P (.error e)

/-- Both computations give values, related by `R`, or neither gives one. -/
inductive Agree (bad : ε → Prop) (R : α → β → Prop) : Except ε α → Option β → Prop
  | ok {a : α} {b : β} (h : R a b) : Agree bad R (.ok a) (some b)
  | stop {e : ε} (h : bad e) : Agree bad R (.error e) none

namespace Agree

variable {R R' : α → β → Prop} {S : γ → δ → Prop} {x : Except ε α} {y : Option β}
  {f : α → Except ε γ} {g : β → Option δ}

theorem mono (h : Agree bad R x y) (hR : ∀ a b, R a b → R' a b) : Agree bad R' x y := by
  cases h with
  | ok h => exact .ok (hR _ _ h)
  | stop h => exact .stop h

theorem bind (h : Agree bad R x y) (hf : ∀ a b, R a b → Agree bad S (f a) (g b)) :
    Agree bad S (x >>= f) (y >>= g) := by
  cases h with
  | ok h => exact hf _ _ h
  | stop h => exact .stop h

/-- Two folds whose steps agree from related states agree. -/
theorem foldlM {R : σ → τ → Prop} {f : σ → α → Except ε σ} {g : τ → α → Option τ}
    (hstep : ∀ s t a, R s t → Agree bad R (f s a) (g t a)) {s : σ} {t : τ} (h : R s t)
    (as : List α) : Agree bad R (as.foldlM f s) (as.foldlM g t) := by
  induction as generalizing s t with
  | nil => exact .ok h
  | cons a as ih =>
      rw [List.foldlM_cons, List.foldlM_cons]
      exact (hstep s t a h).bind fun _ _ => ih

end Agree

end Mobile.ProofSupport.Outcomes
