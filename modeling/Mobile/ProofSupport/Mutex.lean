import Mathlib.Logic.Basic

/-!
# Ownership of a mutex

A mutex names its owner, and the threads inside the code it guards are given by a
predicate.  The rules say how taking, keeping and giving back the mutex preserve
that whoever is inside owns it.
-/

namespace Mobile.ProofSupport.Mutex

variable {T : Type*} {inside inside' : T → Prop} {owner : Option T} {a b : T}

def Owned (inside : T → Prop) (owner : Option T) : Prop := ∀ t, inside t → owner = some t

theorem Owned.unique (h : Owned inside owner) (ha : inside a) (hb : inside b) : a = b :=
  Option.some.inj ((h a ha).symm.trans (h b hb))

theorem Owned.outside (h : Owned inside owner) (hne : owner ≠ some a) : ¬ inside a :=
  fun ha => hne (h a ha)

/-- Only thread `a` moves: everyone else is inside only where it was before. -/
def Moves (a : T) (inside inside' : T → Prop) : Prop := ∀ t, t ≠ a → inside' t → inside t

theorem Owned.keep (h : Owned inside owner) (hmoves : Moves a inside inside')
    (ha : inside' a → inside a) : Owned inside' owner := by
  intro t ht
  by_cases hta : t = a
  · subst hta
    exact h t (ha ht)
  · exact h t (hmoves t hta ht)

theorem Owned.acquire (h : Owned inside none) (hmoves : Moves a inside inside') :
    Owned inside' (some a) := by
  intro t ht
  by_cases hta : t = a
  · rw [hta]
  · exact absurd (hmoves t hta ht) (h.outside (by simp))

theorem Owned.release (h : Owned inside owner) (ha : inside a)
    (hmoves : Moves a inside inside') (hout : ¬ inside' a) : Owned inside' none := by
  intro t ht
  by_cases hta : t = a
  · subst hta
    exact absurd ht hout
  · exact absurd (h.unique (hmoves t hta ht) ha) hta

end Mobile.ProofSupport.Mutex
