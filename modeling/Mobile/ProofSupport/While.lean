import Mathlib.Logic.Basic

/-!
# While loops

A loop is a test and a body.  `Ends` counts its rounds: an invariant that says how long
the test holds gives their number, and a loop whose test an invariant keeps true does
not end.
-/

namespace Mobile.ProofSupport.While

structure Loop (σ : Type*) where
  test : σ → Bool
  body : σ → σ

namespace Loop

variable {σ : Type*} {l : Loop σ} {s s' s'' : σ} {j k : Nat}

/-- From `s` the loop ends in `s'` after `k` rounds. -/
inductive Ends (l : Loop σ) : Nat → σ → σ → Prop
  | done {s : σ} (htest : l.test s = false) : Ends l 0 s s
  | round {k : Nat} {s s' : σ} (htest : l.test s = true) (hrest : Ends l k (l.body s) s') :
      Ends l (k + 1) s s'

theorem Ends.unique (h : l.Ends j s s') (h' : l.Ends k s s'') : j = k ∧ s' = s'' := by
  induction h generalizing k with
  | done htest =>
      cases h' with
      | done _ => exact ⟨rfl, rfl⟩
      | round htest' _ => rw [htest] at htest'; cases htest'
  | round htest _ ih =>
      cases h' with
      | done htest' => rw [htest] at htest'; cases htest'
      | round _ hrest =>
          obtain ⟨rfl, rfl⟩ := ih hrest
          exact ⟨rfl, rfl⟩

/-- An invariant indexed by the rounds made holds at the end, where the test fails. -/
theorem Ends.invariant {I : Nat → σ → Prop} (h : l.Ends k s s')
    (hstep : ∀ i s, l.test s = true → I i s → I (i + 1) (l.body s)) (hs : I j s) :
    I (j + k) s' ∧ l.test s' = false := by
  induction h generalizing j with
  | done htest => exact ⟨hs, htest⟩
  | round htest _ ih =>
      have hlast := ih (hstep j _ htest hs)
      rwa [Nat.add_assoc, Nat.add_comm 1] at hlast

/-- A loop whose test holds for exactly `m` rounds of an indexed invariant ends after
`m` rounds. -/
theorem ends_of_counted {I : Nat → σ → Prop} {m : Nat}
    (htest : ∀ j s, I j s → (l.test s = true ↔ j < m))
    (hstep : ∀ j s, j < m → I j s → I (j + 1) (l.body s)) (hs : I 0 s) :
    ∃ s', l.Ends m s s' ∧ I m s' := by
  -- by induction on the rounds that are left
  have hrest : ∀ k j s, j + k = m → I j s → ∃ s', l.Ends k s s' ∧ I m s' := by
    intro k
    induction k with
    | zero =>
        rintro j s rfl hj
        exact ⟨s, .done (by simp [← Bool.not_eq_true, htest j s hj]), hj⟩
    | succ k ih =>
        intro j s hm hj
        have hlt : j < m := by omega
        obtain ⟨s', hends, hlast⟩ := ih (j + 1) (l.body s) (by omega) (hstep j s hlt hj)
        exact ⟨s', .round ((htest j s hj).2 hlt) hends, hlast⟩
  exact hrest m 0 s (Nat.zero_add m) hs

theorem not_ends {I : σ → Prop} (htest : ∀ s, I s → l.test s = true)
    (hstep : ∀ s, I s → I (l.body s)) (hs : I s) : ¬ l.Ends k s s' := by
  intro h
  obtain ⟨hI, hfalse⟩ := h.invariant (I := fun _ => I) (fun _ s _ => hstep s) (j := 0) hs
  rw [htest s' hI] at hfalse
  cases hfalse

end Loop

end Mobile.ProofSupport.While
