import Mathlib.Data.List.Basic

/-!
# Loops that take a stream apart

A loop takes something from the front of a stream in every round, and its state changes
with it.  A piece of a stream acts on the state when the loop takes it whatever comes
behind; what a concatenation does is the composition of what its pieces do.
-/

namespace Mobile.ProofSupport.Consume

variable {σ α β : Type*}

inductive Round (σ α : Type*)
  | done
  | failed
  | next (s : σ) (rest : List α)

/-- The state at the end, or `none` behind a failed round; nothing at all when the fuel
is used up. -/
def loop (round : σ → List α → Round σ α) : Nat → σ → List α → Option (Option σ)
  | 0, _, _ => none
  | fuel + 1, s, xs =>
    match round s xs with
    | .done => some (some s)
    | .failed => some none
    | .next s rest => loop round fuel s rest

section Acting

variable {round : σ → List α → Round σ α}

theorem loop_next {fuel : Nat} {s s' : σ} {xs rest : List α} (h : round s xs = .next s' rest) :
    loop round (fuel + 1) s xs = loop round fuel s' rest := by
  rw [loop, h]

/-- The loop takes `c` from the front of a stream, and the state changes by `g`. -/
def Acts (round : σ → List α → Round σ α) (c : List α) (g : σ → σ) : Prop :=
  ∃ k ≤ c.length, ∀ fuel s rest,
    loop round (fuel + k) s (c ++ rest) = loop round fuel (g s) rest

theorem acts_nil : Acts round [] fun s => s := ⟨0, Nat.le_refl 0, fun _ _ _ => rfl⟩

theorem acts_one {c : List α} {g : σ → σ} (hne : c ≠ [])
    (h : ∀ s rest, round s (c ++ rest) = .next (g s) rest) : Acts round c g :=
  ⟨1, List.length_pos_iff.2 hne, fun _ s rest => loop_next (h s rest)⟩

theorem Acts.append {c d : List α} {g h : σ → σ} (hc : Acts round c g) (hd : Acts round d h) :
    Acts round (c ++ d) (fun s => h (g s)) := by
  obtain ⟨k, hk, hc⟩ := hc
  obtain ⟨l, hl, hd⟩ := hd
  refine ⟨l + k, by rw [List.length_append]; omega, fun fuel s rest => ?_⟩
  rw [List.append_assoc, ← Nat.add_assoc, hc, hd]

theorem Acts.ite {p : Prop} [Decidable p] {c : List α} {g : σ → σ} (h : p → Acts round c g) :
    Acts round (if p then c else []) (fun s => if p then g s else s) := by
  by_cases hp : p
  · simpa only [if_pos hp] using h hp
  · simpa only [if_neg hp] using acts_nil

theorem Acts.flatMap {f : β → List α} {g : σ → β → σ} (xs : List β)
    (h : ∀ x ∈ xs, Acts round (f x) (g · x)) :
    Acts round (xs.flatMap f) (fun s => xs.foldl g s) := by
  induction xs with
  | nil => exact acts_nil
  | cons x xs ih =>
      have hhead := h x (by simp)
      have htail := ih fun y hy => h y (by simp [hy])
      simpa only [List.flatMap_cons, List.foldl_cons] using hhead.append htail

/-- Where the stream is the piece, the loop ends with what the piece does. -/
theorem Acts.loop_eq {c : List α} {g : σ → σ} (h : Acts round c g)
    (hend : ∀ s, round s [] = .done) {fuel : Nat} (hfuel : c.length < fuel) (s : σ) :
    loop round fuel s c = some (some (g s)) := by
  obtain ⟨k, hk, hc⟩ := h
  obtain ⟨rest, rfl⟩ : ∃ rest, fuel = rest + 1 + k := ⟨fuel - 1 - k, by omega⟩
  have hrun := hc (rest + 1) s []
  rw [List.append_nil] at hrun
  rw [hrun, loop, hend]

end Acting

section Runs

variable {round : σ → List α → Round σ α}

theorem loop_invariant {P : σ → Prop}
    (hround : ∀ s xs s' rest, P s → round s xs = .next s' rest → P s') {fuel : Nat} {s s' : σ}
    {xs : List α} (hs : P s) (h : loop round fuel s xs = some (some s')) : P s' := by
  induction fuel generalizing s xs with
  | zero => cases h
  | succ fuel ih =>
      rw [loop] at h
      cases hxs : round s xs with
      | done =>
          rw [hxs] at h
          cases h
          exact hs
      | failed => simp [hxs] at h
      | next s₁ rest =>
          rw [hxs] at h
          exact ih (hround s xs s₁ rest hs hxs) h

theorem loop_ends (hround : ∀ s xs s' rest, round s xs = .next s' rest → rest.length < xs.length)
    {fuel : Nat} {xs : List α} (s : σ) (hfuel : xs.length < fuel) :
    ∃ end', loop round fuel s xs = some end' := by
  induction fuel generalizing s xs with
  | zero => exact absurd hfuel (Nat.not_lt_zero _)
  | succ fuel ih =>
      rw [loop]
      cases hxs : round s xs with
      | done => exact ⟨_, rfl⟩
      | failed => exact ⟨_, rfl⟩
      | next s₁ rest =>
          have hshort := hround s xs s₁ rest hxs
          exact ih s₁ (by omega)

end Runs

end Mobile.ProofSupport.Consume
