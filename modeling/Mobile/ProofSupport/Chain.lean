import Mobile.ProofSupport.Separation

/-!
# Chains of objects

Singly linked, null-terminated chains on a heap and the loop that walks one.  What
a node is made of is a parameter, as is what the loop does with it.
-/

namespace Mobile.ProofSupport.Chain

open Mobile.ProofSupport.Separation Mobile.ProofSupport.Separation.Assertion

variable {A V ι : Type} [DecidableEq A]

/-- `while (p != nullptr) p = body(p);`, given up after `fuel` rounds. -/
def walk (body : A → HeapM A V (Ptr A)) : Nat → Ptr A → HeapM A V Unit
  | _, none => pure ()
  | 0, some _ => fun _ => .error .endless
  | fuel + 1, some a => do
    let next ← body a
    walk body fuel next

/-- A chain that ends visits a live object once.  One that runs back into itself is
left, if at all, the way it was entered: twice as many rounds are enough for both. -/
def walkAll (body : A → HeapM A V (Ptr A)) (p : Ptr A) : HeapM A V Unit := do
  let alive ← HeapM.size
  walk body (2 * alive) p

/-- The chain from `p` to null with the contents `xs`; `node a next x` is the node at
`a` with the content `x` and the link `next`. -/
def Linked (node : A → Ptr A → ι → Assertion A V) : Ptr A → List ι → Assertion A V
  | p, [] => fact (p = none)
  | p, x :: xs => any fun a => any fun next =>
      fact (p = some a) * (node a next x * Linked node next xs)

variable {node : A → Ptr A → ι → Assertion A V} {body : A → HeapM A V (Ptr A)}
  {I : List ι → Assertion A V} {p : Ptr A} {xs done : List ι}

theorem linked_nil : Linked node none [] = 1 := fact_eq_one rfl

theorem linked_cons (a : A) (next : Ptr A) (x : ι) (xs : List ι) :
    node a next x * Linked node next xs ≤ Linked node (some a) (x :: xs) :=
  fun _ h => ⟨a, next, fact_mul.2 ⟨rfl, h⟩⟩

theorem linked_card (hnode : ∀ a next x h, node a next x h → 1 ≤ h.keys.card) {h : Heap A V}
    (hchain : Linked node p xs h) : xs.length ≤ h.keys.card := by
  induction xs generalizing p h with
  | nil => exact Nat.zero_le _
  | cons x xs ih =>
      obtain ⟨a, next, hcons⟩ := hchain
      obtain ⟨h₁, h₂, h₁node, h₂rest, hsum⟩ := card_mul (fact_mul.1 hcons).2
      have hone := hnode a next x h₁ h₁node
      have hrest := ih h₂rest
      rw [List.length_cons]
      omega

/-- What one round does with the node at hand and what is done so far gives what the
loop does with the chain: it ends, with the nodes done in the order they stood. -/
theorem walk_linked
    (hbody : ∀ done a next x, Triple (node a next x * I done) (body a)
      fun p => fact (p = next) * I (x :: done))
    {fuel : Nat} (hfuel : xs.length ≤ fuel) :
    Triple (Linked node p xs * I done) (walk body fuel p) fun _ => I (xs.reverse ++ done) := by
  induction xs generalizing p done fuel with
  | nil =>
      refine Triple.fact fun hp => ?_
      subst hp
      rw [walk]
      exact Triple.ret (le_refl _)
  | cons x xs ih =>
      obtain ⟨fuel, rfl⟩ : ∃ n, fuel = n + 1 := ⟨fuel - 1, by
        rw [List.length_cons] at hfuel
        omega⟩
      have hrest : xs.length ≤ fuel := Nat.le_of_succ_le_succ hfuel
      rw [Linked, any_mul]
      refine Triple.any fun a => ?_
      rw [any_mul]
      refine Triple.any fun next => ?_
      rw [mul_assoc]
      refine Triple.fact fun hp => ?_
      subst hp
      rw [walk, mul_right_comm]
      refine Triple.bind ((hbody done a next x).frame (Linked node next xs)) fun p => ?_
      rw [mul_assoc]
      refine Triple.fact fun hp => ?_
      subst hp
      rw [mul_comm, List.reverse_cons, List.append_assoc]
      exact ih hrest

theorem walkAll_linked (p : Ptr A) (xs done : List ι)
    (hnode : ∀ a next x h, node a next x h → 1 ≤ h.keys.card)
    (hbody : ∀ done a next x, Triple (node a next x * I done) (body a)
      fun p => fact (p = next) * I (x :: done)) :
    Triple (Linked node p xs * I done) (walkAll body p) fun _ => I (xs.reverse ++ done) := by
  refine Triple.size (n := xs.length) (fun h hchain => ?_) fun alive halive => ?_
  · obtain ⟨h₁, h₂, h₁linked, -, hsum⟩ := card_mul hchain
    have hlen := linked_card hnode h₁linked
    omega
  · exact walk_linked hbody (by omega)

end Mobile.ProofSupport.Chain
