import Mathlib.Data.Finmap
import Mathlib.Algebra.BigOperators.Group.List.Basic

/-!
# Heaps of objects

A heap is the finite map of the objects that are alive.  An access through a
pointer that does not lead to one is a fault, and so is a `free` of it, so a
computation without a fault frees no object twice and reads none after its end.

An assertion says what a part of the heap is, exactly.  Assertions form a
commutative monoid under separating conjunction, and a triple holds beside
everything else that is alive: what a computation does not own it leaves alone, and
what its postcondition does not mention is not left behind.
-/

namespace Mobile.ProofSupport.Separation

variable {A V α β : Type} [DecidableEq A]

abbrev Ptr (A : Type) := Option A

abbrev Heap (A V : Type) := Finmap fun _ : A => V

inductive Fault
  | nullPointer
  | dangling
  | invalidFree
  | endless
  deriving DecidableEq, Repr

/-- An allocator sees the heap and how often it was called before, and hands out an
address at which nothing is alive, or none. -/
structure Allocator (A V : Type) [DecidableEq A] where
  pick : Nat → Heap A V → Option A
  pick_free : ∀ n h a, pick n h = some a → a ∉ h

def Allocator.Total (al : Allocator A V) : Prop := ∀ n h, al.pick n h ≠ none

structure Mem (A V : Type) where
  heap : Heap A V
  calls : Nat

abbrev HeapM (A V α : Type) := StateT (Mem A V) (Except Fault) α

namespace HeapM

def malloc (al : Allocator A V) (v : V) : HeapM A V (Ptr A) := fun m =>
  match al.pick m.calls m.heap with
  | none => .ok (none, { m with calls := m.calls + 1 })
  | some a => .ok (some a, ⟨m.heap.insert a v, m.calls + 1⟩)

def load (p : Ptr A) : HeapM A V V := fun m =>
  match p with
  | none => .error .nullPointer
  | some a =>
    match m.heap.lookup a with
    | none => .error .dangling
    | some v => .ok (v, m)

def store (p : Ptr A) (v : V) : HeapM A V Unit := fun m =>
  match p with
  | none => .error .nullPointer
  | some a =>
    if a ∈ m.heap then .ok ((), { m with heap := m.heap.insert a v }) else .error .dangling

def free (p : Ptr A) : HeapM A V Unit := fun m =>
  match p with
  | none => .ok ((), m)
  | some a =>
    if a ∈ m.heap then .ok ((), { m with heap := m.heap.erase a }) else .error .invalidFree

def size : HeapM A V Nat := fun m => .ok (m.heap.keys.card, m)

end HeapM

def Assertion (A V : Type) := Heap A V → Prop

namespace Assertion

def sep (P Q : Assertion A V) : Assertion A V := fun h =>
  ∃ h₁ h₂, h₁.Disjoint h₂ ∧ h = h₁ ∪ h₂ ∧ P h₁ ∧ Q h₂

def emp : Assertion A V := fun h => h = ∅

def pointsTo (a : A) (v : V) : Assertion A V := fun h => h = Finmap.singleton a v

/-- The assertion without memory of its own. -/
def fact (φ : Prop) : Assertion A V := fun h => h = ∅ ∧ φ

def any {ι : Sort*} (P : ι → Assertion A V) : Assertion A V := fun h => ∃ i, P i h

theorem sep_emp (P : Assertion A V) : sep P emp = P := by
  funext h
  refine propext ⟨?_, fun hP => ⟨h, ∅, (Finmap.disjoint_empty h).symm, ?_, hP, rfl⟩⟩
  · rintro ⟨h₁, h₂, -, rfl, hP, rfl⟩
    rwa [Finmap.union_empty]
  · rw [Finmap.union_empty]

theorem sep_comm (P Q : Assertion A V) : sep P Q = sep Q P := by
  have hswap : ∀ (P Q : Assertion A V) h, sep P Q h → sep Q P h := by
    rintro P Q h ⟨h₁, h₂, hdisj, rfl, hP, hQ⟩
    exact ⟨h₂, h₁, hdisj.symm, Finmap.union_comm_of_disjoint hdisj, hQ, hP⟩
  funext h
  exact propext ⟨hswap P Q h, hswap Q P h⟩

theorem sep_assoc (P Q R : Assertion A V) : sep (sep P Q) R = sep P (sep Q R) := by
  funext h
  apply propext
  constructor
  · rintro ⟨_, h₃, hdisj, rfl, ⟨h₁, h₂, hdisj', rfl, hP, hQ⟩, hR⟩
    obtain ⟨h₁₃, h₂₃⟩ := (Finmap.disjoint_union_left _ _ _).1 hdisj
    exact ⟨h₁, h₂ ∪ h₃, (Finmap.disjoint_union_right _ _ _).2 ⟨hdisj', h₁₃⟩,
      Finmap.union_assoc, hP, h₂, h₃, h₂₃, rfl, hQ, hR⟩
  · rintro ⟨h₁, _, hdisj, rfl, hP, h₂, h₃, hdisj', rfl, hQ, hR⟩
    obtain ⟨h₁₂, h₁₃⟩ := (Finmap.disjoint_union_right _ _ _).1 hdisj
    exact ⟨h₁ ∪ h₂, h₃, (Finmap.disjoint_union_left _ _ _).2 ⟨h₁₃, hdisj'⟩,
      Finmap.union_assoc.symm, ⟨h₁, h₂, h₁₂, rfl, hP, hQ⟩, hR⟩

instance : CommMonoid (Assertion A V) where
  mul := sep
  one := emp
  mul_assoc := sep_assoc
  mul_comm := sep_comm
  mul_one := sep_emp
  one_mul P := (sep_comm emp P).trans (sep_emp P)

/-- Entailment is the order of the assertions. -/
instance : Preorder (Assertion A V) where
  le P Q := ∀ h, P h → Q h
  le_refl _ _ := id
  le_trans _ _ _ hPQ hQR h hP := hQR h (hPQ h hP)

theorem mul_mono_left {P Q : Assertion A V} (hPQ : P ≤ Q) (R : Assertion A V) :
    P * R ≤ Q * R := by
  rintro h ⟨h₁, h₂, hdisj, heq, hP, hR⟩
  exact ⟨h₁, h₂, hdisj, heq, hPQ h₁ hP, hR⟩

theorem mul_mono_right (R : Assertion A V) {P Q : Assertion A V} (hPQ : P ≤ Q) :
    R * P ≤ R * Q := by
  rw [mul_comm R, mul_comm R]
  exact mul_mono_left hPQ R

theorem fact_mul {φ : Prop} {P : Assertion A V} {h : Heap A V} :
    ((fact φ : Assertion A V) * P) h ↔ φ ∧ P h := by
  constructor
  · rintro ⟨_, h₂, -, rfl, ⟨rfl, hφ⟩, hP⟩
    exact ⟨hφ, by rwa [Finmap.empty_union]⟩
  · rintro ⟨hφ, hP⟩
    exact ⟨∅, h, Finmap.disjoint_empty h, Finmap.empty_union.symm, ⟨rfl, hφ⟩, hP⟩

theorem fact_eq_one {φ : Prop} (hφ : φ) : (fact φ : Assertion A V) = 1 :=
  funext fun _ => propext (and_iff_left hφ)

theorem any_mul {ι : Sort*} (P : ι → Assertion A V) (Q : Assertion A V) :
    any P * Q = any fun i => P i * Q := by
  funext h
  apply propext
  constructor
  · rintro ⟨h₁, h₂, hdisj, heq, ⟨i, hP⟩, hQ⟩
    exact ⟨i, h₁, h₂, hdisj, heq, hP, hQ⟩
  · rintro ⟨i, h₁, h₂, hdisj, heq, hP, hQ⟩
    exact ⟨h₁, h₂, hdisj, heq, ⟨i, hP⟩, hQ⟩

/-- What `P` and `Q` own is apart, so their objects add up. -/
theorem card_mul {P Q : Assertion A V} {h : Heap A V} (hPQ : (P * Q) h) :
    ∃ h₁ h₂, P h₁ ∧ Q h₂ ∧ h.keys.card = h₁.keys.card + h₂.keys.card := by
  obtain ⟨h₁, h₂, hdisj, rfl, h₁P, h₂Q⟩ := hPQ
  refine ⟨h₁, h₂, h₁P, h₂Q, ?_⟩
  have hkeys : Disjoint h₁.keys h₂.keys := by
    rw [Finset.disjoint_left]
    intro a ha ha'
    exact hdisj a (Finmap.mem_keys.1 ha) (Finmap.mem_keys.1 ha')
  rw [Finmap.keys_union, Finset.card_union_of_disjoint hkeys]

omit [DecidableEq A] in
theorem card_pointsTo {a : A} {v : V} {h : Heap A V} (hP : pointsTo a v h) :
    h.keys.card = 1 := by
  rw [show h = Finmap.singleton a v from hP, Finmap.keys_singleton, Finset.card_singleton]

theorem erase_of_notMem {a : A} {h : Heap A V} (ha : a ∉ h) : h.erase a = h := by
  apply Finmap.ext_lookup
  intro b
  by_cases hba : b = a
  · subst hba
    rw [Finmap.lookup_erase, Finmap.lookup_eq_none.2 ha]
  · rw [Finmap.lookup_erase_ne hba]

theorem erase_insert (a : A) (v : V) (h : Heap A V) : (h.insert a v).erase a = h.erase a := by
  apply Finmap.ext_lookup
  intro b
  by_cases hba : b = a
  · subst hba
    rw [Finmap.lookup_erase, Finmap.lookup_erase]
  · rw [Finmap.lookup_erase_ne hba, Finmap.lookup_erase_ne hba,
      Finmap.lookup_insert_of_ne _ hba]

theorem pointsTo_mul {a : A} {v : V} {R : Assertion A V} {h : Heap A V} :
    (pointsTo a v * R) h ↔ h.lookup a = some v ∧ R (h.erase a) := by
  constructor
  · rintro ⟨_, h₂, hdisj, rfl, rfl, hR⟩
    have ha : a ∈ Finmap.singleton (β := fun _ => V) a v :=
      (Finmap.mem_singleton a a v).2 rfl
    have hout : a ∉ h₂ := hdisj a ha
    have herase : (Finmap.singleton a v ∪ h₂).erase a = h₂ := by
      apply Finmap.ext_lookup
      intro b
      by_cases hba : b = a
      · subst hba
        rw [Finmap.lookup_erase, Finmap.lookup_eq_none.2 hout]
      · have hb : b ∉ Finmap.singleton (β := fun _ => V) a v :=
          fun hmem => hba ((Finmap.mem_singleton b a v).1 hmem)
        rw [Finmap.lookup_erase_ne hba, Finmap.lookup_union_right hb]
    rw [herase, Finmap.lookup_union_left ha, Finmap.lookup_singleton_eq]
    exact ⟨rfl, hR⟩
  · rintro ⟨hlookup, hR⟩
    refine ⟨Finmap.singleton a v, h.erase a, ?_, ?_, rfl, hR⟩
    · intro b hb hb'
      rw [Finmap.mem_singleton] at hb
      subst hb
      exact Finmap.notMem_erase_self hb'
    · rw [Finmap.union_comm_of_disjoint, Finmap.erase_union_singleton a v h hlookup]
      intro b hb hb'
      rw [Finmap.mem_singleton] at hb
      subst hb
      exact Finmap.notMem_erase_self hb'

end Assertion

open Assertion

/-- Beside any frame `f` runs without a fault from `P` to `Q`. -/
def Triple (P : Assertion A V) (f : HeapM A V α) (Q : α → Assertion A V) : Prop :=
  ∀ (R : Assertion A V) (m : Mem A V), (P * R) m.heap →
    ∃ r m', f m = .ok (r, m') ∧ (Q r * R) m'.heap

namespace Triple

variable {P P' R : Assertion A V} {Q Q' : α → Assertion A V} {S : β → Assertion A V}
  {f : HeapM A V α} {g : α → HeapM A V β} {a : A} {v w : V}

theorem entails (h : Triple P f Q) (hP : P' ≤ P) (hQ : ∀ r, Q r ≤ Q' r) : Triple P' f Q' := by
  intro R m hm
  obtain ⟨r, m', hrun, hm'⟩ := h R m (mul_mono_left hP R _ hm)
  exact ⟨r, m', hrun, mul_mono_left (hQ r) R _ hm'⟩

theorem frame (h : Triple P f Q) (R : Assertion A V) : Triple (P * R) f fun r => Q r * R := by
  intro R' m hm
  rw [mul_assoc] at hm
  obtain ⟨r, m', hrun, hm'⟩ := h (R * R') m hm
  exact ⟨r, m', hrun, by rwa [mul_assoc]⟩

theorem bind (hf : Triple P f Q) (hg : ∀ r, Triple (Q r) (g r) S) : Triple P (f >>= g) S := by
  intro R m hm
  obtain ⟨r, m', hrun, hm'⟩ := hf R m hm
  obtain ⟨r', m'', hrun', hm''⟩ := hg r R m' hm'
  refine ⟨r', m'', ?_, hm''⟩
  change (f m >>= fun x => g x.1 x.2) = _
  rw [hrun]
  exact hrun'

theorem ret {r : α} (h : P ≤ Q r) : Triple P (pure r) Q :=
  fun R m hm => ⟨r, m, rfl, mul_mono_left h R _ hm⟩

theorem any {ι : Sort*} {P : ι → Assertion A V} (h : ∀ i, Triple (P i) f Q) :
    Triple (Assertion.any P) f Q := by
  intro R m hm
  rw [any_mul] at hm
  obtain ⟨i, hi⟩ := hm
  exact h i R m hi

theorem fact {φ : Prop} (h : φ → Triple P f Q) : Triple (Assertion.fact φ * P) f Q := by
  intro R m hm
  rw [mul_assoc, fact_mul] at hm
  exact h hm.1 R m hm.2

/-! The rules for one access, before the rest of the computation. -/

theorem load {k : V → HeapM A V β} (h : Triple (pointsTo a v * R) (k v) S) :
    Triple (pointsTo a v * R) (HeapM.load (some a) >>= k) S := by
  intro R' m hm
  obtain ⟨r, m', hrun, hm'⟩ := h R' m hm
  rw [mul_assoc, pointsTo_mul] at hm
  refine ⟨r, m', ?_, hm'⟩
  change (HeapM.load (some a) m >>= fun x => k x.1 x.2) = _
  simp only [HeapM.load, hm.1]
  exact hrun

theorem store {k : Unit → HeapM A V β} (h : Triple (pointsTo a w * R) (k ()) S) :
    Triple (pointsTo a v * R) (HeapM.store (some a) w >>= k) S := by
  intro R' m hm
  rw [mul_assoc, pointsTo_mul] at hm
  have hmem : a ∈ m.heap := Finmap.mem_of_lookup_eq_some hm.1
  obtain ⟨r, m', hrun, hm'⟩ := h R' { m with heap := m.heap.insert a w } (by
    rw [mul_assoc, pointsTo_mul, erase_insert]
    exact ⟨Finmap.lookup_insert _, hm.2⟩)
  refine ⟨r, m', ?_, hm'⟩
  change (HeapM.store (some a) w m >>= fun x => k x.1 x.2) = _
  simp only [HeapM.store, if_pos hmem]
  exact hrun

theorem store_last : Triple (pointsTo a v * R) (HeapM.store (some a) w)
    fun _ => pointsTo a w * R := by
  rw [← bind_pure (HeapM.store (some a) w)]
  exact store (ret (le_refl _))

theorem free {k : Unit → HeapM A V β} (h : Triple R (k ()) S) :
    Triple (pointsTo a v * R) (HeapM.free (some a) >>= k) S := by
  intro R' m hm
  rw [mul_assoc, pointsTo_mul] at hm
  have hmem : a ∈ m.heap := Finmap.mem_of_lookup_eq_some hm.1
  obtain ⟨r, m', hrun, hm'⟩ := h R' { m with heap := m.heap.erase a } hm.2
  refine ⟨r, m', ?_, hm'⟩
  change (HeapM.free (some a) m >>= fun x => k x.1 x.2) = _
  simp only [HeapM.free, if_pos hmem]
  exact hrun

theorem free_last : Triple (pointsTo a v * R) (HeapM.free (some a)) fun _ => R := by
  rw [← bind_pure (HeapM.free (some a))]
  exact free (ret (le_refl _))

theorem malloc {al : Allocator A V} {k : Ptr A → HeapM A V β}
    (hnone : ¬ al.Total → Triple R (k none) S)
    (hsome : ∀ a, Triple (pointsTo a v * R) (k (some a)) S) :
    Triple R (HeapM.malloc al v >>= k) S := by
  intro R' m hm
  change ∃ r m', (HeapM.malloc al v m >>= fun x => k x.1 x.2) = .ok (r, m') ∧ _
  cases hpick : al.pick m.calls m.heap with
  | none =>
      obtain ⟨r, m', hrun, hm'⟩ :=
        hnone (fun htotal => htotal _ _ hpick) R' { m with calls := m.calls + 1 } hm
      refine ⟨r, m', ?_, hm'⟩
      simp only [HeapM.malloc, hpick]
      exact hrun
  | some a =>
      have hout := al.pick_free _ _ _ hpick
      obtain ⟨r, m', hrun, hm'⟩ := hsome a R' ⟨m.heap.insert a v, m.calls + 1⟩ (by
        rw [mul_assoc, pointsTo_mul, erase_insert, erase_of_notMem hout]
        exact ⟨Finmap.lookup_insert _, hm⟩)
      refine ⟨r, m', ?_, hm'⟩
      simp only [HeapM.malloc, hpick]
      exact hrun

theorem size {n : Nat} {k : Nat → HeapM A V β} (hcard : ∀ h, P h → n ≤ h.keys.card)
    (h : ∀ j, n ≤ j → Triple P (k j) S) : Triple P (HeapM.size >>= k) S := by
  intro R m hm
  obtain ⟨h₁, h₂, h₁P, -, hsum⟩ := card_mul hm
  have hn := hcard h₁ h₁P
  exact h _ (by omega) R m hm

end Triple

end Mobile.ProofSupport.Separation
