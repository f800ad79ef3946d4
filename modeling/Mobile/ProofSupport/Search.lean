import Mathlib.Data.List.Infix

/-!
# Searching lists and tables

`search` finds the first occurrence of one list in another.  A table that is sorted by
a rank and searched from its head yields an entry of the least rank.
-/

namespace Mobile.ProofSupport.Search

section Occurrence

variable {α : Type*} [DecidableEq α] {s t key : List α}

def search (s key : List α) : Option (List α) := s.tails.find? (key.isPrefixOf ·)

theorem search_isSome_iff : (search s key).isSome = true ↔ key <:+: s := by
  rw [search, List.find?_isSome, List.infix_iff_prefix_suffix]
  constructor
  · rintro ⟨t, hmem, hpre⟩
    exact ⟨t, List.isPrefixOf_iff_prefix.1 hpre, (List.mem_tails t s).1 hmem⟩
  · rintro ⟨t, hpre, hsuf⟩
    exact ⟨t, (List.mem_tails t s).2 hsuf, List.isPrefixOf_iff_prefix.2 hpre⟩

theorem search_singleton_eq_none_iff {c : α} : search s [c] = none ↔ c ∉ s := by
  rw [← Option.not_isSome_iff_eq_none, search_isSome_iff, List.singleton_infix_iff]

theorem search_singleton_eq_some_iff {c : α} :
    search s [c] = some t ↔
      ∃ before after, c ∉ before ∧ s = before ++ c :: after ∧ t = c :: after := by
  induction s with
  | nil => simp [search, List.isPrefixOf]
  | cons d s ih =>
      by_cases hcd : c = d
      · subst hcd
        have hfound : search (c :: s) [c] = some (c :: s) := by
          simp [search, List.isPrefixOf]
        rw [hfound, Option.some.injEq]
        constructor
        · rintro rfl
          exact ⟨[], s, by simp, rfl, rfl⟩
        · rintro ⟨_ | ⟨d, before⟩, after, habsent, heq, rfl⟩
          · exact heq
          · cases heq
            simp at habsent
      · have htail : search (d :: s) [c] = search s [c] := by
          simp [search, List.isPrefixOf, hcd]
        rw [htail, ih]
        constructor
        · rintro ⟨before, after, habsent, rfl, rfl⟩
          exact ⟨d :: before, after, by simp [hcd, habsent], rfl, rfl⟩
        · rintro ⟨_ | ⟨e, before⟩, after, habsent, heq, rfl⟩
          · cases heq
            exact absurd rfl hcd
          · cases heq
            exact ⟨before, after, fun h => habsent (by simp [h]), rfl, rfl⟩

variable {c : α}

theorem takeWhile_ne_split (h : c ∉ s) : (s ++ c :: t).takeWhile (· ≠ c) = s := by
  have hs : ∀ d ∈ s, decide (d ≠ c) = true := by
    intro d hd
    simpa using fun heq : d = c => h (heq ▸ hd)
  rw [List.takeWhile_append_of_pos hs]
  simp

theorem dropWhile_ne_split (h : c ∉ s) : (s ++ c :: t).dropWhile (· ≠ c) = c :: t := by
  have hs : ∀ d ∈ s, decide (d ≠ c) = true := by
    intro d hd
    simpa using fun heq : d = c => h (heq ▸ hd)
  rw [List.dropWhile_append_of_pos hs]
  simp

end Occurrence

section Table

variable {ε : Type*} {table : List ε} {p : ε → Bool} {a b : ε}

theorem find?_rank_le {r : ε → Nat} (hsorted : table.Pairwise fun a b => r a ≤ r b)
    (h : table.find? p = some a) (hmem : b ∈ table) (hb : p b = true) : r a ≤ r b := by
  obtain ⟨-, before, after, rfl, hbefore⟩ := List.find?_eq_some_iff_append.1 h
  rcases List.mem_append.1 hmem with hlate | hrest
  · have hneg := hbefore b hlate
    simp [hb] at hneg
  · rcases List.mem_cons.1 hrest with rfl | hafter
    · exact Nat.le_refl _
    · exact List.rel_of_pairwise_cons (List.pairwise_append.1 hsorted).2.1 hafter

end Table

end Mobile.ProofSupport.Search
