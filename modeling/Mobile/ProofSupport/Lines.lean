import Mathlib.Data.List.Basic
import Mathlib.Data.List.DropRight
import Mathlib.Data.List.Infix

/-!
# Separator-delimited lines of a stream

A stream over an arbitrary alphabet is cut into lines by a separator predicate.
`completeLines` is the list a reader is expected to deliver, `Pieces` is the
weaker statement that a list of lines can be cut out of a stream from left to
right without using a symbol twice.  Neither mentions how the stream arrives.
-/

namespace Mobile.ProofSupport.Lines

variable {α : Type*} (sep : α → Bool)

/-- The non-empty lines of `s` that are closed by a separator, in order. -/
def completeLines [DecidableEq α] (s : List α) : List (List α) :=
  (s.splitOnP sep).dropLast.filter (· ≠ [])

section CompleteLines

variable [DecidableEq α] {sep}

theorem completeLines_append_cons (xs ys : List α) {c : α} (hc : sep c = true) :
    completeLines sep (xs ++ c :: ys) =
      (xs.splitOnP sep).filter (· ≠ []) ++ completeLines sep ys := by
  unfold completeLines
  rw [List.splitOnP_append_cons xs ys hc,
    List.dropLast_append_of_ne_nil (List.splitOnP_ne_nil sep ys), List.filter_append]

theorem completeLines_eq_nil {xs : List α} (hxs : ∀ c ∈ xs, sep c = false) :
    completeLines sep xs = [] := by
  simp [completeLines, List.splitOnP_eq_singleton hxs]

theorem completeLines_line {l ys : List α} {c : α} (hl : l ≠ [])
    (hsep : ∀ d ∈ l, sep d = false) (hc : sep c = true) :
    completeLines sep (l ++ c :: ys) = l :: completeLines sep ys := by
  rw [completeLines_append_cons l ys hc, List.splitOnP_eq_singleton hsep]
  simp [hl]

theorem completeLines_cons_sep {c : α} (ys : List α) (hc : sep c = true) :
    completeLines sep (c :: ys) = completeLines sep ys := by
  have h := completeLines_append_cons [] ys hc
  simpa using h

theorem completeLines_dropWhile (xs ys : List α) :
    completeLines sep (xs.dropWhile sep ++ ys) = completeLines sep (xs ++ ys) := by
  induction xs with
  | nil => rfl
  | cons c xs ih =>
      by_cases hc : sep c = true
      · rw [List.dropWhile_cons_of_pos hc, ih, List.cons_append,
          completeLines_cons_sep _ hc]
      · rw [List.dropWhile_cons_of_neg hc]

/-- Non-empty lines without a separator, each closed by one, are read back. -/
theorem completeLines_flatMap {ls : List (List α)} {c : α} (hls : ∀ l ∈ ls, l ≠ [])
    (hsep : ∀ l ∈ ls, ∀ d ∈ l, sep d = false) (hc : sep c = true) :
    completeLines sep (ls.flatMap (· ++ [c])) = ls := by
  induction ls with
  | nil => exact completeLines_eq_nil (by simp)
  | cons l ls ih =>
      rw [List.flatMap_cons, List.append_assoc, List.singleton_append,
        completeLines_line (hls l (by simp)) (hsep l (by simp)) hc,
        ih (fun l' hl' => hls l' (by simp [hl'])) fun l' hl' => hsep l' (by simp [hl'])]

end CompleteLines

/-- `Pieces ls s`: the lines `ls` can be cut out of `s` from left to right as
contiguous, pairwise disjoint pieces. -/
inductive Pieces : List (List α) → List α → Prop
  | nil (s : List α) : Pieces [] s
  | cons (gap l s : List α) {ls : List (List α)} :
      Pieces ls s → Pieces (l :: ls) (gap ++ l ++ s)

namespace Pieces

theorem append_right {ls : List (List α)} {s : List α} (h : Pieces ls s)
    (t : List α) : Pieces ls (s ++ t) := by
  induction h with
  | nil s => exact .nil _
  | cons gap l s _ ih =>
      simpa [List.append_assoc] using Pieces.cons gap l (s ++ t) ih

theorem snoc {ls : List (List α)} {s : List α} (h : Pieces ls s) (gap l t : List α) :
    Pieces (ls ++ [l]) (s ++ gap ++ l ++ t) := by
  induction h with
  | nil s =>
      simpa [List.append_assoc] using Pieces.cons (s ++ gap) l t (.nil t)
  | cons gap' l' s _ ih =>
      simpa [List.append_assoc] using Pieces.cons gap' l' (s ++ gap ++ l ++ t) ih

end Pieces

end Mobile.ProofSupport.Lines
