import Mathlib.Data.List.Basic
import Mathlib.Data.List.TakeDrop

/-!
# Byte objects and C-string scans

A C object is a byte list of known length.  A pointer into it is an offset, and
what the pointer sees is the list of bytes from that offset to the end of the
object, so a loop that runs off the object is a loop that runs out of list.
`scan` is the pointer-advancing loop `while (p(*s)) s++`; every access outside
the object is reported as `none`.
-/

namespace Mobile.ProofSupport.Memory

structure Object (n : Nat) where
  bytes : List UInt8
  length_bytes : bytes.length = n

namespace Object

variable {n : Nat}

def zero (n : Nat) : Object n := ⟨List.replicate n 0, List.length_replicate⟩

def view (o : Object n) (i : Nat) : List UInt8 := o.bytes.drop i

/-- Copy `bs` to offset `i`; `none` when a position lies outside the object. -/
def store (o : Object n) (i : Nat) (bs : List UInt8) : Option (Object n) :=
  if h : i + bs.length ≤ n then
    some ⟨o.bytes.take i ++ bs ++ o.bytes.drop (i + bs.length), by
      have := o.length_bytes
      simp only [List.length_append, List.length_take, List.length_drop]
      omega⟩
  else none

theorem length_view (o : Object n) (i : Nat) : (o.view i).length = n - i := by
  simp [view, o.length_bytes]

theorem view_zero (n i : Nat) : (zero n).view i = List.replicate (n - i) 0 := by
  simp [view, zero]

/-- A pointer that sees `xs` and more is inside the object together with `xs`. -/
theorem bound_of_view {o : Object n} {i : Nat} {xs ys : List UInt8}
    (h : o.view i = xs ++ ys) (hpos : xs ++ ys ≠ []) : i + xs.length + ys.length = n := by
  have hlen := congrArg List.length h
  rw [length_view, List.length_append] at hlen
  have : 0 < xs.length + ys.length := by
    rw [← List.length_append]
    exact List.length_pos_of_ne_nil hpos
  omega

theorem view_store {o : Object n} {i : Nat} {xs ys : List UInt8} (bs : List UInt8)
    (h : o.view i = xs ++ ys) (hbs : bs.length ≤ ys.length) (hpos : bs ≠ []) :
    ∃ o', o.store (i + xs.length) bs = some o' ∧
      o'.view i = xs ++ (bs ++ ys.drop bs.length) := by
  have hys : xs ++ ys ≠ [] := by
    intro hnil
    have h0 : ys.length = 0 := by simp_all
    have := List.length_pos_of_ne_nil hpos
    omega
  have hbound := bound_of_view h hys
  have hfit : i + xs.length + bs.length ≤ n := by omega
  refine ⟨_, dif_pos hfit, ?_⟩
  have hdrop : o.bytes.drop i = xs ++ ys := h
  have hi : i ≤ o.bytes.length := by rw [o.length_bytes]; omega
  have hleft : (o.bytes.take (i + xs.length)).drop i = xs := by
    rw [List.drop_take, hdrop, Nat.add_sub_cancel_left]
    simp
  have hright : o.bytes.drop (i + xs.length + bs.length) = ys.drop bs.length := by
    rw [Nat.add_assoc, ← List.drop_drop, hdrop]
    simp
  have hlen : i ≤ (o.bytes.take (i + xs.length)).length := by
    rw [List.length_take, o.length_bytes]; omega
  change (o.bytes.take (i + xs.length) ++ bs ++
    o.bytes.drop (i + xs.length + bs.length)).drop i = _
  rw [List.append_assoc, List.drop_append_of_le_length hlen, hleft, hright]

theorem view_store_front (o : Object n) (bs : List UInt8) (hbs : bs.length ≤ n) :
    ∃ o' tail, o.store 0 bs = some o' ∧ o'.view 0 = bs ++ tail := by
  refine ⟨_, o.bytes.drop bs.length, dif_pos (by omega), ?_⟩
  simp [view]

theorem view_add {o : Object n} {i : Nat} {xs ys : List UInt8}
    (h : o.view i = xs ++ ys) : o.view (i + xs.length) = ys := by
  change o.bytes.drop (i + xs.length) = ys
  rw [← List.drop_drop]
  have hdrop : o.bytes.drop i = xs ++ ys := h
  simp [hdrop]

end Object

/-- `while (p(*s)) s++`: how far the pointer advances. -/
def scan (p : UInt8 → Bool) : List UInt8 → Option Nat
  | [] => none
  | c :: cs => if p c then (scan p cs).map (· + 1) else some 0

theorem scan_append_cons {p : UInt8 → Bool} {xs ys : List UInt8} {c : UInt8}
    (hxs : ∀ d ∈ xs, p d = true) (hc : p c = false) :
    scan p (xs ++ c :: ys) = some xs.length := by
  induction xs with
  | nil => simp [scan, hc]
  | cons d xs ih =>
      have hd : p d = true := hxs d (by simp)
      have hrest : ∀ e ∈ xs, p e = true := fun e he => hxs e (by simp [he])
      simp [scan, hd, ih hrest]

def strlen : List UInt8 → Option Nat := scan (· ≠ 0)

def cString (s : List UInt8) : List UInt8 := s.takeWhile (· ≠ 0)

theorem strlen_append_zero {xs ys : List UInt8} (hxs : (0 : UInt8) ∉ xs) :
    strlen (xs ++ 0 :: ys) = some xs.length := by
  refine scan_append_cons (fun d hd => ?_) (by simp)
  simpa using fun h : d = 0 => hxs (h ▸ hd)

theorem cString_append_zero {xs ys : List UInt8} (hxs : (0 : UInt8) ∉ xs) :
    cString (xs ++ 0 :: ys) = xs := by
  have h : ∀ d ∈ xs, (decide (d ≠ 0)) = true := fun d hd => by
    simpa using fun h : d = 0 => hxs (h ▸ hd)
  unfold cString
  rw [List.takeWhile_append_of_pos h]
  simp

end Mobile.ProofSupport.Memory
