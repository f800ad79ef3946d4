import Mathlib.Logic.Function.Basic
import Mathlib.Data.List.Basic

/-!
# Memory images

The bytes around a pointer, and the writes of a routine as a list in the order in
which they are made.  Positions are distances from the pointer, so a write that
leaves its object keeps its place in the list and can be reasoned about.
-/

namespace Mobile.ProofSupport.Image

/-- The bytes a pointer reaches. -/
abbrev Bytes := Int → UInt8

abbrev Writes := List (Int × UInt8)

namespace Bytes

def shift (p : Bytes) (k : Int) : Bytes := fun i => p (k + i)

def apply (p : Bytes) (ws : Writes) : Bytes :=
  ws.foldl (fun p w => Function.update p w.1 w.2) p

@[simp] theorem shift_apply (p : Bytes) (k i : Int) : p.shift k i = p (k + i) := rfl

@[simp] theorem apply_nil (p : Bytes) : p.apply [] = p := rfl

@[simp] theorem apply_cons (p : Bytes) (w : Int × UInt8) (ws : Writes) :
    p.apply (w :: ws) = Bytes.apply (Function.update p w.1 w.2) ws := rfl

@[simp] theorem apply_append (p : Bytes) (ws vs : Writes) :
    p.apply (ws ++ vs) = (p.apply ws).apply vs :=
  List.foldl_append

theorem apply_of_not_mem {ws : Writes} {i : Int} (h : ∀ b, (i, b) ∉ ws) (p : Bytes) :
    p.apply ws i = p i := by
  induction ws generalizing p with
  | nil => rfl
  | cons w ws ih =>
      have hw : i ≠ w.1 := by
        intro heq
        exact h w.2 (by simp [heq])
      have hws : ∀ b, (i, b) ∉ ws := fun b hb => h b (List.mem_cons_of_mem _ hb)
      rw [apply_cons, ih hws, Function.update_of_ne hw]

/-- A written position has what all its writes have in common. -/
theorem apply_of_mem {P : UInt8 → Prop} {ws : Writes} {i : Int} (hmem : ∃ b, (i, b) ∈ ws)
    (hall : ∀ b, (i, b) ∈ ws → P b) (p : Bytes) : P (p.apply ws i) := by
  induction ws generalizing p with
  | nil =>
      obtain ⟨b, hb⟩ := hmem
      cases hb
  | cons w ws ih =>
      have hall' : ∀ b, (i, b) ∈ ws → P b := fun b hb => hall b (List.mem_cons_of_mem _ hb)
      by_cases hrest : ∃ b, (i, b) ∈ ws
      · exact ih hrest hall' _
      · have hws : ∀ b, (i, b) ∉ ws := not_exists.1 hrest
        obtain ⟨b, hb⟩ := hmem
        obtain rfl : (i, b) = w := (List.mem_cons.1 hb).resolve_right (hws b)
        rw [apply_cons, apply_of_not_mem hws, Function.update_self]
        exact hall b List.mem_cons_self

/-- `strlen`, when the terminator is among the first `limit` bytes. -/
def strlen (p : Bytes) (limit : Nat) : Option Nat :=
  (List.range limit).find? fun i => p i == 0

theorem strlen_lt {p : Bytes} {limit n : Nat} (h : p.strlen limit = some n) : n < limit :=
  List.mem_range.1 (List.mem_of_find?_eq_some h)

def Begins (p : Bytes) (s : List UInt8) : Prop := ∀ i (h : i < s.length), p i = s[i]

theorem Begins.map_range {p : Bytes} {s : List UInt8} (h : p.Begins s) :
    ((List.range s.length).map fun i : Nat => p i) = s := by
  refine List.ext_getElem (by simp) fun i hi hi' => ?_
  simpa using h i hi'

def Holds (p : Bytes) (s : List UInt8) : Prop :=
  0 ∉ s ∧ (∀ i (h : i < s.length), p i = s[i]) ∧ p s.length = 0

theorem Holds.begins {p : Bytes} {s : List UInt8} (h : p.Holds s) : p.Begins s := h.2.1

theorem Holds.ne_zero {p : Bytes} {s : List UInt8} (h : p.Holds s) {i : Nat}
    (hi : i < s.length) : p i ≠ 0 := by
  rw [h.2.1 i hi]
  exact fun heq => h.1 (heq ▸ List.getElem_mem hi)

theorem Holds.strlen {p : Bytes} {s : List UInt8} {limit n : Nat} (h : p.Holds s)
    (hlen : p.strlen limit = some n) : n = s.length := by
  rw [Bytes.strlen, List.find?_range_eq_some] at hlen
  obtain ⟨hzero, -, hbefore⟩ := hlen
  rcases Nat.lt_trichotomy n s.length with hlt | heq | hgt
  · exact absurd (by simpa using hzero) (h.ne_zero hlt)
  · exact heq
  · have hend : p s.length ≠ 0 := by simpa using hbefore s.length hgt
    exact absurd h.2.2 hend

theorem Holds.unique {p : Bytes} {s t : List UInt8} (hs : p.Holds s) (ht : p.Holds t) :
    s = t := by
  have hlen : s.length = t.length := by
    rcases Nat.lt_trichotomy s.length t.length with hlt | heq | hgt
    · exact absurd hs.2.2 (ht.ne_zero hlt)
    · exact heq
    · exact absurd ht.2.2 (hs.ne_zero hgt)
  refine List.ext_getElem hlen fun i hi hi' => ?_
  rw [← hs.2.1 i hi, ht.2.1 i hi']

/-- The bytes of a string literal, and terminators around it. -/
def literal (s : List UInt8) : Bytes := fun i => if 0 ≤ i then s.getD i.toNat 0 else 0

theorem literal_begins (s : List UInt8) : (literal s).Begins s := by
  intro i hi
  simp [literal, hi]

theorem literal_holds {s : List UInt8} (hs : (0 : UInt8) ∉ s) : (literal s).Holds s :=
  ⟨hs, literal_begins s, by simp [literal]⟩

theorem Holds.strlen_eq {p : Bytes} {s : List UInt8} {limit : Nat} (h : p.Holds s)
    (hlimit : s.length < limit) : p.strlen limit = some s.length := by
  rw [Bytes.strlen, List.find?_range_eq_some]
  refine ⟨by simpa using h.2.2, by simpa using hlimit, fun i hi => ?_⟩
  simpa using h.ne_zero hi

theorem Holds.map_range {p : Bytes} {s : List UInt8} (h : p.Holds s) :
    ((List.range s.length).map fun i : Nat => p i) = s :=
  h.begins.map_range

end Bytes

namespace Writes

def shift (ws : Writes) (k : Int) : Writes := ws.map fun w => (k + w.1, w.2)

theorem mem_shift {ws : Writes} {k i : Int} {b : UInt8} :
    (i, b) ∈ Writes.shift ws k ↔ (i - k, b) ∈ ws := by
  simp only [shift, List.mem_map, Prod.mk.injEq, Prod.exists]
  constructor
  · rintro ⟨j, c, hmem, rfl, rfl⟩
    rwa [show k + j - k = j by omega]
  · intro hmem
    exact ⟨i - k, b, hmem, by omega, rfl⟩

def Forward (ws : Writes) : Prop := ∀ w ∈ ws, 0 ≤ w.1

theorem Forward.append {ws vs : Writes} (hws : Forward ws) (hvs : Forward vs) :
    Forward (ws ++ vs) := by
  intro w hw
  rcases List.mem_append.1 hw with hw | hw
  · exact hws w hw
  · exact hvs w hw

theorem forward_singleton {i : Int} (hi : 0 ≤ i) (b : UInt8) : Forward [(i, b)] := by
  simpa [Forward] using hi

theorem Forward.apply_shift {ws : Writes} (h : Forward ws) {k i : Int} (hi : i < k) (p : Bytes) :
    p.apply (Writes.shift ws k) i = p i := by
  refine Bytes.apply_of_not_mem (fun b hb => ?_) p
  have hpos : 0 ≤ i - k := h _ (mem_shift.1 hb)
  omega

def run (pos : Int) : List UInt8 → Writes
  | [] => []
  | b :: bs => (pos, b) :: run (pos + 1) bs

theorem run_append (pos : Int) (bs cs : List UInt8) :
    run pos (bs ++ cs) = run pos bs ++ run (pos + bs.length) cs := by
  induction bs generalizing pos with
  | nil => simp [run]
  | cons b bs ih =>
      simp only [List.cons_append, run, ih, List.length_cons]
      congr 3
      omega

@[simp] theorem length_run (pos : Int) (bs : List UInt8) : (run pos bs).length = bs.length := by
  induction bs generalizing pos with
  | nil => rfl
  | cons b bs ih => rw [run, List.length_cons, List.length_cons, ih]

theorem map_range_eq_run (f : Nat → UInt8) (n : Nat) :
    ((List.range n).map fun k : Nat => ((k : Int), f k)) = run 0 ((List.range n).map f) := by
  induction n with
  | zero => rfl
  | succ n ih => simp [List.range_succ, ih, run_append, run]

theorem flatMap_range_eq_run (f g : Nat → UInt8) (n : Nat) :
    ((List.range n).flatMap fun k : Nat => [(2 * (k : Int), f k), (2 * (k : Int) + 1, g k)]) =
      run 0 ((List.range n).flatMap fun k => [f k, g k]) := by
  induction n with
  | zero => rfl
  | succ n ih =>
      have hlength : ((List.range n).flatMap fun k => [f k, g k]).length = 2 * n := by
        simp [List.length_flatMap, Nat.mul_comm]
      simp [List.range_succ, ih, run_append, run, hlength]

theorem exists_mem_run (pos i : Int) (bs : List UInt8) :
    (∃ b, (i, b) ∈ run pos bs) ↔ pos ≤ i ∧ i < pos + bs.length := by
  induction bs generalizing pos with
  | nil =>
      simp only [run, List.not_mem_nil, exists_false, List.length_nil, false_iff]
      omega
  | cons c bs ih =>
      simp only [run, List.mem_cons, Prod.mk.injEq, exists_or, exists_and_left, exists_eq,
        and_true, ih, List.length_cons]
      omega

theorem le_of_mem_run {pos i : Int} {b : UInt8} {bs : List UInt8} (h : (i, b) ∈ run pos bs) :
    pos ≤ i :=
  ((exists_mem_run pos i bs).1 ⟨b, h⟩).1

theorem apply_run (p : Bytes) (pos : Int) (bs : List UInt8) {i : Nat} (hi : i < bs.length) :
    p.apply (run pos bs) (pos + i) = bs[i] := by
  induction bs generalizing p pos i with
  | nil => cases hi
  | cons b bs ih =>
      cases i with
      | zero =>
          have hlater : ∀ c, (pos + (0 : Nat), c) ∉ run (pos + 1) bs := by
            intro c hc
            have := le_of_mem_run hc
            omega
          rw [run, Bytes.apply_cons, Bytes.apply_of_not_mem hlater]
          simp
      | succ i =>
          have hi' : i < bs.length := by simpa using hi
          have hpos : pos + ((i + 1 : Nat) : Int) = pos + 1 + (i : Int) := by omega
          rw [run, Bytes.apply_cons, hpos, ih _ _ hi']
          rfl

theorem holds_apply_run (p : Bytes) {s : List UInt8} (hs : (0 : UInt8) ∉ s) :
    (p.apply (run 0 (s ++ [0]))).Holds s := by
  have hget : ∀ (i : Nat) (hi : i < (s ++ [0]).length),
      p.apply (run 0 (s ++ [0])) i = (s ++ [0])[i] := by
    intro i hi
    simpa using apply_run p 0 (s ++ [0]) hi
  refine ⟨hs, fun i hi => ?_, ?_⟩
  · rw [hget i (by simp; omega)]
    exact List.getElem_append_left hi
  · rw [hget s.length (by simp)]
    simp

theorem shift_run (pos k : Int) (bs : List UInt8) :
    Writes.shift (run pos bs) k = run (k + pos) bs := by
  induction bs generalizing pos with
  | nil => rfl
  | cons b bs ih =>
      have hnext : k + (pos + 1) = k + pos + 1 := by omega
      show (k + pos, b) :: Writes.shift (run (pos + 1) bs) k = _
      rw [ih, hnext, run]

def Within (ws : Writes) (size : Nat) : Prop := ∀ w ∈ ws, 0 ≤ w.1 ∧ w.1 < size

theorem within_append {ws vs : Writes} {size : Nat} :
    Within (ws ++ vs) size ↔ Within ws size ∧ Within vs size :=
  List.forall_mem_append

theorem Within.mono {ws : Writes} {size size' : Nat} (h : Within ws size)
    (hle : size ≤ size') : Within ws size' := by
  intro w hw
  obtain ⟨hlow, hhigh⟩ := h w hw
  exact ⟨hlow, by omega⟩

theorem Within.shift {ws : Writes} {size : Nat} (h : Within ws size) (k : Nat) :
    Within (Writes.shift ws k) (k + size) := by
  intro w hw
  obtain ⟨v, hv, rfl⟩ := List.mem_map.1 hw
  obtain ⟨hlow, hhigh⟩ := h v hv
  exact ⟨by show 0 ≤ (k : Int) + v.1; omega, by show (k : Int) + v.1 < _; omega⟩

theorem within_run {pos : Nat} {bs : List UInt8} {size : Nat} (hpos : pos ≤ size) :
    Within (run pos bs) size ↔ pos + bs.length ≤ size := by
  constructor
  · intro h
    by_contra hlong
    -- the first position behind the object is written
    obtain ⟨b, hb⟩ := (exists_mem_run pos size bs).2 ⟨by omega, by omega⟩
    exact absurd (h _ hb).2 (Int.lt_irrefl _)
  · intro hfits w hw
    obtain ⟨hlow, hhigh⟩ := (exists_mem_run pos w.1 bs).1 ⟨w.2, hw⟩
    exact ⟨by omega, by omega⟩

theorem Within.forward {ws : Writes} {size : Nat} (h : Within ws size) : Forward ws :=
  fun w hw => (h w hw).1

theorem within_map_range (f : Nat → UInt8) (n : Nat) :
    Within ((List.range n).map fun k : Nat => ((k : Int), f k)) n := by
  rw [map_range_eq_run]
  exact (within_run (Nat.zero_le n)).2 (by simp)

theorem within_flatMap_range (f g : Nat → UInt8) (n : Nat) :
    Within ((List.range n).flatMap fun k : Nat =>
      [(2 * (k : Int), f k), (2 * (k : Int) + 1, g k)]) (2 * n) := by
  rw [flatMap_range_eq_run]
  refine (within_run (Nat.zero_le (2 * n))).2 ?_
  simp [List.length_flatMap, Nat.mul_comm]

end Writes

end Mobile.ProofSupport.Image
