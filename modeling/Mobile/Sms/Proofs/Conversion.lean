import Mobile.Sms.HelperLoops
import Mobile.Sms.Proofs.Scanning

/-!
# The loop of StrUnicode2GB

The count goes down by two until it is 0.  An even count is used up after half as
many rounds and keeps the call inside its buffers; an odd one steps over 0, and the
loop does not end.
-/

namespace Mobile.Sms.Proofs.Conversion

open Mobile.ProofSupport.Image Mobile.ProofSupport.Image.Writes Mobile.ProofSupport.While
open Mobile.Sms.Helpers Mobile.Sms.Unicode Mobile.Sms.HelperLoops
open Mobile.Sms.Proofs.Positions Mobile.Sms.Proofs.RoundTrip Mobile.Sms.Proofs.Scanning

variable {table : Table} {src : Bytes} {n : UInt32} {j k : Nat} {s s' : Conversion}

def unitAt (src : Bytes) (pSrc : Int) : UInt16 :=
  (src pSrc).toUInt16 <<< 8 ||| (src (pSrc + 1)).toUInt16

theorem conversionRound_eq (table : Table) (src : Bytes) (s : Conversion) :
    conversionRound table src s =
      ⟨s.n - 2, s.i + 1, s.pSrc + 2, s.pDest + (backBytes table (unitAt src s.pSrc)).length,
        s.reads ++ [s.pSrc, s.pSrc + 1],
        s.writes ++ run s.pDest (backBytes table (unitAt src s.pSrc))⟩ := by
  have hlast : s.pDest + 1 + 1 = s.pDest + (2 : Nat) := by omega
  unfold conversionRound backBytes unitAt bytesOf
  dsimp only
  split_ifs
  · simp [Conversion.put, Conversion.stepDest, Conversion.next, run, hlast]
  · simp [Conversion.put, Conversion.next, run]
  · simp [Conversion.put, Conversion.stepDest, Conversion.next, run, hlast]

/-! ## An even count -/

structure Converted (m j : Nat) (s : Conversion) : Prop where
  left : s.n.toNat + 2 * j = 2 * m
  index : s.i = j
  source : s.pSrc = 2 * j
  dest : s.pDest = s.writes.length ∧ s.writes.length ≤ 2 * j
  reads : ∀ r ∈ s.reads, 0 ≤ r ∧ r < 2 * j
  writes : ∀ w ∈ s.writes, 0 ≤ w.1 ∧ w.1 < s.pDest

theorem converted_start {m : Nat} (hn : n.toNat = 2 * m) : Converted m 0 (.start n) :=
  ⟨by simpa [Conversion.start] using hn, rfl, rfl, ⟨rfl, Nat.le_refl 0⟩, by simp [Conversion.start],
    by simp [Conversion.start]⟩

theorem test_iff : (conversionLoop table src).test s = true ↔ s.n ≠ 0 := by
  simp only [conversionLoop, decide_eq_true_eq, UInt32.lt_iff_toNat_lt, ne_eq, ← UInt32.toNat_inj,
    UInt32.toNat_zero]
  omega

theorem conversionRound_converted {m : Nat} (htest : s.n ≠ 0) (h : Converted m j s) :
    Converted m (j + 1) (conversionRound table src s) := by
  have hpos : s.n.toNat ≠ 0 := fun hzero => htest (UInt32.toNat_inj.1 hzero)
  have hleft := h.left
  obtain ⟨-, hn⟩ := pair_taken (n := s.n) (k := m - j - 1) (by omega)
  have hbytes := backBytes_length table (unitAt src s.pSrc)
  obtain ⟨hdest, hcount⟩ := h.dest
  rw [conversionRound_eq]
  refine ⟨by dsimp only; omega, by simp [h.index], by simp only [h.source]; omega,
    ⟨?_, ?_⟩, ?_, ?_⟩
  · simp only [List.length_append, length_run, hdest]
    omega
  · simp only [List.length_append, length_run]
    omega
  · intro r hr
    have hsource := h.source
    simp only [List.mem_append, List.mem_cons, List.not_mem_nil, or_false] at hr
    rcases hr with hr | rfl | rfl
    · have := h.reads r hr
      omega
    · omega
    · omega
  · intro w hw
    rcases List.mem_append.1 hw with hw | hw
    · have := h.writes w hw
      dsimp only
      omega
    · have := (exists_mem_run s.pDest w.1 _).1 ⟨w.2, hw⟩
      dsimp only
      omega

theorem ends_of_even {m : Nat} (table : Table) (src : Bytes) (hn : n.toNat = 2 * m) :
    ∃ s, (conversionLoop table src).Ends m (.start n) s ∧ Converted m m s := by
  have htest : ∀ j s, Converted m j s →
      ((conversionLoop table src).test s = true ↔ j < m) := by
    intro j s h
    have hleft := h.left
    rw [test_iff, ne_eq, ← UInt32.toNat_inj, UInt32.toNat_zero]
    omega
  refine Loop.ends_of_counted htest (fun j s hj h => ?_) (converted_start hn)
  exact conversionRound_converted (test_iff.1 ((htest j s h).2 hj)) h

/-! ## An odd count -/

theorem not_ends_of_odd (hn : n.toNat % 2 = 1) :
    ¬ (conversionLoop table src).Ends k (.start n) s := by
  refine Loop.not_ends (I := fun s => s.n.toNat % 2 = 1) (fun s hs => ?_) (fun s hs => ?_) hn
  · rw [test_iff]
    rintro hzero
    rw [hzero] at hs
    exact absurd hs (by decide)
  · have hlt := s.n.toNat_lt
    simp only [conversionLoop, conversionRound_eq, UInt32.toNat_sub, UInt32.reduceToNat]
    omega

/-! ## The loop is that of StrUnicode2GB -/

theorem strUnicode2GBLoop_of_ends {rounds : Nat}
    (h : (conversionLoop table src).Ends k s s') (hsrc : s.pSrc = 2 * s.i) (hk : k ≤ rounds) :
    strUnicode2GBLoop table src rounds s.n s.i s.pDest s.writes = some ⟨s'.written, s'.i⟩ := by
  induction h generalizing rounds with
  | @done s htest =>
      rw [← Bool.not_eq_true, test_iff, not_not] at htest
      unfold strUnicode2GBLoop
      rw [if_pos htest]
      rfl
  | @round k s s' htest _ ih =>
      obtain ⟨rounds, rfl⟩ : ∃ r, rounds = r + 1 := ⟨rounds - 1, by omega⟩
      have hbody := @ih rounds
        (by simp only [conversionLoop, conversionRound_eq, hsrc]; omega) (by omega)
      rw [← hbody, strUnicode2GBLoop, if_neg (test_iff.1 htest)]
      simp only [conversionLoop, conversionRound_eq, unitAt, hsrc, backBytes, bytesOf]
      split_ifs <;> rfl

theorem strUnicode2GB_of_even {m : Nat} (table : Table) (src : Bytes) (hn : n.toNat = 2 * m) :
    ∃ s, (conversionLoop table src).Ends m (.start n) s ∧ Converted m m s ∧
      strUnicode2GB table src n = some ⟨s.written, m⟩ := by
  obtain ⟨s, hends, hconverted⟩ := ends_of_even table src hn
  refine ⟨s, hends, hconverted, ?_⟩
  rw [strUnicode2GB, ← hconverted.index]
  exact strUnicode2GBLoop_of_ends hends rfl (by omega)

theorem strUnicode2GBLoop_of_odd {rounds i : Nat} {pos : Int} {ws : Writes}
    (hn : n.toNat % 2 = 1) : strUnicode2GBLoop table src rounds n i pos ws = none := by
  have hne : n ≠ 0 := by
    rintro rfl
    exact absurd hn (by decide)
  induction rounds generalizing n i pos ws with
  | zero => rw [strUnicode2GBLoop, if_neg hne]
  | succ rounds ih =>
      have hnext : (n - 2).toNat % 2 = 1 := by
        have hlt := n.toNat_lt
        simp only [UInt32.toNat_sub, UInt32.reduceToNat]
        omega
      have hne' : n - 2 ≠ 0 := by
        intro hzero
        rw [hzero] at hnext
        exact absurd hnext (by decide)
      rw [strUnicode2GBLoop, if_neg hne]
      dsimp only
      split_ifs
      · exact ih hnext hne'
      · exact ih hnext hne'
      · exact ih hnext hne'

/-- For an odd count it does not return. -/
theorem strUnicode2GB_of_odd (hn : n.toNat % 2 = 1) : strUnicode2GB table src n = none :=
  strUnicode2GBLoop_of_odd hn

/-! ## The bounds of a call -/

structure Within (n : UInt32) (k : Nat) (s : Conversion) : Prop where
  rounds : k ≤ (n.toNat + 1) / 2
  reads : ∀ r ∈ s.reads, 0 ≤ r ∧ r ≤ n.toNat + n.toNat % 2
  count : s.written.length ≤ n.toNat + 2
  writes : ∀ w ∈ s.written, 0 ≤ w.1 ∧ w.1 < n.toNat + 2

def Bounded (table : Table) (src : Bytes) (n : UInt32) : Prop :=
  ∃ k s, (conversionLoop table src).Ends k (.start n) s ∧ Within n k s

theorem Converted.within {m : Nat} (hn : n.toNat = 2 * m) (h : Converted m m s) :
    Within n m s := by
  obtain ⟨hdest, hcount⟩ := h.dest
  refine ⟨by omega, fun r hr => ?_, ?_, fun w hw => ?_⟩
  · have := h.reads r hr
    omega
  · simp only [Conversion.written, List.length_append, List.length_singleton]
    omega
  · rcases List.mem_append.1 hw with hw | hw
    · have := h.writes w hw
      omega
    · rw [List.mem_singleton.1 hw]
      dsimp only
      omega

/-- The conversion stays within its bounds exactly for an even count. -/
theorem conversion_bounded_iff (table : Table) (src : Bytes) (n : UInt32) :
    Bounded table src n ↔ n.toNat % 2 = 0 := by
  constructor
  · rintro ⟨k, s, hends, -⟩
    by_contra hodd
    exact not_ends_of_odd (by omega) hends
  · intro heven
    have hn : n.toNat = 2 * (n.toNat / 2) := by omega
    obtain ⟨s, hends, hconverted⟩ := ends_of_even table src hn
    exact ⟨_, s, hends, hconverted.within hn⟩

/-- A second line of three bytes: the count passed is one. -/
theorem odd_count_not_bounded :
    ¬ ∀ (table : Table) (src : Bytes) (n : UInt32), Bounded table src n := by
  intro h
  obtain ⟨k, s, hends, -⟩ := h #[] (fun _ => 0) (3 - 2)
  exact not_ends_of_odd (by decide) hends

end Mobile.Sms.Proofs.Conversion
