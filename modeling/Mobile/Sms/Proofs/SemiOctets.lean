import Mathlib.Data.List.GetD
import Mathlib.Data.List.Induction
import Mobile.Sms.HelperLoops
import Mobile.Sms.Layout
import Mobile.Sms.Proofs.Positions

/-!
# Semi-octets

`InvetNumbers` exchanges the digits of a number pair by pair and fills an odd one up;
`SerializeNumbers` takes that back.  It looks at the last character written to see
the filler, and of the empty number there is none: it then looks before `dst`.
-/

namespace Mobile.Sms.Proofs.SemiOctets

open Mobile.ProofSupport.Image Mobile.ProofSupport.Image.Writes Mobile.ProofSupport.While
open Mobile.Sms.Helpers Mobile.Sms.HelperLoops Mobile.Sms.Proofs.Positions
open Mobile.Sms.Layout

/-- At an even position stands the next character or the filler, at an odd one the
character before. -/
theorem getD_semiOctets (s : List UInt8) {i : Nat} (hi : i < (semiOctets s).length) :
    (semiOctets s).getD i 0 = if i % 2 = 0 then s.getD (i + 1) 0x46 else s.getD (i - 1) 0 := by
  induction s using List.twoStepInduction generalizing i with
  | nil => simp [semiOctets] at hi
  | singleton c =>
      match i, hi with
      | 0, _ => rfl
      | 1, _ => rfl
  | cons_cons c d s ih _ =>
      match i, hi with
      | 0, _ => rfl
      | 1, _ => rfl
      | i + 2, hi =>
          have hrest := ih (i := i) (by simpa [semiOctets] using hi)
          have hmod : (i + 2) % 2 = i % 2 := by omega
          simp only [semiOctets, List.getD_cons_succ, hrest, hmod]
          split
          · rfl
          · rename_i hodd
            have hprev : i + 2 - 1 = (i - 1) + 1 + 1 := by omega
            rw [hprev, List.getD_cons_succ, List.getD_cons_succ]

/-! ## The loop -/

section Rounds

variable {src : Bytes} {srcLen : UInt32} {j k : Nat} {s : Swap}

structure Swapping (src : Bytes) (srcLen : UInt32) (j : Nat) (s : Swap) : Prop where
  count : s.i.toNat = 2 * j
  bound : 2 * j ≤ srcLen.toNat + 1
  source : s.src = 2 * j
  dest : s.dst = 2 * j
  reads : ∀ r ∈ s.reads, 0 ≤ r ∧ r < 2 * j
  writes : s.writes = swapPairs src j

theorem swapping_start (src : Bytes) (srcLen : UInt32) : Swapping src srcLen 0 .start :=
  ⟨rfl, Nat.zero_le _, rfl, rfl, by simp [Swap.start], rfl⟩

theorem swapPairs_succ (src : Bytes) (j : Nat) :
    swapPairs src (j + 1) = swapPairs src j ++
      [(2 * (j : Int), src (2 * j + 1)), (2 * (j : Int) + 1, src (2 * j))] := by
  simp [swapPairs, List.range_succ]

theorem swap_test : (swapLoop src srcLen).test s = true ↔ s.i.toNat < srcLen.toNat := by
  simp [swapLoop, UInt32.lt_iff_toNat_lt]

theorem swapping_round (hlen : srcLen.toNat < 0xffffffff) (htest : s.i.toNat < srcLen.toNat)
    (h : Swapping src srcLen j s) : Swapping src srcLen (j + 1) ((swapLoop src srcLen).body s) := by
  have hcount := h.count
  have hnext : (s.i + 2).toNat = 2 * (j + 1) := by
    simp only [UInt32.toNat_add, UInt32.reduceToNat]
    omega
  refine ⟨hnext, by omega, ?_, ?_, ?_, ?_⟩
  · simp only [swapLoop, h.source]
    omega
  · simp only [swapLoop, h.dest]
    omega
  · intro r hr
    have hsource := h.source
    simp only [swapLoop, List.mem_append, List.mem_cons, List.not_mem_nil, or_false] at hr
    rcases hr with hr | rfl | rfl
    · have := h.reads r hr
      omega
    · omega
    · omega
  · simp only [swapLoop, h.writes, h.source, h.dest, swapPairs_succ]

theorem swap_ends (src : Bytes) (srcLen : UInt32) (hlen : srcLen.toNat < 0xffffffff) :
    ∃ s, (swapLoop src srcLen).Ends ((srcLen.toNat + 1) / 2) .start s ∧
      Swapping src srcLen ((srcLen.toNat + 1) / 2) s := by
  have htest : ∀ j s, Swapping src srcLen j s →
      ((swapLoop src srcLen).test s = true ↔ j < (srcLen.toNat + 1) / 2) := by
    intro j s h
    rw [swap_test, h.count]
    omega
  refine Loop.ends_of_counted htest (fun j s hj h => ?_) (swapping_start src srcLen)
  exact swapping_round hlen (swap_test.1 ((htest j s h).2 hj)) h

theorem swapping_of_ends (hlen : srcLen.toNat < 0xffffffff)
    (h : (swapLoop src srcLen).Ends k .start s) :
    Swapping src srcLen ((srcLen.toNat + 1) / 2) s := by
  obtain ⟨s', hends, hlast⟩ := swap_ends src srcLen hlen
  obtain ⟨-, rfl⟩ := h.unique hends
  exact hlast

/-- With as many characters as a count can say, the count steps over the end. -/
theorem swap_not_ends (hlen : srcLen.toNat = 0xffffffff) :
    ¬ (swapLoop src srcLen).Ends k .start s := by
  refine Loop.not_ends (I := fun s : Swap => s.i.toNat % 2 = 0) (fun s heven => ?_)
    (fun s heven => ?_) (by rfl)
  · have hlt := s.i.toNat_lt
    rw [swap_test]
    omega
  · simp only [swapLoop, UInt32.toNat_add, UInt32.reduceToNat]
    omega

end Rounds

/-! ## There -/

section There

variable {s : List UInt8} {p dst : Bytes}

theorem toNat_length (hlen : s.length < 0xffffffff) :
    (UInt32.ofNat s.length).toNat = s.length := by
  rw [UInt32.toNat_ofNat']
  omega

theorem odd_count (hlen : s.length < 0xffffffff) :
    UInt32.ofNat s.length &&& 1 ≠ 0 ↔ s.length % 2 = 1 := by
  have hmod : (UInt32.ofNat s.length &&& 1).toNat = s.length % 2 := by
    rw [UInt32.toNat_and, toNat_length hlen]
    exact Nat.and_one_is_mod _
  rw [ne_eq, ← UInt32.toNat_inj, hmod]
  simp

/-- `InvetNumbers` writes the semi-octets of the text and returns their number, inside
the text with its terminator and inside a `dst` for the semi-octets. -/
structure Exchanges (s : List UInt8) (dst : Bytes) (out : Swapped) : Prop where
  text : (dst.apply out.writes).Holds (semiOctets s)
  ret : out.ret.toNat = 2 * ((s.length + 1) / 2)
  reads : ∀ r ∈ out.reads, 0 ≤ r ∧ r ≤ s.length
  dstReads : ∀ r ∈ out.dstReads, 0 ≤ r ∧ r ≤ 2 * ((s.length + 1) / 2)
  writes : ∀ w ∈ out.writes, 0 ≤ w.1 ∧ w.1 ≤ 2 * ((s.length + 1) / 2)

theorem holds_getD (hp : p.Holds s) {i : Nat} (hi : i < s.length) (c : UInt8) :
    s.getD i c = p i := by
  rw [hp.2.1 i hi, List.getD_eq_getElem _ _ hi]

theorem apply_swapPairs_text (hp : p.Holds s) {i : Nat} (hi : i < 2 * ((s.length + 1) / 2))
    (hlast : i + 1 ≠ s.length ∨ i % 2 = 1) :
    dst.apply (swapPairs p ((s.length + 1) / 2)) i = (semiOctets s).getD i 0 := by
  rw [apply_swapPairs dst hi, getD_semiOctets s (by rw [semiOctets_length]; exact hi)]
  split
  · rw [holds_getD hp (by omega)]
  · rw [holds_getD hp (by omega)]

section End

variable {t : Swap}

theorem invetEnd_of_odd (hlen : s.length < 0xffffffff) (hodd : s.length % 2 = 1) :
    invetEnd (UInt32.ofNat s.length) t = ⟨t.reads, [],
      t.writes ++ [(t.dst - 2, 0x46), (t.dst, 0)], UInt32.ofNat s.length + 1⟩ :=
  if_pos ((odd_count hlen).2 hodd)

theorem invetEnd_of_even (hlen : s.length < 0xffffffff) (heven : ¬ s.length % 2 = 1) :
    invetEnd (UInt32.ofNat s.length) t =
      ⟨t.reads, [], t.writes ++ [(t.dst, 0)], UInt32.ofNat s.length⟩ :=
  if_neg (mt (odd_count hlen).1 heven)

theorem invetEnd_apply (hp : p.Holds s) (hlen : s.length < 0xffffffff)
    (ht : Swapping p (UInt32.ofNat s.length) ((s.length + 1) / 2) t) {i : Nat}
    (hi : i < (semiOctets s).length) :
    dst.apply (invetEnd (UInt32.ofNat s.length) t).writes i = (semiOctets s).getD i 0 := by
  have hi' := hi
  rw [semiOctets_length] at hi'
  by_cases hodd : s.length % 2 = 1
  · rw [invetEnd_of_odd hlen hodd]
    simp only [ht.writes, ht.dest, Bytes.apply_append, Bytes.apply_cons, Bytes.apply_nil]
    rw [Function.update_of_ne (by omega)]
    by_cases hlast : i + 1 = s.length
    · rw [show (i : Int) = 2 * ((s.length + 1) / 2 : Nat) - 2 by omega, Function.update_self,
        getD_semiOctets s hi, if_pos (by omega), hlast, List.getD_eq_default _ _ (Nat.le_refl _)]
    · rw [Function.update_of_ne (by omega), apply_swapPairs_text hp hi' (.inl hlast)]
  · rw [invetEnd_of_even hlen hodd]
    simp only [ht.writes, ht.dest, Bytes.apply_append, Bytes.apply_cons, Bytes.apply_nil]
    rw [Function.update_of_ne (by omega), apply_swapPairs_text hp hi' (by omega)]

theorem invetEnd_apply_last (hlen : s.length < 0xffffffff)
    (ht : Swapping p (UInt32.ofNat s.length) ((s.length + 1) / 2) t) :
    dst.apply (invetEnd (UInt32.ofNat s.length) t).writes (semiOctets s).length = 0 := by
  have hend : ((semiOctets s).length : Int) = t.dst := by
    rw [semiOctets_length, ht.dest]
    omega
  by_cases hodd : s.length % 2 = 1
  · rw [invetEnd_of_odd hlen hodd]
    simp [hend]
  · rw [invetEnd_of_even hlen hodd]
    simp [hend]

end End

theorem zero_not_mem_semiOctets (hs : (0 : UInt8) ∉ s) : (0 : UInt8) ∉ semiOctets s := by
  induction s using List.twoStepInduction with
  | nil => exact hs
  | singleton c => simpa [semiOctets] using hs
  | cons_cons c d s ih _ =>
      simp only [List.mem_cons, not_or] at hs
      simp only [semiOctets, List.mem_cons, not_or]
      exact ⟨hs.2.1, hs.1, ih hs.2.2⟩

theorem invetEnd_exchanges (dst : Bytes) (hp : p.Holds s) (hlen : s.length < 0xffffffff)
    {t : Swap} (ht : Swapping p (UInt32.ofNat s.length) ((s.length + 1) / 2) t) :
    Exchanges s dst (invetEnd (UInt32.ofNat s.length) t) := by
  have htext : (dst.apply (invetEnd (UInt32.ofNat s.length) t).writes).Holds (semiOctets s) := by
    refine ⟨zero_not_mem_semiOctets hp.1, fun i hi => ?_, invetEnd_apply_last hlen ht⟩
    rw [invetEnd_apply hp hlen ht hi, List.getD_eq_getElem _ _ hi]
  have hreads : ∀ r ∈ t.reads, 0 ≤ r ∧ r ≤ (s.length : Int) := by
    intro r hr
    have := ht.reads r hr
    omega
  have hpairs : ∀ w ∈ t.writes, 0 ≤ w.1 ∧ w.1 ≤ 2 * ((s.length + 1) / 2 : Int) := by
    intro w hw
    have := swapPairs_within p _ w (ht.writes ▸ hw)
    omega
  have hdest := ht.dest
  have hcount := toNat_length hlen
  by_cases hodd : s.length % 2 = 1
  · rw [invetEnd_of_odd hlen hodd] at htext ⊢
    refine ⟨htext, ?_, hreads, by simp, ?_⟩
    · simp only [UInt32.toNat_add, hcount, UInt32.reduceToNat]
      omega
    · refine List.forall_mem_append.2 ⟨hpairs, ?_⟩
      simp only [List.mem_cons, List.not_mem_nil, or_false, forall_eq_or_imp, forall_eq]
      omega
  · rw [invetEnd_of_even hlen hodd] at htext ⊢
    refine ⟨htext, ?_, hreads, by simp, ?_⟩
    · simp only [hcount]
      omega
    · refine List.forall_mem_append.2 ⟨hpairs, ?_⟩
      simp only [List.mem_singleton, forall_eq]
      omega

end There

/-! ## And back -/

section Back

variable {s : List UInt8} {q dst : Bytes} {srcLen : UInt32} {t : Swap}

/-- `SerializeNumbers` writes the text and returns its length, inside the semi-octets
with their terminator and inside a `dst` for the text. -/
structure Restores (s : List UInt8) (dst : Bytes) (out : Swapped) : Prop where
  text : (dst.apply out.writes).Holds s
  ret : out.ret.toNat = s.length
  reads : ∀ r ∈ out.reads, 0 ≤ r ∧ r ≤ 2 * ((s.length + 1) / 2)
  dstReads : ∀ r ∈ out.dstReads, 0 ≤ r ∧ r ≤ s.length
  writes : ∀ w ∈ out.writes, 0 ≤ w.1 ∧ w.1 ≤ s.length

/-- The loop brings the text back, and behind an odd one the filler. -/
theorem apply_swapPairs_back (hq : q.Holds (semiOctets s)) {i : Nat}
    (hi : i < 2 * ((s.length + 1) / 2)) :
    dst.apply (swapPairs q ((s.length + 1) / 2)) i = s.getD i 0x46 := by
  have hlen := semiOctets_length s
  rw [apply_swapPairs dst hi]
  split
  · rw [← holds_getD hq (by omega) 0, getD_semiOctets s (by omega), if_neg (by omega),
      Nat.add_sub_cancel, List.getD_eq_getElem _ _ (by omega), List.getD_eq_getElem _ _ (by omega)]
  · rw [← holds_getD hq (by omega) 0, getD_semiOctets s (by omega), if_pos (by omega),
      Nat.sub_add_cancel (by omega)]

/-- The last character written is the filler exactly when the text is odd. -/
theorem last_filler (dst : Bytes) (hs : ∀ c ∈ s, 0x30 ≤ c ∧ c ≤ 0x39) (hne : s ≠ [])
    (hq : q.Holds (semiOctets s)) :
    dst.apply (swapPairs q ((s.length + 1) / 2)) (2 * ((s.length + 1) / 2 : Nat) - 1) = 0x46 ↔
      s.length % 2 = 1 := by
  have hpos : 0 < s.length := List.length_pos_iff.2 hne
  rw [show (2 * ((s.length + 1) / 2 : Nat) - 1 : Int) = (2 * ((s.length + 1) / 2) - 1 : Nat) by omega,
    apply_swapPairs_back hq (by omega)]
  constructor
  · intro hfiller
    by_contra heven
    rw [List.getD_eq_getElem _ _ (by omega)] at hfiller
    have hdigit := hs _ (List.getElem_mem (by omega : 2 * ((s.length + 1) / 2) - 1 < s.length))
    rw [hfiller] at hdigit
    exact absurd hdigit.2 (by decide)
  · intro hodd
    rw [List.getD_eq_default _ _ (by omega)]

theorem apply_back_holds (hs : (0 : UInt8) ∉ s) (hq : q.Holds (semiOctets s)) :
    (dst.apply (swapPairs q ((s.length + 1) / 2) ++ [((s.length : Int), 0)])).Holds s := by
  refine ⟨hs, fun i hi => ?_, by simp⟩
  simp only [Bytes.apply_append, Bytes.apply_cons, Bytes.apply_nil]
  rw [Function.update_of_ne (by omega), apply_swapPairs_back hq (by omega),
    List.getD_eq_getElem _ _ hi]

theorem serializeEnd_restores (hs : ∀ c ∈ s, 0x30 ≤ c ∧ c ≤ 0x39) (hne : s ≠ [])
    (hq : q.Holds (semiOctets s)) (hlen : srcLen.toNat = 2 * ((s.length + 1) / 2))
    (ht : Swapping q srcLen ((s.length + 1) / 2) t) :
    Restores s dst (serializeEnd dst srcLen t) := by
  have hpos : 0 < s.length := List.length_pos_iff.2 hne
  have hnul : (0 : UInt8) ∉ s := fun hmem => absurd (hs 0 hmem).1 (by decide)
  have hfiller := last_filler dst hs hne hq
  have hreads : ∀ r ∈ t.reads, 0 ≤ r ∧ r ≤ (2 * ((s.length + 1) / 2) : Int) := by
    intro r hr
    have := ht.reads r hr
    omega
  have hwrites : ∀ w ∈ swapPairs q ((s.length + 1) / 2) ++ [((s.length : Int), (0 : UInt8))],
      0 ≤ w.1 ∧ w.1 ≤ (s.length : Int) := by
    intro w hw
    rcases List.mem_append.1 hw with hw | hw
    · have := swapPairs_within q _ w hw
      omega
    · rw [List.mem_singleton.1 hw]
      dsimp only
      omega
  by_cases hodd : s.length % 2 = 1
  · have hend : serializeEnd dst srcLen t = ⟨t.reads, [(s.length : Int)],
        swapPairs q ((s.length + 1) / 2) ++ [((s.length : Int), 0)], srcLen - 1⟩ := by
      have hlast : t.dst - 1 = s.length := by
        rw [ht.dest]
        omega
      rw [serializeEnd, ht.writes, if_pos (by rw [ht.dest]; exact hfiller.2 hodd), hlast]
    have hone : (1 : UInt32) ≤ srcLen := by
      rw [UInt32.le_iff_toNat_le]
      simp only [UInt32.reduceToNat]
      omega
    rw [hend]
    refine ⟨apply_back_holds hnul hq, ?_, hreads, by simp, hwrites⟩
    rw [UInt32.toNat_sub_of_le _ _ hone, UInt32.toNat_one]
    omega
  · have hend : serializeEnd dst srcLen t = ⟨t.reads, [(s.length : Int) - 1],
        swapPairs q ((s.length + 1) / 2) ++ [((s.length : Int), 0)], srcLen⟩ := by
      have hlast : t.dst = s.length := by
        rw [ht.dest]
        omega
      rw [serializeEnd, ht.writes, if_neg (by rw [ht.dest]; exact mt hfiller.1 hodd), hlast]
    rw [hend]
    refine ⟨apply_back_holds hnul hq, by dsimp only; omega, hreads, ?_, hwrites⟩
    simp only [List.mem_singleton, forall_eq]
    omega

end Back

/-! ## Both ways -/

/-- `InvetNumbers` at the text and `SerializeNumbers` at what it wrote both return, and
the text is restored. -/
def RoundTrips (s : List UInt8) (p dst back : Bytes) : Prop :=
  ∃ out out', InvetReturns p (UInt32.ofNat s.length) out ∧ Exchanges s dst out ∧
    SerializeReturns (dst.apply out.writes) back out.ret out' ∧ Restores s back out'

/-- With a count of 0 `SerializeNumbers` looks before its `dst`. -/
theorem serialize_empty {q back : Bytes} {out : Swapped} (h : SerializeReturns q back 0 out) :
    -1 ∈ out.dstReads := by
  obtain ⟨k, t, hends, rfl⟩ := h
  have ht := swapping_of_ends (by decide) hends
  have hdest : t.dst = 0 := by simpa using ht.dest
  unfold serializeEnd
  split
  · simp [hdest]
  · simp [hdest]

/-- A number of digits makes the round trip exactly when it is not empty and its
length is one that the count reaches in steps of two. -/
theorem roundTrips_iff (s : List UInt8) (p dst back : Bytes)
    (hs : ∀ c ∈ s, 0x30 ≤ c ∧ c ≤ 0x39) (hp : p.Holds s) :
    RoundTrips s p dst back ↔ s ≠ [] ∧ s.length < 0xffffffff := by
  constructor
  · rintro ⟨out, out', ⟨k, t, hends, rfl⟩, hex, hback, hre⟩
    constructor
    · rintro rfl
      have hzero : (invetEnd (UInt32.ofNat ([] : List UInt8).length) t).ret = 0 :=
        UInt32.toNat_inj.1 hex.ret
      rw [hzero] at hback
      exact absurd (hre.dstReads _ (serialize_empty hback)).1 (by decide)
    · by_contra hlong
      by_cases hmax : s.length = 0xffffffff
      · exact swap_not_ends (by rw [hmax]; rfl) hends
      · have hret := hex.ret
        have hlt := (invetEnd (UInt32.ofNat s.length) t).ret.toNat_lt
        omega
  · rintro ⟨hne, hlen⟩
    have hcount := toNat_length hlen
    obtain ⟨t, hends, ht⟩ := swap_ends p (UInt32.ofNat s.length) (by omega)
    rw [hcount] at ht
    have hex := invetEnd_exchanges dst hp hlen ht
    obtain ⟨t', hends', ht'⟩ :=
      swap_ends (dst.apply (invetEnd (UInt32.ofNat s.length) t).writes)
        (invetEnd (UInt32.ofNat s.length) t).ret (by rw [hex.ret]; omega)
    have hrounds : ((invetEnd (UInt32.ofNat s.length) t).ret.toNat + 1) / 2 =
        (s.length + 1) / 2 := by
      rw [hex.ret]
      omega
    rw [hrounds] at ht'
    exact ⟨_, _, ⟨_, t, hends, rfl⟩, hex, ⟨_, t', hends', rfl⟩,
      serializeEnd_restores hs hne hex.text hex.ret ht'⟩

/-- `8613851872468` -/
theorem roundTrips_number : RoundTrips [0x38, 0x36, 0x31, 0x33, 0x38, 0x35, 0x31, 0x38, 0x37, 0x32,
    0x34, 0x36, 0x38] (Bytes.literal [0x38, 0x36, 0x31, 0x33, 0x38, 0x35, 0x31, 0x38, 0x37, 0x32,
    0x34, 0x36, 0x38]) (fun _ => 0) (fun _ => 0) :=
  (roundTrips_iff _ _ _ _ (by simp) (Bytes.literal_holds (by decide))).2
    ⟨by simp, by decide⟩

/-- The empty number does not make it. -/
theorem empty_number_not_restored :
    ¬ ∀ (s : List UInt8) (p dst back : Bytes), (∀ c ∈ s, 0x30 ≤ c ∧ c ≤ 0x39) → p.Holds s →
      RoundTrips s p dst back := by
  intro h
  obtain ⟨out, out', -, hex, hback, hre⟩ := h [] (fun _ => 0) (fun _ => 0) (fun _ => 0) (by simp)
    ⟨by simp, by simp, rfl⟩
  have hzero : out.ret = 0 := UInt32.toNat_inj.1 hex.ret
  rw [hzero] at hback
  exact absurd (hre.dstReads _ (serialize_empty hback)).1 (by decide)

end Mobile.Sms.Proofs.SemiOctets
