import Mobile.Sms.Layout
import Mobile.Sms.Proofs.Positions

/-!
# Septets

What it means to pack characters of seven bits into octets and to unpack them, and
when `Encode7Bit` and `Decode7Bit` do.  `Encode7Bit` finds the octets of the packing
one after the other but never moves `dst`, so only the first octet is ever written.
`Decode7Bit` reads through `dst` what it should read through `src`, and steps over
every second character.
-/

namespace Mobile.Sms.Proofs.Septets

open Mobile.ProofSupport.Image
open Mobile.Sms.Helpers Mobile.Sms.Layout Mobile.Sms.Proofs.Positions

/-- Bit `k` of the octets from a pointer on, least significant first. -/
def octetBit (p : Bytes) (k : Nat) : Bool := (p (k / 8 : Nat)).toNat.testBit (k % 8)

def octets (s : List UInt8) : Nat := (7 * s.length + 7) / 8

/-- The octets of the characters are written and nothing else; their bits are those
of the characters, and 0 behind the last. -/
structure Packs (s : List UInt8) (ws : Writes) : Prop where
  positions : ∀ p, (∃ b, (p, b) ∈ ws) ↔ 0 ≤ p ∧ p < octets s
  bits : ∀ (dst : Bytes) (k : Nat), k < 7 * s.length →
    octetBit (dst.apply ws) k = (s.getD (k / 7) 0).toNat.testBit (k % 7)
  padding : ∀ (dst : Bytes) (k : Nat), 7 * s.length ≤ k → k < 8 * octets s →
    octetBit (dst.apply ws) k = false

/-- The characters are written, and a terminator follows within two bytes. -/
structure Unpacks (s : List UInt8) (dst : Bytes) (ws : Writes) : Prop where
  written : ∀ i (h : i < s.length), (∃ b, ((i : Int), b) ∈ ws) ∧ dst.apply ws i = s[i]
  terminated : ∃ i : Nat, i < s.length + 2 ∧ dst.apply ws i = 0

/-! ## The packing -/

/-- Bit `k` of the number is bit `k mod 7` of character `k / 7`. -/
theorem testBit_septets {s : List UInt8} (hs : ∀ c ∈ s, c.toNat < 128) (k : Nat) :
    (Nat.ofDigits 128 (s.map UInt8.toNat)).testBit k =
      (s.getD (k / 7) 0).toNat.testBit (k % 7) := by
  induction s generalizing k with
  | nil => simp
  | cons c s ih =>
      have hc : c.toNat < 2 ^ 7 := hs c (by simp)
      rw [List.map_cons, Nat.ofDigits_cons, Nat.add_comm, show (128 : Nat) = 2 ^ 7 from rfl,
        Nat.testBit_two_pow_mul_add _ hc]
      split
      · rename_i hlow
        rw [Nat.div_eq_of_lt hlow, Nat.mod_eq_of_lt hlow]
        rfl
      · rename_i hhigh
        have hdiv : k / 7 = (k - 7) / 7 + 1 := by omega
        have hmod : k % 7 = (k - 7) % 7 := by omega
        rw [hdiv, hmod, List.getD_cons_succ]
        exact ih (fun d hd => hs d (by simp [hd])) (k - 7)

theorem length_packSeptets (s : List UInt8) : (packSeptets s).length = octets s := by
  simp [packSeptets, octets]

theorem packs_packSeptets {s : List UInt8} (hs : ∀ c ∈ s, c.toNat < 128) :
    Packs s (Writes.run 0 (packSeptets s)) := by
  have hbit : ∀ (dst : Bytes) (k : Nat), k < 8 * octets s →
      octetBit (dst.apply (Writes.run 0 (packSeptets s))) k =
        (s.getD (k / 7) 0).toNat.testBit (k % 7) := by
    intro dst k hk
    have hin : k / 8 < (packSeptets s).length := by
      rw [length_packSeptets]
      omega
    have hoctet := Writes.apply_run dst 0 (packSeptets s) hin
    rw [Int.zero_add] at hoctet
    rw [octetBit, hoctet, ← testBit_septets hs]
    simp only [packSeptets, List.getElem_map, List.getElem_range, UInt8.toNat_ofNat']
    rw [Nat.testBit_mod_two_pow, show (256 : Nat) = 2 ^ 8 from rfl, ← pow_mul,
      Nat.testBit_div_two_pow, Nat.mod_add_div]
    simp [Nat.mod_lt]
  constructor
  · intro p
    rw [Writes.exists_mem_run, length_packSeptets, Int.zero_add]
  · intro dst k hk
    exact hbit dst k (by unfold octets; omega)
  · intro dst k hlow hk
    have hbehind : s.getD (k / 7) 0 = 0 := by
      rw [List.getD_eq_getElem?_getD, List.getElem?_eq_none (by omega), Option.getD_none]
    rw [hbit dst k hk, hbehind, UInt8.toNat_zero, Nat.zero_testBit]

/-! ## Encode7Bit -/

/-- The first `n` characters as one number, as `packSeptets` takes them. -/
def septetValue (src : Bytes) (n : Nat) : Nat :=
  Nat.ofDigits 128 ((List.range n).map fun i : Nat => (src i).toNat)

/-- After `n` characters: the octets written and what is left over are the characters. -/
structure Carries (src : Bytes) (n : Nat) (s : Encode7) : Prop where
  count : s.writes.length = n - (n + 7) / 8
  value : septetValue src n =
    Nat.ofDigits 256 ((s.writes.map Prod.snd).map UInt8.toNat) +
      256 ^ s.writes.length * s.ucLeftLen.toNat
  left : s.ucLeftLen.toNat < 2 ^ (7 * n - 8 * s.writes.length)

theorem septetValue_succ (src : Bytes) (n : Nat) :
    septetValue src (n + 1) = septetValue src n + 128 ^ n * (src n).toNat := by
  simp [septetValue, List.range_succ, Nat.ofDigits_append]

theorem septetValue_eq {s : List UInt8} {src : Bytes}
    (hsrc : ∀ i (h : i < s.length), src i = s[i]) :
    septetValue src s.length = Nat.ofDigits 128 (s.map UInt8.toNat) := by
  rw [septetValue]
  congr 1
  apply List.ext_getElem
  · simp
  · intro i hi hi'
    simp only [List.getElem_map, List.getElem_range]
    rw [hsrc i (by simpa using hi')]

theorem shiftRight_toNat {c : UInt8} {m : Nat} (hm : m < 8) :
    (c >>> UInt8.ofNat m).toNat = c.toNat / 2 ^ m := by
  rw [UInt8.toNat_shiftRight, UInt8.toNat_ofNat', Nat.mod_eq_of_lt (by omega : m < 2 ^ 8),
    Nat.mod_eq_of_lt hm, Nat.shiftRight_eq_div_pow]

/-- The octet written and the rest of the character are the rest of the last one with
the character above it. -/
theorem carry_toNat {c l : UInt8} {m : Nat} (hm : 0 < m) (hm8 : m < 8)
    (hl : l.toNat < 2 ^ (8 - m)) :
    ((c <<< UInt8.ofNat (8 - m)) ||| l).toNat + 256 * (c >>> UInt8.ofNat m).toNat =
      l.toNat + 2 ^ (8 - m) * c.toNat := by
  have hlow : (c <<< UInt8.ofNat (8 - m)).toNat = (c.toNat % 2 ^ m) <<< (8 - m) := by
    rw [UInt8.toNat_shiftLeft, UInt8.toNat_ofNat', Nat.mod_eq_of_lt (by omega : 8 - m < 2 ^ 8),
      Nat.mod_eq_of_lt (by omega : 8 - m < 8), Nat.shiftLeft_eq, Nat.shiftLeft_eq]
    conv_lhs => rw [show 2 ^ 8 = 2 ^ m * 2 ^ (8 - m) by rw [← pow_add]; congr 1; omega]
    exact Nat.mul_mod_mul_right _ _ _
  have hpow : (256 : Nat) = 2 ^ (8 - m) * 2 ^ m := by
    rw [← pow_add, Nat.sub_add_cancel (by omega)]
    rfl
  rw [UInt8.toNat_or, hlow, shiftRight_toNat hm8, ← Nat.shiftLeft_add_eq_or_of_lt hl,
    Nat.shiftLeft_eq]
  calc c.toNat % 2 ^ m * 2 ^ (8 - m) + l.toNat + 256 * (c.toNat / 2 ^ m)
      = l.toNat + 2 ^ (8 - m) * (c.toNat % 2 ^ m + 2 ^ m * (c.toNat / 2 ^ m)) := by
        rw [hpow]
        ring
    _ = l.toNat + 2 ^ (8 - m) * c.toNat := by rw [Nat.mod_add_div]

theorem encode7BitStep_carries {src : Bytes} {n : Nat} {s : Encode7} (h : Carries src n s)
    (hc : (src n).toNat < 128) : Carries src (n + 1) (encode7BitStep src s n) := by
  have hcount := h.count
  have hbits : (128 : Nat) ^ n = 256 ^ s.writes.length * 2 ^ (7 * n - 8 * s.writes.length) := by
    rw [show (128 : Nat) = 2 ^ 7 from rfl, show (256 : Nat) = 2 ^ 8 from rfl, ← pow_mul,
      ← pow_mul, ← pow_add]
    congr 1
    omega
  have hvalue : septetValue src (n + 1) =
      Nat.ofDigits 256 ((s.writes.map Prod.snd).map UInt8.toNat) + 256 ^ s.writes.length *
        (s.ucLeftLen.toNat + 2 ^ (7 * n - 8 * s.writes.length) * (src n).toNat) := by
    rw [septetValue_succ, h.value, hbits]
    ring
  unfold encode7BitStep
  dsimp only
  split
  · -- a group begins: the octets written hold all the bits of the groups before
    rename_i hgroup
    have hnone : 7 * n - 8 * s.writes.length = 0 := by omega
    have hzero : s.ucLeftLen.toNat = 0 := by
      have := h.left
      rw [hnone] at this
      omega
    refine ⟨by dsimp only; omega, ?_, ?_⟩
    · rw [hvalue, hzero, hnone]
      simp
    · have hseven : 7 * (n + 1) - 8 * s.writes.length = 7 := by omega
      dsimp only
      rw [hseven]
      exact hc
  · rename_i hgroup
    have hphase : 7 * n - 8 * s.writes.length = 8 - n % 8 := by omega
    have hleft := h.left
    rw [hphase] at hleft hvalue
    have hcarry := carry_toNat (c := src n) (by omega) (by omega : n % 8 < 8) hleft
    refine ⟨?_, ?_, ?_⟩
    · simp only [List.length_append, List.length_singleton]
      omega
    · rw [hvalue, ← hcarry, List.map_append, List.map_append, Nat.ofDigits_append,
        List.length_append, List.length_map, List.length_map, List.length_singleton,
        List.map_singleton, List.map_singleton, Nat.ofDigits_singleton]
      ring
    · have hrest : 7 * (n + 1) - 8 * (s.writes.length + 1) = 7 - n % 8 := by omega
      simp only [List.length_append, List.length_singleton]
      rw [hrest, shiftRight_toNat (Nat.mod_lt n (by decide))]
      apply Nat.div_lt_of_lt_mul
      rw [← pow_add, show n % 8 + (7 - n % 8) = 7 by omega]
      exact hc

theorem encode7Bit_carries {src : Bytes} (n : Nat) (hc : ∀ i < n, (src (i : Nat)).toNat < 128) :
    Carries src n (encoded src n) := by
  induction n with
  | zero => exact ⟨rfl, rfl, Nat.zero_lt_one⟩
  | succ n ih =>
      rw [encoded_succ]
      exact encode7BitStep_carries (ih fun i hi => hc i (by omega)) (hc n (by omega))

theorem octets_of_value (os : List UInt8) :
    ((List.range os.length).map fun k =>
      UInt8.ofNat (Nat.ofDigits 256 (os.map UInt8.toNat) / 256 ^ k)) = os := by
  induction os with
  | nil => rfl
  | cons o os ih =>
      have hlt : o.toNat < 256 := o.toNat_lt
      have hdiv : (o.toNat + 256 * Nat.ofDigits 256 (os.map UInt8.toNat)) / 256 =
          Nat.ofDigits 256 (os.map UInt8.toNat) := by omega
      have hfirst : UInt8.ofNat (o.toNat + 256 * Nat.ofDigits 256 (os.map UInt8.toNat)) = o := by
        apply UInt8.toNat.inj
        rw [UInt8.toNat_ofNat']
        omega
      rw [List.length_cons, List.range_succ_eq_map, List.map_cons, List.map_map,
        List.map_cons, Nat.ofDigits_cons, pow_zero, Nat.div_one, hfirst]
      congr 1
      refine Eq.trans (List.map_congr_left fun k _ => ?_) ih
      simp only [Function.comp_apply]
      rw [pow_succ', ← Nat.div_div_eq_div_mul, hdiv]

/-- The octets that `Encode7Bit` writes one over the other are those of the packing. -/
theorem encode7Bit_octets {s : List UInt8} {src : Bytes} (hs : ∀ c ∈ s, c.toNat < 128)
    (hsrc : ∀ i (h : i < s.length), src i = s[i]) (hnul : src s.length = 0) :
    (encode7Bit src (s.length + 1)).writes.map Prod.snd = packSeptets s := by
  have hchars : ∀ i < s.length + 1, (src (i : Nat)).toNat < 128 := by
    intro i hi
    by_cases hlt : i < s.length
    · rw [hsrc i hlt]
      exact hs _ (List.getElem_mem hlt)
    · obtain rfl : i = s.length := by omega
      simp [hnul]
  have hloop := encode7Bit_carries (s.length + 1) hchars
  set e := encoded src (s.length + 1)
  change e.writes.map Prod.snd = _
  have hvalue := hloop.value
  have hcount := hloop.count
  rw [septetValue_succ, hnul, septetValue_eq hsrc, UInt8.toNat_zero, Nat.mul_zero,
    Nat.add_zero] at hvalue
  -- the characters end within the octets written, so that nothing is left over
  have hbound : Nat.ofDigits 128 (s.map UInt8.toNat) < 256 ^ e.writes.length := by
    calc Nat.ofDigits 128 (s.map UInt8.toNat)
        < 128 ^ (s.map UInt8.toNat).length :=
          Nat.ofDigits_lt_base_pow_length (by decide) (by simpa using hs)
      _ = 2 ^ (7 * s.length) := by rw [List.length_map, pow_mul]; rfl
      _ ≤ 2 ^ (8 * e.writes.length) := Nat.pow_le_pow_right (by decide) (by omega)
      _ = 256 ^ e.writes.length := by rw [pow_mul]; rfl
  have hnone : e.ucLeftLen.toNat = 0 := by
    by_contra hne
    have hover : 256 ^ e.writes.length ≤ 256 ^ e.writes.length * e.ucLeftLen.toNat :=
      Nat.le_mul_of_pos_right _ (by omega)
    omega
  have hoctets : (7 * s.length + 7) / 8 = (e.writes.map Prod.snd).length := by
    rw [List.length_map]
    omega
  rw [hnone, Nat.mul_zero, Nat.add_zero] at hvalue
  rw [packSeptets, hoctets, hvalue]
  exact (octets_of_value _).symm

theorem run_of_length_le_one {ws : Writes} (hpos : ∀ w ∈ ws, w.1 = 0) (hlen : ws.length ≤ 1) :
    ws = Writes.run 0 (ws.map Prod.snd) := by
  match ws with
  | [] => rfl
  | [(p, b)] =>
      obtain rfl : p = 0 := hpos (p, b) (by simp)
      rfl
  | _ :: _ :: _ => simp at hlen

/-- `Encode7Bit` packs the characters exactly when there is at most one. -/
theorem encode7Bit_packs_iff (s : List UInt8) (src : Bytes) (hs : ∀ c ∈ s, c.toNat < 128)
    (hsrc : ∀ i (h : i < s.length), src i = s[i]) (hnul : src s.length = 0) :
    Packs s (encode7Bit src ((s.length + 1) % 0x100000000)).writes ↔ s.length ≤ 1 := by
  constructor
  · intro hpacks
    by_contra! hlen
    have hone : (1 : Int) < octets s := by
      unfold octets
      omega
    obtain ⟨b, hb⟩ := (hpacks.positions 1).2 ⟨by decide, hone⟩
    exact absurd (encode7Bit_position _ _ _ hb) (by simp)
  · intro hlen
    have hoctets := encode7Bit_octets hs hsrc hnul
    have hone : (encode7Bit src (s.length + 1)).writes.length ≤ 1 := by
      have hcount := congrArg List.length hoctets
      rw [List.length_map, length_packSeptets, octets] at hcount
      omega
    rw [Nat.mod_eq_of_lt (by omega), run_of_length_le_one (encode7Bit_position _ _) hone, hoctets]
    exact packs_packSeptets hs

/-- The character A. -/
theorem encode7Bit_packs_letter :
    Packs [0x41] (encode7Bit (Bytes.literal [0x41]) 2).writes :=
  (encode7Bit_packs_iff [0x41] (Bytes.literal [0x41]) (by simp)
    (Bytes.literal_holds (by decide)).2.1 (Bytes.literal_holds (by decide)).2.2).2 (by decide)

/-- Of the characters A and B the second octet is not written. -/
theorem two_characters_not_packed :
    ¬ ∀ (s : List UInt8) (src : Bytes), (∀ c ∈ s, c.toNat < 128) →
      (∀ i (h : i < s.length), src i = s[i]) → src s.length = 0 →
      Packs s (encode7Bit src ((s.length + 1) % 0x100000000)).writes := by
  intro h
  have hholds := Bytes.literal_holds (s := [0x41, 0x42]) (by decide)
  have hpacks := h [0x41, 0x42] (Bytes.literal [0x41, 0x42]) (by simp) hholds.2.1 hholds.2.2
  obtain ⟨b, hb⟩ := (hpacks.positions 1).2 ⟨by decide, by decide⟩
  exact absurd (encode7Bit_position _ _ _ hb) (by simp)

/-! ## Decode7Bit -/

structure StepsOver (s : Decode7) : Prop where
  pos : s.pos = 0 ∧ s.iCurChar = 0 ∨ 2 ≤ s.pos
  writes : ∀ w ∈ s.writes, w.1 ≠ 1

theorem decode7BitStep_stepsOver {dst : Bytes} {s : Decode7} (h : StepsOver s) :
    StepsOver (decode7BitStep dst s) := by
  have hpos := h.pos
  have hne : s.pos ≠ 1 := by omega
  unfold decode7BitStep
  dsimp only
  split
  · rename_i hgroup
    refine ⟨.inr (by dsimp only; omega), ?_⟩
    intro w hw
    simp only [List.mem_append, List.mem_singleton] at hw
    rcases hw with (hw | rfl) | rfl
    · exact h.writes w hw
    · exact hne
    · dsimp only
      omega
  · refine ⟨.inr (by dsimp only; omega), ?_⟩
    intro w hw
    simp only [List.mem_append, List.mem_singleton] at hw
    rcases hw with hw | rfl
    · exact h.writes w hw
    · exact hne

theorem decode7Bit_position (dst : Bytes) (srcLen : Nat) :
    ∀ w ∈ (decode7Bit dst srcLen).writes, w.1 ≠ 1 := by
  have hloop : StepsOver
      ((List.range srcLen).foldl (fun s _ => decode7BitStep dst s) ⟨0, 0, 0, [], 0⟩) := by
    induction srcLen with
    | zero => exact ⟨.inl ⟨rfl, rfl⟩, by simp⟩
    | succ n ih =>
        rw [List.range_succ, List.foldl_append, List.foldl_cons, List.foldl_nil]
        exact decode7BitStep_stepsOver ih
  have hpos := hloop.pos
  intro w hw
  simp only [decode7Bit, List.mem_append, List.mem_singleton] at hw
  rcases hw with hw | rfl
  · exact hloop.writes w hw
  · dsimp only
    omega

theorem decode7Bit_one (dst : Bytes) :
    (decode7Bit dst 1).writes = [(0, dst 0 &&& 0x7f), (2, 0)] := by
  change [((0 : Int), ((dst 0 <<< 0) ||| 0) &&& 0x7f), (0 + 2, 0)] = _
  simp

theorem octets_singleton (c : UInt8) : octets [c] % 0x100000000 = 1 := by
  simp [octets]

/-- `Decode7Bit` unpacks exactly when there is nothing to unpack, or one character
that stood in `dst` before.  What `src` holds makes no difference. -/
theorem decode7Bit_unpacks_iff (s : List UInt8) (dst : Bytes) :
    Unpacks s dst (decode7Bit dst (octets s % 0x100000000)).writes ↔
      s = [] ∨ ∃ c, s = [c] ∧ dst 0 &&& 0x7f = c := by
  match s with
  | [] =>
      have hwrites : (decode7Bit dst 0).writes = [(0, 0)] := rfl
      simp only [true_or, iff_true]
      exact ⟨by simp, 0, by simp, by simp [octets, hwrites]⟩
  | [c] =>
      rw [octets_singleton, decode7Bit_one]
      constructor
      · intro h
        have hfirst := (h.written 0 (by simp)).2
        simp at hfirst
        exact .inr ⟨c, rfl, hfirst⟩
      · rintro (hnil | ⟨d, hd, hfirst⟩)
        · cases hnil
        · cases hd
          refine ⟨fun i hi => ?_, 2, by simp, by simp⟩
          obtain rfl : i = 0 := by simpa using hi
          exact ⟨⟨_, List.mem_cons_self⟩, by simpa using hfirst⟩
  | c :: d :: s =>
      constructor
      · intro h
        obtain ⟨⟨b, hb⟩, -⟩ := h.written 1 (by simp)
        exact absurd rfl (decode7Bit_position _ _ _ hb)
      · rintro (hnil | ⟨e, he, -⟩)
        · cases hnil
        · cases he

/-- The character A, packed as 0x41, is not found in an empty `dst`. -/
theorem character_not_unpacked :
    ¬ ∀ (s : List UInt8) (src dst : Bytes), (∀ c ∈ s, c ≠ 0 ∧ c.toNat < 128) →
      (∀ k (h : k < (packSeptets s).length), src k = (packSeptets s)[k]) →
      Unpacks s dst (decode7Bit dst (octets s % 0x100000000)).writes := by
  intro h
  have hpacked : ∀ k (h : k < (packSeptets [0x41]).length),
      (fun _ => 0x41 : Bytes) (k : Int) = (packSeptets [0x41])[k] := by
    intro k hk
    obtain rfl : k = 0 := by simpa [packSeptets] using hk
    rfl
  have hunpacks := h [0x41] (fun _ => 0x41) (fun _ => 0) (by simp) hpacked
  rw [octets_singleton, decode7Bit_one] at hunpacks
  exact absurd (hunpacks.written 0 (by decide)).2 (by decide)

end Mobile.Sms.Proofs.Septets
