import Mobile.Sms.Pdu

/-!
# Where the helpers write

No helper writes before its `dst`, but for a `SerializeNumbers` of no characters, and
how far those of the encoder write.
-/

namespace Mobile.Sms.Proofs.Positions

open Mobile.ProofSupport.Image Mobile.ProofSupport.Image.Writes
open Mobile.Sms.Helpers Mobile.Sms.Unicode

theorem byte2String_within (src : Bytes) (srcLen : Nat) :
    Within (byte2String src srcLen).writes ((srcLen + 1) / 2) :=
  within_map_range _ _

theorem byte2String_forward (src : Bytes) (srcLen : Nat) :
    Forward (byte2String src srcLen).writes :=
  (byte2String_within src srcLen).forward

theorem memcpy_within (src : Bytes) (n : Nat) : Within (memcpy src n) n :=
  within_map_range _ _

theorem mem_swapPairs {src : Bytes} {rounds : Nat} {i : Int} {b : UInt8} :
    (i, b) ∈ swapPairs src rounds ↔ ∃ k : Nat, k < rounds ∧
      ((i = 2 * k ∧ b = src (2 * k + 1)) ∨ (i = 2 * k + 1 ∧ b = src (2 * k))) := by
  simp [swapPairs]

theorem swapPairs_within (src : Bytes) (rounds : Nat) :
    Within (swapPairs src rounds) (2 * rounds) :=
  within_flatMap_range _ _ rounds

theorem swapPairs_forward (src : Bytes) (rounds : Nat) : Forward (swapPairs src rounds) :=
  (swapPairs_within src rounds).forward

theorem apply_swapPairs {src : Bytes} {k : Nat} (dst : Bytes) {i : Nat} (hi : i < 2 * k) :
    dst.apply (swapPairs src k) i = if i % 2 = 0 then src (i + 1 : Nat) else src (i - 1 : Nat) := by
  refine Bytes.apply_of_mem
    (P := fun b => b = if i % 2 = 0 then src (i + 1 : Nat) else src (i - 1 : Nat))
    ?_ (fun b hb => ?_) dst
  · by_cases heven : i % 2 = 0
    · exact ⟨_, mem_swapPairs.2 ⟨i / 2, by omega, .inl ⟨by omega, rfl⟩⟩⟩
    · exact ⟨_, mem_swapPairs.2 ⟨i / 2, by omega, .inr ⟨by omega, rfl⟩⟩⟩
  · obtain ⟨m, -, ⟨hm, rfl⟩ | ⟨hm, rfl⟩⟩ := mem_swapPairs.1 hb
    · rw [if_pos (by omega)]
      congr 1
      omega
    · rw [if_neg (by omega)]
      congr 1
      omega

theorem string2Byte_forward (src : Bytes) (srcLen : Nat) :
    Forward (string2Byte src srcLen).writes :=
  (within_flatMap_range _ _ srcLen).forward.append (forward_singleton (by omega) 0)

theorem invetNumbers_within (src : Bytes) (srcLen : Nat) :
    Within (invetNumbers src srcLen).writes (srcLen + 2) := by
  have hpairs : Within (swapPairs src ((srcLen + 1) / 2)) (srcLen + 2) :=
    (swapPairs_within src _).mono (by omega)
  unfold invetNumbers
  by_cases hodd : srcLen % 2 = 1
  · rw [if_pos hodd]
    refine within_append.2 ⟨hpairs, ?_⟩
    simp only [Within, List.mem_cons, List.not_mem_nil, or_false, forall_eq_or_imp, forall_eq]
    omega
  · rw [if_neg hodd]
    refine within_append.2 ⟨hpairs, ?_⟩
    simp only [Within, List.mem_singleton, forall_eq]
    omega

theorem invetNumbers_forward (src : Bytes) (srcLen : Nat) :
    Forward (invetNumbers src srcLen).writes :=
  (invetNumbers_within src srcLen).forward

theorem serializeNumbers_forward (src dst : Bytes) {srcLen : Nat} (h : 0 < srcLen) :
    Forward (serializeNumbers src dst srcLen).writes := by
  unfold serializeNumbers
  dsimp only
  split
  · exact (swapPairs_forward _ _).append (forward_singleton (by omega) 0)
  · exact (swapPairs_forward _ _).append (forward_singleton (by omega) 0)

theorem decode8Bit_forward (src : Bytes) (srcLen : Nat) :
    Forward (decode8Bit src srcLen).writes :=
  (memcpy_within src srcLen).forward.append (forward_singleton (Int.le_refl 0) 0)

theorem decode7BitStep_forward {dst : Bytes} {s : Decode7} (hpos : 0 ≤ s.pos)
    (hws : Forward s.writes) :
    0 ≤ (decode7BitStep dst s).pos ∧ Forward (decode7BitStep dst s).writes := by
  unfold decode7BitStep
  dsimp only
  split
  · refine ⟨by show 0 ≤ s.pos + 4; omega, ?_⟩
    exact (hws.append (forward_singleton hpos _)).append (forward_singleton (by omega) _)
  · exact ⟨by show 0 ≤ s.pos + 2; omega, hws.append (forward_singleton hpos _)⟩

theorem decode7Bit_forward (dst : Bytes) (srcLen : Nat) :
    Forward (decode7Bit dst srcLen).writes := by
  have hloop : 0 ≤ ((List.range srcLen).foldl (fun s _ => decode7BitStep dst s)
        ⟨0, 0, 0, [], 0⟩).pos ∧
      Forward ((List.range srcLen).foldl (fun s _ => decode7BitStep dst s)
        ⟨0, 0, 0, [], 0⟩).writes := by
    induction srcLen with
    | zero => exact ⟨Int.le_refl 0, by simp [Forward]⟩
    | succ n ih =>
        rw [List.range_succ, List.foldl_append, List.foldl_cons, List.foldl_nil]
        exact decode7BitStep_forward ih.1 ih.2
  exact hloop.2.append (forward_singleton hloop.1 0)

theorem encode7BitStep_position {src : Bytes} {s : Encode7} {n : Nat}
    (h : ∀ w ∈ s.writes, w.1 = 0) : ∀ w ∈ (encode7BitStep src s n).writes, w.1 = 0 := by
  unfold encode7BitStep
  dsimp only
  split
  · exact h
  · intro w hw
    rcases List.mem_append.1 hw with hw | hw
    · exact h w hw
    · rw [List.mem_singleton.1 hw]

def encoded (src : Bytes) (n : Nat) : Encode7 :=
  (List.range n).foldl (encode7BitStep src) ⟨0, [], 0⟩

theorem encoded_succ (src : Bytes) (n : Nat) :
    encoded src (n + 1) = encode7BitStep src (encoded src n) n := by
  rw [encoded, List.range_succ, List.foldl_append, List.foldl_cons, List.foldl_nil]
  rfl

/-- Only the first octet is written. -/
theorem encode7Bit_position (src : Bytes) (srcLen : Nat) :
    ∀ w ∈ (encode7Bit src srcLen).writes, w.1 = 0 := by
  change ∀ w ∈ (encoded src srcLen).writes, w.1 = 0
  induction srcLen with
  | zero => simp [encoded]
  | succ n ih =>
      rw [encoded_succ]
      exact encode7BitStep_position ih

theorem pair_taken {n : UInt32} {k : Nat} (hn : n.toNat = 2 * (k + 1)) :
    n ≠ 0 ∧ (n - 2).toNat = 2 * k := by
  have htwo : (2 : UInt32) ≤ n := by
    rw [UInt32.le_iff_toNat_le]
    simp
    omega
  refine ⟨?_, ?_⟩
  · rintro rfl
    simp at hn
  · rw [UInt32.toNat_sub_of_le _ _ htwo]
    simp
    omega

theorem strUnicode2GBLoop_forward {table : Table} {src : Bytes} {rounds : Nat} {n : UInt32}
    {i : Nat} {pos : Int} {ws : Writes} {out : Out} (hpos : 0 ≤ pos) (hws : Forward ws)
    (h : strUnicode2GBLoop table src rounds n i pos ws = some out) : Forward out.writes := by
  induction rounds generalizing n i pos ws with
  | zero =>
      unfold strUnicode2GBLoop at h
      split at h
      · cases h
        exact hws.append (forward_singleton hpos 0)
      · cases h
  | succ rounds ih =>
      have htwo : ∀ b c : UInt8, Forward (ws ++ [(pos, b), (pos + 1, c)]) := fun b c =>
        hws.append ((forward_singleton hpos b).append (forward_singleton (by omega) c))
      unfold strUnicode2GBLoop at h
      split at h
      · cases h
        exact hws.append (forward_singleton hpos 0)
      · dsimp only at h
        split at h
        · exact ih (by omega) (htwo _ _) h
        · split at h
          · exact ih (by omega) (hws.append (forward_singleton hpos _)) h
          · exact ih (by omega) (htwo _ _) h

end Mobile.Sms.Proofs.Positions
