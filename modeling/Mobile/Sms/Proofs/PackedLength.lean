import Mathlib.Algebra.Order.Floor.Div
import Mathlib.GroupTheory.GroupAction.Ring
import Mobile.Sms.HelperLoops
import Mobile.Sms.Proofs.Encoding

/-!
# The length of packed characters

The loop of `Encode7Bit` counts an octet for every character but the first of eight.
Called with the terminator of a text, it returns the octets that the text occupies.
-/

namespace Mobile.Sms.Proofs.PackedLength

open Mobile.ProofSupport.Image Mobile.ProofSupport.While
open Mobile.Sms.Helpers Mobile.Sms.HelperLoops Mobile.Sms.Unicode Mobile.Sms.Pdu
open Mobile.Sms.Proofs.Positions Mobile.Sms.Proofs.Encoding

/-! ## A round -/

section Words

variable {c l : UInt8} {i : UInt32}

theorem phase_toNat (n : UInt32) : (n &&& 7).toNat = n.toNat % 8 := by
  rw [UInt32.toNat_and]
  exact Nat.and_two_pow_sub_one_eq_mod n.toNat 3

theorem width_toNat (hi : i.toNat < 8) : (8 - i).toNat = 8 - i.toNat := by
  have hle : i ≤ 8 := by
    rw [UInt32.le_iff_toNat_le]
    simp only [UInt32.reduceToNat]
    omega
  exact UInt32.toNat_sub_of_le _ _ hle

theorem stored_octet (hi : 0 < i.toNat) (hi8 : i.toNat < 8) :
    ((c.toUInt32 <<< (8 - i)) ||| l.toUInt32).toUInt8 =
      (c <<< UInt8.ofNat (8 - i.toNat)) ||| l := by
  have hshift : (c.toUInt32 <<< (8 - i)).toUInt8 = c <<< UInt8.ofNat (8 - i.toNat) := by
    apply UInt8.toNat.inj
    rw [UInt32.toNat_toUInt8, UInt32.toNat_shiftLeft, UInt8.toNat_toUInt32, width_toNat hi8,
      UInt8.toNat_shiftLeft, UInt8.toNat_ofNat', Nat.mod_eq_of_lt (by omega : 8 - i.toNat < 32),
      Nat.mod_eq_of_lt (by omega : 8 - i.toNat < 2 ^ 8),
      Nat.mod_eq_of_lt (by omega : 8 - i.toNat < 8)]
    exact Nat.mod_mod_of_dvd _ (by decide)
  rw [UInt32.toUInt8_or, hshift, UInt8.toUInt8_toUInt32]

theorem left_over (hi : i.toNat < 8) :
    c.toUInt32 >>> i = (c >>> UInt8.ofNat i.toNat).toUInt32 := by
  apply UInt32.toNat.inj
  rw [UInt32.toNat_shiftRight, UInt8.toNat_toUInt32, UInt8.toNat_toUInt32, UInt8.toNat_shiftRight,
    UInt8.toNat_ofNat', Nat.mod_eq_of_lt (by omega : i.toNat < 32),
    Nat.mod_eq_of_lt (by omega : i.toNat < 2 ^ 8), Nat.mod_eq_of_lt hi]

end Words

/-! ## The loop -/

section Rounds

variable {src : Bytes} {srcLen : UInt32} {j : Nat} {s : Packing}

structure Packed (src : Bytes) (j : Nat) (s : Packing) : Prop where
  count : s.uSrcCnt.toNat = j
  source : s.src = j
  octets : s.uDstCnt.toNat = (encoded src j).uDstCnt
  left : s.ucLeftLen = (encoded src j).ucLeftLen.toUInt32
  writes : s.writes = (encoded src j).writes

theorem packed_start (src : Bytes) : Packed src 0 .start := ⟨rfl, rfl, rfl, rfl, rfl⟩

theorem encoded_lt (src : Bytes) {j : Nat} (hj : j < srcLen.toNat) :
    (encoded src j).uDstCnt + 1 < 2 ^ 32 := by
  have hret : (encoded src j).uDstCnt = j - (j + 7) / 8 := encode7Bit_ret src j
  have hlt := srcLen.toNat_lt
  omega

theorem Packed.phase_eq_zero (h : Packed src j s) : s.uSrcCnt &&& 7 = 0 ↔ j % 8 = 0 := by
  rw [← UInt32.toNat_inj, phase_toNat, h.count]
  rfl

/-- The first of eight characters is only kept. -/
theorem packed_first (hgroup : j % 8 = 0) (h : Packed src j s) :
    (s.char src).uDstCnt.toNat = (encoded src (j + 1)).uDstCnt ∧
      (s.char src).ucLeftLen = (encoded src (j + 1)).ucLeftLen.toUInt32 ∧
      (s.char src).writes = (encoded src (j + 1)).writes := by
  have hchar : s.char src = { s with ucLeftLen := (src j).toUInt32 } := by
    rw [Packing.char, if_pos (h.phase_eq_zero.2 hgroup), h.source]
  have hstep : encoded src (j + 1) = { encoded src j with ucLeftLen := src j } := by
    rw [encoded_succ, encode7BitStep, if_pos hgroup]
  rw [hchar, hstep]
  exact ⟨h.octets, rfl, h.writes⟩

theorem packed_next (hj : j < srcLen.toNat) (hgroup : j % 8 ≠ 0) (h : Packed src j s) :
    (s.char src).uDstCnt.toNat = (encoded src (j + 1)).uDstCnt ∧
      (s.char src).ucLeftLen = (encoded src (j + 1)).ucLeftLen.toUInt32 ∧
      (s.char src).writes = (encoded src (j + 1)).writes := by
  have hphase : (s.uSrcCnt &&& 7).toNat = j % 8 := by rw [phase_toNat, h.count]
  have hstep : encoded src (j + 1) = ⟨src j >>> UInt8.ofNat (j % 8),
      (encoded src j).writes ++ [(0, (src j <<< UInt8.ofNat (8 - j % 8)) |||
        (encoded src j).ucLeftLen)], (encoded src j).uDstCnt + 1⟩ := by
    rw [encoded_succ, encode7BitStep, if_neg hgroup]
  rw [Packing.char, if_neg (mt h.phase_eq_zero.1 hgroup), hstep, h.source]
  refine ⟨?_, ?_, ?_⟩
  · show (s.uDstCnt + 1).toNat = _
    rw [UInt32.toNat_add, h.octets, UInt32.toNat_one]
    exact Nat.mod_eq_of_lt (encoded_lt src hj)
  · show _ >>> (s.uSrcCnt &&& 7) = _
    rw [left_over (by omega), hphase]
  · show s.writes ++ [(0, _)] = _
    rw [h.writes, h.left, stored_octet (by omega) (by omega), hphase]

theorem char_counters (src : Bytes) (s : Packing) :
    (s.char src).uSrcCnt = s.uSrcCnt ∧ (s.char src).src = s.src := by
  unfold Packing.char
  dsimp only
  split
  · exact ⟨rfl, rfl⟩
  · exact ⟨rfl, rfl⟩

theorem packed_round (hj : j < srcLen.toNat) (h : Packed src j s) :
    Packed src (j + 1) ((encode7BitLoop src srcLen).body s) := by
  have hlt := srcLen.toNat_lt
  obtain ⟨hsrcCnt, hsrc⟩ := char_counters src s
  obtain ⟨hoctets, hleft, hwrites⟩ : (s.char src).uDstCnt.toNat = (encoded src (j + 1)).uDstCnt ∧
      (s.char src).ucLeftLen = (encoded src (j + 1)).ucLeftLen.toUInt32 ∧
      (s.char src).writes = (encoded src (j + 1)).writes := by
    by_cases hgroup : j % 8 = 0
    · exact packed_first hgroup h
    · exact packed_next hj hgroup h
  refine ⟨?_, ?_, hoctets, hleft, hwrites⟩
  · show ((s.char src).uSrcCnt + 1).toNat = _
    rw [hsrcCnt, UInt32.toNat_add, h.count, UInt32.toNat_one]
    omega
  · show (s.char src).src + 1 = _
    rw [hsrc, h.source]
    rfl

theorem encode7Bit_returns (src : Bytes) (srcLen : UInt32) :
    ∃ out, Encode7BitReturns src srcLen out ∧
      out.writes = (encode7Bit src srcLen.toNat).writes ∧
      out.ret.toNat = (encode7Bit src srcLen.toNat).ret := by
  obtain ⟨s, hends, h⟩ := Loop.ends_of_counted (l := encode7BitLoop src srcLen)
    (I := Packed src) (m := srcLen.toNat)
    (fun j s h => by simp [encode7BitLoop, UInt32.lt_iff_toNat_lt, h.count])
    (fun j s hj => packed_round hj) (packed_start src)
  exact ⟨_, ⟨_, s, hends, rfl⟩, h.writes, h.octets⟩

end Rounds

/-! ## The count -/

theorem count_eq_ceilDiv (n : Nat) : n + 1 - (n + 1 + 7) / 8 = 7 * n ⌈/⌉ 8 := by
  rw [Nat.ceilDiv_eq_add_pred_div]
  omega

theorem encodeUserData_sevenBit (table : Table) {m : Bytes} (buf : Bytes) (n : Nat)
    (hdcs : m tpDcs = gsm7Bit) :
    encodeUserData table m buf n =
      some (((setBuf buf [m tpPid, m tpDcs, 0]).apply [(3, UInt8.ofNat n)]).apply
        (Writes.shift (encode7Bit (m.shift tpUd) (n + 1)).writes 4),
      (encode7Bit (m.shift tpUd) (n + 1)).ret + 4) :=
  if_pos hdcs

/-- `Encode7Bit` of a text and its terminator returns the number of octets that the
characters of the text occupy, and `EncodePdu` takes that number of octets behind the
four of the header. -/
theorem encode7Bit_count (src : Bytes) (srcLen : UInt32) (hlen : 1 ≤ srcLen) :
    ∃ out, Encode7BitReturns src srcLen out ∧
      out.ret.toNat = 7 * (srcLen.toNat - 1) ⌈/⌉ 8 ∧
      ∀ (table : Table) (m buf : Bytes), m.shift tpUd = src → m tpDcs = gsm7Bit →
        ∃ buf', encodeUserData table m buf (srcLen.toNat - 1) =
          some (buf', out.ret.toNat + 4) := by
  have hpos : 1 ≤ srcLen.toNat := UInt32.le_iff_toNat_le.1 hlen
  have hchars : srcLen.toNat - 1 + 1 = srcLen.toNat := by omega
  obtain ⟨out, hret, -, hcount⟩ := encode7Bit_returns src srcLen
  refine ⟨out, hret, ?_, fun table m buf hsrc hdcs => ?_⟩
  · rw [hcount, encode7Bit_ret, ← count_eq_ceilDiv, hchars]
  · have huser := encodeUserData_sevenBit table buf (srcLen.toNat - 1) hdcs
    rw [hsrc, hchars, ← hcount] at huser
    exact ⟨_, huser⟩

/-- The two characters of the greeting. -/
theorem encode7Bit_count_greeting :
    ∃ out, Encode7BitReturns (greetingMembers.shift tpUd) 3 out ∧ out.ret.toNat = 2 ∧
      ∃ buf', encodeUserData #[] greetingMembers (fun _ => 0) 2 = some (buf', 6) := by
  obtain ⟨out, hret, hcount, huser⟩ :=
    encode7Bit_count (greetingMembers.shift tpUd) 3 (by decide)
  have htwo : out.ret.toNat = 2 := hcount
  obtain ⟨buf', hseg⟩ := huser #[] greetingMembers (fun _ => 0) rfl greeting_in.dcs
  rw [htwo] at hseg
  exact ⟨out, hret, htwo, buf', hseg⟩

end Mobile.Sms.Proofs.PackedLength
