import Mathlib.Algebra.Group.Nat.Defs
import Mathlib.Data.List.Basic

/-!
# The characters of a decimal number

The text of a natural number is digits, that of an integer may start with a minus.
-/

namespace Mobile.ProofSupport.Decimal

def DigitByte (b : UInt8) : Prop := 48 ≤ b.toNat ∧ b.toNat ≤ 57

theorem digitByte_of_isDigit {c : Char} (hc : c.isDigit) : DigitByte (UInt8.ofNat c.toNat) := by
  simp only [Char.isDigit, Bool.and_eq_true, decide_eq_true_eq, UInt32.le_iff_toNat_le] at hc
  have hlow : 48 ≤ c.toNat := hc.1
  have hhigh : c.toNat ≤ 57 := hc.2
  unfold DigitByte
  rw [UInt8.toNat_ofNat']
  omega

theorem toList_toString_nat (n : Nat) : (toString n).toList = Nat.toDigits 10 n := by simp

theorem digitByte_of_mem_nat {n : Nat} {c : Char} (h : c ∈ (toString n).toList) :
    DigitByte (UInt8.ofNat c.toNat) := by
  rw [toList_toString_nat] at h
  exact digitByte_of_isDigit (Nat.isDigit_of_mem_toDigits (by decide) (by decide) h)

theorem minus_or_digitByte_of_mem_int {n : Int} {c : Char} (h : c ∈ (toString n).toList) :
    c = '-' ∨ DigitByte (UInt8.ofNat c.toNat) := by
  cases n with
  | ofNat n => exact .inr (digitByte_of_mem_nat h)
  | negSucc n =>
      have hsplit : (toString (Int.negSucc n)).toList = '-' :: (toString (n + 1)).toList := by
        show ("-" ++ toString (n + 1)).toList = _
        rw [String.toList_append]
        rfl
      rw [hsplit, List.mem_cons] at h
      exact h.imp_right digitByte_of_mem_nat

theorem length_toString_nat_le {n k : Nat} (hk : 0 < k) (h : n < 10 ^ k) :
    (toString n).toList.length ≤ k := by
  rw [toList_toString_nat]
  exact (Nat.length_toDigits_le_iff (by decide) hk).2 h

end Mobile.ProofSupport.Decimal
