import Mathlib.Data.List.Basic

/-!
# Numbers of any length as bytes

Seven bits to a byte, the lowest first; every byte but the last has its high bit set.
-/

namespace Mobile.ProofSupport.Varint

def encode (n : Nat) : List UInt8 :=
  if n < 128 then [UInt8.ofNat n] else UInt8.ofNat (n % 128 + 128) :: encode (n / 128)
termination_by n

def decode : List UInt8 → Option (Nat × List UInt8)
  | [] => none
  | c :: s =>
    if c.toNat < 128 then some (c.toNat, s)
    else (decode s).map fun (n, rest) => (c.toNat - 128 + 128 * n, rest)

theorem encode_one {n : Nat} (h : n < 128) : encode n = [UInt8.ofNat n] := by
  rw [encode, if_pos h]

theorem encode_more {n : Nat} (h : ¬ n < 128) :
    encode n = UInt8.ofNat (n % 128 + 128) :: encode (n / 128) := by
  rw [encode, if_neg h]

theorem decode_encode (n : Nat) (rest : List UInt8) :
    decode (encode n ++ rest) = some (n, rest) := by
  induction n using Nat.strongRecOn with
  | ind n ih =>
      by_cases hn : n < 128
      · rw [encode_one hn, List.singleton_append, decode, UInt8.toNat_ofNat_of_lt' (by simp only [UInt8.size]; omega), if_pos hn]
      · rw [encode_more hn, List.cons_append, decode, UInt8.toNat_ofNat_of_lt' (by simp only [UInt8.size]; omega),
          if_neg (by omega), ih (n / 128) (by omega)]
        simpa using Nat.mod_add_div n 128

theorem decode_lt {s rest : List UInt8} {n : Nat} (h : decode s = some (n, rest)) :
    rest.length < s.length := by
  induction s generalizing n rest with
  | nil => cases h
  | cons c s ih =>
      rw [decode] at h
      split at h
      case isTrue =>
        cases h
        simp
      case isFalse =>
        obtain ⟨⟨m, rest'⟩, hs, heq⟩ := Option.map_eq_some_iff.1 h
        cases heq
        exact Nat.lt_succ_of_lt (ih hs)

end Mobile.ProofSupport.Varint
