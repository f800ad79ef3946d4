import Mathlib.Data.Nat.Digits.Lemmas
import Mathlib.Tactic.FinCases
import Mobile.Token.InPlace

/-!
# Decimal numerals

A numeral is a sign and digits, as many as there are.  `strtol` finds its value,
cut to the range of `long`, and the conversion to `int` keeps the low 32 bits: the
number read is the number sent exactly when it fits an `int`.
-/

namespace Mobile.Token.Proofs.Numerals

open Mobile.Token.Scan Mobile.Token.InPlace
open Mobile.Token.Tokenizer (isSpace digitValue digits strtol clampLong toInt)

inductive Sign
  | none
  | minus
  | plus
  deriving DecidableEq, Repr

def Sign.text : Sign → Line
  | .none => []
  | .minus => [0x2d]
  | .plus => [0x2b]

structure Numeral where
  sign : Sign
  digits : List (Fin 10)
  nonempty : digits ≠ []
  deriving DecidableEq

def digitChar (d : Fin 10) : UInt8 := UInt8.ofNat (0x30 + d.val)

namespace Numeral

def text (n : Numeral) : Line := n.sign.text ++ n.digits.map digitChar

def magnitude (n : Numeral) : Nat := n.digits.foldl (fun m d => 10 * m + d.val) 0

def value (n : Numeral) : Int :=
  match n.sign with
  | .minus => -n.magnitude
  | _ => n.magnitude

end Numeral

def decimalDigits (n : Nat) : List (Fin 10) :=
  if n = 0 then [0] else (Nat.digits 10 n).reverse.map (Fin.ofNat 10)

theorem decimalDigits_ne_nil (n : Nat) : decimalDigits n ≠ [] := by
  unfold decimalDigits
  split
  · simp
  · simpa [Nat.digits_ne_nil_iff_ne_zero]

def decimal (v : Int) : Numeral where
  sign := if v < 0 then .minus else .none
  digits := decimalDigits v.natAbs
  nonempty := decimalDigits_ne_nil v.natAbs

theorem decimalDigits_foldl (n : Nat) :
    (decimalDigits n).foldl (fun m d => 10 * m + d.val) 0 = n := by
  unfold decimalDigits
  split
  · rename_i hzero
    rw [hzero]
    rfl
  · have hsum : ∀ ds : List Nat, (∀ d ∈ ds, d < 10) →
        (ds.reverse.map (Fin.ofNat 10)).foldl (fun m d => 10 * m + d.val) 0 =
          Nat.ofDigits 10 ds := by
      intro ds hds
      induction ds with
      | nil => rfl
      | cons d ds ih =>
          have hd : d % 10 = d := Nat.mod_eq_of_lt (hds d (by simp))
          have hrest := ih fun d hd => hds d (by simp [hd])
          rw [List.reverse_cons, List.map_append, List.foldl_append, hrest, Nat.ofDigits_cons]
          simp [hd]
          omega
    rw [hsum _ fun d hd => Nat.digits_lt_base (by decide) hd, Nat.ofDigits_digits]

theorem decimal_value (v : Int) : (decimal v).value = v := by
  have hmagnitude : (decimal v).magnitude = v.natAbs := decimalDigits_foldl v.natAbs
  by_cases hneg : v < 0
  · have hsign : (decimal v).sign = .minus := if_pos hneg
    simp only [Numeral.value, hsign, hmagnitude]
    omega
  · have hsign : (decimal v).sign = .none := if_neg hneg
    simp only [Numeral.value, hsign, hmagnitude]
    omega

/-! ## What `strtol` finds -/

theorem digitValue_digitChar (d : Fin 10) : digitValue (digitChar d) = some d.val := by
  revert d
  decide

theorem digitValue_space {c : UInt8} (hc : isSpace c = true) : digitValue c = none := by
  simp only [isSpace, Bool.or_eq_true, beq_iff_eq, Bool.and_eq_true, decide_eq_true_eq,
    UInt8.le_iff_toNat_le, ← UInt8.toNat_inj, UInt8.reduceToNat] at hc
  simp only [digitValue, UInt8.le_iff_toNat_le, UInt8.reduceToNat, Bool.and_eq_true,
    decide_eq_true_eq]
  rw [if_neg (by omega), if_neg (by omega), if_neg (by omega)]

theorem digitChar_plain (d : Fin 10) :
    isSpace (digitChar d) = false ∧
      digitChar d ∉ ([0x2d, 0x2b, 0x22, 0x2c, 0x3a, 0] : List UInt8) := by
  revert d
  decide

theorem digits_text (ds : List (Fin 10)) :
    digits 10 (ds.map digitChar) = ds.map Fin.val := by
  induction ds with
  | nil => rfl
  | cons d ds ih =>
      simp only [digits, List.map_cons, digitValue_digitChar] at ih ⊢
      rw [List.takeWhile_cons_of_pos (by simp), List.filterMap_cons_some (f := id) (by rfl), ih]

def leading (s : Line) : Nat := (digits 10 s).foldl (fun m d => 10 * m + d) 0

theorem strtol_unsigned (d : Fin 10) (s : Line) :
    strtol (digitChar d :: s) =
      (clampLong (leading (digitChar d :: s)), decide (digits 10 (digitChar d :: s) ≠ [])) := by
  fin_cases d <;> rfl

theorem strtol_minus (s : Line) :
    strtol (0x2d :: s) = (clampLong (-(leading s : Int)), decide (digits 10 s ≠ [])) := rfl

theorem strtol_plus (s : Line) :
    strtol (0x2b :: s) = (clampLong (leading s), decide (digits 10 s ≠ [])) := rfl

theorem strtol_text (n : Numeral) : strtol n.text = (clampLong n.value, true) := by
  have hfound : digits 10 (n.digits.map digitChar) ≠ [] := by
    simpa [digits_text] using n.nonempty
  have hleading : leading (n.digits.map digitChar) = n.magnitude := by
    rw [leading, digits_text, List.foldl_map]
    rfl
  cases hsign : n.sign with
  | none =>
      obtain ⟨d, ds, hdigits⟩ := List.exists_cons_of_ne_nil n.nonempty
      rw [hdigits, List.map_cons] at hleading hfound
      simp [Numeral.text, Numeral.value, Sign.text, hsign, hdigits, strtol_unsigned, hleading,
        hfound]
  | minus => simp [Numeral.text, Numeral.value, Sign.text, hsign, strtol_minus, hleading, hfound]
  | plus => simp [Numeral.text, Numeral.value, Sign.text, hsign, strtol_plus, hleading, hfound]

/-- The number stored is the number found when it fits an `int`, and else another
one. -/
theorem toInt_clampLong_eq_iff (v : Int) :
    toInt (clampLong v) = v ↔ -0x80000000 ≤ v ∧ v ≤ 0x7fffffff := by
  unfold toInt clampLong
  omega

/-! ## Numbers and booleans of a line -/

/-- `AtTokNextInt` fails or stores the number. -/
def ReadsInt (s : Place) (v : Int) : Prop :=
  ∃ ret out s', atTokNextInt s = some (ret, out, s') ∧ (ret = -1 ∨ out = some v)

/-- `AtTokNextBool` succeeds only on 0 and 1, and stores it. -/
def ReadsBool (s : Place) (v : Int) : Prop :=
  ∃ ret out s', atTokNextBool true s = some (ret, out, s') ∧
    (ret = 0 → (v = 0 ∨ v = 1) ∧ out = some v)

theorem atTokNextInt_text {s s' : Place} {p : Nat} {n : Numeral}
    (htok : nextTok s = some (some p, s')) (htext : stringAt s'.bytes p = some n.text) :
    atTokNextInt s = some (0, some (toInt (clampLong n.value)), s') := by
  have hcur : s.cur ≠ none := by
    intro hnone
    simp [nextTok, skipWhiteSpace, Place.skip, hnone] at htok
  simp [atTokNextInt, hcur, atTokNextIntBase, htok, htext, convert, strtol_text]

/-- Where the next token is a numeral, the number read is the number sent exactly
when it fits an `int`. -/
theorem number_read_iff (s s' : Place) (p : Nat) (n : Numeral)
    (htok : nextTok s = some (some p, s')) (htext : stringAt s'.bytes p = some n.text) :
    ReadsInt s n.value ∧ ReadsBool s n.value ↔ -0x80000000 ≤ n.value ∧ n.value ≤ 0x7fffffff := by
  have hint := atTokNextInt_text htok htext
  rw [← toInt_clampLong_eq_iff]
  constructor
  · rintro ⟨⟨ret, out, s'', hread, hout⟩, -⟩
    rw [hint] at hread
    cases hread
    simpa using hout
  · intro heq
    rw [heq] at hint
    refine ⟨⟨0, some n.value, s', hint, .inr rfl⟩, ?_⟩
    by_cases hbool : n.value = 0 ∨ n.value = 1
    · have hread : atTokNextBool true s = some (0, some n.value, s') := by
        rcases hbool with hzero | hone
        · simp [atTokNextBool, hint, hzero]
        · simp [atTokNextBool, hint, hone]
      exact ⟨0, some n.value, s', hread, fun _ => ⟨hbool, rfl⟩⟩
    · rw [not_or] at hbool
      exact ⟨-1, none, s', by simp [atTokNextBool, hint, hbool.1, hbool.2], by simp⟩

/-- `+X: 1` is read as 1. -/
theorem number_read_one :
    ReadsInt ⟨[0x2b, 0x58, 0x3a, 0x20, 0x31, 0], some 3⟩ 1 ∧
      ReadsBool ⟨[0x2b, 0x58, 0x3a, 0x20, 0x31, 0], some 3⟩ 1 :=
  (number_read_iff ⟨[0x2b, 0x58, 0x3a, 0x20, 0x31, 0], some 3⟩
    ⟨[0x2b, 0x58, 0x3a, 0x20, 0x31, 0], none⟩ 4 ⟨.none, [1], by decide⟩ (by decide)
    (by decide)).2 (by decide)

/-- 4294967296 is read as 0, and as a boolean. -/
theorem large_number_read_as_zero :
    ¬ ∀ (s s' : Place) (p : Nat) (n : Numeral), nextTok s = some (some p, s') →
      stringAt s'.bytes p = some n.text → ReadsInt s n.value ∧ ReadsBool s n.value := by
  intro h
  have hread := h ⟨[0x34, 0x32, 0x39, 0x34, 0x39, 0x36, 0x37, 0x32, 0x39, 0x36, 0], some 0⟩
    ⟨[0x34, 0x32, 0x39, 0x34, 0x39, 0x36, 0x37, 0x32, 0x39, 0x36, 0], none⟩ 0
    ⟨.none, [4, 2, 9, 4, 9, 6, 7, 2, 9, 6], by decide⟩ (by decide) (by decide)
  obtain ⟨ret, out, s', hbool, hvalue⟩ := hread.2
  cases hbool
  exact absurd (hvalue rfl).1 (by decide)

end Mobile.Token.Proofs.Numerals
