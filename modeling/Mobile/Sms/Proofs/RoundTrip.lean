import Mathlib.Algebra.Group.Even
import Mathlib.Data.List.Forall2
import Mathlib.Data.List.Induction
import Mobile.Sms.Proofs.Characters
import Mobile.Sms.Proofs.Positions

/-!
# Text to Unicode and back

`StrGB2Unicode` followed by `StrUnicode2GB` on text of printable ASCII and of the
GB codes of the table.  The two searches agree on every row that both of them
look at; the text that does not come back is `@`, the range from `[` to the
grave accent, and a code that only the last row has.
-/

namespace Mobile.Sms.Proofs.RoundTrip

open Mobile.ProofSupport.Image Mobile.ProofSupport.Image.Writes
open Mobile.Sms.Helpers
open Mobile.Sms.Unicode Mobile.Sms.Proofs.Characters Mobile.Sms.Proofs.Positions

/-- What the rows of `kUnicodeGB2312Table` have: they are sorted by Unicode, both
columns say the same equalities, no row is for an ASCII character, and the bytes
of a GB code are a lead byte and one that is not NUL. -/
structure Gb2312 (table : Table) : Prop where
  sorted : table.toList.Pairwise fun r r' => r.1 ≤ r'.1
  oneToOne : ∀ r ∈ table.toList, ∀ r' ∈ table.toList, r.1 = r'.1 ↔ r.2 = r'.2
  aboveAscii : ∀ r ∈ table.toList, 0x7e < r.1
  leadByte : ∀ r ∈ table.toList, 0x8100 ≤ r.2
  secondByte : ∀ r ∈ table.toList, r.2.toUInt8 ≠ 0

def bytesOf (code : UInt16) : List UInt8 := [(code >>> 8).toUInt8, code.toUInt8]

inductive Letter (table : Table)
  | ascii (c : UInt8) (range : 0x20 ≤ c ∧ c ≤ 0x7e)
  | gb (code : UInt16) (mem : ∃ row ∈ table.toList, row.2 = code)

namespace Letter

variable {table : Table}

def bytes : Letter table → List UInt8
  | ascii c _ => [c]
  | gb code _ => bytesOf code

/-- The character comes back as itself. -/
def Kept : Letter table → Prop
  | ascii c _ => c ≠ 0x40 ∧ ¬ (0x5b ≤ c ∧ c ≤ 0x60)
  | gb code _ => ∃ row ∈ table.toList.dropLast, row.2 = code

end Letter

def textBytes {table : Table} (text : List (Letter table)) : List UInt8 :=
  text.flatMap Letter.bytes

/-- The text at `str` is converted to the object at `dst`, with a count that the
`int` of `StrGB2Unicode` can hold, and from there back to the object at `back`. -/
def RoundTrips (table : Table) (str dst back : Bytes) (limit : Nat) (s : List UInt8) : Prop :=
  ∃ out, strGB2Unicode table str limit = some out ∧ out.ret ≤ 0x7fffffff ∧
    Even out.ret ∧ (s ≠ [] → 0 < out.ret) ∧
    ∃ out', strUnicode2GB table (dst.apply out.writes) (UInt32.ofNat out.ret) = some out' ∧
      (back.apply out'.writes).Holds s

/-! ## Codes and their bytes -/

theorem toNat_code (c d : UInt8) :
    (c.toUInt16 <<< 8 ||| d.toUInt16).toNat = c.toNat * 256 + d.toNat := by
  have hc : c.toNat < 256 := c.toNat_lt
  have hd : d.toNat < 256 := d.toNat_lt
  have hshift : (c.toUInt16 <<< 8).toNat = c.toNat <<< 8 := by
    simp [UInt16.toNat_shiftLeft, Nat.shiftLeft_eq]
    omega
  rw [UInt16.toNat_or, hshift, UInt8.toNat_toUInt16, ← Nat.shiftLeft_add_eq_or_of_lt (by simpa using hd),
    Nat.shiftLeft_eq]

theorem toNat_high (code : UInt16) : (code >>> 8).toUInt8.toNat = code.toNat / 256 := by
  have h : code.toNat < 65536 := code.toNat_lt
  simp [UInt16.toNat_shiftRight, Nat.shiftRight_eq_div_pow]
  omega

theorem code_of_bytes (code : UInt16) :
    (code >>> 8).toUInt8.toUInt16 <<< 8 ||| code.toUInt8.toUInt16 = code := by
  rw [← UInt16.toNat_inj, toNat_code, toNat_high, UInt16.toNat_toUInt8]
  omega

theorem bytesOf_ascii (c : UInt8) : bytesOf c.toUInt16 = [0, c] := by
  have hhigh : (c.toUInt16 >>> 8).toUInt8 = 0 := by
    rw [← UInt8.toNat_inj, toNat_high]
    have hc : c.toNat < 256 := c.toNat_lt
    simp
    omega
  simp [bytesOf, hhigh]

/-! ## The two searches -/

variable {table : Table}

theorem getD_mem {i : Nat} (hi : i < table.size) : table.getD i (0, 0) ∈ table.toList := by
  simp [Array.getD, hi]

theorem Gb2312.le (h : Gb2312 table) {i j : Nat} (hij : i ≤ j) (hj : j < table.size) :
    (table.getD i (0, 0)).1 ≤ (table.getD j (0, 0)).1 := by
  have hi : i < table.size := by omega
  simp only [Array.getD, hi, hj, dif_pos]
  rcases Nat.lt_or_eq_of_le hij with hlt | rfl
  · exact List.pairwise_iff_getElem.1 h.sorted i j (by simpa using hi) (by simpa using hj) hlt
  · exact UInt16.le_refl _

/-- The binary search finds a row for a code that has one between its bounds. -/
theorem searchLoop_found (h : Gb2312 table) {unicode : UInt16} {k : Nat}
    (hrow : (table.getD k (0, 0)).1 = unicode) {rounds : Nat} {low high : Int}
    (hlow : 0 ≤ low) (hlk : low ≤ k) (hkh : (k : Int) ≤ high) (hhigh : high < table.size)
    (hrounds : high - low < rounds) :
    ∃ m < table.size, (table.getD m (0, 0)).1 = unicode ∧
      searchLoop table unicode rounds low high = (table.getD m (0, 0)).2 := by
  induction rounds generalizing low high with
  | zero => omega
  | succ rounds ih =>
      rw [searchLoop, if_pos (by omega)]
      simp only
      have hmid : ((low + high) / 2).toNat < table.size := by omega
      by_cases heq : (table.getD ((low + high) / 2).toNat (0, 0)).1 = unicode
      · exact ⟨_, hmid, heq, if_pos heq⟩
      · rw [if_neg heq]
        by_cases hgt : unicode > (table.getD ((low + high) / 2).toNat (0, 0)).1
        · -- the rows up to the middle are too small
          have hright : (low + high) / 2 + 1 ≤ k := by
            by_contra hnot
            have hle := h.le (show k ≤ ((low + high) / 2).toNat by omega) hmid
            rw [hrow] at hle
            exact absurd hgt (UInt16.not_lt.2 hle)
          rw [if_pos hgt]
          exact ih (by omega) hright hkh hhigh (by omega)
        · have hleft : (k : Int) ≤ (low + high) / 2 - 1 := by
            by_contra hnot
            have hle := h.le (show ((low + high) / 2).toNat ≤ k by omega) (by omega)
            rw [hrow] at hle
            exact heq (UInt16.le_antisymm hle (UInt16.not_lt.1 hgt))
          rw [if_neg hgt]
          exact ih hlow hlk hleft (by omega) (by omega)

theorem searchLoop_absent {unicode : UInt16}
    (habsent : ∀ m < table.size, (table.getD m (0, 0)).1 ≠ unicode) (rounds : Nat)
    {low high : Int} (hlow : 0 ≤ low) (hhigh : high < table.size) :
    searchLoop table unicode rounds low high = 0 := by
  induction rounds generalizing low high with
  | zero => rfl
  | succ rounds ih =>
      rw [searchLoop]
      by_cases hle : low ≤ high
      · have hmid : ((low + high) / 2).toNat < table.size := by omega
        rw [if_pos hle]
        simp only [if_neg (habsent _ hmid), ih (show 0 ≤ (low + high) / 2 + 1 by omega) hhigh,
          ih hlow (show (low + high) / 2 - 1 < table.size by omega), ite_self]
      · rw [if_neg hle]

theorem unicode2GBcode_of_gt {unicode : UInt16} (h : 0x7e < unicode) :
    unicode2GBcode table unicode =
      searchLoop table unicode (table.size + 1) 0 (table.size - 1) := by
  have hnat : 0x7e < unicode.toNat := by simpa [UInt16.lt_iff_toNat_lt] using h
  have hne : ∀ c : UInt16, c.toNat ≤ 0x7e → unicode ≠ c := by
    rintro c hc rfl
    omega
  rw [unicode2GBcode, if_neg (hne _ (by decide)), if_neg (hne _ (by decide)),
    if_neg (hne _ (by decide)), if_neg (hne _ (by decide)), if_neg]
  simp [UInt16.le_iff_toNat_le]
  omega

theorem unicode2GBcode_row (h : Gb2312 table) {row : UInt16 × UInt16} (hrow : row ∈ table.toList) :
    unicode2GBcode table row.1 = row.2 := by
  rw [unicode2GBcode_of_gt (h.aboveAscii row hrow)]
  obtain ⟨k, hk, hget⟩ := List.mem_iff_getElem.1 hrow
  have hk' : k < table.size := by simpa using hk
  have hgetD : table.getD k (0, 0) = row := by simpa [Array.getD, hk'] using hget
  have hunicode : (table.getD k (0, 0)).1 = row.1 := by rw [hgetD]
  obtain ⟨m, hm, heq, hfound⟩ := searchLoop_found h hunicode (Int.le_refl 0)
    (show (0 : Int) ≤ k by omega) (show (k : Int) ≤ table.size - 1 by omega)
    (show (table.size : Int) - 1 < table.size by omega)
    (show (table.size : Int) - 1 - 0 < (table.size + 1 : Nat) by omega)
  rw [hfound]
  exact (h.oneToOne _ (getD_mem hm) _ hrow).1 heq

/-! ## To Unicode -/

/-- The Unicode of a letter, `none` when the scan of the GB column does not find it. -/
def Letter.unit : Letter table → Option UInt16
  | ascii c _ => some c.toUInt16
  | gb code _ => (table.toList.dropLast.find? fun row => row.2 == code).map (·.1)

theorem loop_narrow {c : UInt8} (hc : c < 0x81) (rest : List UInt8) (j : Nat) (ws : Writes) :
    strGB2UnicodeLoop table (c :: rest) j ws =
      strGB2UnicodeLoop table rest (j + 2) (ws ++ narrow j c) := by
  cases rest <;> simp [strGB2UnicodeLoop, hc]

theorem ascii_lt {c : UInt8} (hc : 0x20 ≤ c ∧ c ≤ 0x7e) : c < 0x81 :=
  UInt8.lt_of_le_of_lt hc.2 (by decide)

theorem Gb2312.lead_not_lt (h : Gb2312 table) {code : UInt16}
    (hcode : ∃ row ∈ table.toList, row.2 = code) : ¬ (code >>> 8).toUInt8 < 0x81 := by
  obtain ⟨row, hrow, rfl⟩ := hcode
  have hlead := h.leadByte row hrow
  rw [UInt16.le_iff_toNat_le] at hlead
  rw [UInt8.lt_iff_toNat_lt, toNat_high]
  have : (0x8100 : UInt16).toNat = 0x8100 := rfl
  have : (0x81 : UInt8).toNat = 0x81 := rfl
  omega

theorem loop_wide (h : Gb2312 table) {code : UInt16}
    (hcode : ∃ row ∈ table.toList, row.2 = code) (rest : List UInt8) (j : Nat) (ws : Writes) :
    strGB2UnicodeLoop table (bytesOf code ++ rest) j ws =
      match (Letter.gb code hcode).unit with
      | none => ⟨ws, 0⟩
      | some unicode => strGB2UnicodeLoop table rest (j + 2) (ws ++ wide j unicode) := by
  have hfind : findGB table (code >>> 8).toUInt8 code.toUInt8 = (Letter.gb code hcode).unit := by
    simp only [findGB, Letter.unit, code_of_bytes]
  change strGB2UnicodeLoop table ((code >>> 8).toUInt8 :: code.toUInt8 :: rest) j ws = _
  cases hunit : (Letter.gb code hcode).unit with
  | none => simp only [strGB2UnicodeLoop, if_neg (h.lead_not_lt hcode), hfind, hunit]
  | some unicode => simp only [strGB2UnicodeLoop, if_neg (h.lead_not_lt hcode), hfind, hunit]

/-- One letter of the text: its unit is written, or the conversion gives up. -/
theorem loop_letter (h : Gb2312 table) (letter : Letter table) (rest : List UInt8) (j : Nat)
    (ws : Writes) :
    strGB2UnicodeLoop table (letter.bytes ++ rest) j ws =
      match letter.unit with
      | none => ⟨ws, 0⟩
      | some unicode =>
          strGB2UnicodeLoop table rest (j + 2) (ws ++ run (j : Int) (bytesOf unicode)) := by
  cases letter with
  | ascii c range =>
      have hbytes : run (j : Int) (bytesOf c.toUInt16) = narrow j c := by
        rw [bytesOf_ascii]
        rfl
      simp only [Letter.unit, hbytes]
      exact loop_narrow (ascii_lt range) rest j ws
  | gb code mem => exact loop_wide h mem rest j ws

theorem loop_converted (h : Gb2312 table) {text : List (Letter table)} {units : List UInt16}
    (hunits : List.Forall₂ (fun letter unicode => letter.unit = some unicode) text units)
    (j : Nat) (ws : Writes) :
    strGB2UnicodeLoop table (textBytes text) j ws =
      ⟨ws ++ run (j : Int) (units.flatMap bytesOf ++ [0]), j + 2 * units.length⟩ := by
  induction hunits generalizing j ws with
  | nil => simp [textBytes, strGB2UnicodeLoop, run]
  | @cons letter unicode text units hunit hrest ih =>
      have hsplit : textBytes (letter :: text) = letter.bytes ++ textBytes text := rfl
      rw [hsplit, loop_letter h, hunit]
      simp only [ih, List.flatMap_cons, List.append_assoc, run_append, List.length_cons]
      congr 1
      omega

theorem loop_missing (h : Gb2312 table) {text : List (Letter table)}
    (hmissing : ∃ letter ∈ text, letter.unit = none) (j : Nat) (ws : Writes) :
    (strGB2UnicodeLoop table (textBytes text) j ws).ret = 0 := by
  induction text generalizing j ws with
  | nil => simp at hmissing
  | cons letter text ih =>
      have hsplit : textBytes (letter :: text) = letter.bytes ++ textBytes text := rfl
      rw [hsplit, loop_letter h]
      cases hunit : letter.unit with
      | none => rfl
      | some unicode =>
          have hrest : ∃ letter ∈ text, letter.unit = none := by
            obtain ⟨missing, hmem, hnone⟩ := hmissing
            rcases List.mem_cons.1 hmem with rfl | hmem
            · rw [hunit] at hnone
              cases hnone
            · exact ⟨missing, hmem, hnone⟩
          exact ih hrest (j + 2) _

/-! ## Back to GB -/

def backBytes (table : Table) (unicode : UInt16) : List UInt8 :=
  let tmphz := unicode2GBcode table unicode
  if tmphz = 0 || (tmphz > 0x7f && tmphz < 0xff) then [0x2e, 0x2e]
  else if tmphz ≤ 0x7f then [tmphz.toUInt8]
  else bytesOf tmphz

theorem strUnicode2GBLoop_units {src : Bytes} {units : List UInt16} {rounds : Nat} {n : UInt32}
    {i : Nat} {pos : Int} {ws : Writes}
    (hsrc : ∀ k (hk : k < (units.flatMap bytesOf).length),
      src (2 * i + k) = (units.flatMap bytesOf)[k])
    (hn : n.toNat = 2 * units.length) (hrounds : units.length ≤ rounds) :
    strUnicode2GBLoop table src rounds n i pos ws =
      some ⟨ws ++ run pos (units.flatMap (backBytes table) ++ [0]), i + units.length⟩ := by
  induction units generalizing rounds n i pos ws with
  | nil =>
      have hzero : n = 0 := UInt32.toNat_inj.1 hn
      unfold strUnicode2GBLoop
      simp [hzero, run]
  | cons unicode units ih =>
      obtain ⟨rounds, rfl⟩ : ∃ r, rounds = r + 1 := ⟨rounds - 1, by simp at hrounds; omega⟩
      simp only [List.length_cons] at hn hrounds
      obtain ⟨hne, hn'⟩ := pair_taken hn
      have hcode : (src (2 * i)).toUInt16 <<< 8 ||| (src (2 * i + 1)).toUInt16 = unicode := by
        have h0 := hsrc 0 (by simp [bytesOf])
        have h1 := hsrc 1 (by simp [bytesOf])
        simp only [List.flatMap_cons, bytesOf, List.cons_append, List.getElem_cons_zero,
          List.getElem_cons_succ, Int.natCast_zero, Int.natCast_one, Int.add_zero] at h0 h1
        rw [h0, h1, code_of_bytes]
      have hrest : ∀ k (hk : k < (units.flatMap bytesOf).length),
          src (2 * (i + 1 : Nat) + k) = (units.flatMap bytesOf)[k] := by
        intro k hk
        have hlen : k + 2 < ((unicode :: units).flatMap bytesOf).length := by
          simp only [List.flatMap_cons, List.length_append]
          exact Nat.lt_of_lt_of_eq (Nat.add_lt_add_right hk 2) (Nat.add_comm _ _)
        have hpos : (2 * (i + 1 : Nat) + k : Int) = 2 * i + (k + 2 : Nat) := by omega
        rw [hpos, hsrc (k + 2) hlen]
        rfl
      have hbody : strUnicode2GBLoop table src (rounds + 1) n i pos ws =
          strUnicode2GBLoop table src rounds (n - 2) (i + 1)
            (pos + (backBytes table unicode).length) (ws ++ run pos (backBytes table unicode)) := by
        rw [strUnicode2GBLoop, if_neg hne]
        simp only [hcode, backBytes]
        split_ifs <;> rfl
      rw [hbody, ih hrest hn' (by omega)]
      simp only [List.flatMap_cons, List.append_assoc, run_append, List.length_cons]
      congr 2
      omega

theorem bytesOf_code (c d : UInt8) : bytesOf (c.toUInt16 <<< 8 ||| d.toUInt16) = [c, d] := by
  have hc : c.toNat < 256 := c.toNat_lt
  have hd : d.toNat < 256 := d.toNat_lt
  have hhigh : ((c.toUInt16 <<< 8 ||| d.toUInt16) >>> 8).toUInt8 = c := by
    rw [← UInt8.toNat_inj, toNat_high, toNat_code]
    omega
  have hlow : (c.toUInt16 <<< 8 ||| d.toUInt16).toUInt8 = d := by
    rw [← UInt8.toNat_inj, UInt16.toNat_toUInt8, toNat_code]
    omega
  rw [bytesOf, hhigh, hlow]

theorem length_flatMap_bytesOf (units : List UInt16) :
    (units.flatMap bytesOf).length = 2 * units.length := by
  simp [bytesOf, Nat.mul_comm]

theorem units_of_even {a : List UInt8} (ha : Even a.length) :
    ∃ units : List UInt16, units.flatMap bytesOf = a ∧ 2 * units.length = a.length := by
  induction a using List.twoStepInduction with
  | nil => exact ⟨[], rfl, rfl⟩
  | singleton c =>
      obtain ⟨k, hk⟩ := ha
      simp only [List.length_singleton] at hk
      omega
  | cons_cons c d a ih _ =>
      obtain ⟨k, hk⟩ := ha
      simp only [List.length_cons] at hk
      obtain ⟨units, hbytes, hlen⟩ := ih ⟨k - 1, by omega⟩
      refine ⟨(c.toUInt16 <<< 8 ||| d.toUInt16) :: units, ?_, ?_⟩
      · rw [List.flatMap_cons, bytesOf_code, hbytes]
        rfl
      · simp only [List.length_cons]
        omega

theorem backBytes_length (table : Table) (unicode : UInt16) :
    (backBytes table unicode).length ≤ 2 := by
  unfold backBytes
  dsimp only
  split_ifs <;> simp [bytesOf]

theorem back_length (units : List UInt16) :
    (units.flatMap (backBytes table)).length ≤ 2 * units.length := by
  induction units with
  | nil => exact Nat.le_refl 0
  | cons unicode units ih =>
      have hone := backBytes_length table unicode
      rw [List.flatMap_cons, List.length_append, List.length_cons]
      omega

/-! ## One letter there and back -/

theorem toUInt16_ne {c : UInt8} {d : UInt16} (h : c.toNat ≠ d.toNat) : c.toUInt16 ≠ d := by
  rintro rfl
  simp at h

theorem unicode2GBcode_ascii {c : UInt8} (range : 0x20 ≤ c ∧ c ≤ 0x7e) (hat : c ≠ 0x40)
    (hgap : ¬ (0x5b ≤ c ∧ c ≤ 0x60)) : unicode2GBcode table c.toUInt16 = c.toUInt16 := by
  simp only [UInt8.le_iff_toNat_le, ← UInt8.toNat_inj, ne_eq, UInt8.reduceToNat] at range hat hgap
  rw [unicode2GBcode, if_neg (toUInt16_ne (by simp; omega)), if_neg (toUInt16_ne (by simp; omega)),
    if_neg (toUInt16_ne (by simp; omega)), if_neg (toUInt16_ne (by simp; omega)), if_pos]
  simp only [UInt16.le_iff_toNat_le, UInt8.toNat_toUInt16, UInt16.reduceToNat, ge_iff_le,
    Bool.or_eq_true, Bool.and_eq_true, decide_eq_true_eq]
  omega

/-- Between `Z` and `a` no case and no row is left. -/
theorem unicode2GBcode_gap (h : Gb2312 table) {c : UInt8} (hgap : 0x5b ≤ c ∧ c ≤ 0x60) :
    unicode2GBcode table c.toUInt16 = 0 := by
  simp only [UInt8.le_iff_toNat_le, UInt8.reduceToNat] at hgap
  have habsent : ∀ m < table.size, (table.getD m (0, 0)).1 ≠ c.toUInt16 := by
    intro m hm heq
    have habove := h.aboveAscii _ (getD_mem hm)
    rw [heq] at habove
    simp only [UInt16.lt_iff_toNat_lt, UInt8.toNat_toUInt16, UInt16.reduceToNat] at habove
    omega
  rw [unicode2GBcode, if_neg (toUInt16_ne (by simp; omega)), if_neg (toUInt16_ne (by simp; omega)),
    if_neg (toUInt16_ne (by simp; omega)), if_neg (toUInt16_ne (by simp; omega)), if_neg]
  · exact searchLoop_absent habsent _ (Int.le_refl 0) (by omega)
  · simp only [UInt16.le_iff_toNat_le, UInt8.toNat_toUInt16, UInt16.reduceToNat, ge_iff_le,
      Bool.or_eq_true, Bool.and_eq_true, decide_eq_true_eq]
    omega

theorem Letter.gb_unit_some {code : UInt16} {mem : ∃ row ∈ table.toList, row.2 = code}
    {unicode : UInt16} (hunit : (Letter.gb code mem).unit = some unicode) :
    ∃ row ∈ table.toList.dropLast, row.2 = code ∧ row.1 = unicode := by
  simp only [Letter.unit, Option.map_eq_some_iff] at hunit
  obtain ⟨row, hfind, hrow⟩ := hunit
  exact ⟨row, List.mem_of_find?_eq_some hfind, by simpa using List.find?_some hfind, hrow⟩

theorem Letter.unit_of_kept {letter : Letter table} (hkept : letter.Kept) :
    ∃ unicode, letter.unit = some unicode := by
  cases letter with
  | ascii c range => exact ⟨c.toUInt16, rfl⟩
  | gb code mem =>
      obtain ⟨row, hrow, hcode⟩ := hkept
      have hfound : (table.toList.dropLast.find? fun row => row.2 == code).isSome := by
        rw [List.find?_isSome]
        exact ⟨row, hrow, by simpa using hcode⟩
      obtain ⟨found, hfound⟩ := Option.isSome_iff_exists.1 hfound
      exact ⟨found.1, by simp [Letter.unit, hfound]⟩

theorem backBytes_kept (h : Gb2312 table) {letter : Letter table} {unicode : UInt16}
    (hunit : letter.unit = some unicode) (hkept : letter.Kept) :
    backBytes table unicode = letter.bytes := by
  cases letter with
  | ascii c range =>
      cases hunit
      have hcode : unicode2GBcode table c.toUInt16 = c.toUInt16 :=
        unicode2GBcode_ascii range hkept.1 hkept.2
      simp only [UInt8.le_iff_toNat_le, UInt8.reduceToNat] at range
      simp only [backBytes, hcode]
      rw [if_neg, if_pos]
      · simp [Letter.bytes]
      · simp only [UInt16.le_iff_toNat_le, UInt8.toNat_toUInt16, UInt16.reduceToNat]
        omega
      · simp only [← UInt16.toNat_inj, UInt16.lt_iff_toNat_lt, UInt8.toNat_toUInt16,
          UInt16.reduceToNat, gt_iff_lt, Bool.or_eq_true, Bool.and_eq_true, decide_eq_true_eq]
        omega
  | gb code mem =>
      obtain ⟨row, hrow, rfl, rfl⟩ := Letter.gb_unit_some hunit
      have hmem : row ∈ table.toList := (List.dropLast_sublist _).subset hrow
      have hlead := h.leadByte row hmem
      simp only [UInt16.le_iff_toNat_le, UInt16.reduceToNat] at hlead
      simp only [backBytes, unicode2GBcode_row h hmem]
      rw [if_neg, if_neg]
      · rfl
      · simp only [UInt16.le_iff_toNat_le, UInt16.reduceToNat]
        omega
      · simp only [← UInt16.toNat_inj, UInt16.lt_iff_toNat_lt,
          UInt16.reduceToNat, gt_iff_lt, Bool.or_eq_true, Bool.and_eq_true, decide_eq_true_eq]
        omega

theorem backBytes_lost (h : Gb2312 table) {letter : Letter table} {unicode : UInt16}
    (hunit : letter.unit = some unicode) (hlost : ¬ letter.Kept) :
    letter.bytes.length = 1 ∧ backBytes table unicode = [0x2e, 0x2e] := by
  cases letter with
  | ascii c range =>
      cases hunit
      refine ⟨rfl, ?_⟩
      by_cases hat : c = 0x40
      · subst hat
        rfl
      · have hgap : 0x5b ≤ c ∧ c ≤ 0x60 := by
          by_contra hnot
          exact hlost ⟨hat, hnot⟩
        simp [backBytes, unicode2GBcode_gap h hgap]
  | gb code mem =>
      obtain ⟨row, hrow, hcode, -⟩ := Letter.gb_unit_some hunit
      exact absurd ⟨row, hrow, hcode⟩ hlost

theorem Letter.zero_not_mem_bytes (h : Gb2312 table) (letter : Letter table) :
    (0 : UInt8) ∉ letter.bytes := by
  cases letter with
  | ascii c range =>
      simp only [Letter.bytes, List.mem_singleton]
      rintro rfl
      exact absurd range.1 (by decide)
  | gb code mem =>
      have hlead := h.lead_not_lt mem
      obtain ⟨row, hrow, rfl⟩ := mem
      simp only [Letter.bytes, bytesOf, List.mem_cons, List.not_mem_nil, or_false, not_or]
      refine ⟨fun hzero => hlead ?_, (h.secondByte row hrow).symm⟩
      rw [← hzero]
      decide

/-! ## Whole texts -/

section Text

variable {text : List (Letter table)} {units : List UInt16}

theorem exists_units (hunit : ∀ letter ∈ text, letter.unit ≠ none) :
    ∃ units, List.Forall₂ (fun letter unicode => letter.unit = some unicode) text units := by
  induction text with
  | nil => exact ⟨[], .nil⟩
  | cons letter text ih =>
      obtain ⟨unicode, hfirst⟩ := Option.ne_none_iff_exists'.1 (hunit letter (by simp))
      obtain ⟨units, hrest⟩ := ih fun letter hmem => hunit letter (by simp [hmem])
      exact ⟨unicode :: units, .cons hfirst hrest⟩

theorem zero_not_mem_back (h : Gb2312 table)
    (hunits : List.Forall₂ (fun letter unicode => letter.unit = some unicode) text units) :
    (0 : UInt8) ∉ units.flatMap (backBytes table) := by
  induction hunits with
  | nil => simp
  | @cons letter unicode text units hunit hrest ih =>
      rw [List.flatMap_cons, List.mem_append, not_or]
      refine ⟨?_, ih⟩
      by_cases hkept : letter.Kept
      · rw [backBytes_kept h hunit hkept]
        exact letter.zero_not_mem_bytes h
      · rw [(backBytes_lost h hunit hkept).2]
        decide

theorem back_of_kept (h : Gb2312 table)
    (hunits : List.Forall₂ (fun letter unicode => letter.unit = some unicode) text units)
    (hkept : ∀ letter ∈ text, letter.Kept) :
    units.flatMap (backBytes table) = textBytes text := by
  induction hunits with
  | nil => rfl
  | @cons letter unicode text units hunit hrest ih =>
      have hsplit : textBytes (letter :: text) = letter.bytes ++ textBytes text := rfl
      rw [List.flatMap_cons, hsplit, backBytes_kept h hunit (hkept letter (by simp)),
        ih fun letter hmem => hkept letter (by simp [hmem])]

/-- What comes back is never shorter, and longer by every letter that is lost. -/
theorem length_textBytes_le_back (h : Gb2312 table)
    (hunits : List.Forall₂ (fun letter unicode => letter.unit = some unicode) text units) :
    (textBytes text).length ≤ (units.flatMap (backBytes table)).length ∧
      ((∃ letter ∈ text, ¬ letter.Kept) →
        (textBytes text).length < (units.flatMap (backBytes table)).length) := by
  induction hunits with
  | nil => simp [textBytes]
  | @cons letter unicode text units hunit hrest ih =>
      have hsplit : textBytes (letter :: text) = letter.bytes ++ textBytes text := rfl
      rw [List.flatMap_cons, hsplit, List.length_append, List.length_append]
      by_cases hkept : letter.Kept
      · rw [backBytes_kept h hunit hkept]
        refine ⟨by omega, ?_⟩
        rintro ⟨lost, hmem, hlost⟩
        rcases List.mem_cons.1 hmem with rfl | hmem
        · exact absurd hkept hlost
        · have := ih.2 ⟨lost, hmem, hlost⟩
          omega
      · obtain ⟨hone, htwo⟩ := backBytes_lost h hunit hkept
        have hlen : (backBytes table unicode).length = 2 := by rw [htwo]; rfl
        exact ⟨by omega, fun _ => by omega⟩

theorem back_eq_iff (h : Gb2312 table)
    (hunits : List.Forall₂ (fun letter unicode => letter.unit = some unicode) text units) :
    units.flatMap (backBytes table) = textBytes text ↔ ∀ letter ∈ text, letter.Kept := by
  constructor
  · intro heq letter hmem
    by_contra hlost
    have hlt := (length_textBytes_le_back h hunits).2 ⟨letter, hmem, hlost⟩
    rw [heq] at hlt
    exact Nat.lt_irrefl _ hlt
  · exact back_of_kept h hunits

theorem strUnicode2GB_read {src : Bytes} (hsrc : src.Begins (units.flatMap bytesOf))
    (hlen : 2 * units.length < 0x100000000) :
    strUnicode2GB table src (UInt32.ofNat (2 * units.length)) =
      some ⟨run 0 (units.flatMap (backBytes table) ++ [0]), units.length⟩ := by
  have hn : (UInt32.ofNat (2 * units.length)).toNat = 2 * units.length := by
    simp
    omega
  rw [strUnicode2GB, strUnicode2GBLoop_units (fun k hk => by simpa using hsrc k hk) hn (by omega)]
  simp

theorem strUnicode2GB_units (dst : Bytes) (hlen : 2 * units.length ≤ 0x7fffffff) :
    strUnicode2GB table (dst.apply (run 0 (units.flatMap bytesOf ++ [0])))
        (UInt32.ofNat (2 * units.length)) =
      some ⟨run 0 (units.flatMap (backBytes table) ++ [0]), units.length⟩ := by
  refine strUnicode2GB_read (fun k hk => ?_) (by omega)
  have hget := apply_run dst 0 (units.flatMap bytesOf ++ [0])
    (show k < (units.flatMap bytesOf ++ [0]).length by simp at hk ⊢; omega)
  rw [List.getElem_append_left hk] at hget
  simpa using hget

theorem textBytes_ne_nil {letter : Letter table} (hmem : letter ∈ text) : textBytes text ≠ [] := by
  intro hnil
  have hbytes : letter.bytes = [] := List.flatMap_eq_nil_iff.1 hnil letter hmem
  cases letter <;> cases hbytes

/-- What comes back is not longer than the octets that the conversion counts. -/
theorem length_le_of_roundTrips {str dst back : Bytes} {limit : Nat} {s : List UInt8}
    (h : RoundTrips table str dst back limit s) : s.length ≤ 0x7fffffff := by
  obtain ⟨out, -, hret, heven, -, out', hout', hback⟩ := h
  have hbegins : (dst.apply out.writes).Begins
      ((List.range out.ret).map fun i : Nat => dst.apply out.writes i) := by
    intro i hi
    simp
  obtain ⟨units, hunits, hlen⟩ := units_of_even (a := (List.range out.ret).map
    fun i : Nat => dst.apply out.writes i) (by simpa using heven)
  rw [List.length_map, List.length_range] at hlen
  rw [← hunits] at hbegins
  rw [← hlen, strUnicode2GB_read hbegins (by omega)] at hout'
  cases hout'
  have hterm : back.apply (run 0 (units.flatMap (backBytes table) ++ [0]))
      (units.flatMap (backBytes table)).length = 0 := by
    have hget := apply_run back 0 (units.flatMap (backBytes table) ++ [0])
      (show (units.flatMap (backBytes table)).length < _ by simp)
    simpa using hget
  have hshort : s.length ≤ (units.flatMap (backBytes table)).length := by
    by_contra hlong
    exact hback.ne_zero (Nat.lt_of_not_le hlong) hterm
  have hback_length : (units.flatMap (backBytes table)).length ≤ 2 * units.length :=
    back_length units
  omega

theorem length_textBytes_le (text : List (Letter table)) :
    (textBytes text).length ≤ 2 * text.length := by
  induction text with
  | nil => exact Nat.le_refl 0
  | cons letter text ih =>
      have hsplit : textBytes (letter :: text) = letter.bytes ++ textBytes text := rfl
      have hletter : letter.bytes.length ≤ 2 := by cases letter <;> simp [Letter.bytes, bytesOf]
      rw [hsplit, List.length_append, List.length_cons]
      omega

/-- A text comes back unchanged exactly when each of its letters is kept and the
count of its bytes of Unicode fits an `int`. -/
theorem roundTrips_iff_kept (h : Gb2312 table) (text : List (Letter table)) (str dst back : Bytes)
    (limit : Nat) (hstr : str.Holds (textBytes text)) (hlimit : (textBytes text).length < limit) :
    RoundTrips table str dst back limit (textBytes text) ↔
      (∀ letter ∈ text, letter.Kept) ∧ 2 * text.length ≤ 0x7fffffff := by
  by_cases hint : (textBytes text).length ≤ 0x7fffffff
  swap
  · have hlen := length_textBytes_le text
    exact iff_of_false (fun htrip => hint (length_le_of_roundTrips htrip)) (by omega)
  by_cases hmissing : ∃ letter ∈ text, letter.unit = none
  · -- the conversion gives up and returns 0 for a text that is not empty
    have hret := loop_missing h hmissing 0 []
    obtain ⟨letter, hmem, hnone⟩ := hmissing
    constructor
    · rintro ⟨out, hout, -, -, hpos, -⟩
      obtain rfl := strGB2Unicode_some hstr hint hout
      have := hpos (textBytes_ne_nil hmem)
      omega
    · rintro ⟨hkept, -⟩
      obtain ⟨unicode, hunit⟩ := Letter.unit_of_kept (hkept letter hmem)
      rw [hnone] at hunit
      cases hunit
  · have hall : ∀ letter ∈ text, letter.unit ≠ none := fun letter hmem hnone =>
      hmissing ⟨letter, hmem, hnone⟩
    obtain ⟨units, hunits⟩ := exists_units hall
    have hlen : text.length = units.length := hunits.length_eq
    have hholds (back : Bytes) := holds_apply_run back (zero_not_mem_back h hunits)
    have hloop := loop_converted h hunits 0 []
    rw [← back_eq_iff h hunits, hlen]
    simp only [List.nil_append, Nat.zero_add, Int.natCast_zero] at hloop
    constructor
    · rintro ⟨out, hout, hle, -, -, out', hout', hback⟩
      obtain rfl := strGB2Unicode_some hstr hint hout
      simp only [hloop] at hle hout'
      rw [strUnicode2GB_units dst hle] at hout'
      cases hout'
      exact ⟨(hholds back).unique hback, hle⟩
    · rintro ⟨heq, hle⟩
      have hconverted : strGB2Unicode table str limit =
          some ⟨run 0 (units.flatMap bytesOf ++ [0]), 2 * units.length⟩ := by
        have hwrites : (units.flatMap bytesOf ++ [0]).length = 2 * units.length + 1 := by
          rw [List.length_append, length_flatMap_bytesOf, List.length_singleton]
        have hfits := known_le_writes table (textBytes text)
        rw [hloop, length_run, hwrites] at hfits
        rw [strGB2Unicode_eq hstr hlimit hint, if_pos (by omega), hloop]
      refine ⟨_, hconverted, hle, ⟨units.length, Nat.two_mul _⟩, fun hne => ?_, _,
        strUnicode2GB_units dst hle, ?_⟩
      · rw [← heq] at hne
        cases units with
        | nil => exact absurd rfl hne
        | cons => simp
      · rw [← heq]
        exact hholds back

end Text

/-! ## A few rows -/

def someRows : Table :=
  #[(0x00A4, 0xA1E8), (0x4e2d, 0xd6d0), (0x56fd, 0xb9fa), (0xFFE5, 0xA3A4)]

theorem gb2312_someRows : Gb2312 someRows where
  sorted := by simp [someRows]
  oneToOne := by simp [someRows]
  aboveAscii := by simp [someRows]
  leadByte := by simp [someRows]
  secondByte := by simp [someRows]

/-- The text of `UnicodeGbTest`. -/
theorem roundTrips_test : RoundTrips someRows (Bytes.literal [0xd6, 0xd0, 0xb9, 0xfa, 0x2e])
    (fun _ => 0) (fun _ => 0) 15 [0xd6, 0xd0, 0xb9, 0xfa, 0x2e] :=
  (roundTrips_iff_kept gb2312_someRows
    [.gb 0xd6d0 (by decide), .gb 0xb9fa (by decide), .ascii 0x2e (by decide)] _ _ _ _
    (Bytes.literal_holds (by decide)) (by decide)).2
    ⟨by
      intro letter hmem
      simp only [List.mem_cons, List.not_mem_nil, or_false] at hmem
      rcases hmem with rfl | rfl | rfl
      · exact ⟨(0x4e2d, 0xd6d0), by decide, rfl⟩
      · exact ⟨(0x56fd, 0xb9fa), by decide, rfl⟩
      · exact ⟨by decide, by decide⟩, by decide⟩

/-- `@` comes back as two dots. -/
theorem at_sign_lost :
    ¬ ∀ (table : Table) (_ : Gb2312 table) (text : List (Letter table)) (str dst back : Bytes)
      (limit : Nat) (_ : str.Holds (textBytes text)) (_ : (textBytes text).length < limit),
      RoundTrips table str dst back limit (textBytes text) := by
  intro hclaim
  have htrip := hclaim someRows gb2312_someRows [.ascii 0x40 (by decide)] (Bytes.literal [0x40])
    (fun _ => 0) (fun _ => 0) 2 (Bytes.literal_holds (by decide)) (by decide)
  obtain ⟨out, hout, -, -, -, out', hout', hback⟩ := htrip
  cases hout
  cases hout'
  have hbyte := hback.2.1 0 (by decide)
  exact absurd hbyte (by decide)

end Mobile.Sms.Proofs.RoundTrip
