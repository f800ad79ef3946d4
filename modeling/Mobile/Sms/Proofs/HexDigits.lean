import Mathlib.Data.List.Induction
import Mobile.Sms.HelperLoops
import Mobile.Sms.Layout
import Mobile.Sms.Proofs.Positions

/-!
# Hex digits

`String2Byte` prints octets as two uppercase digits each, `Byte2String` reads two
digits as one octet: on strings of such digits they are inverse to each other.
-/

namespace Mobile.Sms.Proofs.HexDigits

open Mobile.ProofSupport.Image Mobile.ProofSupport.Image.Writes Mobile.ProofSupport.While
open Mobile.Sms.Helpers Mobile.Sms.HelperLoops Mobile.Sms.Layout Mobile.Sms.Proofs.Positions

def UpperHex (c : UInt8) : Prop := (0x30 ≤ c ∧ c ≤ 0x39) ∨ (0x41 ≤ c ∧ c ≤ 0x46)

structure HexString where
  text : List UInt8
  upper : ∀ c ∈ text, UpperHex c
  even : text.length % 2 = 0

/-! ## One octet -/

theorem hexDigit_toNat {n : Nat} (h : n < 16) :
    (hexDigit n).toNat = if n < 10 then 0x30 + n else 0x41 + (n - 10) := by
  rw [hexDigit, UInt8.toNat_ofNat']
  split <;> omega

theorem upperHex_iff {c : UInt8} :
    UpperHex c ↔ (0x30 ≤ c.toNat ∧ c.toNat ≤ 0x39) ∨ (0x41 ≤ c.toNat ∧ c.toNat ≤ 0x46) := by
  simp [UpperHex, UInt8.le_iff_toNat_le]

theorem upperHex_hexDigit {n : Nat} (h : n < 16) : UpperHex (hexDigit n) := by
  rw [upperHex_iff, hexDigit_toNat h]
  split <;> omega

theorem UpperHex.exists_digit {c : UInt8} (h : UpperHex c) : ∃ n < 16, c = hexDigit n := by
  rw [upperHex_iff] at h
  rcases h with h | h
  · refine ⟨c.toNat - 0x30, by omega, UInt8.toNat.inj ?_⟩
    rw [hexDigit_toNat (by omega), if_pos (by omega)]
    omega
  · refine ⟨c.toNat - 0x37, by omega, UInt8.toNat.inj ?_⟩
    rw [hexDigit_toNat (by omega), if_neg (by omega)]
    omega

theorem tab_eq_hexDigit {n : UInt8} (h : n.toNat < 16) : tab n = hexDigit n.toNat := by
  apply UInt8.toNat.inj
  rw [hexDigit_toNat h, tab]
  simp only [UInt8.lt_iff_toNat_lt, UInt8.reduceToNat]
  by_cases hten : n.toNat < 10
  · rw [if_pos hten, if_pos hten, UInt8.toNat_add]
    simp only [UInt8.reduceToNat]
    omega
  · rw [if_neg hten, if_neg hten, UInt8.toNat_add,
      UInt8.toNat_sub_of_le _ _ (UInt8.le_iff_toNat_le.2 (by simpa using hten))]
    simp only [UInt8.reduceToNat]
    omega

theorem charNibble_hexDigit {n : Nat} (h : n < 16) : charNibble (hexDigit n) = UInt8.ofNat n := by
  have hall : ∀ m : Fin 16, charNibble (hexDigit m) = UInt8.ofNat m := by decide
  exact hall ⟨n, h⟩

theorem high_toNat (b : UInt8) : (b >>> 4).toNat = b.toNat / 16 := by
  rw [UInt8.toNat_shiftRight]
  exact Nat.shiftRight_eq_div_pow b.toNat 4

theorem low_toNat (b : UInt8) : (b &&& 0x0f).toNat = b.toNat % 16 := by
  rw [UInt8.toNat_and]
  exact Nat.and_two_pow_sub_one_eq_mod b.toNat 4

theorem hex_eq_tab (b : UInt8) : hex b = [tab (b >>> 4), tab (b &&& 0x0f)] := by
  have hlt := b.toNat_lt
  rw [hex, tab_eq_hexDigit (by rw [high_toNat]; omega), tab_eq_hexDigit (by rw [low_toNat]; omega),
    high_toNat, low_toNat]

def octet (c d : UInt8) : UInt8 := (charNibble c <<< 4) ||| charNibble d

theorem octet_hexDigit {m n : Nat} (hm : m < 16) (hn : n < 16) :
    (octet (hexDigit m) (hexDigit n)).toNat = 16 * m + n := by
  have hlow : n < 2 ^ 4 := hn
  have hfits : m <<< 4 < 2 ^ 8 := by
    rw [Nat.shiftLeft_eq]
    omega
  rw [octet, charNibble_hexDigit hm, charNibble_hexDigit hn, UInt8.toNat_or, UInt8.toNat_shiftLeft,
    UInt8.toNat_ofNat', UInt8.toNat_ofNat', Nat.mod_eq_of_lt (by omega : m < 2 ^ 8),
    Nat.mod_eq_of_lt (by omega : n < 2 ^ 8)]
  simp only [UInt8.reduceToNat, Nat.reduceMod]
  rw [Nat.mod_eq_of_lt hfits, ← Nat.shiftLeft_add_eq_or_of_lt hlow, Nat.shiftLeft_eq]
  omega

theorem octet_hex (b : UInt8) :
    octet (hexDigit (b.toNat / 16)) (hexDigit (b.toNat % 16)) = b := by
  have hlt := b.toNat_lt
  apply UInt8.toNat.inj
  rw [octet_hexDigit (by omega) (by omega)]
  omega

theorem exists_hex {c d : UInt8} (hc : UpperHex c) (hd : UpperHex d) : ∃ b, [c, d] = hex b := by
  obtain ⟨m, hm, rfl⟩ := hc.exists_digit
  obtain ⟨n, hn, rfl⟩ := hd.exists_digit
  refine ⟨octet (hexDigit m) (hexDigit n), ?_⟩
  rw [hex, octet_hexDigit hm hn, show (16 * m + n) / 16 = m by omega,
    show (16 * m + n) % 16 = n by omega]

/-! ## Strings -/

theorem hexText_upper (b : List UInt8) : ∀ c ∈ hexText b, UpperHex c := by
  intro c hc
  obtain ⟨o, -, hc⟩ := List.mem_flatMap.1 hc
  have hlt := o.toNat_lt
  simp only [hex, List.mem_cons, List.not_mem_nil, or_false] at hc
  rcases hc with rfl | rfl
  · exact upperHex_hexDigit (by omega)
  · exact upperHex_hexDigit (by omega)

theorem zero_not_mem_hexText (b : List UInt8) : (0 : UInt8) ∉ hexText b := by
  intro hzero
  have hupper := hexText_upper b 0 hzero
  rw [upperHex_iff] at hupper
  simp at hupper

theorem HexString.exists_octets (h : HexString) : ∃ b, h.text = hexText b := by
  obtain ⟨text, hupper, heven⟩ := h
  induction text using List.twoStepInduction with
  | nil => exact ⟨[], rfl⟩
  | singleton c => simp at heven
  | cons_cons c d rest ih _ =>
      obtain ⟨o, ho⟩ := exists_hex (hupper c (by simp)) (hupper d (by simp))
      obtain ⟨b, hb⟩ := ih (fun e he => hupper e (by simp [he]))
        (by simp only [List.length_cons] at heven; omega)
      refine ⟨o :: b, ?_⟩
      show [c, d] ++ rest = hex o ++ hexText b
      rw [ho, ← hb]

theorem hexText_getElem? (b : List UInt8) {k : Nat} (hk : k < b.length) :
    (hexText b)[2 * k]? = some (hexDigit (b[k].toNat / 16)) ∧
      (hexText b)[2 * k + 1]? = some (hexDigit (b[k].toNat % 16)) := by
  induction b generalizing k with
  | nil => cases hk
  | cons o b ih =>
      cases k with
      | zero => exact ⟨rfl, rfl⟩
      | succ k => exact ih (by simpa using hk)

/-! ## What the helpers write -/

theorem string2Byte_writes {src : Bytes} {b : List UInt8} (h : src.Begins b) :
    (string2Byte src b.length).writes = run 0 (hexText b ++ [0]) := by
  have hdigits : ((List.range b.length).flatMap fun k : Nat =>
      [tab (src k >>> 4), tab (src k &&& 0x0f)]) = hexText b := by
    conv_rhs => rw [← h.map_range, hexText, List.flatMap_map]
    simp only [hex_eq_tab]
  rw [string2Byte, flatMap_range_eq_run, hdigits, run_append, hexText_length]
  simp [run]

theorem byte2String_writes {src : Bytes} {b : List UInt8} (h : src.Begins (hexText b)) :
    (byte2String src (2 * b.length)).writes = run 0 b := by
  have hoctets : ((List.range b.length).map fun k : Nat =>
      octet (src (2 * k)) (src (2 * k + 1))) = b := by
    refine List.ext_getElem (by simp) fun k hk hk' => ?_
    obtain ⟨hhigh, hlow⟩ := hexText_getElem? b hk'
    obtain ⟨hlt, hhigh⟩ := List.getElem?_eq_some_iff.1 hhigh
    obtain ⟨hlt', hlow⟩ := List.getElem?_eq_some_iff.1 hlow
    have hsrc := h (2 * k) hlt
    have hsrc' := h (2 * k + 1) hlt'
    rw [hhigh] at hsrc
    rw [hlow] at hsrc'
    rw [List.getElem_map, List.getElem_range]
    push_cast at hsrc hsrc'
    rw [hsrc, hsrc', octet_hex]
  have hrounds : (2 * b.length + 1) / 2 = b.length := by omega
  rw [byte2String, hrounds, ← hoctets, ← map_range_eq_run, hoctets]
  rfl

/-! ## The loops -/

section Loops

variable {src dst : Bytes} {srcLen : UInt32} {j : Nat} {s : Hex}

structure Printing (src : Bytes) (j : Nat) (s : Hex) : Prop where
  count : s.i.toNat = j
  source : s.src = j
  dest : s.dst = 2 * j
  writes : s.writes ++ [(s.dst, 0)] = (string2Byte src j).writes

theorem printing_start (src : Bytes) : Printing src 0 .start := ⟨rfl, rfl, rfl, rfl⟩

theorem string2Byte_succ (src : Bytes) (j : Nat) {ws : Writes}
    (h : ws ++ [(2 * (j : Int), 0)] = (string2Byte src j).writes) :
    ws ++ [(2 * (j : Int), tab (src j >>> 4)), (2 * (j : Int) + 1, tab (src j &&& 0x0f)),
      (2 * ((j + 1 : Nat) : Int), 0)] = (string2Byte src (j + 1)).writes := by
  have hws := List.append_cancel_right h
  simp [string2Byte, hws, List.range_succ]

theorem printing_round (hlt : j < srcLen.toNat) (h : Printing src j s) :
    Printing src (j + 1) ((string2ByteLoop src srcLen).body s) := by
  have hbound := srcLen.toNat_lt
  have hwrites := h.writes
  rw [h.dest] at hwrites
  have hdest : s.dst + 1 + 1 = 2 * ((j + 1 : Nat) : Int) := by
    rw [h.dest]
    omega
  refine ⟨?_, ?_, hdest, ?_⟩
  · have hcount : (s.i + 1).toNat = j + 1 := by
      rw [UInt32.toNat_add, h.count, UInt32.toNat_one]
      omega
    exact hcount
  · show s.src + 1 = _
    rw [h.source]
    rfl
  · rw [← string2Byte_succ src j hwrites, ← hdest]
    simp [string2ByteLoop, Hex.store, Hex.stepDst, Hex.stepSrc, h.source, h.dest]

theorem string2Byte_returns (src : Bytes) (srcLen : UInt32) :
    String2ByteReturns src srcLen ⟨(string2Byte src srcLen.toNat).writes, srcLen * 2⟩ := by
  obtain ⟨s, hends, h⟩ := Loop.ends_of_counted (l := string2ByteLoop src srcLen)
    (I := Printing src) (m := srcLen.toNat)
    (fun j s h => by simp [string2ByteLoop, UInt32.lt_iff_toNat_lt, h.count])
    (fun j s hlt => printing_round hlt) (printing_start src)
  exact ⟨_, s, hends, by rw [h.writes]⟩

/-- After `j` rounds of `Byte2String`, which writes every octet twice. -/
structure Reading (src dst : Bytes) (j : Nat) (s : Hex) : Prop where
  count : s.i.toNat = 2 * j
  source : s.src = 2 * j
  dest : s.dst = j
  stored : dst.apply s.writes = dst.apply (byte2String src (2 * j)).writes
  inside : Within s.writes j

theorem reading_start (src dst : Bytes) : Reading src dst 0 .start :=
  ⟨rfl, rfl, rfl, rfl, by simp [Within, Hex.start]⟩

theorem byte2String_succ (src : Bytes) (j : Nat) :
    (byte2String src (2 * (j + 1))).writes = (byte2String src (2 * j)).writes ++
      [((j : Int), octet (src (2 * j)) (src (2 * j + 1)))] := by
  have hrounds : (2 * (j + 1) + 1) / 2 = j + 1 := by omega
  have hrounds' : (2 * j + 1) / 2 = j := by omega
  simp [byte2String, hrounds, hrounds', List.range_succ, octet]

theorem byte2String_round (hj : s.src = 2 * j) (hdest : s.dst = j) :
    (byte2StringLoop src dst srcLen).body s = ⟨s.i + 2, s.src + 1 + 1, s.dst + 1,
      s.writes ++ [((j : Int), charNibble (src (2 * j)) <<< 4),
        ((j : Int), octet (src (2 * j)) (src (2 * j + 1)))]⟩ := by
  simp [byte2StringLoop, Hex.store, Hex.stepSrc, Hex.stepDst, hj, hdest, octet]

theorem reading_round (hlen : srcLen.toNat < 0xffffffff) (hlt : 2 * j < srcLen.toNat)
    (h : Reading src dst j s) :
    Reading src dst (j + 1) ((byte2StringLoop src dst srcLen).body s) := by
  rw [byte2String_round h.source h.dest]
  refine ⟨?_, ?_, ?_, ?_, ?_⟩
  · show (s.i + 2).toNat = _
    simp only [UInt32.toNat_add, h.count, UInt32.reduceToNat]
    omega
  · show s.src + 1 + 1 = _
    rw [h.source]
    omega
  · show s.dst + 1 = _
    rw [h.dest]
    omega
  · simp [byte2String_succ, h.stored]
  · refine within_append.2 ⟨h.inside.mono (by omega), ?_⟩
    simp only [Within, List.mem_cons, List.not_mem_nil, or_false, forall_eq_or_imp, forall_eq]
    omega

/-- `Byte2String` returns but for the greatest count, which its steps of two pass by. -/
theorem byte2String_returns (src dst : Bytes) (srcLen : UInt32)
    (hlen : srcLen.toNat < 0xffffffff) :
    ∃ ws, Byte2StringReturns src dst srcLen ⟨ws, srcLen / 2⟩ ∧
      dst.apply ws = dst.apply (byte2String src srcLen.toNat).writes ∧
      Within ws ((srcLen.toNat + 1) / 2) := by
  have htest : ∀ j s, Reading src dst j s →
      ((byte2StringLoop src dst srcLen).test s = true ↔ j < (srcLen.toNat + 1) / 2) := by
    intro j s h
    simp only [byte2StringLoop, decide_eq_true_eq, UInt32.lt_iff_toNat_lt, h.count]
    omega
  obtain ⟨s, hends, h⟩ := Loop.ends_of_counted (I := Reading src dst) htest
    (fun j s hlt => reading_round hlen (by omega)) (reading_start src dst)
  have hrounds : (2 * ((srcLen.toNat + 1) / 2) + 1) / 2 = (srcLen.toNat + 1) / 2 := by omega
  refine ⟨s.writes, ⟨_, s, hends, rfl⟩, ?_, h.inside⟩
  rw [h.stored, byte2String, byte2String, hrounds]

end Loops

/-! ## Both ways -/

/-- `String2Byte` leaves two uppercase digits for each octet and a terminator, and
writes nothing else. -/
structure Prints (b : List UInt8) (dst : Bytes) (ws : Writes) : Prop where
  text : (dst.apply ws).Holds (hexText b)
  digits : (hexText b).length = 2 * b.length ∧ ∀ c ∈ hexText b, UpperHex c
  inside : Within ws (2 * b.length + 1)

/-- `Byte2String` leaves the octets and writes nothing else. -/
structure Reads (b : List UInt8) (dst : Bytes) (ws : Writes) : Prop where
  octets : (dst.apply ws).Begins b
  inside : Within ws b.length

theorem prints_octets {src : Bytes} {b : List UInt8} {n : UInt32} (h : src.Begins b)
    (hn : n.toNat = b.length) (dst : Bytes) :
    ∃ out, String2ByteReturns src n out ∧ Prints b dst out.writes := by
  have hwrites := string2Byte_writes h
  refine ⟨_, string2Byte_returns src n, ?_, ⟨hexText_length b, hexText_upper b⟩, ?_⟩
  · rw [hn, hwrites]
    exact holds_apply_run dst (zero_not_mem_hexText b)
  · rw [hn, hwrites]
    refine (within_run (Nat.zero_le _)).2 ?_
    simp [hexText_length]

theorem reads_octets {src : Bytes} {b : List UInt8} {n : UInt32} (h : src.Begins (hexText b))
    (hn : n.toNat = 2 * b.length) (dst : Bytes) :
    ∃ out, Byte2StringReturns src dst n out ∧ Reads b dst out.writes ∧
      out.ret.toNat = b.length := by
  have hlt := n.toNat_lt
  obtain ⟨ws, hret, hstored, hinside⟩ := byte2String_returns src dst n (by omega)
  rw [hn, byte2String_writes h] at hstored
  refine ⟨_, hret, ⟨?_, hinside.mono (by omega)⟩, ?_⟩
  · intro i hi
    rw [hstored]
    simpa using apply_run dst 0 b hi
  · simp only [UInt32.toNat_div, hn, UInt32.reduceToNat]
    omega

/-- What one helper writes the other takes back: the octets at `src` through their
digits, and the digits at `src` through their octets. -/
theorem hex_helpers_inverse :
    (∀ (b : List UInt8) (src dst back : Bytes) (n m : UInt32), src.Begins b →
      n.toNat = b.length → ∃ out, String2ByteReturns src n out ∧ Prints b dst out.writes ∧
        (m.toNat = 2 * b.length → ∃ out',
          Byte2StringReturns (dst.apply out.writes) back m out' ∧ Reads b back out'.writes)) ∧
    ∀ (h : HexString) (src dst back : Bytes) (n : UInt32), src.Begins h.text →
      n.toNat = h.text.length → ∃ out out', Byte2StringReturns src dst n out ∧
        String2ByteReturns (dst.apply out.writes) out.ret out' ∧
        (back.apply out'.writes).Holds h.text := by
  constructor
  · intro b src dst back n m hsrc hn
    obtain ⟨out, hret, hprints⟩ := prints_octets hsrc hn dst
    refine ⟨out, hret, hprints, fun hm => ?_⟩
    obtain ⟨out', hret', hreads, -⟩ := reads_octets hprints.text.begins hm back
    exact ⟨out', hret', hreads⟩
  · intro h src dst back n hsrc hn
    obtain ⟨b, hb⟩ := h.exists_octets
    rw [hb] at hsrc hn ⊢
    rw [hexText_length] at hn
    obtain ⟨out, hret, hreads, hcount⟩ := reads_octets hsrc hn dst
    obtain ⟨out', hret', hprints⟩ := prints_octets hreads.octets hcount back
    exact ⟨out, out', hret, hret', hprints.text⟩

def commentOctets : List UInt8 := [0xc8, 0x32, 0x9b, 0xfd, 0x0e, 0x01]

theorem hexText_even (b : List UInt8) : (hexText b).length % 2 = 0 := by
  rw [hexText_length]
  omega

def commentDigits : HexString :=
  ⟨hexText commentOctets, hexText_upper commentOctets, hexText_even commentOctets⟩

theorem hex_helpers_inverse_comment :
    (∃ out, String2ByteReturns (Bytes.literal commentOctets) 6 out ∧
      Prints commentOctets (fun _ => 0) out.writes ∧
      ∃ out', Byte2StringReturns (Bytes.apply (fun _ => 0) out.writes) (fun _ => 0) 12 out' ∧
        Reads commentOctets (fun _ => 0) out'.writes) ∧
    ∃ out out', Byte2StringReturns (Bytes.literal commentDigits.text) (fun _ => 0) 12 out ∧
      String2ByteReturns (Bytes.apply (fun _ => 0) out.writes) out.ret out' ∧
      (Bytes.apply (fun _ => 0) out'.writes).Holds commentDigits.text := by
  constructor
  · obtain ⟨out, hret, hprints, hback⟩ := hex_helpers_inverse.1 commentOctets
      (Bytes.literal commentOctets) (fun _ => 0) (fun _ => 0) 6 12 (Bytes.literal_begins _) rfl
    exact ⟨out, hret, hprints, hback rfl⟩
  · exact hex_helpers_inverse.2 commentDigits (Bytes.literal commentDigits.text) (fun _ => 0)
      (fun _ => 0) 12 (Bytes.literal_begins _) rfl

end Mobile.Sms.Proofs.HexDigits
