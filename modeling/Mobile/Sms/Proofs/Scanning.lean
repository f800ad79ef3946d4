import Mobile.Sms.Proofs.RoundTrip

/-!
# The characters of a text

`StrGB2Unicode` scans bytes below 0x81 one by one and all others in pairs.  A text
is converted exactly when it is a sequence of characters, each such a byte or a pair
that the table has; a lead byte at the end is paired with the terminator and not
found.  Conversion in both directions therefore goes through concatenation, as long as
the counters of `StrGB2Unicode` do not overflow.
-/

namespace Mobile.Sms.Proofs.Scanning

open Mobile.ProofSupport.Image Mobile.ProofSupport.Image.Writes
open Mobile.Sms.Helpers Mobile.Sms.Unicode
open Mobile.Sms.Proofs.Characters Mobile.Sms.Proofs.RoundTrip

/-- A character as `StrGB2Unicode` scans it. -/
inductive Symbol (table : Table)
  | one (c : UInt8) (narrow : c < 0x81)
  | two (c d : UInt8) (lead : ¬ c < 0x81) (found : (findGB table c d).isSome)

variable {table : Table}

namespace Symbol

def bytes : Symbol table → List UInt8
  | one c _ => [c]
  | two c d _ _ => [c, d]

def unit : Symbol table → UInt16
  | one c _ => c.toUInt16
  | two c d _ found => (findGB table c d).get found

end Symbol

def symbolBytes (text : List (Symbol table)) : List UInt8 := text.flatMap Symbol.bytes

def octets (text : List (Symbol table)) : List UInt8 :=
  (text.map Symbol.unit).flatMap bytesOf

theorem symbolBytes_cons (x : Symbol table) (text : List (Symbol table)) :
    symbolBytes (x :: text) = x.bytes ++ symbolBytes text := rfl

theorem octets_cons (x : Symbol table) (text : List (Symbol table)) :
    octets (x :: text) = bytesOf x.unit ++ octets text := rfl

theorem symbolBytes_append (text text' : List (Symbol table)) :
    symbolBytes (text ++ text') = symbolBytes text ++ symbolBytes text' :=
  List.flatMap_append

theorem octets_append (text text' : List (Symbol table)) :
    octets (text ++ text') = octets text ++ octets text' := by
  simp [octets]

theorem octets_length (text : List (Symbol table)) : (octets text).length = 2 * text.length := by
  induction text with
  | nil => rfl
  | cons x text ih =>
      rw [octets_cons, List.length_append, ih]
      simp only [bytesOf, List.length_cons, List.length_nil]
      omega

/-! ## One scan -/

theorem loop_symbol (x : Symbol table) (rest : List UInt8) (j : Nat) (ws : Writes) :
    strGB2UnicodeLoop table (x.bytes ++ rest) j ws =
      strGB2UnicodeLoop table rest (j + 2) (ws ++ run (j : Int) (bytesOf x.unit)) := by
  cases x with
  | one c narrow =>
      have hbytes : run (j : Int) (bytesOf c.toUInt16) = Unicode.narrow j c := by
        rw [bytesOf_ascii]
        rfl
      simp only [Symbol.unit, hbytes]
      exact loop_narrow narrow rest j ws
  | two c d lead found =>
      obtain ⟨unicode, hunicode⟩ := Option.isSome_iff_exists.1 found
      change strGB2UnicodeLoop table (c :: d :: rest) j ws = _
      simp only [strGB2UnicodeLoop, if_neg lead, hunicode, Symbol.unit, Option.get_some]
      rfl

/-- The characters at the front of a text are converted, whatever follows. -/
theorem loop_symbols (text : List (Symbol table)) (rest : List UInt8) (j : Nat) (ws : Writes) :
    strGB2UnicodeLoop table (symbolBytes text ++ rest) j ws =
      strGB2UnicodeLoop table rest (j + 2 * text.length) (ws ++ run (j : Int) (octets text)) := by
  induction text generalizing j ws with
  | nil => simp [symbolBytes, octets, run]
  | cons x text ih =>
      rw [symbolBytes_cons, List.append_assoc, loop_symbol, ih, octets_cons, run_append,
        List.append_assoc, List.length_cons]
      congr 1
      omega

theorem characters_symbol (x : Symbol table) (rest : List UInt8) :
    characters table (x.bytes ++ rest) = some x.unit :: characters table rest := by
  cases x with
  | one c narrow => cases rest <;> simp [Symbol.bytes, Symbol.unit, characters, narrow]
  | two c d lead found =>
      change characters table (c :: d :: rest) = _
      simp only [characters, if_neg lead, Symbol.unit, Option.some_get]

theorem known_symbols (text : List (Symbol table)) (rest : List UInt8) :
    known (characters table (symbolBytes text ++ rest)) =
      text.length + known (characters table rest) := by
  induction text with
  | nil => simp [symbolBytes]
  | cons x text ih =>
      rw [symbolBytes_cons, List.append_assoc, characters_symbol, List.length_cons]
      have hcons : known (some x.unit :: characters table (symbolBytes text ++ rest)) =
          known (characters table (symbolBytes text ++ rest)) + 1 := by
        simp [known]
      omega

/-- The text begins with a pair that is not found, at which the conversion gives up. -/
def GivesUp (table : Table) (s : List UInt8) : Prop := (characters table s).head? = some none

theorem GivesUp.characters_eq {s : List UInt8} (h : GivesUp table s) :
    ∃ cs, characters table s = none :: cs := List.head?_eq_some_iff.1 h

theorem GivesUp.known {s : List UInt8} (h : GivesUp table s) : known (characters table s) = 0 := by
  obtain ⟨cs, hcs⟩ := h.characters_eq
  rw [hcs]
  rfl

theorem GivesUp.loop {s : List UInt8} (h : GivesUp table s) (j : Nat) (ws : Writes) :
    strGB2UnicodeLoop table s j ws = ⟨ws, 0⟩ := by
  obtain ⟨cs, hcs⟩ := h.characters_eq
  obtain ⟨bytes, hlen, hwrites, hret⟩ := strGB2UnicodeLoop_converts table s j ws
  rw [hcs] at hlen hret
  have hnil : bytes = [] := List.length_eq_zero_iff.1 hlen
  rw [hnil, run, List.append_nil] at hwrites
  have hzero : (strGB2UnicodeLoop table s j ws).ret = 0 := hret
  generalize strGB2UnicodeLoop table s j ws = out at hwrites hzero
  obtain ⟨ws', ret⟩ := out
  cases hwrites
  cases hzero
  rfl

theorem findGB_lone (h : Gb2312 table) (c : UInt8) : findGB table c 0 = none := by
  rw [findGB, Option.map_eq_none_iff, List.find?_eq_none]
  intro row hrow heq
  have hcode : row.2 = c.toUInt16 <<< 8 ||| (0 : UInt8).toUInt16 := by simpa using heq
  refine h.secondByte row ((List.dropLast_sublist _).subset hrow) ?_
  rw [hcode, ← UInt8.toNat_inj, UInt16.toNat_toUInt8, toNat_code]
  simp

/-- The text is a sequence of characters, up to a pair that is not found. -/
def Scanned (table : Table) (s : List UInt8) : Prop :=
  ∃ (text : List (Symbol table)) (rest : List UInt8), s = symbolBytes text ++ rest ∧
    (rest = [] ∨ GivesUp table rest)

theorem Scanned.cons {s : List UInt8} (x : Symbol table) (h : Scanned table s) :
    Scanned table (x.bytes ++ s) := by
  obtain ⟨text, rest, rfl, hrest⟩ := h
  exact ⟨x :: text, rest, by rw [symbolBytes_cons, List.append_assoc], hrest⟩

theorem scanned (h : Gb2312 table) (s : List UInt8) : Scanned table s := by
  induction s using List.twoStepInduction with
  | nil => exact ⟨[], [], rfl, .inl rfl⟩
  | singleton c =>
      by_cases hc : c < 0x81
      · exact ⟨[.one c hc], [], rfl, .inl rfl⟩
      · refine ⟨[], [c], rfl, .inr ?_⟩
        simp only [GivesUp, characters, if_neg hc, findGB_lone h c, List.head?_cons]
  | cons_cons c d rest ih ihd =>
      by_cases hc : c < 0x81
      · exact (ihd d).cons (.one c hc)
      · cases hfound : findGB table c d with
        | some unicode => exact ih.cons (.two c d hc (by simp [hfound]))
        | none =>
            refine ⟨[], c :: d :: rest, rfl, .inr ?_⟩
            simp only [GivesUp, characters, if_neg hc, hfound, List.head?_cons]

/-! ## What a conversion yields -/

def NotFound (out : Out) : Prop := out.writes.getLast? ≠ some ((out.ret : Int), 0)

instance (out : Out) : Decidable (NotFound out) :=
  inferInstanceAs (Decidable (out.writes.getLast? ≠ some ((out.ret : Int), 0)))

/-- These octets are written, and a terminator behind them. -/
def Yields (out : Out) (octets : List UInt8) : Prop := out.writes = run 0 (octets ++ [0])

def converted (table : Table) (s : List UInt8) : Out := strGB2UnicodeLoop table s 0 []

theorem converted_symbols (text : List (Symbol table)) :
    converted table (symbolBytes text) =
      ⟨run 0 (octets text ++ [0]), (octets text).length⟩ := by
  have hloop := loop_symbols text [] 0 []
  rw [List.append_nil] at hloop
  rw [converted, hloop, strGB2UnicodeLoop, run_append, octets_length]
  simp [run]

theorem converted_givesUp (text : List (Symbol table)) {rest : List UInt8}
    (h : GivesUp table rest) :
    converted table (symbolBytes text ++ rest) = ⟨run 0 (octets text), 0⟩ := by
  rw [converted, loop_symbols, h.loop]
  rfl

theorem yields_found {octets : List UInt8} : ¬ NotFound ⟨run 0 (octets ++ [0]), octets.length⟩ := by
  simp [NotFound, run_append, run]

theorem octets_notFound (text : List (Symbol table)) : NotFound ⟨run 0 (octets text), 0⟩ := by
  rcases List.eq_nil_or_concat text with rfl | ⟨text, x, rfl⟩
  · simp [NotFound, octets, run]
  · have hlast : octets (text.concat x) = octets text ++ bytesOf x.unit := by
      simp [octets]
    simp only [NotFound, hlast, run_append, bytesOf, run]
    simp
    omega

theorem symbols_of_found (h : Gb2312 table) {s : List UInt8}
    (hfound : ¬ NotFound (converted table s)) :
    ∃ text : List (Symbol table), s = symbolBytes text := by
  obtain ⟨text, rest, rfl, hrest | hrest⟩ := scanned h s
  · exact ⟨text, by rw [hrest, List.append_nil]⟩
  · rw [converted_givesUp text hrest] at hfound
    exact absurd (octets_notFound text) hfound

/-- Behind a text that is converted, another one gives up or is converted as by
itself. -/
theorem converted_append (h : Gb2312 table) {s : List UInt8}
    (hfound : ¬ NotFound (converted table s)) (t : List UInt8) :
    (NotFound (converted table (s ++ t)) ↔ NotFound (converted table t)) ∧
      (¬ NotFound (converted table (s ++ t)) → ∃ a b, Yields (converted table s) a ∧
        Yields (converted table t) b ∧ Yields (converted table (s ++ t)) (a ++ b) ∧
        (converted table (s ++ t)).ret = (converted table s).ret + (converted table t).ret) := by
  obtain ⟨text, rfl⟩ := symbols_of_found h hfound
  obtain ⟨text', rest, rfl, hrest | hrest⟩ := scanned h t
  · rw [hrest, List.append_nil, ← symbolBytes_append, converted_symbols, converted_symbols,
      converted_symbols, octets_append]
    refine ⟨iff_of_false yields_found yields_found, fun _ => ?_⟩
    exact ⟨octets text, octets text', rfl, rfl, rfl, List.length_append⟩
  · rw [← List.append_assoc, ← symbolBytes_append, converted_givesUp _ hrest,
      converted_givesUp _ hrest]
    refine ⟨iff_of_true (octets_notFound _) (octets_notFound _), fun hnot => ?_⟩
    exact absurd (octets_notFound _) hnot

/-! ## Back to GB -/

theorem strUnicode2GB_append {a b : List UInt8} {pa pb pab : Bytes} (ha : Even a.length)
    (hb : Even b.length) (hlen : (a ++ b).length < 0x100000000) (hpa : pa.Begins a)
    (hpb : pb.Begins b) (hpab : pab.Begins (a ++ b)) :
    ∃ outa outb outab, strUnicode2GB table pa (UInt32.ofNat a.length) = some outa ∧
      strUnicode2GB table pb (UInt32.ofNat b.length) = some outb ∧
      strUnicode2GB table pab (UInt32.ofNat (a ++ b).length) = some outab ∧
      ∃ ga gb, Yields outa ga ∧ Yields outb gb ∧ Yields outab (ga ++ gb) ∧
        outab.ret = outa.ret + outb.ret ∧ ga.length ≤ a.length := by
  obtain ⟨us, rfl, hus⟩ := units_of_even ha
  obtain ⟨vs, rfl, hvs⟩ := units_of_even hb
  rw [← List.flatMap_append] at hpab
  rw [List.length_append] at hlen ⊢
  have hsum : 2 * (us ++ vs).length = (us.flatMap bytesOf).length + (vs.flatMap bytesOf).length := by
    rw [List.length_append, ← hus, ← hvs]
    omega
  rw [← hsum] at hlen
  rw [← hsum, ← hus, ← hvs]
  refine ⟨_, _, _, strUnicode2GB_read hpa (by omega), strUnicode2GB_read hpb (by omega),
    strUnicode2GB_read hpab hlen, us.flatMap (backBytes table), vs.flatMap (backBytes table),
    rfl, rfl, ?_, List.length_append, back_length us⟩
  rw [Yields, List.flatMap_append]

/-! ## Concatenation -/

/-- The `int`s of `StrGB2Unicode` can count the bytes of the text and the octets of its
characters, up to the first one that is not found. -/
structure Countable (table : Table) (s : List UInt8) : Prop where
  len : s.length ≤ 0x7fffffff
  octets : 2 * known (characters table s) ≤ 0x7fffffff

theorem Countable.converts {s : List UInt8} (h : Countable table s) {p : Bytes} {limit : Nat}
    (hp : p.Holds s) (hlimit : s.length < limit) :
    strGB2Unicode table p limit = some (converted table s) := by
  rw [strGB2Unicode_eq hp hlimit h.len, if_pos h.octets]
  rfl

theorem Countable.left (h : Gb2312 table) {s t : List UInt8} (hst : Countable table (s ++ t)) :
    Countable table s := by
  obtain ⟨hlen, hoctets⟩ := hst
  rw [List.length_append] at hlen
  refine ⟨by omega, ?_⟩
  obtain ⟨text, rest, rfl, hrest⟩ := scanned h s
  have hknown : known (characters table rest) = 0 := by
    rcases hrest with rfl | hgives
    · rfl
    · exact hgives.known
  rw [List.append_assoc, known_symbols] at hoctets
  rw [known_symbols]
  omega

theorem Countable.right {text : List (Symbol table)} {t : List UInt8}
    (h : Countable table (symbolBytes text ++ t)) : Countable table t := by
  obtain ⟨hlen, hoctets⟩ := h
  rw [List.length_append] at hlen
  rw [known_symbols] at hoctets
  exact ⟨by omega, by omega⟩

/-- Behind a text `s` that is converted, `t` gives up or is converted as by itself. -/
def AppendsText (table : Table) (s t : List UInt8) : Prop :=
  ∀ (ps pt pst : Bytes) (limit : Nat), ps.Holds s → pt.Holds t → pst.Holds (s ++ t) →
    (s ++ t).length < limit →
    ∃ outs outst, strGB2Unicode table ps limit = some outs ∧
      strGB2Unicode table pst limit = some outst ∧
      (¬ NotFound outs → ∃ outt, strGB2Unicode table pt limit = some outt ∧
        (NotFound outst ↔ NotFound outt) ∧
        (¬ NotFound outst → ∃ a b, Yields outs a ∧ Yields outt b ∧ Yields outst (a ++ b) ∧
          outst.ret = outs.ret + outt.ret))

theorem appendsText_of_countable (h : Gb2312 table) {s t : List UInt8}
    (hst : Countable table (s ++ t)) : AppendsText table s t := by
  intro ps pt pst limit hps hpt hpst hlimit
  have hs := Countable.left h hst
  have hlen : s.length < limit ∧ t.length < limit := by
    rw [List.length_append] at hlimit
    omega
  refine ⟨_, _, hs.converts hps hlen.1, hst.converts hpst hlimit, fun hfound => ?_⟩
  obtain ⟨text, rfl⟩ := symbols_of_found h hfound
  exact ⟨_, hst.right.converts hpt hlen.2, converted_append h hfound t⟩

theorem known_letters (n : Nat) :
    known (characters table (List.replicate n 0x61)) = n := by
  have hbytes : List.replicate n (0x61 : UInt8) =
      symbolBytes (List.replicate n (Symbol.one 0x61 (by decide)) : List (Symbol table)) := by
    induction n with
    | zero => rfl
    | succ n ih =>
        rw [List.replicate_succ, List.replicate_succ, symbolBytes_cons, ← ih]
        rfl
  have hknown := known_symbols
    (List.replicate n (Symbol.one 0x61 (by decide)) : List (Symbol table)) []
  rw [List.append_nil, ← hbytes, List.length_replicate] at hknown
  exact hknown

/-- Of 2^30 letters the last one makes `j` overflow. -/
theorem letters_overflow {n : Nat} (hlen : n ≤ 0x7fffffff) (hover : 0x7fffffff < 2 * n)
    {p : Bytes} (hp : p.Holds (List.replicate n 0x61)) (limit : Nat) (hlimit : n < limit) :
    strGB2Unicode table p limit = none := by
  rw [strGB2Unicode_eq hp (by rwa [List.length_replicate]) (by rwa [List.length_replicate]),
    known_letters, if_neg (by omega)]

end Mobile.Sms.Proofs.Scanning
