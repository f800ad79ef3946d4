import Mobile.Sms.Fragment
import Mobile.Sms.Proofs.Scanning

/-!
# Where messages are cut

`CheckFragment` counts one for a byte above 0xA0 and two for any other, and cuts at
the first even count from 140 on.  A character of GB2312 counts two like one of
ASCII, and its first byte leaves the count odd, so a text of these is cut behind 70
characters.  The table also has characters with bytes up to 0xA0: they count three
or four, and the cut may fall inside one of them or be missed.
-/

namespace Mobile.Sms.Proofs.Splitting

open Mobile.ProofSupport.Image
open Mobile.Sms.Unicode Mobile.Sms.Fragment
open Mobile.Sms.Proofs.RoundTrip Mobile.Sms.Proofs.Scanning

def weight (c : UInt8) : Nat := if c > 0xA0 then 1 else 2

/-- The first even count from 140 on, behind `n` bytes that count `w`. -/
def cut (w n : Nat) : List UInt8 → Option Nat
  | [] => none
  | c :: rest =>
    if 139 ≤ w + weight c ∧ (w + weight c) % 2 = 0 then some (n + 1)
    else cut (w + weight c) (n + 1) rest

/-! ## The loop -/

theorem weight_le (c : UInt8) : 1 ≤ weight c ∧ weight c ≤ 2 := by
  unfold weight
  split <;> omega

/-- The two counters after a byte, while nothing overflows. -/
theorem counters_step (c : UInt8) (chnNum engNum : UInt32)
    (hfits : chnNum.toNat + 2 * engNum.toNat + 2 < 0x100000000) :
    ∃ chnNum' engNum' : UInt32,
      (if c > 0xA0 then chnNum + 1 else chnNum) = chnNum' ∧
      (if c > 0xA0 then engNum else engNum + 1) = engNum' ∧
      chnNum'.toNat + 2 * engNum'.toNat = chnNum.toNat + 2 * engNum.toNat + weight c ∧
      chnNum'.toNat + engNum'.toNat = chnNum.toNat + engNum.toNat + 1 := by
  by_cases hc : c > 0xA0
  · have hchn : (chnNum + 1).toNat = chnNum.toNat + 1 := by
      rw [UInt32.toNat_add]
      exact Nat.mod_eq_of_lt (by simp; omega)
    exact ⟨chnNum + 1, engNum, if_pos hc, if_pos hc, by simp [weight, hc, hchn]; omega,
      by rw [hchn]; omega⟩
  · have heng : (engNum + 1).toNat = engNum.toNat + 1 := by
      rw [UInt32.toNat_add]
      exact Nat.mod_eq_of_lt (by simp; omega)
    exact ⟨chnNum, engNum + 1, if_neg hc, if_neg hc, by simp [weight, hc, heng]; omega,
      by rw [heng]; omega⟩

theorem count_iff {chnNum engNum : UInt32}
    (hfits : chnNum.toNat + 2 * engNum.toNat < 0x100000000) :
    (chnNum + 2 * engNum ≥ 139 ∧ chnNum % 2 = 0) ↔
      139 ≤ chnNum.toNat + 2 * engNum.toNat ∧ (chnNum.toNat + 2 * engNum.toNat) % 2 = 0 := by
  have hsum : (chnNum + 2 * engNum).toNat = chnNum.toNat + 2 * engNum.toNat := by
    rw [UInt32.toNat_add, UInt32.toNat_mul]
    simp
    omega
  have hmod : (chnNum % 2).toNat = chnNum.toNat % 2 := by simp
  rw [ge_iff_le, UInt32.le_iff_toNat_le, hsum, ← UInt32.toNat_inj, hmod]
  simp

theorem toInt_of_small {n : UInt32} (h : n.toNat < 0x80000000) : n.toInt32.toInt = n.toNat := by
  change n.toBitVec.toInt = n.toBitVec.toNat
  refine BitVec.toInt_eq_toNat_of_lt ?_
  change 2 * n.toNat < 2 ^ 32
  omega

theorem checkFragmentLoop_eq (s : List UInt8) {chnNum engNum : UInt32}
    (hfits : chnNum.toNat + 2 * engNum.toNat + 2 * s.length < 0x100000000)
    (hlen : chnNum.toNat + engNum.toNat + s.length < 0x80000000) :
    checkFragmentLoop s chnNum engNum =
      match cut (chnNum.toNat + 2 * engNum.toNat) (chnNum.toNat + engNum.toNat) s with
      | none => -1
      | some n => n := by
  induction s generalizing chnNum engNum with
  | nil => rfl
  | cons c s ih =>
      simp only [List.length_cons] at hfits hlen
      have hweight := weight_le c
      obtain ⟨chnNum', engNum', hchn, heng, hcount, hindex⟩ :=
        counters_step c chnNum engNum (by omega)
      have hsmall : (chnNum' + engNum').toNat = chnNum'.toNat + engNum'.toNat := by
        rw [UInt32.toNat_add]
        exact Nat.mod_eq_of_lt (by omega)
      simp only [checkFragmentLoop, hchn, heng, cut, ← hcount, ← hindex]
      by_cases hcut : 139 ≤ chnNum'.toNat + 2 * engNum'.toNat ∧
          (chnNum'.toNat + 2 * engNum'.toNat) % 2 = 0
      · rw [if_pos ((count_iff (by omega)).2 hcut), if_pos hcut, toInt_of_small (by omega), hsmall]
      · rw [if_neg (mt (count_iff (by omega)).1 hcut), if_neg hcut]
        exact ih (by omega) (by omega)

/-! ## Characters -/

variable {table : Table}

def symbolWeight : Symbol table → Nat
  | .one c _ => weight c
  | .two c d _ _ => weight c + weight d

def textWeight : List (Symbol table) → Nat
  | [] => 0
  | x :: text => symbolWeight x + textWeight text

def Quiet (x : Symbol table) : Prop := ∀ c ∈ x.bytes, ¬ c > 0xA0

def StartsHigh (x : Symbol table) : Prop := ∀ c ∈ x.bytes.head?, c > 0xA0

/-- The cut respects a text behind `k` characters and `n` bytes: it falls behind one of
its characters and at most 70 in all, or is missing where there are no more. -/
def Respects (n k : Nat) (text : List (Symbol table)) : Option Nat → Prop
  | none => k + text.length ≤ 70
  | some m => ∃ pre post, text = pre ++ post ∧ m = n + (symbolBytes pre).length ∧
      k + pre.length ≤ 70

/-- From an odd count on the cut waits for a byte above 0xA0, which must be the second
of a character. -/
structure Resumes (k : Nat) (text : List (Symbol table)) : Prop where
  found : ∀ pre x post, text = pre ++ x :: post → (∀ y ∈ pre, Quiet y) → ¬ Quiet x →
    ¬ StartsHigh x ∧ k + pre.length < 70
  missing : (∀ y ∈ text, Quiet y) → k + text.length ≤ 70

theorem cut_gt {w n m : Nat} {s : List UInt8} (h : cut w n s = some m) : n < m := by
  induction s generalizing w n with
  | nil => cases h
  | cons c s ih =>
      rw [cut] at h
      split at h
      · cases h
        omega
      · have := ih h
        omega

theorem respects_cons {w w' n k : Nat} {x : Symbol table} {text : List (Symbol table)}
    (hpass : cut w n (symbolBytes (x :: text)) = cut w' (n + x.bytes.length) (symbolBytes text)) :
    Respects n k (x :: text) (cut w n (symbolBytes (x :: text))) ↔
      Respects (n + x.bytes.length) (k + 1) text
        (cut w' (n + x.bytes.length) (symbolBytes text)) := by
  rw [hpass]
  cases hcut : cut w' (n + x.bytes.length) (symbolBytes text) with
  | none =>
      simp only [Respects, List.length_cons]
      omega
  | some m =>
      have hgt := cut_gt hcut
      constructor
      · rintro ⟨pre, post, hsplit, hm, hk⟩
        cases pre with
        | nil =>
            simp only [symbolBytes, List.flatMap_nil, List.length_nil] at hm
            omega
        | cons y pre =>
            cases hsplit
            rw [symbolBytes_cons, List.length_append] at hm
            rw [List.length_cons] at hk
            exact ⟨pre, post, rfl, by omega, by omega⟩
      · rintro ⟨pre, post, rfl, hm, hk⟩
        refine ⟨x :: pre, post, rfl, ?_, ?_⟩
        · rw [symbolBytes_cons, List.length_append]
          omega
        · rw [List.length_cons]
          omega

theorem respects_end {n k : Nat} {x : Symbol table} {text : List (Symbol table)} :
    Respects n k (x :: text) (some (n + x.bytes.length)) ↔ k < 70 := by
  constructor
  · rintro ⟨pre, post, hsplit, hm, hk⟩
    cases pre with
    | nil =>
        have hpos : 0 < x.bytes.length := by cases x <;> simp [Symbol.bytes]
        simp only [symbolBytes, List.flatMap_nil, List.length_nil] at hm
        omega
    | cons y pre =>
        simp only [List.length_cons] at hk
        omega
  · intro hk
    exact ⟨[x], text, rfl, by simp [symbolBytes], by simp; omega⟩

theorem not_respects_inside {n k : Nat} {c d : UInt8} {lead : ¬ c < 0x81}
    {found : (findGB table c d).isSome} {text : List (Symbol table)} :
    ¬ Respects n k (.two c d lead found :: text) (some (n + 1)) := by
  rintro ⟨pre, post, hsplit, hm, -⟩
  cases pre with
  | nil => simp [symbolBytes] at hm
  | cons y pre =>
      cases hsplit
      rw [symbolBytes_cons, List.length_append] at hm
      simp only [Symbol.bytes, List.length_cons] at hm
      omega

theorem narrow_not_high {c : UInt8} (hc : c < 0x81) : ¬ c > 0xA0 := by
  intro hhigh
  exact absurd (UInt8.lt_trans hhigh hc) (by decide)

theorem weight_high {c : UInt8} : weight c = 1 ↔ c > 0xA0 := by
  unfold weight
  split <;> simp_all

theorem cut_one {w n : Nat} {c : UInt8} (narrow : c < 0x81) (text : List (Symbol table)) :
    cut w n (symbolBytes (.one c narrow :: text)) =
      if 139 ≤ w + 2 ∧ (w + 2) % 2 = 0 then some (n + 1)
      else cut (w + 2) (n + 1) (symbolBytes text) := by
  have hweight : weight c = 2 := if_neg (narrow_not_high narrow)
  change cut w n (c :: symbolBytes text) = _
  rw [cut, hweight]

theorem cut_two {w n : Nat} {c d : UInt8} (lead : ¬ c < 0x81)
    (found : (findGB table c d).isSome) (text : List (Symbol table)) :
    cut w n (symbolBytes (.two c d lead found :: text)) =
      if 139 ≤ w + weight c ∧ (w + weight c) % 2 = 0 then some (n + 1)
      else if 139 ≤ w + weight c + weight d ∧ (w + weight c + weight d) % 2 = 0
        then some (n + 2)
      else cut (w + weight c + weight d) (n + 2) (symbolBytes text) := rfl

theorem symbolWeight_one {c : UInt8} (narrow : c < 0x81) :
    symbolWeight (.one c narrow : Symbol table) = 2 := if_neg (narrow_not_high narrow)

theorem symbolWeight_two {c d : UInt8} {lead : ¬ c < 0x81} {found : (findGB table c d).isSome} :
    symbolWeight (.two c d lead found) = weight c + weight d := rfl

theorem startsHigh_two {c d : UInt8} {lead : ¬ c < 0x81} {found : (findGB table c d).isSome} :
    StartsHigh (.two c d lead found) ↔ weight c = 1 := by
  simp [StartsHigh, Symbol.bytes, weight_high]

theorem quiet_two {c d : UInt8} {lead : ¬ c < 0x81} {found : (findGB table c d).isSome} :
    Quiet (.two c d lead found) ↔ weight c ≠ 1 ∧ weight d ≠ 1 := by
  simp [Quiet, Symbol.bytes, weight_high]

theorem quiet_one {c : UInt8} (narrow : c < 0x81) : Quiet (.one c narrow : Symbol table) := by
  simpa [Quiet, Symbol.bytes] using narrow_not_high narrow

/-! ## From an odd count on -/

theorem forall_splits_cons {α : Type} {P : List α → α → List α → Prop} {x : α} {xs : List α} :
    (∀ pre y post, x :: xs = pre ++ y :: post → P pre y post) ↔
      P [] x xs ∧ ∀ pre y post, xs = pre ++ y :: post → P (x :: pre) y post := by
  constructor
  · intro h
    refine ⟨h [] x xs rfl, fun pre y post hsplit => h (x :: pre) y post ?_⟩
    rw [hsplit]
    rfl
  · rintro ⟨hhead, htail⟩ pre y post hsplit
    cases pre with
    | nil =>
        cases hsplit
        exact hhead
    | cons z pre =>
        cases hsplit
        exact htail pre y post rfl

theorem add_length_cons (k : Nat) (x : Symbol table) (text : List (Symbol table)) :
    k + (x :: text).length = k + 1 + text.length := by
  rw [List.length_cons]
  omega

theorem add_textWeight_cons (w : Nat) (x : Symbol table) (text : List (Symbol table)) :
    w + textWeight (x :: text) = w + symbolWeight x + textWeight text := by
  rw [textWeight, Nat.add_assoc]

theorem resumes_quiet {k : Nat} {x : Symbol table} {text : List (Symbol table)} (hx : Quiet x) :
    Resumes k (x :: text) ↔ Resumes (k + 1) text := by
  have hall : ∀ pre : List (Symbol table),
      (∀ y ∈ x :: pre, Quiet y) ↔ ∀ y ∈ pre, Quiet y := by simp [hx]
  constructor
  · intro h
    have hfound := (forall_splits_cons.1 h.found).2
    have hmissing := h.missing
    simp only [hall, add_length_cons] at hfound hmissing
    exact ⟨hfound, hmissing⟩
  · intro h
    refine ⟨forall_splits_cons.2 ⟨fun _ hnot => absurd hx hnot, ?_⟩, ?_⟩
    · simp only [hall, add_length_cons]
      exact h.found
    · rw [hall, add_length_cons]
      exact h.missing

theorem resumes_loud {k : Nat} {x : Symbol table} {text : List (Symbol table)} (hx : ¬ Quiet x) :
    Resumes k (x :: text) ↔ ¬ StartsHigh x ∧ k < 70 := by
  constructor
  · intro h
    exact h.found [] x text rfl (by simp) hx
  · intro h
    refine ⟨forall_splits_cons.2 ⟨fun _ _ => h, fun pre y post _ hpre => ?_⟩, fun htext => ?_⟩
    · exact absurd (hpre x List.mem_cons_self) hx
    · exact absurd (htext x List.mem_cons_self) hx

theorem respects_resumes (text : List (Symbol table)) {w n k : Nat} (hw : 139 ≤ w)
    (hodd : w % 2 = 1) :
    Respects n k text (cut w n (symbolBytes text)) ↔ Resumes k text := by
  induction text generalizing w n k with
  | nil =>
      constructor
      · intro hk
        exact ⟨by simp, fun _ => hk⟩
      · intro h
        exact h.missing (by simp)
  | cons x text ih =>
      cases x with
      | one c narrow =>
          have hpass := (cut_one (w := w) (n := n) narrow text).trans (if_neg (by omega))
          rw [respects_cons hpass, ih (by omega) (by omega), resumes_quiet (quiet_one narrow)]
      | two c d lead found =>
          have hc := weight_le c
          have hd := weight_le d
          by_cases hquiet : Quiet (Symbol.two c d lead found)
          · have hweights := quiet_two.1 hquiet
            have hpass := (cut_two (w := w) (n := n) lead found text).trans
              ((if_neg (by omega)).trans (if_neg (by omega)))
            rw [respects_cons hpass, ih (by omega) (by omega), resumes_quiet hquiet]
          · rw [resumes_loud hquiet, startsHigh_two, cut_two]
            rw [quiet_two] at hquiet
            by_cases hstart : weight c = 1
            · rw [if_pos (by omega)]
              exact iff_of_false not_respects_inside (by simp [hstart])
            · rw [if_neg (by omega), if_pos (by omega)]
              exact respects_end.trans (by simp [hstart])

/-! ## Up to the crossing -/

/-- The character at which the count `w` of `k` characters reaches 139: it ends at 140,
or leaves an odd count and was not cut behind its first byte. -/
def Crosses (w k : Nat) (x : Symbol table) (post : List (Symbol table)) : Prop :=
  w + symbolWeight x = 140 ∨
    (w + symbolWeight x) % 2 = 1 ∧ (w = 138 → StartsHigh x) ∧ Resumes (k + 1) post

/-- The condition on a text: the character at which its count reaches 139, if there is
one, is crossed well. -/
def SplitsWell (text : List (Symbol table)) : Prop :=
  ∀ pre x post, text = pre ++ x :: post → textWeight pre < 139 →
    139 ≤ textWeight pre + symbolWeight x → Crosses (textWeight pre) pre.length x post

theorem crosses_odd {w k : Nat} {x : Symbol table} {post : List (Symbol table)}
    (hodd : (w + symbolWeight x) % 2 = 1) (hstart : w = 138 → StartsHigh x) :
    Crosses w k x post ↔ Resumes (k + 1) post := by
  constructor
  · rintro (heven | ⟨-, -, h⟩)
    · omega
    · exact h
  · intro h
    exact .inr ⟨hodd, hstart, h⟩

theorem respects_crosses {w n k : Nat} {x : Symbol table} {post : List (Symbol table)}
    (hw : w < 139) (hx : 139 ≤ w + symbolWeight x) (hk : 2 * k ≤ w) :
    Respects n k (x :: post) (cut w n (symbolBytes (x :: post))) ↔ Crosses w k x post := by
  cases x with
  | one c narrow =>
      have hweight : symbolWeight (.one c narrow : Symbol table) = 2 := symbolWeight_one narrow
      rw [hweight] at hx
      by_cases heven : (w + 2) % 2 = 0
      · rw [cut_one, if_pos ⟨hx, heven⟩]
        exact iff_of_true (respects_end.2 (by omega)) (.inl (by omega))
      · have hpass := (cut_one (w := w) (n := n) narrow post).trans (if_neg (by omega))
        rw [respects_cons hpass, respects_resumes post hx (by omega), crosses_odd (by omega)]
        omega
  | two c d lead found =>
      have hc := weight_le c
      have hd := weight_le d
      have hweight : symbolWeight (.two c d lead found) = weight c + weight d := symbolWeight_two
      rw [hweight] at hx
      by_cases hinside : 139 ≤ w + weight c ∧ (w + weight c) % 2 = 0
      · -- the count is 140 behind the first byte, which is not above 0xA0
        rw [cut_two, if_pos hinside]
        refine iff_of_false not_respects_inside ?_
        rw [Crosses, hweight, startsHigh_two]
        omega
      · by_cases heven : (w + weight c + weight d) % 2 = 0
        · rw [cut_two, if_neg hinside, if_pos (by omega)]
          exact iff_of_true (respects_end.2 (by omega)) (.inl (by omega))
        · have hpass := (cut_two (w := w) (n := n) lead found post).trans
            ((if_neg hinside).trans (if_neg (by omega)))
          have hstart : w = 138 → StartsHigh (.two c d lead found : Symbol table) := by
            rw [startsHigh_two]
            omega
          rw [respects_cons hpass, respects_resumes post (by omega) (by omega),
            crosses_odd (by omega) hstart]

theorem symbolWeight_ge (x : Symbol table) : 2 ≤ symbolWeight x := by
  cases x with
  | one c narrow => exact Nat.le_of_eq (symbolWeight_one narrow).symm
  | two c d lead found =>
      have hc := weight_le c
      have hd := weight_le d
      rw [symbolWeight_two]
      omega

theorem cut_below {w n : Nat} {x : Symbol table} {text : List (Symbol table)}
    (h : w + symbolWeight x < 139) :
    cut w n (symbolBytes (x :: text)) =
      cut (w + symbolWeight x) (n + x.bytes.length) (symbolBytes text) := by
  cases x with
  | one c narrow =>
      rw [symbolWeight_one] at h ⊢
      exact (cut_one narrow text).trans (if_neg (by omega))
  | two c d lead found =>
      rw [symbolWeight_two] at h ⊢
      refine (cut_two lead found text).trans ?_
      rw [if_neg (by omega), if_neg (by omega), Nat.add_assoc]
      rfl

theorem respects_iff (text : List (Symbol table)) {w n k : Nat} (hw : w < 139) (hk : 2 * k ≤ w) :
    Respects n k text (cut w n (symbolBytes text)) ↔
      ∀ pre x post, text = pre ++ x :: post → w + textWeight pre < 139 →
        139 ≤ w + textWeight pre + symbolWeight x →
        Crosses (w + textWeight pre) (k + pre.length) x post := by
  induction text generalizing w n k with
  | nil =>
      refine iff_of_true ?_ (by simp)
      change k + 0 ≤ 70
      omega
  | cons x text ih =>
      have hge := symbolWeight_ge x
      rw [forall_splits_cons]
      simp only [add_textWeight_cons, add_length_cons]
      by_cases hx : w + symbolWeight x < 139
      · rw [respects_cons (cut_below hx), ih hx (by omega)]
        exact ⟨fun h => ⟨fun _ hcross => absurd hx (Nat.not_lt.2 hcross), h⟩, fun h => h.2⟩
      · rw [respects_crosses hw (by omega) hk]
        refine ⟨fun h => ⟨fun _ _ => h, fun pre y post _ hpre => ?_⟩, fun h => h.1 hw ?_⟩
        · omega
        · exact Nat.not_lt.1 hx

theorem respects_splitsWell (text : List (Symbol table)) :
    Respects 0 0 text (cut 0 0 (symbolBytes text)) ↔ SplitsWell text := by
  rw [respects_iff text (by decide) (by decide)]
  simp only [Nat.zero_add, SplitsWell]

/-! ## CheckFragment -/

/-- A message is cut behind some of its characters, with at most 140 octets of Unicode;
one that is not cut has at most 140. -/
structure CutsAtCharacters (text : List (Symbol table)) (ret : Int) : Prop where
  here : 0 ≤ ret → ∃ pre post, text = pre ++ post ∧ ret = (symbolBytes pre).length ∧
    (converted table (symbolBytes pre)).ret ≤ 140
  nowhere : ret = -1 → (converted table (symbolBytes text)).ret ≤ 140

theorem converted_ret (text : List (Symbol table)) :
    (converted table (symbolBytes text)).ret = 2 * text.length := by
  rw [converted_symbols]
  exact octets_length text

theorem cutsAtCharacters_respects (text : List (Symbol table)) (r : Option Nat) :
    CutsAtCharacters text (match r with | none => -1 | some n => n) ↔ Respects 0 0 text r := by
  cases r with
  | none =>
      constructor
      · intro h
        have hret := h.nowhere rfl
        rw [converted_ret] at hret
        change 0 + text.length ≤ 70
        omega
      · intro h
        have hlen : 0 + text.length ≤ 70 := h
        exact ⟨fun hneg => absurd hneg (by decide), fun _ => by rw [converted_ret]; omega⟩
  | some n =>
      constructor
      · intro h
        obtain ⟨pre, post, hsplit, hn, hret⟩ := h.here (Int.natCast_nonneg n)
        have hn : (n : Int) = (symbolBytes pre).length := hn
        rw [converted_ret] at hret
        exact ⟨pre, post, hsplit, by omega, by omega⟩
      · rintro ⟨pre, post, hsplit, hn, hk⟩
        have hn : n = (symbolBytes pre).length := hn.trans (Nat.zero_add _)
        refine ⟨fun _ => ⟨pre, post, hsplit, by rw [hn], ?_⟩, fun hneg => ?_⟩
        · rw [converted_ret]
          omega
        · dsimp only at hneg
          omega

theorem symbolBytes_length_le (text : List (Symbol table)) :
    (symbolBytes text).length ≤ 2 * text.length := by
  induction text with
  | nil => exact Nat.le_refl 0
  | cons x text ih =>
      have hx : x.bytes.length ≤ 2 := by cases x <;> simp [Symbol.bytes]
      rw [symbolBytes_cons, List.length_append, List.length_cons]
      omega

/-- On a message that the `int` of `StrGB2Unicode` can count, no counter overflows. -/
theorem checkFragment_eq {text : List (Symbol table)} {msg : Bytes}
    (hmsg : msg.Holds (symbolBytes text)) (hfits : 2 * text.length ≤ 0x7fffffff) :
    checkFragment msg (UInt32.ofNat (symbolBytes text).length) =
      match cut 0 0 (symbolBytes text) with
      | none => -1
      | some n => n := by
  have hlen := symbolBytes_length_le text
  have hofNat : (UInt32.ofNat (symbolBytes text).length).toNat = (symbolBytes text).length := by
    simp
    omega
  rw [checkFragment, hofNat, hmsg.map_range]
  refine checkFragmentLoop_eq (symbolBytes text) ?_ ?_
  · change 0 + 2 * 0 + 2 * (symbolBytes text).length < 0x100000000
    omega
  · change 0 + 0 + (symbolBytes text).length < 0x80000000
    omega

/-- `CheckFragment` cuts at characters exactly when the count crosses 139 well. -/
theorem checkFragment_cuts_iff (text : List (Symbol table)) (msg : Bytes)
    (hmsg : msg.Holds (symbolBytes text)) (hfits : 2 * text.length ≤ 0x7fffffff) :
    CutsAtCharacters text (checkFragment msg (UInt32.ofNat (symbolBytes text).length)) ↔
      SplitsWell text := by
  rw [checkFragment_eq hmsg hfits, cutsAtCharacters_respects, respects_splitsWell]

theorem textWeight_of_two {text : List (Symbol table)} (h : ∀ x ∈ text, symbolWeight x = 2) :
    textWeight text = 2 * text.length := by
  induction text with
  | nil => rfl
  | cons x text ih =>
      have hsum : textWeight (x :: text) = symbolWeight x + textWeight text := rfl
      rw [hsum, h x (by simp), ih fun y hy => h y (by simp [hy]), List.length_cons]
      omega

/-- Text of ASCII and of characters with both bytes above 0xA0, as GB2312 has them,
splits well. -/
theorem splitsWell_of_two {text : List (Symbol table)} (h : ∀ x ∈ text, symbolWeight x = 2) :
    SplitsWell text := by
  rintro pre x post rfl hpre hx
  have hweight := textWeight_of_two fun y hy => h y (List.mem_append_left _ hy)
  have htwo := h x (by simp)
  rw [htwo] at hx
  refine .inl ?_
  rw [htwo]
  omega

def testText : List (Symbol someRows) :=
  [.two 0xd6 0xd0 (by decide) (by decide), .two 0xb9 0xfa (by decide) (by decide),
    .one 0x2e (by decide)]

theorem checkFragment_cuts_test :
    CutsAtCharacters testText (checkFragment (Bytes.literal [0xd6, 0xd0, 0xb9, 0xfa, 0x2e]) 5) :=
  (checkFragment_cuts_iff testText _ (Bytes.literal_holds (by decide)) (by decide)).2
    (splitsWell_of_two (by decide))

def codeRows : Table := #[(0x00A4, 0xA1E8), (0x4e02, 0x8140), (0xFFE5, 0xA3A4)]

theorem gb2312_codeRows : Gb2312 codeRows where
  sorted := by simp [codeRows]
  oneToOne := by simp [codeRows]
  aboveAscii := by simp [codeRows]
  leadByte := by simp [codeRows]
  secondByte := by simp [codeRows]

def letters : List (Symbol codeRows) := List.replicate 69 (.one 0x41 (by decide))

def smallestCode : Symbol codeRows := .two 0x81 0x40 (by decide) (by decide)

/-- Behind 69 letters the character 0x8140 is cut in two. -/
theorem character_cut_in_two :
    ¬ ∀ (table : Table) (_ : Gb2312 table) (text : List (Symbol table)) (msg : Bytes)
      (_ : msg.Holds (symbolBytes text)) (_ : 2 * text.length ≤ 0x7fffffff),
      CutsAtCharacters text (checkFragment msg (UInt32.ofNat (symbolBytes text).length)) := by
  intro hclaim
  have hholds := Bytes.literal_holds (s := symbolBytes (letters ++ [smallestCode])) (by decide)
  have hfits : 2 * (letters ++ [smallestCode]).length ≤ 0x7fffffff := by decide
  have hcuts := hclaim codeRows gb2312_codeRows _ _ hholds hfits
  rw [checkFragment_eq hholds hfits, cutsAtCharacters_respects, respects_splitsWell] at hcuts
  have hweight : textWeight letters = 138 := textWeight_of_two (by decide)
  have hcode : symbolWeight smallestCode = 4 := rfl
  have hcross := hcuts letters smallestCode [] rfl (by omega) (by omega)
  rw [Crosses, hweight, hcode] at hcross
  omega

end Mobile.Sms.Proofs.Splitting
