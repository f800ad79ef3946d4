import Mathlib.Data.List.TakeWhile
import Mobile.ProofSupport.Search
import Mobile.Token.Reference

/-!
# Content and place

A place shows the text from its cursor to the terminator.  The tokenizer of the
content does to that text what the tokenizer in place does to the memory, so what
is said of the content holds of the code.
-/

namespace Mobile.Token.Proofs.Content

open Mobile.ProofSupport.Memory Mobile.ProofSupport.Search
open Mobile.Token.Scan
open Mobile.Token.InPlace
open Mobile.Token.Tokenizer (Cursor isSpace)

/-! ## Text under the cursor -/

def PointsTo (s : Place) (t : Line) : Prop :=
  ∃ i tail, s.cur = some i ∧ s.bytes.drop i = t ++ 0 :: tail ∧ (0 : UInt8) ∉ t

def Shows (s : Place) : Cursor → Prop
  | none => s.cur = none
  | some t => PointsTo s t

variable {s : Place} {t : Line}

theorem PointsTo.ne_none (h : PointsTo s t) : s.cur ≠ none := by
  obtain ⟨i, tail, hcur, -⟩ := h
  simp [hcur]

theorem PointsTo.text_eq (h : PointsTo s t) : s.text = some t := by
  obtain ⟨i, tail, hcur, hdrop, hzero⟩ := h
  simp [Place.text, hcur, hdrop, cString_append_zero hzero]

theorem PointsTo.read_eq (h : PointsTo s t) : s.read = some (t.headD 0) := by
  obtain ⟨i, tail, hcur, hdrop, -⟩ := h
  have hget : s.bytes[i]? = (s.bytes.drop i)[0]? := by simp
  simp only [Place.read, hcur, Option.bind_eq_bind, Option.bind_some, hget, hdrop]
  cases t <;> rfl

theorem PointsTo.advance {c : UInt8} (h : PointsTo s (c :: t)) : PointsTo s.advance t := by
  obtain ⟨i, tail, hcur, hdrop, hzero⟩ := h
  refine ⟨i + 1, tail, by simp [Place.advance, hcur], ?_, by simp_all⟩
  change s.bytes.drop (i + 1) = _
  rw [← List.drop_drop, hdrop]
  rfl

theorem PointsTo.stringAt_eq {i : Nat} {bytes : List UInt8} (h : PointsTo ⟨bytes, some i⟩ t) :
    stringAt bytes i = some t := by
  obtain ⟨j, tail, hcur, hdrop, hzero⟩ := h
  cases hcur
  simp only at hdrop
  simp [stringAt, hdrop, strlen_append_zero hzero]

theorem scan_terminated {p : UInt8 → Bool} (hp : p 0 = false) (t tail : List UInt8) :
    scan p (t ++ 0 :: tail) = some (t.takeWhile p).length := by
  induction t with
  | nil => simp [scan, hp]
  | cons c t ih => by_cases hc : p c = true <;> simp [scan, hc, ih]

theorem drop_takeWhile_length {p : UInt8 → Bool} (t tail : List UInt8) :
    (t ++ tail).drop (t.takeWhile p).length = t.dropWhile p ++ tail := by
  induction t with
  | nil => rfl
  | cons c t ih => by_cases hc : p c = true <;> simp [hc, ih]

theorem PointsTo.skip {p : UInt8 → Bool} (hp : p 0 = false) (h : PointsTo s t) :
    ∃ s', s.skip p = some s' ∧ s'.bytes = s.bytes ∧ PointsTo s' (t.dropWhile p) := by
  obtain ⟨i, tail, hcur, hdrop, hzero⟩ := h
  refine ⟨{ s with cur := some (i + (t.takeWhile p).length) }, ?_, rfl, _, tail, rfl, ?_, ?_⟩
  · simp [Place.skip, hcur, hdrop, scan_terminated hp]
  · rw [← List.drop_drop, hdrop, drop_takeWhile_length]
  · exact fun hmem => hzero ((List.dropWhile_suffix p).subset hmem)

theorem dropWhile_ne_zero_and (p : UInt8 → Bool) (ht : (0 : UInt8) ∉ t) :
    t.dropWhile (fun c => c ≠ 0 && p c) = t.dropWhile p := by
  induction t with
  | nil => rfl
  | cons c t ih =>
      have hc : c ≠ 0 := fun h => ht (by simp [h])
      have hrest : (0 : UInt8) ∉ t := fun h => ht (by simp [h])
      simp only [List.dropWhile_cons, ih hrest]
      simp [hc]

theorem PointsTo.zero_not_mem (h : PointsTo s t) : (0 : UInt8) ∉ t := by
  obtain ⟨-, -, -, -, hzero⟩ := h
  exact hzero

theorem dropWhile_ne_absent {d : UInt8} (hd : d ∉ t) : t.dropWhile (· ≠ d) = [] := by
  rw [List.dropWhile_eq_nil_iff]
  intro c hc
  simpa using fun h : c = d => hd (h ▸ hc)

theorem absent_or_split (d : UInt8) (t : Line) :
    d ∉ t ∨ ∃ l r, t = l ++ d :: r ∧ d ∉ l := by
  by_cases hd : d ∈ t
  · exact Or.inr (List.eq_append_cons_of_mem hd)
  · exact Or.inl hd

/-! ## One token -/

/-- Behind white space a quote opens that is not closed. -/
def unclosedQuote (t : Line) : Bool :=
  match t.dropWhile isSpace with
  | 0x22 :: rest => !rest.contains 0x22
  | _ => false

theorem PointsTo.skipWhiteSpace (h : PointsTo s t) :
    ∃ s', InPlace.skipWhiteSpace s = some s' ∧ Reference.skipWhiteSpace s = some s' ∧
      PointsTo s' (t.dropWhile isSpace) := by
  obtain ⟨s', hskip, -, hs'⟩ := h.skip (p := fun c => c ≠ 0 && isSpace c) (by simp)
  rw [dropWhile_ne_zero_and isSpace h.zero_not_mem] at hs'
  have href : Reference.skipWhiteSpace s = InPlace.skipWhiteSpace s := if_neg h.ne_none
  exact ⟨s', hskip, href.trans hskip, hs'⟩

theorem PointsTo.skipNextComma (h : PointsTo s t) :
    ∃ s', InPlace.skipNextComma s = some s' ∧ Reference.skipNextComma s = some s' ∧
      s'.bytes = s.bytes ∧ PointsTo s' ((t.dropWhile (· ≠ 0x2c)).drop 1) := by
  obtain ⟨s₁, hskip, hbytes, hs₁⟩ := h.skip (p := fun c => c ≠ 0 && c ≠ 0x2c) (by simp)
  rw [dropWhile_ne_zero_and (· ≠ 0x2c) h.zero_not_mem] at hs₁
  have href : Reference.skipNextComma s = InPlace.skipNextComma s := if_neg h.ne_none
  rw [href]
  unfold InPlace.skipNextComma
  rw [hskip]
  rcases absent_or_split 0x2c t with habsent | ⟨l, r, rfl, hl⟩
  · rw [dropWhile_ne_absent habsent] at hs₁ ⊢
    exact ⟨s₁, by simp [hs₁.read_eq], by simp [hs₁.read_eq], hbytes, hs₁⟩
  · rw [dropWhile_ne_split hl] at hs₁ ⊢
    exact ⟨s₁.advance, by simp [hs₁.read_eq], by simp [hs₁.read_eq], hbytes, hs₁.advance⟩

theorem PointsTo.strsep_absent {delim : UInt8} (h : PointsTo s t) (habsent : delim ∉ t) :
    InPlace.strsep delim s = some (s.cur, { s with cur := none }) := by
  obtain ⟨i, tail, hcur, hdrop, hzero⟩ := h
  have hscan : scan (fun c => c ≠ 0 && c ≠ delim) (t ++ 0 :: tail) = some t.length := by
    refine scan_append_cons (fun c hc => ?_) (by simp)
    have hne : c ≠ 0 ∧ c ≠ delim := ⟨fun h => hzero (h ▸ hc), fun h => habsent (h ▸ hc)⟩
    simp [hne]
  have hbyte : s.bytes[i + t.length]? = some 0 := by
    rw [← List.getElem?_drop, hdrop]
    simp
  simp only [InPlace.strsep, hcur, hdrop, hscan, Option.bind_eq_bind, Option.bind_some, hbyte]
  rfl

theorem PointsTo.strsep_split {delim : UInt8} {l r : Line} (h : PointsTo s (l ++ delim :: r))
    (hl : delim ∉ l) :
    ∃ i s', s.cur = some i ∧ InPlace.strsep delim s = some (some i, s') ∧
      PointsTo ⟨s'.bytes, some i⟩ l ∧ PointsTo s' r := by
  obtain ⟨i, tail, hcur, hdrop, hzero⟩ := h
  simp only [List.mem_append, List.mem_cons, not_or] at hzero
  obtain ⟨hzl, hzd, hzr⟩ := hzero
  rw [List.append_assoc, List.cons_append] at hdrop
  have hscan : scan (fun c => c ≠ 0 && c ≠ delim) (l ++ delim :: (r ++ 0 :: tail)) =
      some l.length := by
    refine scan_append_cons (fun c hc => ?_) (by simp)
    have hne : c ≠ 0 ∧ c ≠ delim := ⟨fun h => hzl (h ▸ hc), fun h => hl (h ▸ hc)⟩
    simp [hne]
  have hbyte : s.bytes[i + l.length]? = some delim := by
    rw [← List.getElem?_drop, hdrop]
    simp
  have hset : (s.bytes.set (i + l.length) 0).drop i = l ++ 0 :: (r ++ 0 :: tail) := by
    rw [List.drop_set, if_neg (by omega), hdrop]
    simp
  refine ⟨i, ⟨s.bytes.set (i + l.length) 0, some (i + l.length + 1)⟩, hcur, ?_,
    ⟨i, r ++ 0 :: tail, rfl, hset, hzl⟩, ⟨_, tail, rfl, ?_, hzr⟩⟩
  · simp only [InPlace.strsep, hcur, hdrop, hscan, Option.bind_eq_bind, Option.bind_some, hbyte]
    exact if_neg (Ne.symm hzd)
  · rw [Nat.add_assoc, ← List.drop_drop, hset]
    simp

theorem content_strsep_absent {d : UInt8} (hd : d ∉ t) : Tokenizer.strsep t d = (t, none) := by
  simp only [Tokenizer.strsep, dropWhile_ne_absent hd]

theorem content_strsep_split {d : UInt8} {l r : Line} (hd : d ∉ l) :
    Tokenizer.strsep (l ++ d :: r) d = (l, some r) := by
  simp only [Tokenizer.strsep, dropWhile_ne_split hd, takeWhile_ne_split hd]

theorem PointsTo.strsep_shows (delim : UInt8) (h : PointsTo s t) :
    ∃ i s', InPlace.strsep delim s = some (some i, s') ∧
      PointsTo ⟨s'.bytes, some i⟩ (Tokenizer.strsep t delim).1 ∧
      Shows s' (Tokenizer.strsep t delim).2 := by
  rcases absent_or_split delim t with habsent | ⟨l, r, rfl, hl⟩
  · have hsep := h.strsep_absent habsent
    obtain ⟨i, tail, hcur, hdrop, hzero⟩ := h
    rw [content_strsep_absent habsent]
    exact ⟨i, { s with cur := none }, by rw [hsep, hcur], ⟨i, tail, rfl, hdrop, hzero⟩, rfl⟩
  · obtain ⟨i, s', -, hsep, htok, hs'⟩ := h.strsep_split hl
    rw [content_strsep_split hl]
    exact ⟨i, s', hsep, htok, hs'⟩

theorem PointsTo.nextTok_quoted {rest : Line} (h : PointsTo s t)
    (hquote : t.dropWhile isSpace = 0x22 :: rest) :
    ∃ s₁, PointsTo s₁ rest ∧
      nextTok s = (do
        let (ret, s₂) ← InPlace.strsep 0x22 s₁
        let s₃ ← InPlace.skipNextComma s₂
        return (ret, s₃)) ∧
      Reference.nextTok s = (do
        let (ret, s₂) ← InPlace.strsep 0x22 s₁
        let s₃ ← Reference.skipNextComma s₂
        return (ret, s₃)) := by
  obtain ⟨s₁, hport, href, hs₁⟩ := h.skipWhiteSpace
  rw [hquote] at hs₁
  refine ⟨s₁.advance, hs₁.advance, ?_, ?_⟩
  · simp [nextTok, hport, hs₁.ne_none, hs₁.read_eq]
  · simp [Reference.nextTok, href, hs₁.ne_none, hs₁.read_eq]

theorem PointsTo.nextTok_unquoted (h : PointsTo s t)
    (hquote : ∀ rest, t.dropWhile isSpace ≠ 0x22 :: rest) :
    ∃ s₁, PointsTo s₁ (t.dropWhile isSpace) ∧ nextTok s = InPlace.strsep 0x2c s₁ ∧
      Reference.nextTok s = InPlace.strsep 0x2c s₁ := by
  obtain ⟨s₁, hport, href, hs₁⟩ := h.skipWhiteSpace
  have hhead : (t.dropWhile isSpace).headD 0 ≠ 0x22 := by
    intro hhead
    cases hrest : t.dropWhile isSpace with
    | nil => simp [hrest] at hhead
    | cons c rest =>
        rw [hrest, List.headD_cons] at hhead
        exact hquote rest (by rw [hrest, hhead])
  refine ⟨s₁, hs₁, ?_, ?_⟩
  · simp only [nextTok, hport, Option.bind_eq_bind, Option.bind_some, if_neg hs₁.ne_none,
      hs₁.read_eq, if_neg hhead]
  · simp only [Reference.nextTok, href, Option.bind_eq_bind, Option.bind_some,
      if_neg hs₁.ne_none, hs₁.read_eq, if_neg hhead]

theorem content_nextTok_quoted {rest : Line} (hquote : t.dropWhile isSpace = 0x22 :: rest) :
    Tokenizer.nextTok (some t) = (do
      let (ret, cur) := Tokenizer.strsep rest 0x22
      let rest ← Tokenizer.skipNextComma cur
      return (ret, some rest)) := by
  simp [Tokenizer.nextTok, Tokenizer.skipWhiteSpace, hquote]

theorem content_nextTok_unquoted (hquote : ∀ rest, t.dropWhile isSpace ≠ 0x22 :: rest) :
    Tokenizer.nextTok (some t) = some (Tokenizer.strsep (t.dropWhile isSpace) 0x2c) := by
  simp only [Tokenizer.nextTok, Tokenizer.skipWhiteSpace, Option.bind_eq_bind, Option.bind_some,
    Option.pure_def]

theorem unclosedQuote_iff : unclosedQuote t = true ↔
    ∃ rest, t.dropWhile isSpace = 0x22 :: rest ∧ 0x22 ∉ rest := by
  unfold unclosedQuote
  split
  · rename_i rest hrest
    simp [hrest]
  · rename_i hne
    simpa using fun rest hrest => absurd hrest (hne rest)

/-- Where no quote is left open the port finds the reference's token, and shows
that of the content. -/
theorem PointsTo.nextTok_closed (h : PointsTo s t) (hclosed : unclosedQuote t = false) :
    ∃ i s' tok cur, nextTok s = some (some i, s') ∧ Reference.nextTok s = some (some i, s') ∧
      Tokenizer.nextTok (some t) = some (tok, cur) ∧ PointsTo ⟨s'.bytes, some i⟩ tok ∧
      Shows s' cur := by
  by_cases hquote : ∃ rest, t.dropWhile isSpace = 0x22 :: rest
  · obtain ⟨rest, hquote⟩ := hquote
    obtain ⟨s₁, hs₁, hport, href⟩ := h.nextTok_quoted hquote
    rcases absent_or_split 0x22 rest with habsent | ⟨l, r, rfl, hl⟩
    · exact absurd (unclosedQuote_iff.2 ⟨rest, hquote, habsent⟩) (by simp [hclosed])
    · obtain ⟨i, s₂, -, hsep, htok, hs₂⟩ := hs₁.strsep_split hl
      obtain ⟨s₃, hcomma, hrefComma, hbytes, hs₃⟩ := hs₂.skipNextComma
      refine ⟨i, s₃, l, some ((r.dropWhile (· ≠ 0x2c)).drop 1), ?_, ?_, ?_, hbytes ▸ htok, hs₃⟩
      · simp [hport, hsep, hcomma]
      · simp [href, hsep, hrefComma]
      · simp [content_nextTok_quoted hquote, content_strsep_split hl, Tokenizer.skipNextComma]
  · rw [not_exists] at hquote
    obtain ⟨s₁, hs₁, hport, href⟩ := h.nextTok_unquoted hquote
    obtain ⟨i, s', hsep, htok, hs'⟩ := hs₁.strsep_shows 0x2c
    exact ⟨i, s', _, _, hport.trans hsep, href.trans hsep, content_nextTok_unquoted hquote,
      htok, hs'⟩

theorem content_nextTok_unclosed (hopen : unclosedQuote t = true) :
    Tokenizer.nextTok (some t) = none := by
  obtain ⟨rest, hquote, habsent⟩ := unclosedQuote_iff.1 hopen
  rw [content_nextTok_quoted hquote, content_strsep_absent habsent]
  rfl

/-- At an open quote the port reads through the null cursor that `strsep` leaves. -/
theorem PointsTo.nextTok_unclosed (h : PointsTo s t) (hopen : unclosedQuote t = true) :
    nextTok s = none ∧ Tokenizer.nextTok (some t) = none ∧
      ∃ i s' tok, Reference.nextTok s = some (some i, s') ∧ PointsTo ⟨s'.bytes, some i⟩ tok ∧
        s'.cur = none := by
  obtain ⟨rest, hquote, habsent⟩ := unclosedQuote_iff.1 hopen
  obtain ⟨s₁, hs₁, hport, href⟩ := h.nextTok_quoted hquote
  have hsep := hs₁.strsep_absent habsent
  refine ⟨?_, content_nextTok_unclosed hopen, ?_⟩
  · simp [hport, hsep, InPlace.skipNextComma, Place.skip]
  · obtain ⟨i, tail, hcur, hdrop, hzero⟩ := hs₁
    refine ⟨i, { s₁ with cur := none }, rest, ?_, ⟨i, tail, rfl, hdrop, hzero⟩, rfl⟩
    simp [href, hsep, hcur, Reference.skipNextComma]

/-! ## The calls -/

theorem atTokStart_shows {cur : Cursor} (h : Shows s cur) :
    ∃ s', InPlace.atTokStart s = some ((Tokenizer.atTokStart cur).1, s') ∧
      Shows s' (Tokenizer.atTokStart cur).2 := by
  cases cur with
  | none =>
      have hcur : s.cur = none := h
      exact ⟨s, by simp [InPlace.atTokStart, hcur, Tokenizer.atTokStart], hcur⟩
  | some t =>
      have ht : PointsTo s t := h
      obtain ⟨s₁, hskip, -, hs₁⟩ := ht.skip (p := fun d => d ≠ 0 && d ≠ 0x3a) (by simp)
      rw [dropWhile_ne_zero_and (· ≠ 0x3a) ht.zero_not_mem] at hs₁
      simp only [InPlace.atTokStart, if_neg ht.ne_none, strchr, hskip]
      rcases absent_or_split 0x3a t with habsent | ⟨l, r, rfl, hl⟩
      · rw [dropWhile_ne_absent habsent] at hs₁
        simp only [Tokenizer.atTokStart, dropWhile_ne_absent habsent]
        exact ⟨{ s₁ with cur := none }, by simp [hs₁.read_eq], rfl⟩
      · rw [dropWhile_ne_split hl] at hs₁
        simp only [Tokenizer.atTokStart, dropWhile_ne_split hl]
        exact ⟨s₁.advance, by simp [hs₁.read_eq, hs₁.ne_none], hs₁.advance⟩

/-- The return code and the stored value are those of the content. -/
def SameAnswer (p : Int × Option Int × Place) (q : Int × Option Int × Cursor) : Prop :=
  p.1 = q.1 ∧ p.2.1 = q.2.1 ∧ Shows p.2.2 q.2.2

theorem atTokNextInt_shows {cur : Cursor} (h : Shows s cur) :
    Option.Rel SameAnswer (atTokNextInt s) (Tokenizer.atTokNextInt cur) := by
  cases cur with
  | none =>
      have hcur : s.cur = none := h
      simp only [atTokNextInt, hcur, Tokenizer.atTokNextInt, if_true]
      exact .some ⟨rfl, rfl, hcur⟩
  | some t =>
      have ht : PointsTo s t := h
      simp only [atTokNextInt, if_neg ht.ne_none, atTokNextIntBase, Tokenizer.atTokNextInt,
        reduceCtorEq, if_false]
      by_cases hopen : unclosedQuote t = true
      · obtain ⟨hport, hcontent, -⟩ := ht.nextTok_unclosed hopen
        rw [hport, hcontent]
        exact .none
      · obtain ⟨i, s', tok, cur, hport, -, hcontent, htok, hs'⟩ :=
          ht.nextTok_closed (by simpa using hopen)
        rw [hport, hcontent]
        simp only [Option.bind_eq_bind, Option.bind_some, htok.stringAt_eq]
        exact .some ⟨rfl, rfl, hs'⟩

theorem atTokNextBool_shows {cur : Cursor} (h : Shows s cur) :
    Option.Rel SameAnswer (atTokNextBool true s) (Tokenizer.atTokNextBool cur) := by
  have hint := atTokNextInt_shows h
  simp only [atTokNextBool, Tokenizer.atTokNextBool]
  generalize atTokNextInt s = p, Tokenizer.atTokNextInt cur = q at hint ⊢
  cases hint with
  | none => exact .none
  | some hrel =>
      rename_i p q
      obtain ⟨ret, result, s'⟩ := p
      obtain ⟨ret', result', cur'⟩ := q
      obtain ⟨hret, hresult, hs'⟩ := hrel
      simp only at hret hresult hs'
      subst hret hresult
      simp only [Option.bind_eq_bind, Option.bind_some, if_true]
      split_ifs
      · exact .some ⟨rfl, rfl, hs'⟩
      · exact .some ⟨rfl, rfl, hs'⟩
      · exact .some ⟨rfl, rfl, hs'⟩

/-- A string is asked for in place where it is on the content: the pointer stored
points to the token. -/
theorem atTokNextStr_shows {cur : Cursor} (h : Shows s cur) :
    Option.Rel
      (fun p q => p.1 = q.1 ∧ (∃ i, p.2.1 = some (some i) ∧ PointsTo ⟨p.2.2.bytes, some i⟩ q.2.1) ∧
        Shows p.2.2 q.2.2)
      (atTokNextStr s) (Tokenizer.atTokNextStr cur) := by
  cases cur with
  | none =>
      have hcur : s.cur = none := h
      simp only [atTokNextStr, nextTok, InPlace.skipWhiteSpace, Place.skip, hcur]
      exact .none
  | some t =>
      have ht : PointsTo s t := h
      simp only [atTokNextStr, Tokenizer.atTokNextStr]
      by_cases hopen : unclosedQuote t = true
      · obtain ⟨hport, hcontent, -⟩ := ht.nextTok_unclosed hopen
        rw [hport, hcontent]
        exact .none
      · obtain ⟨i, s', tok, cur, hport, -, hcontent, htok, hs'⟩ :=
          ht.nextTok_closed (by simpa using hopen)
        rw [hport, hcontent]
        exact .some ⟨rfl, ⟨i, rfl, htok⟩, hs'⟩

end Mobile.Token.Proofs.Content
