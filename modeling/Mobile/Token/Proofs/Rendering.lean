import Mobile.Token.Proofs.Numerals
import Mobile.Token.Proofs.Port

/-!
# Lines of tokens

A line is a prefix, a colon and tokens behind commas.  Reading it token by token
gives the tokens back: a quoted token leaves the cursor behind its comma or at the
terminator, any other leaves it behind the comma or null.  The terminators that
`strsep` writes lie behind all the tokens read before, which therefore stay.
-/

namespace Mobile.Token.Proofs.Rendering

open Mobile.ProofSupport.Search (dropWhile_ne_split)
open Mobile.ProofSupport.Memory
open Mobile.Token.Scan
open Mobile.Token.InPlace
open Mobile.Token.Tokenizer (Cursor isSpace toInt clampLong)
open Mobile.Token.Proofs.Content Mobile.Token.Proofs.Numerals Mobile.Token.Proofs.Port

/-! ## Tokens and lines -/

/-- Text without a comma that starts with neither white space nor a quote. -/
structure Bare (s : Line) : Prop where
  noComma : 0x2c ∉ s
  noNul : (0 : UInt8) ∉ s
  start : ∀ c ∈ s.head?, isSpace c = false ∧ c ≠ 0x22

inductive Tok
  | int (v : Int) (fits : -0x80000000 ≤ v ∧ v ≤ 0x7fffffff)
  | quoted (s : Line) (noQuote : 0x22 ∉ s) (noNul : (0 : UInt8) ∉ s)
  | plain (s : Line) (bare : Bare s)

namespace Tok

def text : Tok → Line
  | int v _ => (decimal v).text
  | quoted s _ _ => 0x22 :: s ++ [0x22]
  | plain s _ => s

def content : Tok → Line
  | int v _ => (decimal v).text
  | quoted s _ _ => s
  | plain s _ => s

def call : Tok → Call
  | int _ _ => .nextInt
  | _ => .nextStr

end Tok

structure Field where
  space : Line
  spaces : ∀ c ∈ space, isSpace c = true
  tok : Tok

def Field.text (f : Field) : Line := f.space ++ f.tok.text

def fieldsText : List Field → Line
  | [] => []
  | [f] => f.text
  | f :: fs => f.text ++ 0x2c :: fieldsText fs

def render (pre : Line) (fs : List Field) : Line := pre ++ 0x3a :: fieldsText fs

/-! ## Reading a line -/

/-- What `AtTokHasMore` answers before a token, and what the caller sees of it. -/
structure Reading where
  more : Int
  seen : Seen

/-- `AtTokHasMore` and the matching call for every token, and `AtTokHasMore` at the
end. -/
def readTokens (s : Place) : List Tok → Option (List Reading × Int × Place)
  | [] => do return ([], ← atTokHasMore s, s)
  | t :: ts => do
    let more ← atTokHasMore s
    let seen ← t.call.ported s
    let (rs, last, s) ← readTokens seen.place ts
    return (⟨more, seen⟩ :: rs, last, s)

/-- The token is read: code 0 with the number, or with a pointer to the string, which
is there after the call and in the bytes at the end. -/
def Read (bytes : List UInt8) (t : Tok) (r : Reading) : Prop :=
  r.seen.ret = 0 ∧
    match t with
    | .int v _ => r.seen.out = some (.int v)
    | .quoted s _ _ | .plain s _ => ∃ i, r.seen.out = some (.str (some i)) ∧
        stringAt r.seen.place.bytes i = some s ∧ stringAt bytes i = some s

/-! ## Tokens of the content -/

theorem Bare.append {s t : Line} (hs : Bare s) (ht : Bare t) : Bare (s ++ t) where
  noComma := by simp [hs.noComma, ht.noComma]
  noNul := by simp [hs.noNul, ht.noNul]
  start := by
    cases s with
    | nil => exact ht.start
    | cons c s => exact hs.start

theorem sign_bare (sign : Sign) : Bare sign.text := by
  cases sign with
  | none => exact ⟨by simp [Sign.text], by simp [Sign.text], by simp [Sign.text]⟩
  | minus => exact ⟨by decide, by decide, by simp [Sign.text, isSpace]⟩
  | plus => exact ⟨by decide, by decide, by simp [Sign.text, isSpace]⟩

theorem digits_bare (ds : List (Fin 10)) : Bare (ds.map digitChar) := by
  have habsent : ∀ c ∈ ([0x2d, 0x2b, 0x22, 0x2c, 0x3a, 0] : List UInt8), c ∉ ds.map digitChar := by
    intro c hc hmem
    obtain ⟨d, -, rfl⟩ := List.mem_map.1 hmem
    exact (digitChar_plain d).2 hc
  refine ⟨habsent 0x2c (by simp), habsent 0 (by simp), fun c hc => ?_⟩
  have hmem := List.mem_of_mem_head? hc
  obtain ⟨d, -, rfl⟩ := List.mem_map.1 hmem
  exact ⟨(digitChar_plain d).1, fun hquote => habsent 0x22 (by simp) (hquote ▸ hmem)⟩

theorem decimal_bare (v : Int) : Bare (decimal v).text :=
  (sign_bare (decimal v).sign).append (digits_bare (decimal v).digits)

def behind : Cursor → Line
  | none => []
  | some rest => 0x2c :: rest

def after : Tok → Cursor → Cursor
  | .quoted _ _ _, none => some []
  | _, more => more

theorem dropWhile_spaces {space t : Line} (hspace : ∀ c ∈ space, isSpace c = true)
    (ht : ∀ c ∈ t.head?, isSpace c = false) : (space ++ t).dropWhile isSpace = t := by
  rw [List.dropWhile_append_of_pos hspace]
  cases t with
  | nil => rfl
  | cons c t => exact List.dropWhile_cons_of_neg (by simp [ht c (by simp)])

theorem Bare.behind_start {s : Line} (h : Bare s) (more : Cursor) :
    ∀ c ∈ (s ++ behind more).head?, isSpace c = false ∧ c ≠ 0x22 := by
  cases s with
  | nil => cases more <;> simp [behind, isSpace]
  | cons c s => exact h.start

theorem nextTok_bare {space s : Line} (hspace : ∀ c ∈ space, isSpace c = true) (h : Bare s)
    (more : Cursor) :
    unclosedQuote (space ++ (s ++ behind more)) = false ∧
      Tokenizer.nextTok (some (space ++ (s ++ behind more))) = some (s, more) := by
  have hstart := h.behind_start more
  have hdrop := dropWhile_spaces hspace fun c hc => (hstart c hc).1
  have hquote : ∀ rest, (space ++ (s ++ behind more)).dropWhile isSpace ≠ 0x22 :: rest := by
    intro rest hrest
    rw [hdrop] at hrest
    exact (hstart 0x22 (by simp [hrest])).2 rfl
  refine ⟨?_, ?_⟩
  · rw [← Bool.not_eq_true, unclosedQuote_iff]
    rintro ⟨rest, hrest, -⟩
    exact hquote rest hrest
  · rw [content_nextTok_unquoted hquote, hdrop]
    cases more with
    | none => simp [behind, content_strsep_absent h.noComma]
    | some rest => simp [behind, content_strsep_split h.noComma]

theorem nextTok_quotes {space s : Line} (hspace : ∀ c ∈ space, isSpace c = true)
    (hs : 0x22 ∉ s) (more : Cursor) :
    unclosedQuote (space ++ (0x22 :: s ++ [0x22] ++ behind more)) = false ∧
      Tokenizer.nextTok (some (space ++ (0x22 :: s ++ [0x22] ++ behind more))) =
        some (s, some (more.getD [])) := by
  have hdrop : (space ++ (0x22 :: s ++ [0x22] ++ behind more)).dropWhile isSpace =
      0x22 :: (s ++ 0x22 :: behind more) := by
    rw [dropWhile_spaces hspace (by simp [isSpace])]
    simp
  refine ⟨?_, ?_⟩
  · simp only [unclosedQuote, hdrop]
    simp
  · rw [content_nextTok_quoted hdrop, content_strsep_split hs]
    cases more <;> simp [behind, Tokenizer.skipNextComma]

theorem nextTok_field (f : Field) (more : Cursor) :
    unclosedQuote (f.text ++ behind more) = false ∧
      Tokenizer.nextTok (some (f.text ++ behind more)) =
        some (f.tok.content, after f.tok more) := by
  rw [Field.text, List.append_assoc]
  cases htok : f.tok with
  | int v fits => exact nextTok_bare f.spaces (decimal_bare v) more
  | quoted s noQuote noNul =>
      obtain ⟨hclosed, hnext⟩ := nextTok_quotes f.spaces noQuote more
      refine ⟨hclosed, hnext.trans ?_⟩
      cases more <;> rfl
  | plain s bare => exact nextTok_bare f.spaces bare more

/-! ## What a call leaves -/

/-- The bytes before the cursor are those of the place, all of them when it is null. -/
def Keeps (s : Place) (bytes : List UInt8) : Prop :=
  match s.cur with
  | some i => bytes.take i = s.bytes.take i
  | none => bytes = s.bytes

/-- The token at `p` is cut off: the bytes before the cursor stay, and the new cursor
is behind the token's terminator. -/
structure CutOff (s s' : Place) (p : Nat) : Prop where
  start : ∃ i, s.cur = some i ∧ i ≤ p ∧ s'.bytes.take i = s.bytes.take i
  ended : ∀ j, s'.cur = some j → ∃ k, p + k < j ∧ s'.bytes[p + k]? = some 0

theorem take_of_take {bytes bytes' : List UInt8} {i j : Nat} (hij : i ≤ j)
    (h : bytes'.take j = bytes.take j) : bytes'.take i = bytes.take i := by
  rw [← Nat.min_eq_left hij, ← List.take_take, ← List.take_take, h]

theorem Keeps.refl (s : Place) : Keeps s s.bytes := by
  unfold Keeps
  split <;> rfl

theorem CutOff.keeps {s s' : Place} {p : Nat} {bytes : List UInt8} (h : CutOff s s' p)
    (hbytes : Keeps s' bytes) : Keeps s bytes := by
  obtain ⟨i, hi, hip, hkept⟩ := h.start
  simp only [Keeps, hi]
  cases hj : s'.cur with
  | none =>
      simp only [Keeps, hj] at hbytes
      rw [hbytes, hkept]
  | some j =>
      simp only [Keeps, hj] at hbytes
      obtain ⟨k, hk, -⟩ := h.ended j hj
      rw [take_of_take (by omega) hbytes, hkept]

theorem skip_place {p : UInt8 → Bool} {s s' : Place} (h : s.skip p = some s') :
    ∃ i k, s.cur = some i ∧ s' = { s with cur := some (i + k) } := by
  simp only [Place.skip, Option.bind_eq_bind, Option.bind_eq_some_iff, Option.pure_def,
    Option.some.injEq] at h
  obtain ⟨i, hcur, k, -, rfl⟩ := h
  exact ⟨i, k, hcur, rfl⟩

theorem skipNextComma_place {s s' : Place} (h : InPlace.skipNextComma s = some s') :
    ∃ i k, s.cur = some i ∧ s' = { s with cur := some (i + k) } := by
  simp only [InPlace.skipNextComma, Option.bind_eq_bind, Option.bind_eq_some_iff,
    Option.pure_def] at h
  obtain ⟨s₁, hskip, c, -, hs'⟩ := h
  obtain ⟨i, k, hcur, rfl⟩ := skip_place hskip
  split at hs'
  · cases hs'
    exact ⟨i, k + 1, hcur, rfl⟩
  · cases hs'
    exact ⟨i, k, hcur, rfl⟩

theorem strsep_place {delim : UInt8} {s s' : Place} {p : Nat}
    (h : InPlace.strsep delim s = some (some p, s')) : s.cur = some p ∧ CutOff s s' p := by
  simp only [InPlace.strsep] at h
  split at h
  · cases h
  · rename_i i hcur
    simp only [Option.bind_eq_bind, Option.bind_eq_some_iff, Option.pure_def] at h
    obtain ⟨k, -, c, hc, h⟩ := h
    split at h
    · cases h
      exact ⟨hcur, ⟨p, hcur, le_rfl, rfl⟩, by simp⟩
    · cases h
      have hlt : p + k < s.bytes.length := (List.getElem?_eq_some_iff.1 hc).1
      refine ⟨hcur, ⟨p, hcur, le_rfl, List.take_set_of_le (by omega)⟩, ?_⟩
      intro j hj
      cases hj
      exact ⟨k, by simp, by simp [hlt]⟩

theorem nextTok_cutOff {s s' : Place} {p : Nat} (h : InPlace.nextTok s = some (some p, s')) :
    CutOff s s' p := by
  simp only [InPlace.nextTok, Option.bind_eq_bind, Option.bind_eq_some_iff, Option.pure_def] at h
  obtain ⟨s₁, hspace, h⟩ := h
  obtain ⟨i, k, hcur, rfl⟩ := skip_place hspace
  simp only [reduceCtorEq, if_false, Option.bind_eq_some_iff] at h
  obtain ⟨c, -, h⟩ := h
  split at h
  · simp only [Option.bind_eq_some_iff, Option.some.injEq, Prod.mk.injEq] at h
    obtain ⟨⟨ret, s₂⟩, hsep, s₃, hcomma, rfl, rfl⟩ := h
    obtain ⟨-, ⟨i', hi', hip, hkept⟩, hended⟩ := strsep_place hsep
    obtain ⟨j, k', hj, rfl⟩ := skipNextComma_place hcomma
    obtain ⟨l, hl, hzero⟩ := hended j hj
    cases hi'
    have hip : i + k + 1 ≤ p := hip
    have hkept : s₂.bytes.take (i + k + 1) = s.bytes.take (i + k + 1) := hkept
    refine ⟨⟨i, hcur, by omega, take_of_take (by omega) hkept⟩, ?_⟩
    intro j' hj'
    cases hj'
    exact ⟨l, by omega, hzero⟩
  · obtain ⟨-, ⟨i', hi', hip, hkept⟩, hended⟩ := strsep_place h
    cases hi'
    exact ⟨⟨i, hcur, by omega, take_of_take (by omega) hkept⟩, hended⟩

theorem CutOff.stays {s s' : Place} {p : Nat} {t : Line} {bytes : List UInt8}
    (h : CutOff s s' p) (htok : PointsTo ⟨s'.bytes, some p⟩ t) (hbytes : Keeps s' bytes) :
    stringAt bytes p = some t := by
  cases hj : s'.cur with
  | none =>
      simp only [Keeps, hj] at hbytes
      rw [hbytes, htok.stringAt_eq]
  | some j =>
      simp only [Keeps, hj] at hbytes
      obtain ⟨k, hk, hzero⟩ := h.ended j hj
      obtain ⟨p', tail, hp', hdrop, ht⟩ := htok
      cases hp'
      have hlen : t.length ≤ k := by
        by_contra! hlt
        have hget : (t ++ 0 :: tail)[k]? = some 0 := by
          rw [← hdrop, List.getElem?_drop, hzero]
        rw [List.getElem?_append_left hlt] at hget
        exact ht (List.mem_of_getElem? hget)
      have htake : (bytes.take j).drop p = t ++ 0 :: tail.take (j - p - t.length - 1) := by
        rw [hbytes, List.drop_take, hdrop, List.take_append, List.take_of_length_le (by omega)]
        rw [show j - p - t.length = j - p - t.length - 1 + 1 by omega, List.take_succ_cons]
        rfl
      have hsplit : bytes.drop p = t ++ 0 :: (tail.take (j - p - t.length - 1) ++
          (bytes.drop j).drop (p - (bytes.take j).length)) := by
        conv_lhs => rw [← List.take_append_drop j bytes, List.drop_append, htake]
        rw [List.append_assoc, List.cons_append]
      have hat : PointsTo ⟨bytes, some p⟩ t := ⟨p, _, rfl, hsplit, ht⟩
      exact hat.stringAt_eq

/-! ## One token -/

/-- A token is read, whatever follows it, and stays. -/
theorem field_step {s : Place} (f : Field) (more : Cursor)
    (h : PointsTo s (f.text ++ behind more)) :
    ∃ seen p, f.tok.call.ported s = some seen ∧ Shows seen.place (after f.tok more) ∧
      CutOff s seen.place p ∧
      ∀ bytes n, Keeps seen.place bytes → Read bytes f.tok ⟨n, seen⟩ := by
  obtain ⟨hclosed, hcontent⟩ := nextTok_field f more
  obtain ⟨p, s', tok, cur, hnext, -, hcontent', htok, hs'⟩ := h.nextTok_closed hclosed
  rw [hcontent] at hcontent'
  cases hcontent'
  have hcut := nextTok_cutOff hnext
  have hstays := fun bytes (hbytes : Keeps s' bytes) => hcut.stays htok hbytes
  cases ht : f.tok with
  | int v fits =>
      rw [ht] at htok hs'
      have hread := atTokNextInt_text hnext htok.stringAt_eq
      rw [decimal_value, (toInt_clampLong_eq_iff v).2 fits] at hread
      exact ⟨⟨0, some (.int v), s'⟩, p, by simp [Tok.call, Call.ported, hread], hs', hcut,
        fun _ _ _ => ⟨rfl, rfl⟩⟩
  | quoted t noQuote noNul =>
      rw [ht] at hs' hstays
      exact ⟨⟨0, some (.str (some p)), s'⟩, p, by simp [Tok.call, Call.ported, atTokNextStr, hnext],
        hs', hcut, fun bytes _ hbytes => ⟨rfl, p, rfl, hstays _ (Keeps.refl s'), hstays _ hbytes⟩⟩
  | plain t bare =>
      rw [ht] at hs' hstays
      exact ⟨⟨0, some (.str (some p)), s'⟩, p, by simp [Tok.call, Call.ported, atTokNextStr, hnext],
        hs', hcut, fun bytes _ hbytes => ⟨rfl, p, rfl, hstays _ (Keeps.refl s'), hstays _ hbytes⟩⟩

/-! ## The line -/

theorem hasMore_pointsTo {s : Place} {t : Line} (h : PointsTo s t) :
    atTokHasMore s = some (if t = [] then 0 else 1) := by
  have hzero := h.zero_not_mem
  rw [atTokHasMore, if_neg h.ne_none, h.read_eq]
  cases t with
  | nil => rfl
  | cons c t =>
      have hc : c ≠ 0 := fun hc => hzero (by simp [hc])
      simp [hc]

theorem shows_end_hasMore {s : Place} {t : Tok} (h : Shows s (after t none)) :
    atTokHasMore s = some 0 := by
  cases t with
  | quoted u noQuote noNul => exact hasMore_pointsTo (t := []) h
  | int v fits => exact if_pos h
  | plain u bare => exact if_pos h

theorem fieldsText_cons (f g : Field) (fs : List Field) :
    fieldsText (f :: g :: fs) = f.text ++ behind (some (fieldsText (g :: fs))) := rfl

theorem after_some (t : Tok) (rest : Line) : after t (some rest) = some rest := by
  cases t <;> rfl

theorem readTokens_cons {s s' : Place} {t : Tok} {ts : List Tok} {more last : Int} {seen : Seen}
    {rs : List Reading} (hmore : atTokHasMore s = some more) (hcall : t.call.ported s = some seen)
    (hrest : readTokens seen.place ts = some (rs, last, s')) :
    readTokens s (t :: ts) = some (⟨more, seen⟩ :: rs, last, s') := by
  simp [readTokens, hmore, hcall, hrest]

/-- Reading the tokens of a text from its start to its end. -/
theorem readTokens_fields (f : Field) (fs : List Field) (s : Place)
    (h : PointsTo s (fieldsText (f :: fs))) :
    ∃ rs last s', readTokens s ((f :: fs).map Field.tok) = some (rs, last, s') ∧
      Keeps s s'.bytes ∧ List.Forall₂ (Read s'.bytes) ((f :: fs).map Field.tok) rs ∧
      (((f :: fs).getLast (by simp)).tok.text ≠ [] → (∀ r ∈ rs, r.more = 1) ∧ last = 0) := by
  induction fs generalizing f s with
  | nil =>
      have hstep : PointsTo s (f.text ++ behind none) := by simpa [fieldsText, behind] using h
      obtain ⟨seen, p, hcall, hshows, hcut, hread⟩ := field_step f none hstep
      have hend := shows_end_hasMore hshows
      refine ⟨[⟨if fieldsText [f] = [] then 0 else 1, seen⟩], 0, seen.place, ?_,
        hcut.keeps (Keeps.refl _), .cons (hread _ _ (Keeps.refl _)) .nil, ?_⟩
      · exact readTokens_cons (hasMore_pointsTo h) hcall (by simp [readTokens, hend])
      · intro hlast
        have hlast : f.tok.text ≠ [] := hlast
        simp [fieldsText, Field.text, hlast]
  | cons g fs ih =>
      obtain ⟨seen, p, hcall, hshows, hcut, hread⟩ := field_step f _ (fieldsText_cons f g fs ▸ h)
      rw [after_some] at hshows
      obtain ⟨rs, last, s', hrest, hkeeps, hreads, hmore⟩ := ih g seen.place hshows
      have hmore₀ : atTokHasMore s = some 1 := by
        simp [hasMore_pointsTo h, fieldsText_cons, behind]
      refine ⟨⟨1, seen⟩ :: rs, last, s', readTokens_cons hmore₀ hcall hrest, hcut.keeps hkeeps,
        .cons (hread _ _ hkeeps) hreads, ?_⟩
      intro hlast
      rw [List.getLast_cons (by simp)] at hlast
      obtain ⟨hall, hzero⟩ := hmore hlast
      exact ⟨by simpa using hall, hzero⟩

theorem Tok.text_zero (t : Tok) : (0 : UInt8) ∉ t.text := by
  cases t with
  | int v fits => exact (decimal_bare v).noNul
  | quoted s noQuote noNul => simpa [Tok.text] using noNul
  | plain s bare => exact bare.noNul

theorem Field.text_zero (f : Field) : (0 : UInt8) ∉ f.text := by
  have hspace : (0 : UInt8) ∉ f.space := fun hmem => absurd (f.spaces 0 hmem) (by decide)
  simp [Field.text, hspace, Tok.text_zero]

theorem fieldsText_zero (fs : List Field) : (0 : UInt8) ∉ fieldsText fs := by
  fun_induction fieldsText fs with
  | case1 => simp
  | case2 f => exact f.text_zero
  | case3 f fs hne ih => simp [Field.text_zero, ih]

theorem atTokStart_render (pre : Line) (fs : List Field) (hcolon : 0x3a ∉ pre)
    (hnul : (0 : UInt8) ∉ pre) :
    ∃ s, InPlace.atTokStart (lineStart (render pre fs)) = some (0, s) ∧
      PointsTo s (fieldsText fs) := by
  have hline : Shows (lineStart (render pre fs)) (some (render pre fs)) :=
    ⟨0, [], rfl, rfl, by simp [render, hnul, fieldsText_zero]⟩
  obtain ⟨s, hstart, hs⟩ := atTokStart_shows hline
  have hcontent : Tokenizer.atTokStart (some (render pre fs)) = (0, some (fieldsText fs)) := by
    simp only [Tokenizer.atTokStart, render, dropWhile_ne_split hcolon]
  rw [hcontent] at hstart hs
  exact ⟨s, hstart, hs⟩

/-- `AtTokStart` and the matching calls give the tokens of a line in order, all with
code 0, and they are still there at the end.  Unless the last token is written as
nothing, there is more before each token and nothing more after the last. -/
theorem rendered_tokens_read (pre : Line) (fs : List Field) (hcolon : 0x3a ∉ pre)
    (hnul : (0 : UInt8) ∉ pre) (hne : fs ≠ []) :
    ∃ s rs last s', InPlace.atTokStart (lineStart (render pre fs)) = some (0, s) ∧
      readTokens s (fs.map Field.tok) = some (rs, last, s') ∧
      List.Forall₂ (Read s'.bytes) (fs.map Field.tok) rs ∧
      ((fs.getLast hne).tok.text ≠ [] → (∀ r ∈ rs, r.more = 1) ∧ last = 0) := by
  obtain ⟨s, hstart, hs⟩ := atTokStart_render pre fs hcolon hnul
  obtain ⟨f, fs, rfl⟩ := List.exists_cons_of_ne_nil hne
  obtain ⟨rs, last, s', hread, -, hreads, hmore⟩ := readTokens_fields f fs s hs
  exact ⟨s, rs, last, s', hstart, hread, hreads, hmore⟩

def threeFields : List Field :=
  [⟨[0x20], by simp [isSpace], .int (-7) (by decide)⟩,
    ⟨[], by simp, .quoted [0x61, 0x2c, 0x62] (by decide) (by decide)⟩,
    ⟨[0x20], by simp [isSpace], .plain [0x63] ⟨by decide, by decide, by simp [isSpace]⟩⟩]

theorem rendered_tokens_read_three :
    ∃ s rs last s', InPlace.atTokStart (lineStart (render [0x2b, 0x58] threeFields)) = some (0, s) ∧
      readTokens s (threeFields.map Field.tok) = some (rs, last, s') ∧
      List.Forall₂ (Read s'.bytes) (threeFields.map Field.tok) rs ∧
      (∀ r ∈ rs, r.more = 1) ∧ last = 0 := by
  have hne : threeFields ≠ [] := by simp [threeFields]
  obtain ⟨s, rs, last, s', hstart, hread, hreads, hmore⟩ :=
    rendered_tokens_read [0x2b, 0x58] threeFields (by decide) (by decide) hne
  exact ⟨s, rs, last, s', hstart, hread, hreads, hmore (by simp [threeFields, Tok.text])⟩

example : render [0x2b, 0x58] threeFields =
    [0x2b, 0x58, 0x3a, 0x20, 0x2d, 0x37, 0x2c, 0x22, 0x61, 0x2c, 0x62, 0x22, 0x2c, 0x20, 0x63] := by
  decide

end Mobile.Token.Proofs.Rendering
