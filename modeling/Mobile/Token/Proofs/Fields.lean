import Mobile.Token.Proofs.Content

/-!
# The fields of a line

A field goes up to a comma; one in quotes goes up to the closing quote, and the next
one starts behind the comma that follows.  `nextTok` takes the fields one by one, but
its cursor is null only behind a last field without quotes.
-/

namespace Mobile.Token.Proofs.Fields

open Mobile.ProofSupport.Search (takeWhile_ne_split)
open Mobile.Token.Scan Mobile.Token.Tokenizer Mobile.Token.Proofs.Content

def behindFirst (delim : UInt8) (t : Line) : Option Line :=
  match t.dropWhile (· ≠ delim) with
  | [] => none
  | _ :: rest => some rest

/-- The text of a field in quotes, from behind its first quote on. -/
def quotedText (t : Line) : Option Line :=
  match t.dropWhile isSpace with
  | 0x22 :: s => some s
  | _ => none

def fieldText (t : Line) : Line :=
  match quotedText t with
  | some s => s.takeWhile (· ≠ 0x22)
  | none => (t.dropWhile isSpace).takeWhile (· ≠ 0x2c)

def nextField (t : Line) : Option Line :=
  match quotedText t with
  | some s => (behindFirst 0x22 s).bind (behindFirst 0x2c)
  | none => behindFirst 0x2c (t.dropWhile isSpace)

def fieldFrom (t : Line) : Nat → Option Line
  | 0 => some t
  | k + 1 => (fieldFrom t k).bind nextField

/-- The cursor that a token leaves: behind a quoted one it is never null. -/
def cursorBehind (t : Line) : Cursor :=
  if (quotedText t).isSome then some ((nextField t).getD []) else nextField t

theorem atTokStart_eq (line : Line) :
    atTokStart (some line) = match behindFirst 0x3a line with
      | none => (-1, none)
      | some t => (0, some t) := by
  simp only [atTokStart, behindFirst]
  cases line.dropWhile (· ≠ 0x3a) <;> rfl

theorem quotedText_eq_some {t s : Line} (h : t.dropWhile isSpace = 0x22 :: s) :
    quotedText t = some s := by
  simp only [quotedText, h]

theorem quotedText_eq_none {t : Line} (h : ∀ s, t.dropWhile isSpace ≠ 0x22 :: s) :
    quotedText t = none := by
  unfold quotedText
  split
  · rename_i s hs
    exact absurd hs (h s)
  · rfl

theorem strsep_fst (s : Line) (d : UInt8) : (strsep s d).1 = s.takeWhile (· ≠ d) := by
  rcases absent_or_split d s with habsent | ⟨l, r, rfl, hl⟩
  · rw [content_strsep_absent habsent, List.takeWhile_eq_self_iff.2]
    intro c hc
    simpa using fun heq : c = d => habsent (heq ▸ hc)
  · rw [content_strsep_split hl, takeWhile_ne_split hl]

theorem strsep_snd (s : Line) (d : UInt8) : (strsep s d).2 = behindFirst d s := by
  unfold strsep behindFirst
  cases s.dropWhile (· ≠ d) <;> rfl

theorem behindFirst_getD (d : UInt8) (s : Line) :
    (behindFirst d s).getD [] = (s.dropWhile (· ≠ d)).drop 1 := by
  unfold behindFirst
  cases s.dropWhile (· ≠ d) <;> rfl

theorem nextTok_field {t : Line} (hclosed : unclosedQuote t = false) :
    nextTok (some t) = some (fieldText t, cursorBehind t) := by
  by_cases hquote : ∃ rest, t.dropWhile isSpace = 0x22 :: rest
  · obtain ⟨rest, hquote⟩ := hquote
    have htext := quotedText_eq_some hquote
    rcases absent_or_split 0x22 rest with habsent | ⟨l, r, rfl, hl⟩
    · exact absurd (unclosedQuote_iff.2 ⟨rest, hquote, habsent⟩) (by simp [hclosed])
    · have hbehind : behindFirst 0x22 (l ++ 0x22 :: r) = some r := by
        rw [← strsep_snd, content_strsep_split hl]
      have hcursor : cursorBehind t = some ((r.dropWhile (· ≠ 0x2c)).drop 1) := by
        simp [cursorBehind, nextField, htext, hbehind, behindFirst_getD]
      have hfield : fieldText t = l := by
        simp only [fieldText, htext, takeWhile_ne_split hl]
      rw [hfield, hcursor, content_nextTok_quoted hquote, content_strsep_split hl]
      rfl
  · rw [not_exists] at hquote
    have htext := quotedText_eq_none hquote
    have hcursor : cursorBehind t = behindFirst 0x2c (t.dropWhile isSpace) := by
      simp [cursorBehind, nextField, htext]
    have hfield : fieldText t = (t.dropWhile isSpace).takeWhile (· ≠ 0x2c) := by
      simp only [fieldText, htext]
    rw [content_nextTok_unquoted hquote, hfield, hcursor, ← strsep_fst, ← strsep_snd]

end Mobile.Token.Proofs.Fields
