import Mobile.Token.Proofs.Content

/-!
# The port against its reference

Sequences of calls on one cursor, in `token.cc` and in `at_tok.c`.  The port
leaves out the tests for the null cursor in `skipWhiteSpace`, `skipNextComma` and
`AtTokNextStr`; a line shows the difference where a string is asked for behind
the last token, or where a quote is not closed.
-/

namespace Mobile.Token.Proofs.Port

open Mobile.ProofSupport.Memory
open Mobile.Token.Scan
open Mobile.Token.InPlace
open Mobile.Token.Proofs.Content

inductive Call
  | start
  | nextInt
  | nextHexInt
  | nextBool (store : Bool)
  | nextStr
  | hasMore
deriving DecidableEq, Repr

inductive Output
  | int (v : Int)
  | bool (v : Int)
  | str (p : Option Nat)
deriving DecidableEq, Repr

structure Seen where
  ret : Int
  out : Option Output
  place : Place
deriving DecidableEq, Repr

def Call.ported (s : Place) : Call → Option Seen
  | .start => (atTokStart s).map fun (ret, s) => ⟨ret, none, s⟩
  | .nextInt => (atTokNextInt s).map fun (ret, out, s) => ⟨ret, out.map .int, s⟩
  | .nextHexInt => (atTokNextHexInt s).map fun (ret, out, s) => ⟨ret, out.map .int, s⟩
  | .nextBool store => (atTokNextBool store s).map fun (ret, out, s) => ⟨ret, out.map .bool, s⟩
  | .nextStr => (atTokNextStr s).map fun (ret, out, s) => ⟨ret, out.map .str, s⟩
  | .hasMore => (atTokHasMore s).map fun ret => ⟨ret, none, s⟩

def Call.reference (s : Place) : Call → Option Seen
  | .start => (Reference.atTokStart s).map fun (ret, s) => ⟨ret, none, s⟩
  | .nextInt => (Reference.atTokNextInt s).map fun (ret, out, s) => ⟨ret, out.map .int, s⟩
  | .nextHexInt => (Reference.atTokNextHexInt s).map fun (ret, out, s) => ⟨ret, out.map .int, s⟩
  | .nextBool store =>
      (Reference.atTokNextBool store s).map fun (ret, out, s) => ⟨ret, out.map .bool, s⟩
  | .nextStr => (Reference.atTokNextStr s).map fun (ret, out, s) => ⟨ret, out.map .str, s⟩
  | .hasMore => (Reference.atTokHasMore s).map fun ret => ⟨ret, none, s⟩

/-- What the caller sees after each call of a sequence, `none` when one of them
reads through the null cursor. -/
def runCalls (call : Place → Call → Option Seen) : Place → List Call → Option (List Seen)
  | _, [] => some []
  | s, c :: cs => do
    let seen ← call s c
    return seen :: (← runCalls call seen.place cs)

def lineStart (line : Line) : Place := ⟨line ++ [0], some 0⟩

/-- Where the port has the test that the call needs: a token is not asked for at
an unclosed quote, nor a string at the null cursor. -/
def Call.guarded (s : Place) : Call → Bool
  | .start | .hasMore => true
  | .nextInt | .nextHexInt | .nextBool _ => !s.text.any unclosedQuote
  | .nextStr => s.text.any (!unclosedQuote ·)

def Guarded : Place → List Call → Prop
  | _, [] => True
  | s, c :: cs => c.guarded s = true ∧ ∀ seen, c.ported s = some seen → Guarded seen.place cs

variable {s : Place} {t : Line}

/-! ## One call -/

def Valid (s : Place) : Prop := ∃ cur, Shows s cur

theorem valid_lineStart (line : Line) : Valid (lineStart line) := by
  rcases absent_or_split 0 line with habsent | ⟨l, r, rfl, hl⟩
  · exact ⟨some line, 0, [], rfl, rfl, habsent⟩
  · exact ⟨some l, 0, r ++ [0], rfl, by simp [lineStart], hl⟩

theorem nextTok_reference (h : PointsTo s t) :
    ∃ i s' tok, Reference.nextTok s = some (some i, s') ∧ stringAt s'.bytes i = some tok ∧
      Valid s' ∧ nextTok s = if unclosedQuote t then none else some (some i, s') := by
  by_cases hopen : unclosedQuote t = true
  · obtain ⟨hport, -, i, s', tok, href, htok, hnull⟩ := h.nextTok_unclosed hopen
    exact ⟨i, s', tok, href, htok.stringAt_eq, ⟨none, hnull⟩, by rw [if_pos hopen, hport]⟩
  · have hclosed : unclosedQuote t = false := by simpa using hopen
    obtain ⟨i, s', tok, cur, hport, href, -, htok, hs'⟩ := h.nextTok_closed hclosed
    exact ⟨i, s', tok, href, htok.stringAt_eq, ⟨cur, hs'⟩, by rw [if_neg hopen, hport]⟩

theorem nextIntBase_reference (base : Nat) (h : PointsTo s t) :
    ∃ ret out s', Reference.atTokNextIntBase base s = some (ret, out, s') ∧ Valid s' ∧
      atTokNextIntBase base s = if unclosedQuote t then none else some (ret, out, s') := by
  obtain ⟨i, s', tok, href, htok, hs', hport⟩ := nextTok_reference h
  refine ⟨if (convert base tok).2 then 0 else -1, some (convert base tok).1, s', ?_, hs', ?_⟩
  · simp [Reference.atTokNextIntBase, h.ne_none, href, htok]
  · rw [atTokNextIntBase, hport]
    by_cases hopen : unclosedQuote t = true
    · simp [hopen]
    · simp [hopen, htok]

theorem nextBool_reference (store : Bool) (h : PointsTo s t) :
    ∃ ret out s', Reference.atTokNextBool store s = some (ret, out, s') ∧ Valid s' ∧
      atTokNextBool store s = if unclosedQuote t then none else some (ret, out, s') := by
  obtain ⟨ret, result, s', href, hs', hport⟩ := nextIntBase_reference 10 h
  have hint : atTokNextInt s = atTokNextIntBase 10 s := if_neg h.ne_none
  have hstored : ∃ ret' out,
      (if ret < 0 then some (-1, none, s')
        else if ¬ (result = some 0 ∨ result = some 1) then some (-1, none, s')
        else some (ret, if store then result else none, s')) = some (ret', out, s') := by
    split_ifs <;> exact ⟨_, _, rfl⟩
  obtain ⟨ret', out, hstored⟩ := hstored
  refine ⟨ret', out, s', ?_, hs', ?_⟩
  · rw [Reference.atTokNextBool, Reference.atTokNextInt, href]
    exact hstored
  · rw [atTokNextBool, hint, hport]
    by_cases hopen : unclosedQuote t = true
    · simp [hopen]
    · rw [if_neg hopen, if_neg hopen]
      exact hstored

theorem nextStr_reference (h : PointsTo s t) :
    ∃ ret out s', Reference.atTokNextStr s = some (ret, out, s') ∧ Valid s' ∧
      atTokNextStr s = if unclosedQuote t then none else some (ret, out, s') := by
  obtain ⟨i, s', tok, href, htok, hs', hport⟩ := nextTok_reference h
  refine ⟨0, some (some i), s', by simp [Reference.atTokNextStr, h.ne_none, href], hs', ?_⟩
  rw [atTokNextStr, hport]
  by_cases hopen : unclosedQuote t = true <;> simp [hopen]

/-- A call on a text: what the reference gives, and that the port gives the same
exactly when it is guarded. -/
theorem text_call_step (h : PointsTo s t) (c : Call) :
    ∃ seen, c.reference s = some seen ∧ Valid seen.place ∧
      c.ported s = if c.guarded s then some seen else none := by
  have htext : s.text = some t := h.text_eq
  cases c with
  | start =>
      obtain ⟨s', hstart, hs'⟩ := atTokStart_shows (show Shows s (some t) from h)
      have href : Reference.atTokStart s = InPlace.atTokStart s := rfl
      refine ⟨⟨(Tokenizer.atTokStart (some t)).1, none, s'⟩, ?_, ⟨_, hs'⟩, ?_⟩
      · simp only [Call.reference, href, hstart, Option.map_some]
      · simp only [Call.ported, hstart, Option.map_some, Call.guarded, if_true]
  | nextInt =>
      obtain ⟨ret, out, s', href, hs', hport⟩ := nextIntBase_reference 10 h
      refine ⟨⟨ret, out.map .int, s'⟩, ?_, hs', ?_⟩
      · simp [Call.reference, Reference.atTokNextInt, href]
      · by_cases hopen : unclosedQuote t = true <;>
          simp [Call.ported, atTokNextInt, h.ne_none, hport, Call.guarded, htext, hopen]
  | nextHexInt =>
      obtain ⟨ret, out, s', href, hs', hport⟩ := nextIntBase_reference 16 h
      refine ⟨⟨ret, out.map .int, s'⟩, ?_, hs', ?_⟩
      · simp [Call.reference, Reference.atTokNextHexInt, href]
      · by_cases hopen : unclosedQuote t = true <;>
          simp [Call.ported, atTokNextHexInt, h.ne_none, hport, Call.guarded, htext, hopen]
  | nextBool store =>
      obtain ⟨ret, out, s', href, hs', hport⟩ := nextBool_reference store h
      refine ⟨⟨ret, out.map .bool, s'⟩, ?_, hs', ?_⟩
      · simp [Call.reference, href]
      · by_cases hopen : unclosedQuote t = true <;>
          simp [Call.ported, hport, Call.guarded, htext, hopen]
  | nextStr =>
      obtain ⟨ret, out, s', href, hs', hport⟩ := nextStr_reference h
      refine ⟨⟨ret, out.map .str, s'⟩, ?_, hs', ?_⟩
      · simp [Call.reference, href]
      · by_cases hopen : unclosedQuote t = true <;>
          simp [Call.ported, hport, Call.guarded, htext, hopen]
  | hasMore =>
      have href : Reference.atTokHasMore s = InPlace.atTokHasMore s := rfl
      have hmore : InPlace.atTokHasMore s = some (if t.headD 0 = 0 then 0 else 1) := by
        simp [InPlace.atTokHasMore, h.ne_none, h.read_eq]
      refine ⟨⟨if t.headD 0 = 0 then 0 else 1, none, s⟩, ?_, ⟨some t, h⟩, ?_⟩
      · simp only [Call.reference, href, hmore, Option.map_some]
      · simp only [Call.ported, hmore, Option.map_some, Call.guarded, if_true]

theorem null_call_step (h : s.cur = none) (c : Call) :
    ∃ seen, c.reference s = some seen ∧ Valid seen.place ∧
      c.ported s = if c.guarded s then some seen else none := by
  have hs : Valid s := ⟨none, h⟩
  have htext : s.text = none := by simp [Place.text, h]
  cases c with
  | start => exact ⟨⟨-1, none, s⟩, by simp [Call.reference, Reference.atTokStart, h], hs,
      by simp [Call.ported, atTokStart, h, Call.guarded]⟩
  | nextInt => exact ⟨⟨-1, none, s⟩,
      by simp [Call.reference, Reference.atTokNextInt, Reference.atTokNextIntBase, h], hs,
      by simp [Call.ported, atTokNextInt, h, Call.guarded, htext]⟩
  | nextHexInt => exact ⟨⟨-1, none, s⟩,
      by simp [Call.reference, Reference.atTokNextHexInt, Reference.atTokNextIntBase, h], hs,
      by simp [Call.ported, atTokNextHexInt, h, Call.guarded, htext]⟩
  | nextBool store => exact ⟨⟨-1, none, s⟩,
      by simp [Call.reference, Reference.atTokNextBool, Reference.atTokNextInt,
        Reference.atTokNextIntBase, h], hs,
      by simp [Call.ported, atTokNextBool, atTokNextInt, h, Call.guarded, htext]⟩
  | nextStr => exact ⟨⟨-1, none, s⟩, by simp [Call.reference, Reference.atTokNextStr, h], hs,
      by simp [Call.ported, atTokNextStr, nextTok, InPlace.skipWhiteSpace, Place.skip, h,
        Call.guarded, htext]⟩
  | hasMore => exact ⟨⟨0, none, s⟩, by simp [Call.reference, Reference.atTokHasMore, h], hs,
      by simp [Call.ported, atTokHasMore, h, Call.guarded]⟩

theorem call_step (h : Valid s) (c : Call) :
    ∃ seen, c.reference s = some seen ∧ Valid seen.place ∧
      c.ported s = if c.guarded s then some seen else none := by
  obtain ⟨cur, hcur⟩ := h
  cases cur with
  | none => exact null_call_step hcur c
  | some t => exact text_call_step hcur c

/-! ## Sequences of calls -/

theorem run_valid (h : Valid s) (calls : List Call) :
    ∃ trace, runCalls Call.reference s calls = some trace ∧
      (runCalls Call.ported s calls = some trace ↔ Guarded s calls) := by
  induction calls generalizing s with
  | nil => exact ⟨[], rfl, by simp [runCalls, Guarded]⟩
  | cons c calls ih =>
      obtain ⟨seen, href, hseen, hport⟩ := call_step h c
      obtain ⟨trace, hrefs, hports⟩ := ih hseen
      refine ⟨seen :: trace, by simp [runCalls, href, hrefs], ?_⟩
      by_cases hguard : c.guarded s = true
      · rw [if_pos hguard] at hport
        have hrest : runCalls Call.ported s (c :: calls) = some (seen :: trace) ↔
            runCalls Call.ported seen.place calls = some trace := by
          simp [runCalls, hport, Option.bind_eq_some_iff]
        rw [hrest, hports]
        simp [Guarded, hguard, hport]
      · rw [if_neg hguard] at hport
        simp [runCalls, hport, Guarded, hguard]

/-- On every line and for every sequence of calls the reference answers every
call; the port gives the same return codes, outputs, cursors and bytes exactly
when each call is guarded in the state before it. -/
theorem port_agrees_iff_guarded (line : Line) (calls : List Call) :
    ∃ trace, runCalls Call.reference (lineStart line) calls = some trace ∧
      (runCalls Call.ported (lineStart line) calls = some trace ↔
        Guarded (lineStart line) calls) :=
  run_valid (valid_lineStart line) calls

/-- `+X: 1` read as a number and then a string: behind the last token the port
reads through the null cursor, the reference returns -1. -/
theorem string_behind_last_token :
    ¬ ∃ trace,
      runCalls Call.reference (lineStart [0x2b, 0x58, 0x3a, 0x20, 0x31])
        [.start, .nextInt, .nextStr] = some trace ∧
      runCalls Call.ported (lineStart [0x2b, 0x58, 0x3a, 0x20, 0x31])
        [.start, .nextInt, .nextStr] = some trace := by
  rintro ⟨trace, -, hport⟩
  have hnone : runCalls Call.ported (lineStart [0x2b, 0x58, 0x3a, 0x20, 0x31])
      [.start, .nextInt, .nextStr] = none := by decide
  rw [hnone] at hport
  cases hport

example : runCalls Call.ported (lineStart [0x3a, 0x22, 0x61]) [.start, .nextStr] = none ∧
    runCalls Call.reference (lineStart [0x3a, 0x22, 0x61]) [.start, .nextStr] =
      some [⟨0, none, ⟨[0x3a, 0x22, 0x61, 0], some 1⟩⟩,
        ⟨0, some (.str (some 2)), ⟨[0x3a, 0x22, 0x61, 0], none⟩⟩] := by decide

end Mobile.Token.Proofs.Port
