import Mobile.Command.Proofs.Evaluation
import Mobile.Token.Proofs.Fields

/-!
# Error codes

`GetCmeError` gives the number of a `+CME ERROR:` line as a value of the enumeration
in which 0 stands for success.  A line with the number 0, or with any multiple of
2^32, makes a failed command look successful, and `getSIMStatus` then reads a line
of its response.
-/

namespace Mobile.Command.Proofs.ErrorCode

open Mobile.ProofSupport.Search (dropWhile_ne_split)
open Mobile.Token.Scan Mobile.Token.Tokenizer Mobile.Channel.Types Mobile.Channel.SendCommand
open Mobile.Command.Callbacks Mobile.Command.Operations
open Mobile.Token.Proofs.Content Mobile.Token.Proofs.Fields
open Mobile.Command.Proofs.Effects Mobile.Command.Proofs.Evaluation

/-! ## The number of an error line -/

def cmePrefix : Line := text "+CME ERROR:"

/-- The first token of a text: in quotes, or up to a comma. -/
def firstToken (t : Line) : Line :=
  match t.dropWhile isSpace with
  | 0x22 :: s => s.takeWhile (· ≠ 0x22)
  | s => s.takeWhile (· ≠ 0x2c)

/-- The text starts with a number whose low 32 bits are zero. -/
def ZeroNumber (t : Line) : Prop :=
  (strtol (firstToken t)).2 = true ∧ 0x100000000 ∣ (strtol (firstToken t)).1

def OpenError (r : ATResponse) : Prop :=
  ∃ t, r.finalResp = some (cmePrefix ++ t) ∧ unclosedQuote t = true

def ZeroError (r : ATResponse) : Prop :=
  ∃ t, r.finalResp = some (cmePrefix ++ t) ∧ unclosedQuote t = false ∧ ZeroNumber t

/-- `GetCmeError` returns, with `CME_SUCCESS` for a successful command only. -/
def TellsFailure (r : ATResponse) : Prop :=
  ∃ cme, getCmeError r = some cme ∧ (cme = 0 ↔ 0 < r.success)

theorem toInt_eq_zero_iff (l : Int) : toInt l = 0 ↔ 0x100000000 ∣ l := by
  unfold toInt
  omega

theorem firstToken_eq (t : Line) : firstToken t = fieldText t := by
  by_cases hquote : ∃ rest, t.dropWhile isSpace = 0x22 :: rest
  · obtain ⟨rest, hquote⟩ := hquote
    simp only [firstToken, fieldText, quotedText, hquote]
  · rw [not_exists] at hquote
    simp only [fieldText, quotedText_eq_none hquote]
    unfold firstToken
    split
    · rename_i rest hrest
      exact absurd hrest (hquote rest)
    · rfl

theorem nextTok_firstToken {t : Line} (hclosed : unclosedQuote t = false) :
    ∃ cur, nextTok (some t) = some (firstToken t, cur) :=
  ⟨_, by rw [firstToken_eq, nextTok_field hclosed]⟩

theorem atTokStart_cmePrefix (t : Line) :
    atTokStart (some (cmePrefix ++ t)) = (0, some t) := by
  have hsplit : cmePrefix ++ t = text "+CME ERROR" ++ 0x3a :: t := rfl
  have habsent : 0x3a ∉ text "+CME ERROR" := by decide
  simp only [atTokStart, hsplit, dropWhile_ne_split habsent]

theorem getCmeError_error {r : ATResponse} {t : Line} (hfailed : ¬ 0 < r.success)
    (hfinal : r.finalResp = some (cmePrefix ++ t)) :
    getCmeError r = if unclosedQuote t then none
      else if (strtol (firstToken t)).2 then some (toInt (strtol (firstToken t)).1)
      else some (-1) := by
  have hpre : atStrStartWith (cmePrefix ++ t) (text "+CME ERROR:") = true :=
    (atStrStartWith_iff _ _).2 (List.prefix_append _ _)
  simp only [getCmeError, gt_iff_lt, hfailed, if_false, hfinal, hpre, Bool.not_true,
    Bool.false_eq_true, atTokStart_cmePrefix, Int.lt_irrefl, atTokNextInt, reduceCtorEq]
  cases hopen : unclosedQuote t with
  | true => simp [content_nextTok_unclosed hopen]
  | false =>
      obtain ⟨cur, hnext⟩ := nextTok_firstToken hopen
      cases hfound : (strtol (firstToken t)).2 <;> simp [hnext, hfound]

theorem getCmeError_other {r : ATResponse} (hfailed : ¬ 0 < r.success)
    (hfinal : ∀ t, r.finalResp ≠ some (cmePrefix ++ t)) : getCmeError r = some (-1) := by
  simp only [getCmeError, gt_iff_lt, hfailed, if_false]
  cases hresp : r.finalResp with
  | none => rfl
  | some final =>
      have hpre : atStrStartWith final (text "+CME ERROR:") = false := by
        rw [← Bool.not_eq_true, atStrStartWith_iff]
        rintro ⟨t, rfl⟩
        exact hfinal t hresp
      simp [hpre]

/-- A failed command has the code 0 exactly when its error line has the number. -/
theorem getCmeError_zero_iff {r : ATResponse} (hfailed : ¬ 0 < r.success) :
    getCmeError r = some 0 ↔ ZeroError r := by
  by_cases hfinal : ∃ t, r.finalResp = some (cmePrefix ++ t)
  · obtain ⟨t, hfinal⟩ := hfinal
    have hzero : ZeroError r ↔ unclosedQuote t = false ∧ ZeroNumber t := by
      simp [ZeroError, hfinal]
    rw [hzero, getCmeError_error hfailed hfinal, ZeroNumber, ← toInt_eq_zero_iff]
    cases unclosedQuote t <;> cases (strtol (firstToken t)).2 <;> simp
  · rw [not_exists] at hfinal
    rw [getCmeError_other hfailed hfinal]
    simp [ZeroError, hfinal]

theorem getCmeError_none_iff {r : ATResponse} (hfailed : ¬ 0 < r.success) :
    getCmeError r = none ↔ OpenError r := by
  by_cases hfinal : ∃ t, r.finalResp = some (cmePrefix ++ t)
  · obtain ⟨t, hfinal⟩ := hfinal
    have hopen : OpenError r ↔ unclosedQuote t = true := by simp [OpenError, hfinal]
    rw [hopen, getCmeError_error hfailed hfinal]
    cases unclosedQuote t <;> cases (strtol (firstToken t)).2 <;> simp
  · rw [not_exists] at hfinal
    rw [getCmeError_other hfailed hfinal]
    simp [OpenError, hfinal]

theorem getCmeError_succeeded {r : ATResponse} (h : 0 < r.success) : getCmeError r = some 0 :=
  if_pos h

theorem tellsFailure_iff (r : ATResponse) :
    TellsFailure r ↔ 0 < r.success ∨ ¬ (OpenError r ∨ ZeroError r) := by
  by_cases hok : 0 < r.success
  · simp [TellsFailure, getCmeError_succeeded hok, hok]
  · rw [← getCmeError_none_iff hok, ← getCmeError_zero_iff hok, TellsFailure]
    cases getCmeError r <;> simp [hok]

/-! ## How `getSIMStatus` ends -/

def lineEnd (line : Line) : Except Crash SIMStatus :=
  if (atTokStart (some line)).1 < 0 then .ok .notReady
  else match atTokNextStr (atTokStart (some line)).2 with
    | none => .error .nullCursor
    | some (ret, result, _) => if ret < 0 then .ok .notReady else .ok (cpinStatus result)

def linesEnd : List Line → Except Crash SIMStatus
  | [] => .error .nullIntermediates
  | line :: _ => lineEnd line

def responseEnd (r : ATResponse) : Except Crash SIMStatus :=
  match getCmeError r with
  | none => .error .nullCursor
  | some cme =>
    if cme = 0 then linesEnd r.intermediates
    else if cme = 10 then .ok .absent
    else .ok .notReady

def pointerEnd : Ptr → Except Crash SIMStatus
  | .unassigned => .error .unassignedResponse
  | .null => .error .nullResponse
  | .resp _ r => responseEnd r

theorem readCpin_end {id : Nat} {r : ATResponse} (line : Line) (w : World) :
    ((readCpin (.resp id r) line).run w).1 = lineEnd line := by
  unfold readCpin lineEnd
  simp only [Calls.lift, Calls.freeResp]
  by_cases hstart : (atTokStart (some line)).1 < 0
  · simp only [hstart, if_true, freed_run]
  · simp only [hstart, if_false]
    cases hnext : atTokNextStr (atTokStart (some line)).2 with
    | none => rw [tok_bind_none rfl]
    | some a =>
        rw [tok_bind_some rfl]
        by_cases hret : a.1 < 0
        · simp only [hret, if_true, freed_run]
        · simp only [hret, if_false, freed_run]

theorem readSIM_end {p : Ptr} {w : World} (hfresh : ∀ id, .free id ∉ w.trace) :
    ((readSIM p).run w).1 = pointerEnd p := by
  cases p with
  | unassigned => rfl
  | null => rfl
  | resp id r =>
      rw [readSIM, pointerEnd, responseEnd]
      cases hcme : getCmeError r with
      | none => rw [bind_error (cmeError_none hcme (hfresh id))]
      | some cme =>
          rw [bind_ok (cmeError_some hcme (hfresh id))]
          simp only [Calls.lift, Calls.freeResp]
          by_cases hzero : cme = 0
          · have hused : .free id ∉ (logs w [.use id]).trace := by simpa using hfresh id
            simp only [hzero, if_true]
            cases hlines : r.intermediates with
            | nil =>
                rw [bind_error (firstLine_nil hlines hused)]
                rfl
            | cons line lines =>
                rw [bind_ok (firstLine_cons hlines hused), readCpin_end]
                rfl
          · by_cases habsent : cme = 10
            · rw [if_neg hzero, if_pos habsent, freed_run]
              simp [habsent]
            · simp only [hzero, habsent, if_false, freed_run]

/-- The pointer that `getSIMStatus` evaluates, when one of its commands has code 0. -/
def evaluated (replies : Nat → Reply) : Option Ptr :=
  if (replies 0).ret = 0 then some (assigned .null 0 (replies 0).out)
  else if (replies 1).ret = 0 then
    some (assigned (assigned .null 0 (replies 0).out) 1 (replies 1).out)
  else none

theorem freed_end {p : Ptr} {w : World} {α : Type} {a : α} (hp : p ≠ .unassigned) :
    ((do freeResp p; return a : Op α).run w).1 = .ok a := by
  cases p with
  | unassigned => exact absurd rfl hp
  | null => rfl
  | resp id r => rw [freed_run]

theorem getSIMStatus_end (replies : Nat → Reply) :
    (getSIMStatus.run (start replies)).1 =
      (evaluated replies).elim (.ok .notReady) pointerEnd := by
  have hcpin : ∀ id, .free id ∉ (cpinWorld replies).trace := fun id => fresh_tests _ _ _ _
  have hqcpin : ∀ id, .free id ∉ (qcpinWorld replies).trace := by
    intro id
    simp [qcpinWorld, fresh_tests]
  rw [getSIMStatus_run, fallback_run, evaluated]
  by_cases hret : (replies 0).ret = 0
  · simp [hret, readSIM_end hcpin]
  · by_cases hret₁ : (replies 1).ret = 0
    · simp [hret, hret₁, readSIM_end hqcpin]
    · simp only [hret, hret₁, ne_eq, not_false_eq_true, if_true, if_false, Option.elim_none]
      exact freed_end (assigned_ne (assigned_ne (by simp) _ _) _ _)

/-! ## The lines of a failed response -/

/-- The response with other lines, when its command failed. -/
def otherLines (lines : List Line) (r : ATResponse) : ATResponse :=
  if 0 < r.success then r else { r with intermediates := lines }

def OutRsp.withLines (lines : List Line) : OutRsp → OutRsp
  | .resp r => .resp (otherLines lines r)
  | out => out

def withLines (lines : Nat → List Line) (replies : Nat → Reply) (n : Nat) : Reply :=
  ⟨(replies n).ret, OutRsp.withLines (lines n) (replies n).out⟩

/-- The lines of a failed response make no difference to `getSIMStatus`: none is
read. -/
def LinesUnread (replies : Nat → Reply) : Prop :=
  ∀ lines, (getSIMStatus.run (start (withLines lines replies))).1 =
    (getSIMStatus.run (start replies)).1

def Ptr.withLines (lines : Nat → List Line) : Ptr → Ptr
  | .resp id r => .resp id (otherLines (lines id) r)
  | p => p

theorem assigned_withLines (lines : Nat → List Line) (p : Ptr) (id : Nat) (out : OutRsp) :
    assigned (Ptr.withLines lines p) id (OutRsp.withLines (lines id) out) =
      Ptr.withLines lines (assigned p id out) := by
  cases out <;> rfl

theorem evaluated_withLines (lines : Nat → List Line) (replies : Nat → Reply) :
    evaluated (withLines lines replies) = (evaluated replies).map (Ptr.withLines lines) := by
  have hfirst : assigned .null 0 (OutRsp.withLines (lines 0) (replies 0).out) =
      Ptr.withLines lines (assigned .null 0 (replies 0).out) :=
    assigned_withLines lines .null 0 (replies 0).out
  by_cases hret : (replies 0).ret = 0
  · simp [evaluated, withLines, hret, hfirst]
  · by_cases hret₁ : (replies 1).ret = 0
    · simp [evaluated, withLines, hret, hret₁, hfirst, assigned_withLines]
    · simp [evaluated, withLines, hret, hret₁]

theorem getCmeError_otherLines (lines : List Line) (r : ATResponse) :
    getCmeError (otherLines lines r) = getCmeError r := by
  unfold otherLines
  split <;> rfl

/-- Only behind the code 0 do the lines make a difference. -/
theorem responseEnd_otherLines {r : ATResponse} (h : 0 < r.success ∨ getCmeError r ≠ some 0)
    (lines : List Line) : responseEnd (otherLines lines r) = responseEnd r := by
  by_cases hok : 0 < r.success
  · rw [otherLines, if_pos hok]
  · have hcode := h.resolve_left hok
    simp only [responseEnd, getCmeError_otherLines]
    cases hcme : getCmeError r with
    | none => rfl
    | some cme =>
        have hzero : cme ≠ 0 := fun hzero => hcode (by rw [hcme, hzero])
        simp [hzero]

theorem responseEnd_differs {r : ATResponse} (hok : ¬ 0 < r.success)
    (hcode : getCmeError r = some 0) :
    responseEnd (otherLines [] r) ≠ responseEnd (otherLines [[]] r) := by
  simp only [responseEnd, getCmeError_otherLines, hcode, if_true]
  simp [otherLines, hok, linesEnd, lineEnd, atTokStart]

theorem linesUnread_iff (replies : Nat → Reply) :
    LinesUnread replies ↔
      ∀ id r, evaluated replies = some (.resp id r) → 0 < r.success ∨ ¬ ZeroError r := by
  simp only [LinesUnread, getSIMStatus_end, evaluated_withLines]
  constructor
  · intro hsame id r heval
    by_contra! hbad
    have hfailed : ¬ 0 < r.success := by omega
    have hcode := (getCmeError_zero_iff hfailed).2 hbad.2
    have hnone := hsame fun _ => []
    have hline := hsame fun _ => [[]]
    rw [heval] at hnone hline
    exact responseEnd_differs hfailed hcode (hnone.trans hline.symm)
  · intro hcond lines
    cases heval : evaluated replies with
    | none => rfl
    | some p =>
        cases p with
        | unassigned => rfl
        | null => rfl
        | resp id r =>
            refine responseEnd_otherLines ?_ (lines id)
            by_cases hok : 0 < r.success
            · exact .inl hok
            · rw [Ne, getCmeError_zero_iff hok]
              exact .inr ((hcond id r heval).resolve_left hok)

/-- The code of a response tells its failure exactly when the command succeeded or
the error line has neither an open quote nor a number stored as 0; `getSIMStatus`
reads no line of a failed response exactly when the one it evaluates has no such
number. -/
theorem failure_told_iff (r : ATResponse) (replies : Nat → Reply) :
    (TellsFailure r ↔ 0 < r.success ∨ ¬ (OpenError r ∨ ZeroError r)) ∧
      (LinesUnread replies ↔
        ∀ id r, evaluated replies = some (.resp id r) → 0 < r.success ∨ ¬ ZeroError r) :=
  ⟨tellsFailure_iff r, linesUnread_iff replies⟩

/-- `+CME ERROR: 0` -/
theorem error_zero_taken_for_success :
    ¬ TellsFailure ⟨0, some (text "+CME ERROR: 0"), []⟩ ∧
      ¬ LinesUnread fun _ => ⟨0, .resp ⟨0, some (text "+CME ERROR: 0"), []⟩⟩ := by
  have hzero : ZeroError ⟨0, some (text "+CME ERROR: 0"), []⟩ := by
    refine ⟨text " 0", by decide, by decide, by decide, ?_⟩
    rw [show (strtol (firstToken (text " 0"))).1 = 0 by decide]
    exact Int.dvd_zero _
  rw [tellsFailure_iff, linesUnread_iff]
  refine ⟨by simp [hzero], fun hcond => ?_⟩
  rcases hcond 0 _ rfl with hok | hnot
  · exact absurd hok (by decide)
  · exact hnot hzero

end Mobile.Command.Proofs.ErrorCode
