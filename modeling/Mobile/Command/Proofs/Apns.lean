import Mobile.Command.Proofs.Evaluation
import Mobile.Token.Proofs.Fields

/-!
# The list of access points

`getAPNS` reads a number and three strings of each line.  Its failure branch returns
-1, which is true; a line that ends before its fourth field leaves the null cursor for
the next string, and one whose third field ends it in quotes passes for a line of
four.
-/

namespace Mobile.Command.Proofs.Apns

open Mobile.Token.Scan Mobile.Token.Tokenizer Mobile.Channel.Types Mobile.Channel.SendCommand
open Mobile.Command.Callbacks Mobile.Command.Operations
open Mobile.Token.Proofs.Content Mobile.Token.Proofs.Fields
open Mobile.Command.Proofs.Effects Mobile.Command.Proofs.Evaluation

/-! ## The fields of a line -/

def HasNumber (t : Line) : Prop := (strtol (fieldText t)).2 = true

/-- A colon, a context id and at least three further fields. -/
def WellFormed (line : Line) : Prop :=
  ∃ t, behindFirst 0x3a line = some t ∧ HasNumber t ∧ (fieldFrom t 3).isSome

def Closed (t : Line) : Prop :=
  ∀ k < 4, ∀ u, fieldFrom t k = some u → unclosedQuote u = false

def EndsQuoted (t : Line) : Prop :=
  ∃ u, fieldFrom t 2 = some u ∧ (quotedText u).isSome ∧ nextField u = none

/-- The line is read to its end. -/
def Accepted (line : Line) : Prop :=
  ∃ t, behindFirst 0x3a line = some t ∧ HasNumber t ∧ Closed t ∧
    ((fieldFrom t 3).isSome ∨ EndsQuoted t)

/-- The line has no colon, or its first field is no number. -/
def Rejected (line : Line) : Prop :=
  ∀ t, behindFirst 0x3a line = some t → unclosedQuote t = false ∧ ¬ HasNumber t

/-! ## One line -/

def takes : Nat → Cursor → Bool
  | 0, _ => true
  | _ + 1, none => false
  | k + 1, some t => !unclosedQuote t && takes k (cursorBehind t)

section Strings

variable {t : Line}

theorem atTokNextStr_open (hopen : unclosedQuote t = true) : atTokNextStr (some t) = none := by
  simp [atTokNextStr, content_nextTok_unclosed hopen]

theorem atTokNextStr_closed (hclosed : unclosedQuote t = false) :
    atTokNextStr (some t) = some (0, fieldText t, cursorBehind t) := by
  simp [atTokNextStr, nextTok_field hclosed]

theorem takes_open (k : Nat) (hopen : unclosedQuote t = true) : takes (k + 1) (some t) = false := by
  simp [takes, hopen]

theorem takes_closed (k : Nat) (hclosed : unclosedQuote t = false) :
    takes (k + 1) (some t) = takes k (cursorBehind t) := by
  simp [takes, hclosed]

end Strings

theorem nextStr_bind (cur : Cursor) (k : Nat) {f : Cursor → Option Bool}
    (hf : ∀ cur, f cur = if takes k cur then some true else none) :
    (do
      let (ret, _, cur) ← atTokNextStr cur
      if ret < 0 then return false else f cur) =
        if takes (k + 1) cur then some true else none := by
  cases cur with
  | none => rfl
  | some t =>
      by_cases hopen : unclosedQuote t = true
      · rw [atTokNextStr_open hopen, takes_open k hopen]
        rfl
      · rw [Bool.not_eq_true] at hopen
        rw [atTokNextStr_closed hopen, takes_closed k hopen, ← hf]
        rfl

theorem apnFields_eq (line : Line) :
    apnFields line = match behindFirst 0x3a line with
      | none => some false
      | some t =>
        if unclosedQuote t then none
        else if (strtol (fieldText t)).2 then
          if takes 3 (cursorBehind t) then some true else none
        else some false := by
  have hlast : ∀ cur, (do
      let (ret, _, _) ← atTokNextStr cur
      return !decide (ret < 0) : Option Bool) = if takes 1 cur then some true else none := by
    intro cur
    rw [← nextStr_bind cur 0 (f := fun _ => some true) (fun _ => rfl)]
    congr 1
    funext x
    obtain ⟨ret, out, cur⟩ := x
    by_cases hret : ret < 0 <;> simp [hret]
  have hthree := fun cur => nextStr_bind cur 2 fun cur => nextStr_bind cur 1 hlast
  unfold apnFields
  rw [atTokStart_eq]
  cases behindFirst 0x3a line with
  | none => rfl
  | some t =>
      by_cases hopen : unclosedQuote t = true
      · simp [atTokNextInt, content_nextTok_unclosed hopen, hopen]
      · rw [Bool.not_eq_true] at hopen
        simp only [Int.lt_irrefl, if_false, atTokNextInt, reduceCtorEq, nextTok_field hopen,
          Option.bind_eq_bind, Option.bind_some, Option.pure_def, hopen, Bool.false_eq_true]
        by_cases hfound : (strtol (fieldText t)).2 = true
        · simpa [hfound] using hthree (cursorBehind t)
        · simp [hfound]

/-- Behind a field without a next one a string can be read only when it was quoted, and
then only one. -/
theorem takes_behind (k : Nat) (t : Line) :
    takes (k + 1) (cursorBehind t) = match nextField t with
      | none => (k == 0) && (quotedText t).isSome
      | some u => !unclosedQuote u && takes k (cursorBehind u) := by
  have hempty : takes k (cursorBehind []) = (k == 0) := by
    cases k with
    | zero => rfl
    | succ k => rfl
  cases hnext : nextField t with
  | none =>
      cases hquote : (quotedText t).isSome with
      | true =>
          have hopen : unclosedQuote [] = false := by decide
          have hcursor : cursorBehind t = some [] := by simp [cursorBehind, hquote, hnext]
          rw [hcursor, takes_closed k hopen, hempty]
          simp
      | false => simp [cursorBehind, hquote, hnext, takes]
  | some u => cases hquote : (quotedText t).isSome <;> simp [cursorBehind, hquote, hnext, takes]

theorem closed_iff (t : Line) :
    Closed t ↔ unclosedQuote t = false ∧
      (∀ u, fieldFrom t 1 = some u → unclosedQuote u = false) ∧
      (∀ u, fieldFrom t 2 = some u → unclosedQuote u = false) ∧
      ∀ u, fieldFrom t 3 = some u → unclosedQuote u = false := by
  constructor
  · intro h
    exact ⟨h 0 (by decide) t rfl, h 1 (by decide), h 2 (by decide), h 3 (by decide)⟩
  · rintro ⟨h0, h1, h2, h3⟩ k hk u hu
    match k, hk with
    | 0, _ =>
        cases hu
        exact h0
    | 1, _ => exact h1 u hu
    | 2, _ => exact h2 u hu
    | 3, _ => exact h3 u hu

theorem takes_three_iff {t : Line} (hclosed : unclosedQuote t = false) :
    takes 3 (cursorBehind t) = true ↔ Closed t ∧ ((fieldFrom t 3).isSome ∨ EndsQuoted t) := by
  rw [closed_iff, takes_behind]
  cases h1 : nextField t with
  | none => simp [EndsQuoted, fieldFrom, h1]
  | some u =>
      dsimp only
      rw [takes_behind]
      cases h2 : nextField u with
      | none => simp [EndsQuoted, fieldFrom, h1, h2]
      | some v =>
          dsimp only
          rw [takes_behind]
          cases h3 : nextField v with
          | none => simp [EndsQuoted, fieldFrom, h1, h2, h3, hclosed, and_assoc]
          | some w => simp [EndsQuoted, fieldFrom, h1, h2, h3, hclosed, takes]

theorem apnFields_true_iff (line : Line) : apnFields line = some true ↔ Accepted line := by
  rw [apnFields_eq, Accepted]
  cases hcolon : behindFirst 0x3a line with
  | none => simp
  | some t =>
      by_cases hopen : unclosedQuote t = true
      · have hnot : ¬ Closed t := fun h => by simp [(closed_iff t).1 h |>.1] at hopen
        simp [hopen, hnot]
      · rw [Bool.not_eq_true] at hopen
        have hthree := takes_three_iff hopen
        by_cases hfound : (strtol (fieldText t)).2 = true
        · by_cases htakes : takes 3 (cursorBehind t) = true
          · simp only [hopen, hfound, htakes, Bool.false_eq_true, if_false, if_true, true_iff]
            exact ⟨t, rfl, hfound, hthree.1 htakes⟩
          · simp only [hopen, hfound, htakes, Bool.false_eq_true, if_false, if_true, reduceCtorEq,
              false_iff]
            rintro ⟨u, hu, -, hrest⟩
            cases hu
            exact htakes (hthree.2 hrest)
        · simp [hopen, hfound, HasNumber]

theorem apnFields_false_iff (line : Line) : apnFields line = some false ↔ Rejected line := by
  rw [apnFields_eq, Rejected]
  cases hcolon : behindFirst 0x3a line with
  | none => simp
  | some t =>
      by_cases hopen : unclosedQuote t = true
      · simp [hopen]
      · by_cases hfound : (strtol (fieldText t)).2 = true
        · by_cases htakes : takes 3 (cursorBehind t) = true <;>
            simp [hopen, hfound, HasNumber, htakes]
        · simp [hopen, hfound, HasNumber]

/-! ## The list of lines -/

/-- The result of the loop; `none` where it reads through the null cursor. -/
def apnResult : List Line → Option Bool
  | [] => some true
  | line :: lines =>
    match apnFields line with
    | none => none
    | some false => some false
    | some true => apnResult lines

theorem apnLines_run (id : Nat) (r : ATResponse) (lines : List Line) (w : World) :
    ((apnLines (.resp id r) lines).run w).1 =
      match apnResult lines with
      | none => .error .nullCursor
      | some b => .ok b := by
  induction lines with
  | nil =>
      simp only [apnLines, Calls.freeResp, freed_run]
      rfl
  | cons line lines ih =>
      unfold apnLines apnResult
      simp only [Calls.lift, Calls.freeResp]
      cases hline : apnFields line with
      | none => rw [tok_bind_none rfl]
      | some b =>
          rw [tok_bind_some rfl]
          cases b with
          | false =>
              have hfreed : (do freeResp (.resp id r); return false : Op Bool).run w =
                  (.ok false, logs w [.free id]) := freed_run false
              simpa using congrArg Prod.fst hfreed
          | true => simpa using ih

theorem apnResult_true_iff (lines : List Line) :
    apnResult lines = some true ↔ ∀ line ∈ lines, Accepted line := by
  induction lines with
  | nil => simp [apnResult]
  | cons line lines ih =>
      rw [List.forall_mem_cons, ← ih, ← apnFields_true_iff, apnResult]
      cases apnFields line with
      | none => simp
      | some b => cases b <;> simp

def StopsAt (lines : List Line) : Prop :=
  ∃ before line after, lines = before ++ line :: after ∧
    (∀ l ∈ before, Accepted l) ∧ Rejected line

theorem apnResult_false_iff (lines : List Line) : apnResult lines = some false ↔ StopsAt lines := by
  induction lines with
  | nil => simp [apnResult, StopsAt]
  | cons line lines ih =>
      have hcons : StopsAt (line :: lines) ↔ Rejected line ∨ Accepted line ∧ StopsAt lines := by
        constructor
        · rintro ⟨before, l, after, heq, hbefore, hl⟩
          cases before with
          | nil =>
              cases heq
              exact .inl hl
          | cons b before =>
              cases heq
              exact .inr ⟨hbefore line (by simp), before, l, after, rfl,
                fun x hx => hbefore x (by simp [hx]), hl⟩
        · rintro (hl | ⟨hline, before, l, after, rfl, hbefore, hl⟩)
          · exact ⟨[], line, lines, rfl, by simp, hl⟩
          · exact ⟨line :: before, l, after, rfl, by simpa [hline] using hbefore, hl⟩
      rw [hcons, ← apnFields_false_iff, ← apnFields_true_iff, ← ih, apnResult]
      cases apnFields line with
      | none => simp
      | some b => cases b <;> simp

/-! ## The operation -/

def Succeeded (reply : Reply) (lines : List Line) : Prop :=
  ∃ r, reply = ⟨0, .resp r⟩ ∧ r.success ≠ 0 ∧ r.intermediates = lines

/-- `getAPNS` returns, and true exactly when the command succeeded and all its lines
are well formed. -/
def Reports (replies : Nat → Reply) : Prop :=
  ∃ ret, (getAPNS.run (start replies)).1 = .ok ret ∧
    (ret = true ↔ ∃ lines, Succeeded (replies 0) lines ∧ ∀ line ∈ lines, WellFormed line)

/-- All lines are well formed without an open quote, or one is rejected before any
other fault is met. -/
def Decided (lines : List Line) : Prop :=
  (∀ line ∈ lines, WellFormed line ∧ ∀ t, behindFirst 0x3a line = some t → Closed t) ∨
    StopsAt lines

theorem Rejected.not_wellFormed {line : Line} (h : Rejected line) : ¬ WellFormed line := by
  rintro ⟨t, hcolon, hnumber, -⟩
  exact (h t hcolon).2 hnumber

theorem accepted_wellFormed_iff (line : Line) :
    Accepted line ∧ WellFormed line ↔
      WellFormed line ∧ ∀ t, behindFirst 0x3a line = some t → Closed t := by
  constructor
  · rintro ⟨⟨t, hcolon, -, hclosed, -⟩, hwell⟩
    refine ⟨hwell, fun u hu => ?_⟩
    rw [hcolon] at hu
    cases hu
    exact hclosed
  · rintro ⟨⟨t, hcolon, hnumber, hthree⟩, hclosed⟩
    exact ⟨⟨t, hcolon, hnumber, hclosed t hcolon, .inl hthree⟩, t, hcolon, hnumber, hthree⟩

theorem apnResult_decided (lines : List Line) :
    (∃ b, apnResult lines = some b ∧ (b = true ↔ ∀ line ∈ lines, WellFormed line)) ↔
      Decided lines := by
  constructor
  · rintro ⟨b, hb, htold⟩
    cases b with
    | true =>
        have hwell := htold.1 rfl
        rw [apnResult_true_iff] at hb
        exact .inl fun line hline =>
          (accepted_wellFormed_iff line).1 ⟨hb line hline, hwell line hline⟩
    | false => exact .inr ((apnResult_false_iff lines).1 hb)
  · rintro (hall | hstop)
    · refine ⟨true, (apnResult_true_iff lines).2 fun line hline => ?_, by simpa using
        fun line hline => (hall line hline).1⟩
      exact ((accepted_wellFormed_iff line).2 (hall line hline)).1
    · refine ⟨false, (apnResult_false_iff lines).2 hstop, by simp, fun hall => ?_⟩
      obtain ⟨before, line, after, rfl, -, hrejected⟩ := hstop
      exact absurd (hall line (by simp)) hrejected.not_wellFormed

theorem getAPNS_missing {replies : Nat → Reply} {p : Ptr} {w : World} {c : Crash}
    (hret : (replies 0).ret = 0)
    (hsend : (send cgdcont .unassigned).run (start replies) = (.ok ((replies 0).ret, p), w))
    (hp : (deref p).run w = (.error c, w)) : getAPNS.run (start replies) = (.error c, w) := by
  refine (bind_ok hsend).trans ?_
  simp only [hret]
  exact bind_error (failedQuery_crash hp)

/-- The listing reports failure as failure exactly when the command succeeded and its
lines decide the result. -/
theorem apns_reports_iff (replies : Nat → Reply) :
    Reports replies ↔ ∃ lines, Succeeded (replies 0) lines ∧ Decided lines := by
  by_cases hsucceeded : ∃ r, replies 0 = ⟨0, .resp r⟩ ∧ r.success ≠ 0
  · obtain ⟨r, hreply, hok⟩ := hsucceeded
    have hlines : ∀ lines, Succeeded (replies 0) lines ↔ r.intermediates = lines := by
      intro lines
      simp [Succeeded, hreply, hok]
    simp only [Reports, hlines, exists_eq_left', ← apnResult_decided]
    rw [getAPNS_lines hreply hok, apnLines_run]
    cases apnResult r.intermediates with
    | none => simp
    | some b => simp
  · have hnone : ∀ lines, ¬ Succeeded (replies 0) lines := by
      rintro lines ⟨r, hreply, hok, -⟩
      exact hsucceeded ⟨r, hreply, hok⟩
    refine iff_of_false ?_ (by simp [hnone])
    rintro ⟨ret, hrun, htold⟩
    simp only [hnone, false_and, exists_false, iff_false, Bool.not_eq_true] at htold
    subst htold
    by_cases hret : (replies 0).ret = 0
    · cases hout : (replies 0).out with
      | resp r =>
          have hreply : replies 0 = ⟨0, .resp r⟩ := by rw [← hret, ← hout]
          have hrefused : r.success = 0 := by
            by_contra hok
            exact hsucceeded ⟨r, hreply, hok⟩
          rw [getAPNS_refused hreply hrefused] at hrun
          cases hrun
      | null =>
          rw [getAPNS_missing hret (send_null hout) rfl] at hrun
          cases hrun
      | unassigned =>
          rw [getAPNS_missing hret (send_unassigned hout) rfl] at hrun
          cases hrun
    · rw [getAPNS_failed hret] at hrun
      cases hrun

/-- A command that failed is reported as a success. -/
theorem failure_reported_as_success : ¬ ∀ replies, Reports replies := by
  intro h
  obtain ⟨ret, hrun, htold⟩ := h fun _ => ⟨0, .resp ⟨0, some (text "ERROR"), []⟩⟩
  rw [getAPNS_refused rfl rfl] at hrun
  cases hrun
  obtain ⟨lines, ⟨r, hreply, hok, -⟩, -⟩ := htold.1 rfl
  cases hreply
  exact hok rfl

end Mobile.Command.Proofs.Apns
