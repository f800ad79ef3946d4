import Mobile.Channel.Proofs.Collection
import Mobile.Command.Proofs.ErrorCode

/-!
# The SIM state of an answer

The value of `getSIMStatus` for the response that the channel makes of the lines which
answer `AT+CPIN?`.  A state is read off the first line with the prefix; a failed command
tells its state by the number of its CME error, and number 0 is taken for a success.
-/

namespace Mobile.Command.Proofs.SimState

open Mobile.ProofSupport.Search
open Mobile.Token.Scan Mobile.Token.Tokenizer Mobile.Token.Proofs.Content
open Mobile.Channel.Types Mobile.Channel.ProcessLine
open Mobile.Channel.Proofs.Collection (responseLines)
open Mobile.Command.Callbacks Mobile.Command.Operations
open Mobile.Command.Proofs.Evaluation
open Mobile.Command.Proofs.ErrorCode

def cpinPrefix : Line := text "+CPIN:"

def cmeCode (t : Line) : Int :=
  if (strtol (firstToken t)).2 then toInt (strtol (firstToken t)).1 else -1

def EndsWithCode (f : Line) (code : Int) : Prop :=
  ∃ t, f = cmePrefix ++ t ∧ unclosedQuote t = false ∧ cmeCode t = code

/-- The line of the answer is evaluated. -/
def Succeeds (f : Line) : Prop := isFinalResponseSuccess f = true ∨ EndsWithCode f 0

/-- What the modem says of the SIM, with the lines `ls` before the final line `f`. -/
inductive SimAnswer (ls : List Line) (f : Line) : SIMStatus → Prop
  | line {t : Line} (succeeds : Succeeds f)
      (first : ls.find? (fun l => cpinPrefix <+: l) = some (cpinPrefix ++ t))
      (closed : unclosedQuote t = false) : SimAnswer ls f (cpinStatus (firstToken t))
  | absent (code : EndsWithCode f 10) : SimAnswer ls f .absent
  | notReady {code : Int} (final : EndsWithCode f code) (other : code ≠ 0 ∧ code ≠ 10) :
      SimAnswer ls f .notReady
  | failed (failure : isFinalResponseSuccess f = false) (other : ¬ cmePrefix <+: f) :
      SimAnswer ls f .notReady

def cpinResponse (ls : List Line) (f : Line) : ATResponse :=
  ⟨if isFinalResponseSuccess f then 1 else 0, some f, responseLines cpinPrefix ls .singleLine⟩

/-! ### The first line with the prefix -/

def ReadsLine (ls : List Line) (s : SIMStatus) : Prop :=
  ∃ t, ls.find? (fun l => cpinPrefix <+: l) = some (cpinPrefix ++ t) ∧
    unclosedQuote t = false ∧ s = cpinStatus (firstToken t)

theorem lineEnd_cpin (t : Line) : lineEnd (cpinPrefix ++ t) =
    if unclosedQuote t then .error .nullCursor else .ok (cpinStatus (firstToken t)) := by
  have hsplit : cpinPrefix ++ t = text "+CPIN" ++ 0x3a :: t := rfl
  have habsent : 0x3a ∉ text "+CPIN" := by decide
  have hstart : atTokStart (some (cpinPrefix ++ t)) = (0, some t) := by
    simp only [atTokStart, hsplit, dropWhile_ne_split habsent]
  cases hopen : unclosedQuote t with
  | true => simp [lineEnd, hstart, atTokNextStr, content_nextTok_unclosed hopen]
  | false =>
      obtain ⟨cur, hnext⟩ := nextTok_firstToken hopen
      simp [lineEnd, hstart, atTokNextStr, hnext]

theorem linesEnd_iff (ls : List Line) (f : Line) (s : SIMStatus) :
    linesEnd (cpinResponse ls f).intermediates = .ok s ↔ ReadsLine ls s := by
  unfold ReadsLine
  cases hfirst : ls.find? (fun l => cpinPrefix <+: l) with
  | none => simp [cpinResponse, responseLines, hfirst, linesEnd]
  | some l =>
      have hprefix : cpinPrefix <+: l := by simpa using List.find?_some hfirst
      obtain ⟨t, rfl⟩ := hprefix
      have hlines : (cpinResponse ls f).intermediates = [cpinPrefix ++ t] := by
        simp [cpinResponse, responseLines, hfirst]
      rw [hlines, linesEnd, lineEnd_cpin]
      constructor
      · intro h
        cases hopen : unclosedQuote t with
        | true => simp [hopen] at h
        | false =>
            rw [hopen] at h
            cases h
            exact ⟨t, rfl, hopen, rfl⟩
      · rintro ⟨t', hline, hclosed, rfl⟩
        obtain rfl : t = t' := List.append_cancel_left (Option.some.inj hline)
        rw [hclosed]
        rfl

/-! ### The code of the final line -/

theorem cpinResponse_success (ls : List Line) (f : Line) :
    0 < (cpinResponse ls f).success ↔ isFinalResponseSuccess f = true := by
  rw [cpinResponse]
  cases isFinalResponseSuccess f <;> simp

theorem not_success_cme (t : Line) : isFinalResponseSuccess (cmePrefix ++ t) = false := rfl

theorem getCmeError_cme (ls : List Line) (t : Line) :
    getCmeError (cpinResponse ls (cmePrefix ++ t)) =
      if unclosedQuote t then none else some (cmeCode t) := by
  have hfailed : ¬ 0 < (cpinResponse ls (cmePrefix ++ t)).success := by
    simp [cpinResponse_success, not_success_cme]
  rw [getCmeError_error hfailed rfl, cmeCode]
  cases (strtol (firstToken t)).2 <;> rfl

theorem getCmeError_code (ls : List Line) {f : Line} {code : Int} (h : EndsWithCode f code) :
    getCmeError (cpinResponse ls f) = some code := by
  obtain ⟨t, rfl, hclosed, hcode⟩ := h
  simp [getCmeError_cme, hclosed, hcode]

theorem getCmeError_failed (ls : List Line) {f : Line}
    (hfailure : isFinalResponseSuccess f = false) (hother : ¬ cmePrefix <+: f) :
    getCmeError (cpinResponse ls f) = some (-1) := by
  have hfailed : ¬ 0 < (cpinResponse ls f).success := by
    simp [cpinResponse_success, hfailure]
  refine getCmeError_other hfailed ?_
  rintro t hfinal
  cases hfinal
  exact hother (List.prefix_append _ _)

theorem getCmeError_succeeds (ls : List Line) {f : Line} (h : Succeeds f) :
    getCmeError (cpinResponse ls f) = some 0 := by
  rcases h with hsuccess | hcode
  · exact getCmeError_succeeded ((cpinResponse_success ls f).2 hsuccess)
  · exact getCmeError_code ls hcode

theorem code_cases {ls : List Line} {f : Line} {code : Int}
    (h : getCmeError (cpinResponse ls f) = some code) :
    (isFinalResponseSuccess f = true ∧ code = 0) ∨ EndsWithCode f code ∨
      (isFinalResponseSuccess f = false ∧ ¬ cmePrefix <+: f ∧ code = -1) := by
  by_cases hsuccess : isFinalResponseSuccess f = true
  · rw [getCmeError_succeeds ls (.inl hsuccess)] at h
    exact .inl ⟨hsuccess, (Option.some.inj h).symm⟩
  · have hfailure : isFinalResponseSuccess f = false := by simpa using hsuccess
    by_cases hcme : cmePrefix <+: f
    · obtain ⟨t, rfl⟩ := hcme
      rw [getCmeError_cme] at h
      cases hopen : unclosedQuote t with
      | true => simp [hopen] at h
      | false => exact .inr (.inl ⟨t, rfl, hopen, by simpa [hopen] using h⟩)
    · rw [getCmeError_failed ls hfailure hcme] at h
      exact .inr (.inr ⟨hfailure, hcme, (Option.some.inj h).symm⟩)

/-! ### The state -/

theorem simAnswer_of_code {ls : List Line} {f : Line} {s : SIMStatus} {code : Int}
    (hcode : getCmeError (cpinResponse ls f) = some code)
    (hs : (if code = 0 then linesEnd (cpinResponse ls f).intermediates
      else if code = 10 then .ok .absent else .ok .notReady) = .ok s) : SimAnswer ls f s := by
  by_cases hzero : code = 0
  · have hsucceeds : Succeeds f := by
      rcases code_cases hcode with ⟨hsuccess, -⟩ | hends | ⟨-, -, hneg⟩
      · exact .inl hsuccess
      · exact .inr (hzero ▸ hends)
      · omega
    rw [if_pos hzero, linesEnd_iff] at hs
    obtain ⟨t, hfirst, hclosed, rfl⟩ := hs
    exact .line hsucceeds hfirst hclosed
  · rw [if_neg hzero] at hs
    rcases code_cases hcode with ⟨-, hnot⟩ | hends | ⟨hfailure, hother, rfl⟩
    · exact absurd hnot hzero
    · by_cases habsent : code = 10
      · rw [if_pos habsent] at hs
        cases hs
        exact .absent (habsent ▸ hends)
      · rw [if_neg habsent] at hs
        cases hs
        exact .notReady hends ⟨hzero, habsent⟩
    · cases hs
      exact .failed hfailure hother

theorem responseEnd_iff (ls : List Line) (f : Line) (s : SIMStatus) :
    responseEnd (cpinResponse ls f) = .ok s ↔ SimAnswer ls f s := by
  unfold responseEnd
  constructor
  · intro h
    cases hcode : getCmeError (cpinResponse ls f) with
    | none => simp [hcode] at h
    | some code =>
        rw [hcode] at h
        exact simAnswer_of_code hcode h
  · intro h
    cases h with
    | line hsucceeds hfirst hclosed =>
        rw [getCmeError_succeeds ls hsucceeds]
        exact (linesEnd_iff ls f _).2 ⟨_, hfirst, hclosed, rfl⟩
    | absent hends => rw [getCmeError_code ls hends]; rfl
    | notReady hends hother =>
        rw [getCmeError_code ls hends]
        simp [hother.1, hother.2]
    | failed hfailure hother => rw [getCmeError_failed ls hfailure hother]; rfl

/-- `getSIMStatus` returns a state exactly when the answer to `AT+CPIN?` says so, whatever
other lines come with it. -/
theorem sim_state_iff (ls : List Line) (f : Line) (replies : Nat → Reply)
    (hreply : replies 0 = ⟨ATErrno.success.code, .resp (cpinResponse ls f)⟩) (s : SIMStatus) :
    (getSIMStatus.run (start replies)).1 = .ok s ↔ SimAnswer ls f s := by
  rw [getSIMStatus_end, evaluated, hreply, ← responseEnd_iff]
  rfl

/-- A SIM that asks for its PIN, behind a ring. -/
theorem sim_state_iff_pin :
    (getSIMStatus.run (start fun _ => ⟨0, .resp (cpinResponse
      [text "RING", text "+CPIN: SIM PIN"] (text "OK"))⟩)).1 = .ok .pin := by
  have hanswer : SimAnswer [text "RING", text "+CPIN: SIM PIN"] (text "OK")
      (cpinStatus (firstToken (text " SIM PIN"))) :=
    .line (.inl (by decide)) (by decide) (by decide)
  rw [show cpinStatus (firstToken (text " SIM PIN")) = .pin by decide] at hanswer
  exact (sim_state_iff [text "RING", text "+CPIN: SIM PIN"] (text "OK") _ rfl .pin).2 hanswer

end Mobile.Command.Proofs.SimState
