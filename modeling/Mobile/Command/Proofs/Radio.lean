import Mobile.Command.Proofs.Evaluation
import Mobile.Token.Proofs.Rendering

/-!
# The radio state

`getRadioState` stores the mode it reads and the return code of the tokenizer in one
variable, so that of every mode only the code is left.  `setRadioState` counts down
in a loop whose test is false from the start, and it returns false where the mode was
set already.
-/

namespace Mobile.Command.Proofs.Radio

open Mobile.ProofSupport.Search (dropWhile_ne_split)
open Mobile.Token.Scan Mobile.Token.Tokenizer Mobile.Channel.Types Mobile.Channel.SendCommand
open Mobile.Command.Callbacks Mobile.Command.Operations
open Mobile.Token.Proofs.Content Mobile.Token.Proofs.Numerals Mobile.Token.Proofs.Rendering
open Mobile.Command.Proofs.Effects Mobile.Command.Proofs.Evaluation

inductive RadioMode
  | lpm
  | online
  | offline
  | f
  | restart
  | off
  deriving DecidableEq, Repr

def RadioMode.digit : RadioMode → Fin 10
  | .lpm => ⟨0, by decide⟩
  | .online => ⟨1, by decide⟩
  | .offline => ⟨4, by decide⟩
  | .f => ⟨5, by decide⟩
  | .restart => ⟨6, by decide⟩
  | .off => ⟨7, by decide⟩

def RadioMode.code (m : RadioMode) : Int := m.digit.val

/-! ## getRadioState -/

/-- A line `+CFUN: m`: white space around the mode, and further fields or none. -/
structure RadioLine where
  space : Line
  spaces : ∀ c ∈ space, isSpace c = true
  mode : RadioMode
  trail : Line
  trails : ∀ c ∈ trail, isSpace c = true
  more : Option Line

def RadioLine.token (l : RadioLine) : Line := digitChar l.mode.digit :: l.trail

def RadioLine.text (l : RadioLine) : Line :=
  Channel.Types.text "+CFUN:" ++ (l.space ++ (l.token ++ behind l.more))

theorem RadioLine.token_bare (l : RadioLine) : Bare l.token := by
  have hplain := digitChar_plain l.mode.digit
  refine ⟨?_, ?_, ?_⟩
  · intro hmem
    rcases List.mem_cons.1 hmem with heq | hmem
    · exact hplain.2 (by simp [← heq])
    · exact absurd (l.trails _ hmem) (by decide)
  · intro hmem
    rcases List.mem_cons.1 hmem with heq | hmem
    · exact hplain.2 (by simp [← heq])
    · exact absurd (l.trails _ hmem) (by decide)
  · intro c hc
    obtain rfl : digitChar l.mode.digit = c := by simpa [RadioLine.token] using hc
    exact ⟨hplain.1, fun heq => hplain.2 (by simp [heq])⟩

theorem digits_trail (d : Fin 10) {trail : Line} (htrail : ∀ c ∈ trail, isSpace c = true) :
    digits 10 (digitChar d :: trail) = [d.val] := by
  have hrest : ((trail.map digitValue).takeWhile fun d => d.any (· < 10)) = [] := by
    cases trail with
    | nil => rfl
    | cons c trail => simp [digitValue_space (htrail c (by simp))]
  simp [digits, digitValue_digitChar, hrest]

theorem RadioLine.strtol_token (l : RadioLine) : strtol l.token = (l.mode.code, true) := by
  have hdigits := digits_trail l.mode.digit l.trails
  rw [RadioLine.token, strtol_unsigned, leading, hdigits]
  cases l.mode <;> rfl

theorem RadioLine.atTokNextBool_text (l : RadioLine) :
    atTokNextBool (atTokStart (some l.text)).2 = some
      (if l.mode = .lpm ∨ l.mode = .online then (0, some l.mode.code, l.more)
        else (-1, none, l.more)) := by
  have hsplit : l.text = Channel.Types.text "+CFUN" ++ 0x3a ::
      (l.space ++ (l.token ++ behind l.more)) := rfl
  have habsent : 0x3a ∉ Channel.Types.text "+CFUN" := by decide
  have hstart : (atTokStart (some l.text)).2 = some (l.space ++ (l.token ++ behind l.more)) := by
    rw [hsplit, atTokStart, dropWhile_ne_split habsent]
  have hnext := (nextTok_bare l.spaces l.token_bare l.more).2
  simp only [hstart, atTokNextBool, atTokNextInt, reduceCtorEq, if_false, hnext, l.strtol_token,
    Option.bind_eq_bind, Option.bind_some]
  cases l.mode <;> simp [RadioMode.code, RadioMode.digit, toInt]

/-- The state that a line stands for, and a reply. -/
def lineState (line : Line) : Except Crash Int :=
  match atTokNextBool (atTokStart (some line)).2 with
  | none => .error .nullCursor
  | some (ret, _, _) => .ok (toChar ret)

def replyState (reply : Reply) : Except Crash Int :=
  match reply.out with
  | .resp r =>
    if r.success = 0 then .ok radioLpmMode else
    match r.intermediates with
    | [] => .error .nullIntermediates
    | line :: _ => lineState line
  | _ => .error .nullResponse

def stateQuery : Call := .singleLine (Channel.Types.text "AT+CFUN?") (Channel.Types.text "+CFUN:")

theorem readRadio_run (id : Nat) (r : ATResponse) (line : Line) (w : World) :
    ∃ evs, (readRadio (.resp id r) line).run w = (lineState line, logs w evs) ∧
      ∀ call reply, .sent call reply ∉ evs := by
  unfold readRadio lineState
  simp only [toChar_nonneg, if_false, Calls.lift, Calls.freeResp]
  cases htok : atTokNextBool (atTokStart (some line)).2 with
  | none => exact ⟨[], by simpa [logs] using tok_bind_none rfl, by simp⟩
  | some t =>
      obtain ⟨ret, value, cur⟩ := t
      refine ⟨[.free id], ?_, by simp⟩
      rw [tok_bind_some rfl]
      exact freed_run _

theorem getRadioState_run (replies : Nat → Reply) :
    ∃ evs, getRadioState.run (start replies) =
        (replyState (replies 0), sends (start replies) (.sent stateQuery (replies 0) :: evs)) ∧
      ∀ call reply, .sent call reply ∉ evs := by
  have hstore : 0 ≤ toChar ((start replies).replies (start replies).sent).ret :=
    Int.not_lt.1 (toChar_nonneg _)
  have hfresh : .free (start replies).sent ∉ (start replies).trace := by simp
  unfold getRadioState replyState
  by_cases hresp : ∃ r, (replies 0).out = .resp r
  · obtain ⟨r, hout⟩ := hresp
    simp only [hout]
    by_cases hr : r.success = 0
    · rw [query_failed hstore hfresh hout hr, if_pos hr]
      exact ⟨_, rfl, by simp⟩
    · rw [if_neg hr]
      cases hlines : r.intermediates with
      | nil =>
          rw [query_empty hstore hfresh hout hr hlines]
          exact ⟨_, rfl, by simp⟩
      | cons line lines =>
          obtain ⟨evs, hrun, hquiet⟩ := readRadio_run (start replies).sent r line
            (sends (start replies) (asked (start replies) toChar (Channel.Types.text "AT+CFUN?")
              (Channel.Types.text "+CFUN:") false ++ [.use (start replies).sent]))
          rw [query_line hstore hfresh hout hr hlines, hrun, logs_sends]
          refine ⟨_, rfl, ?_⟩
          simpa using hquiet
  · rw [not_exists] at hresp
    rw [query_null hstore hresp]
    refine ⟨[], ?_, by simp⟩
    cases hout : (replies 0).out with
    | resp r => exact absurd hout (hresp r)
    | null => rfl
    | unassigned => rfl

def ReadsMode (replies : Nat → Reply) (m : RadioMode) : Prop :=
  (getRadioState.run (start replies)).1 = .ok m.code

theorem readsMode_iff {l : RadioLine} {r : ATResponse} {lines : List Line}
    {replies : Nat → Reply} (hreply : replies 0 = ⟨0, .resp r⟩) (hok : r.success ≠ 0)
    (hline : r.intermediates = l.text :: lines) : ReadsMode replies l.mode ↔ l.mode = .lpm := by
  obtain ⟨evs, hrun, -⟩ := getRadioState_run replies
  have hstate : replyState (replies 0) =
      .ok (if l.mode = .lpm ∨ l.mode = .online then 0 else 255) := by
    simp only [replyState, hreply, if_neg hok, hline, lineState, l.atTokNextBool_text]
    split_ifs <;> rfl
  rw [ReadsMode, hrun, hstate]
  cases l.mode <;> simp [RadioMode.code, RadioMode.digit]

/-! ## setRadioState -/

def stateOf (reply : Reply) : Except Crash Int := (getRadioState.run (start fun _ => reply)).1

def statesRead (trace : List OpEvent) : List (Except Crash Int) :=
  trace.filterMap fun
    | .sent call reply => if call = stateQuery then some (stateOf reply) else none
    | _ => none

def modesSent (trace : List OpEvent) : Nat :=
  trace.countP fun
    | .sent (.command cmd _) _ => (Channel.Types.text "AT+CFUN=").isPrefixOf cmd
    | _ => false

/-- `setRadioState` returns whether the last state read is the target; it has sent the
target five times at most, and at least once where the first state was another. -/
def SetsMode (target : RadioMode) (replies : Nat → Reply) : Prop :=
  ∃ ret, ((setRadioState target.code).run (start replies)).1 = .ok ret ∧
    (ret = true ↔ (statesRead ((setRadioState target.code).run (start replies)).2.trace).getLast? =
      some (.ok target.code)) ∧
    modesSent ((setRadioState target.code).run (start replies)).2.trace ≤ 5 ∧
    ((statesRead ((setRadioState target.code).run (start replies)).2.trace).head? ≠
      some (.ok target.code) →
        1 ≤ modesSent ((setRadioState target.code).run (start replies)).2.trace)

theorem statesRead_quiet {evs : List OpEvent} (h : ∀ call reply, .sent call reply ∉ evs) :
    statesRead evs = [] := by
  rw [statesRead, List.filterMap_eq_nil_iff]
  intro ev hev
  cases ev with
  | sent call reply => exact absurd hev (h call reply)
  | _ => rfl

/-- One state is read, and no mode is sent: the result says that the state was not the
target. -/
theorem setRadioState_reads (cfun : Int) (replies : Nat → Reply) :
    ((setRadioState cfun).run (start replies)).1 =
        (stateOf (replies 0)).map (fun mode => !decide (mode = cfun)) ∧
      statesRead ((setRadioState cfun).run (start replies)).2.trace = [stateOf (replies 0)] := by
  obtain ⟨evs, hrun, hquiet⟩ := getRadioState_run replies
  obtain ⟨evs', hrun', -⟩ := getRadioState_run fun _ => replies 0
  have hstate : stateOf (replies 0) = replyState (replies 0) := by rw [stateOf, hrun']
  rw [setRadioState_run, hrun, hstate]
  refine ⟨rfl, ?_⟩
  have hrest := statesRead_quiet hquiet
  rw [statesRead] at hrest
  simp [statesRead, hrest, hstate]

theorem not_setsMode (target : RadioMode) (replies : Nat → Reply) : ¬ SetsMode target replies := by
  obtain ⟨hret, hstates⟩ := setRadioState_reads target.code replies
  rintro ⟨ret, hok, htold, -⟩
  rw [hret] at hok
  rw [hstates] at htold
  cases hstate : stateOf (replies 0) with
  | error c =>
      rw [hstate] at hok
      cases hok
  | ok mode =>
      rw [hstate] at hok htold
      simp only [Except.map, Except.ok.injEq] at hok
      by_cases hmode : mode = target.code
      · simp [← hok, hmode] at htold
      · simp [← hok, hmode] at htold

/-- `getRadioState` returns the mode of the line exactly for the mode 0;
`setRadioState` never tells whether the mode was set. -/
theorem radio_faithful_iff (l : RadioLine) (r : ATResponse) (lines : List Line)
    (replies outcomes : Nat → Reply) (target : RadioMode) (hreply : replies 0 = ⟨0, .resp r⟩)
    (hok : r.success ≠ 0) (hline : r.intermediates = l.text :: lines) :
    (ReadsMode replies l.mode ↔ l.mode = .lpm) ∧ ¬ SetsMode target outcomes :=
  ⟨readsMode_iff hreply hok hline, not_setsMode target outcomes⟩

theorem blank_space : ∀ c ∈ [0x20], isSpace c = true := by
  simp [isSpace]

theorem blank_nil : ∀ c ∈ ([] : Line), isSpace c = true := by
  simp

def plainLine (m : RadioMode) : RadioLine :=
  ⟨[0x20], blank_space, m, [], blank_nil, none⟩

/-- `+CFUN: 0` -/
theorem radio_faithful_lpm :
    ReadsMode (fun _ => ⟨0, .resp ⟨1, none, [(plainLine .lpm).text]⟩⟩) .lpm ∧
      ¬ SetsMode .online fun _ => ⟨0, .resp ⟨1, none, [(plainLine .lpm).text]⟩⟩ :=
  have h := radio_faithful_iff (plainLine .lpm) ⟨1, none, [(plainLine .lpm).text]⟩ []
    (fun _ => ⟨0, .resp ⟨1, none, [(plainLine .lpm).text]⟩⟩)
    (fun _ => ⟨0, .resp ⟨1, none, [(plainLine .lpm).text]⟩⟩) .online rfl (by decide) rfl
  ⟨h.1.2 rfl, h.2⟩

/-- `+CFUN: 1` is read as 0, and the mode 1 is then not set. -/
theorem online_read_as_lpm :
    ¬ ReadsMode (fun _ => ⟨0, .resp ⟨1, none, [(plainLine .online).text]⟩⟩) .online ∧
      ¬ SetsMode .online fun _ => ⟨0, .resp ⟨1, none, [(plainLine .online).text]⟩⟩ := by
  refine ⟨fun hreads => ?_, not_setsMode _ _⟩
  have hmode := (readsMode_iff (l := plainLine .online) (r := ⟨1, none, [(plainLine .online).text]⟩)
    rfl (by decide) rfl).1 hreads
  exact absurd hmode (by decide)

end Mobile.Command.Proofs.Radio
