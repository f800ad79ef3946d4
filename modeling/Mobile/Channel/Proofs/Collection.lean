import Mathlib.Data.List.Induction
import Mobile.Channel.SendCommand
import Mobile.Channel.Proofs.WriteSpec

/-!
# Response collection

What `ProcessLine` makes of the lines between a command and its final response:
which become intermediates, which go to the unsolicited handler, and which one
is taken as the SMS prompt.
-/

namespace Mobile.Channel.Proofs.Collection

open Mobile.Token.Scan Mobile.Channel.Types Mobile.Channel.WriteLine
open Mobile.Channel.ProcessLine Mobile.Channel.SendCommand Mobile.Channel.Proofs.WriteSpec

def unsolCalls (events : List Event) : List (Line × Option Line) :=
  events.filterMap fun
    | .unsolHandler line smsPdu => some (line, smsPdu)
    | _ => none

def writeLines (events : List Event) : List (Line × Line) :=
  events.filterMap fun
    | .writeLine s ctrl => some (s, ctrl)
    | _ => none

@[simp] theorem unsolCalls_append (xs ys : List Event) :
    unsolCalls (xs ++ ys) = unsolCalls xs ++ unsolCalls ys :=
  List.filterMap_append

@[simp] theorem writeLines_append (xs ys : List Event) :
    writeLines (xs ++ ys) = writeLines xs ++ writeLines ys :=
  List.filterMap_append

/-- What is left of the lines when a pending PDU has taken the first prompt. -/
def afterPrompt (smsPdu : Option Line) (ls : List Line) : List Line :=
  if smsPdu.isSome then ls.erase smsPrompt else ls

def pduWrites (smsPdu : Option Line) (ls : List Line) : List (Line × Line) :=
  if smsPrompt ∈ ls then (smsPdu.map (·, kCtrlZ)).toList else []

/-- The lines that belong to the response of a command of the given type. -/
def responseLines (pre : Line) (ls : List Line) : ATCmdType → List Line
  | .noResult => []
  | .numeric => (ls.find? startsWithDigit).toList
  | .singleLine => (ls.find? fun l => pre <+: l).toList
  | .multiLine => ls.filter fun l => pre <+: l

def otherLines (pre : Line) (ls : List Line) : ATCmdType → List Line
  | .noResult => ls
  | .numeric => ls.eraseP startsWithDigit
  | .singleLine => ls.eraseP fun l => pre <+: l
  | .multiLine => ls.filter fun l => ¬ pre <+: l

def wanted (pre : Line) (before : List Line) (l : Line) : ATCmdType → Bool
  | .noResult => false
  | .numeric => (before.find? startsWithDigit).isNone && startsWithDigit l
  | .singleLine => (before.find? fun l => pre <+: l).isNone && pre <+: l
  | .multiLine => pre <+: l

theorem find?_snoc_toList (p : Line → Bool) (ls : List Line) (l : Line) :
    ((ls ++ [l]).find? p).toList =
      (ls.find? p).toList ++ if (ls.find? p).isNone && p l then [l] else [] := by
  rw [List.find?_append]
  cases ls.find? p with
  | none => cases hl : p l <;> simp [hl]
  | some a => simp

theorem eraseP_snoc (p : Line → Bool) (ls : List Line) (l : Line) :
    (ls ++ [l]).eraseP p =
      ls.eraseP p ++ if (ls.find? p).isNone && p l then [] else [l] := by
  by_cases hls : ∃ a ∈ ls, p a = true
  · obtain ⟨a, ha, hpa⟩ := hls
    have hfind : (ls.find? p).isNone = false := by
      rw [← Option.not_isSome, Bool.not_eq_false', List.find?_isSome]
      exact ⟨a, ha, hpa⟩
    rw [List.eraseP_append_left hpa _ ha, hfind]
    simp
  · push Not at hls
    have hnone : ∀ a ∈ ls, ¬ p a = true := hls
    have hfind : ls.find? p = none := List.find?_eq_none.2 hnone
    rw [List.eraseP_append_right _ hnone, List.eraseP_of_forall_not hnone, hfind]
    cases hl : p l <;> simp [hl]

theorem responseLines_snoc (pre : Line) (ls : List Line) (l : Line) (type : ATCmdType) :
    responseLines pre (ls ++ [l]) type =
      responseLines pre ls type ++ if wanted pre ls l type then [l] else [] := by
  cases type with
  | noResult => simp [responseLines, wanted]
  | numeric => exact find?_snoc_toList _ ls l
  | singleLine => exact find?_snoc_toList _ ls l
  | multiLine => by_cases hl : pre <+: l <;> simp [responseLines, wanted, hl]

theorem otherLines_snoc (pre : Line) (ls : List Line) (l : Line) (type : ATCmdType) :
    otherLines pre (ls ++ [l]) type =
      otherLines pre ls type ++ if wanted pre ls l type then [] else [l] := by
  cases type with
  | noResult => simp [otherLines, wanted]
  | numeric => exact eraseP_snoc _ ls l
  | singleLine => exact eraseP_snoc _ ls l
  | multiLine => by_cases hl : pre <+: l <;> simp [otherLines, wanted, hl]

theorem afterPrompt_snoc (smsPdu : Option Line) (ls : List Line) (l : Line) :
    afterPrompt smsPdu (ls ++ [l]) =
      afterPrompt smsPdu ls ++
        if smsPdu.isSome ∧ smsPrompt ∉ ls ∧ l = smsPrompt then [] else [l] := by
  unfold afterPrompt
  cases smsPdu with
  | none => simp
  | some pdu =>
      by_cases hls : smsPrompt ∈ ls
      · simp [List.erase_append_left _ hls, hls]
      · by_cases hl : l = smsPrompt
        · simp [List.erase_append_right _ hls, List.erase_of_not_mem hls, hls, hl]
        · have hl' : smsPrompt ∉ [l] := by simpa [eq_comm] using hl
          simp [List.erase_append_right _ hls, List.erase_of_not_mem hls,
            List.erase_of_not_mem hl', hls, hl]

theorem pduWrites_snoc (smsPdu : Option Line) (ls : List Line) (l : Line) :
    pduWrites smsPdu (ls ++ [l]) =
      pduWrites smsPdu ls ++
        if smsPrompt ∉ ls ∧ l = smsPrompt then (smsPdu.map (·, kCtrlZ)).toList else [] := by
  unfold pduWrites
  by_cases hls : smsPrompt ∈ ls
  · simp [hls]
  · by_cases hl : l = smsPrompt
    · simp [hls, hl]
    · have hl' : ¬ smsPrompt = l := fun h => hl h.symm
      simp [hls, hl, hl']

theorem pduWrites_snoc_of_not {smsPdu : Option Line} {ls : List Line} {l : Line}
    (hprompt : ¬ (smsPdu.isSome ∧ smsPrompt ∉ ls ∧ l = smsPrompt)) :
    pduWrites smsPdu (ls ++ [l]) = pduWrites smsPdu ls := by
  rw [pduWrites_snoc]
  cases smsPdu with
  | none => simp
  | some pdu =>
      have hnot : ¬ (smsPrompt ∉ ls ∧ l = smsPrompt) := fun hp => hprompt ⟨rfl, hp⟩
      rw [if_neg hnot, List.append_nil]

theorem pendingPdu_snoc_of_not {smsPdu : Option Line} {ls : List Line} {l : Line}
    (hprompt : ¬ (smsPdu.isSome ∧ smsPrompt ∉ ls ∧ l = smsPrompt)) :
    (if smsPrompt ∈ ls ++ [l] then none else smsPdu) =
      if smsPrompt ∈ ls then none else smsPdu := by
  cases smsPdu with
  | none => simp
  | some pdu =>
      by_cases hls : smsPrompt ∈ ls
      · simp [hls]
      · have hne : ¬ smsPrompt = l := fun heq => hprompt ⟨rfl, hls, heq.symm⟩
        simp [hls, hne]

theorem isFinalResponse_eq_false {l : Line} :
    isFinalResponse l = false ↔
      isFinalResponseSuccess l = false ∧ isFinalResponseError l = false := by
  simp [isFinalResponse]

theorem handleUnsolicited_eq (ch : ATChannel) (l : Line) :
    handleUnsolicited ch l = { ch with
      events := ch.events ++ if ch.unsolHandler then [.unsolHandler l none] else [] } := by
  unfold handleUnsolicited
  split <;> simp [ATChannel.log]

/-- The switch of `ProcessLine` keeps a line exactly when it is wanted. -/
theorem dispatch_eq {ch : ATChannel} {rsp : ATResponse} {pre : Line} {before : List Line}
    (l : Line) (hpre : ch.rspPrefix = some pre)
    (hrsp : rsp.intermediates = (responseLines pre before ch.type).reverse) :
    dispatch ch rsp l = some (if wanted pre before l ch.type then addIntermediate ch rsp l
      else handleUnsolicited ch l) := by
  have hstart : atStrStartWith l pre = decide (pre <+: l) := by
    rw [Bool.eq_iff_iff, atStrStartWith_iff, decide_eq_true_iff]
  unfold dispatch
  cases htype : ch.type with
  | noResult => simp [wanted]
  | numeric =>
      rw [htype] at hrsp
      have hempty : rsp.intermediates = [] ↔ before.find? startsWithDigit = none := by
        simp [hrsp, responseLines]
      by_cases hl : startsWithDigit l = true <;> by_cases hb : before.find? startsWithDigit = none <;>
        simp [wanted, hempty, hl, hb]
  | singleLine =>
      rw [htype] at hrsp
      have hempty : rsp.intermediates = [] ↔ (before.find? fun l => pre <+: l) = none := by
        simp [hrsp, responseLines]
      by_cases hb : (before.find? fun l => pre <+: l) = none <;> by_cases hl : pre <+: l <;>
        simp [wanted, hempty, hpre, hstart, hb, hl]
  | multiLine => by_cases hl : pre <+: l <;> simp [wanted, hpre, hstart, hl]

/-- The channel while it collects: `ls` has been processed since `base` was set
up, and no line of it was final. -/
structure Collecting (base : ATChannel) (type : ATCmdType) (pre : Line)
    (smsPdu : Option Line) (ls : List Line) (ch : ATChannel) : Prop where
  rsp_eq : ch.rsp =
    some ⟨0, none, (responseLines pre (afterPrompt smsPdu ls) type).reverse⟩
  type_eq : ch.type = type
  rspPrefix_eq : ch.rspPrefix = some pre
  smsPdu_eq : ch.smsPdu = if smsPrompt ∈ ls then none else smsPdu
  handler_eq : ch.unsolHandler = base.unsolHandler
  events_eq : ∃ new, ch.events = base.events ++ new ∧
    writeLines new = pduWrites smsPdu ls ∧
    unsolCalls new = if base.unsolHandler
      then (otherLines pre (afterPrompt smsPdu ls) type).map (·, none) else []

section Step

variable {base ch : ATChannel} {type : ATCmdType} {pre : Line} {smsPdu : Option Line}
  {ls : List Line}

theorem Collecting.setUp (ch : ATChannel) (type : ATCmdType) (pre : Line)
    (smsPdu : Option Line) :
    Collecting (setUp ch type (some pre) smsPdu) type pre smsPdu []
      (setUp ch type (some pre) smsPdu) where
  rsp_eq := by cases smsPdu <;> cases type <;> rfl
  type_eq := rfl
  rspPrefix_eq := rfl
  smsPdu_eq := rfl
  handler_eq := rfl
  events_eq := by
    refine ⟨[], by simp, rfl, ?_⟩
    cases smsPdu <;> cases type <;> simp [unsolCalls, otherLines, afterPrompt]

theorem Collecting.processLine_eq {l : Line} (h : Collecting base type pre smsPdu ls ch)
    (hl : isFinalResponse l = false)
    (hprompt : ¬ (smsPdu.isSome ∧ smsPrompt ∉ ls ∧ l = smsPrompt)) :
    processLine ch l = ProcessLine.dispatch ch
      ⟨0, none, (responseLines pre (afterPrompt smsPdu ls) type).reverse⟩ l := by
  obtain ⟨hsucc, herr⟩ := isFinalResponse_eq_false.1 hl
  rw [processLine, h.rsp_eq]
  simp only [hsucc, herr, Bool.false_eq_true, if_false]
  cases hpdu : ch.smsPdu with
  | none => rfl
  | some pdu =>
      have hne : l ≠ smsPrompt := by
        intro heq
        have hmem : smsPrompt ∉ ls := by
          intro hmem
          simp [h.smsPdu_eq, hmem] at hpdu
        have hsome : smsPdu = some pdu := by simpa [h.smsPdu_eq, hmem] using hpdu
        exact hprompt ⟨by simp [hsome], hmem, heq⟩
      simp [hne]

theorem Collecting.dispatch {l : Line} (h : Collecting base type pre smsPdu ls ch)
    (hl : isFinalResponse l = false)
    (hprompt : ¬ (smsPdu.isSome ∧ smsPrompt ∉ ls ∧ l = smsPrompt)) :
    ∃ ch', processLine ch l = some ch' ∧
      Collecting base type pre smsPdu (ls ++ [l]) ch' := by
  have hstep := h.processLine_eq hl hprompt
  have hafter : afterPrompt smsPdu (ls ++ [l]) = afterPrompt smsPdu ls ++ [l] := by
    rw [afterPrompt_snoc, if_neg hprompt]
  have hwrites := pduWrites_snoc_of_not hprompt
  have hpdu := pendingPdu_snoc_of_not hprompt
  obtain ⟨new, hnew, hwrote, hunsol⟩ := h.events_eq
  rw [hstep, dispatch_eq l h.rspPrefix_eq (by rw [h.type_eq]), h.type_eq]
  refine ⟨_, rfl, ?_⟩
  by_cases hw : wanted pre (afterPrompt smsPdu ls) l type = true
  · rw [if_pos hw]
    constructor
    · rw [hafter, responseLines_snoc, if_pos hw]
      simp [addIntermediate]
    · exact h.type_eq
    · exact h.rspPrefix_eq
    · rw [hpdu]
      exact h.smsPdu_eq
    · exact h.handler_eq
    · refine ⟨new, hnew, by rw [hwrites, hwrote], ?_⟩
      rw [hafter, otherLines_snoc, if_pos hw, List.append_nil, hunsol]
  · rw [if_neg hw]
    rw [handleUnsolicited_eq]
    constructor
    · rw [hafter, responseLines_snoc, if_neg hw, List.append_nil]
      exact h.rsp_eq
    · exact h.type_eq
    · exact h.rspPrefix_eq
    · rw [hpdu]
      exact h.smsPdu_eq
    · exact h.handler_eq
    · refine ⟨new ++ if base.unsolHandler then [.unsolHandler l none] else [], ?_, ?_, ?_⟩
      · simp [hnew, h.handler_eq]
      · rw [hwrites, writeLines_append, hwrote]
        cases base.unsolHandler <;> simp [writeLines]
      · rw [hafter, otherLines_snoc, if_neg hw, unsolCalls_append, hunsol]
        cases base.unsolHandler <;> simp [unsolCalls]

theorem Collecting.prompt {pdu : Line} (h : Collecting base type pre (some pdu) ls ch)
    (hls : smsPrompt ∉ ls) :
    ∃ ch', processLine ch smsPrompt = some ch' ∧
      Collecting base type pre (some pdu) (ls ++ [smsPrompt]) ch' := by
  have hpdu : ch.smsPdu = some pdu := by simp [h.smsPdu_eq, hls]
  have hstep : processLine ch smsPrompt =
      some { (writeLine ch pdu kCtrlZ).2 with smsPdu := none } := by
    have hsucc : isFinalResponseSuccess smsPrompt = false := by decide
    have herr : isFinalResponseError smsPrompt = false := by decide
    simp [processLine, h.rsp_eq, hpdu, hsucc, herr]
  obtain ⟨sent, ⟨writes, hsent⟩, -⟩ := writeLine_spec ch pdu kCtrlZ
  obtain ⟨new, hnew, hwrote, hunsol⟩ := h.events_eq
  have hafter : afterPrompt (some pdu) (ls ++ [smsPrompt]) = afterPrompt (some pdu) ls := by
    simp [afterPrompt_snoc, hls]
  refine ⟨_, hstep, ?_⟩
  rw [hsent]
  constructor
  · rw [hafter]
    exact h.rsp_eq
  · exact h.type_eq
  · exact h.rspPrefix_eq
  · simp
  · exact h.handler_eq
  · refine ⟨new ++ .writeLine pdu kCtrlZ :: sent.map fun p => .write p.1 p.2, ?_, ?_, ?_⟩
    · simp [ATChannel.log, hnew]
    · rw [writeLines_append, hwrote, pduWrites_snoc]
      simp [writeLines, hls]
    · rw [hafter, ← hunsol, unsolCalls_append]
      simp [unsolCalls]

end Step

/-- The run of `ProcessLine` over lines none of which is final. -/
theorem collecting_lines (ch : ATChannel) (type : ATCmdType) (pre : Line)
    (smsPdu : Option Line) (ls : List Line) (hls : ∀ l ∈ ls, isFinalResponse l = false) :
    ∃ ch', ls.foldlM processLine (setUp ch type (some pre) smsPdu) = some ch' ∧
      Collecting (setUp ch type (some pre) smsPdu) type pre smsPdu ls ch' := by
  induction ls using List.reverseRecOn with
  | nil => exact ⟨_, rfl, Collecting.setUp ch type pre smsPdu⟩
  | append_singleton ls l ih =>
      obtain ⟨ch₁, hrun, hch₁⟩ := ih fun l' hl' => hls l' (by simp [hl'])
      have hstep : ∃ ch₂, processLine ch₁ l = some ch₂ ∧
          Collecting (setUp ch type (some pre) smsPdu) type pre smsPdu (ls ++ [l]) ch₂ := by
        by_cases hprompt : smsPdu.isSome ∧ smsPrompt ∉ ls ∧ l = smsPrompt
        · obtain ⟨hsome, hnot, rfl⟩ := hprompt
          obtain ⟨pdu, rfl⟩ := Option.isSome_iff_exists.1 hsome
          exact hch₁.prompt hnot
        · exact hch₁.dispatch (hls l (by simp)) hprompt
      obtain ⟨ch₂, hlast, hch₂⟩ := hstep
      refine ⟨ch₂, ?_, hch₂⟩
      simp [List.foldlM_append, hrun, hlast]

theorem reverseLoop_eq (done ls : List Line) :
    reverseLoop done ls = ls.reverse ++ done := by
  induction ls generalizing done with
  | nil => rfl
  | cons l ls ih => simp [reverseLoop, ih]

theorem isFinalResponseSuccess_iff (l : Line) :
    isFinalResponseSuccess l = true ↔ ∃ p ∈ kFinalResponsesSuccess, p <+: l := by
  simp [isFinalResponseSuccess, atStrStartWith_iff]

/-- The final line closes the collection with the success flag of its class. -/
theorem processLine_final {ch : ATChannel} {rsp : ATResponse} {f : Line}
    (hrsp : ch.rsp = some rsp) (hf : isFinalResponse f = true) :
    processLine ch f = some (handleFinalResponse ch rsp
      (if isFinalResponseSuccess f then 1 else 0) f) := by
  by_cases hsucc : isFinalResponseSuccess f = true
  · simp [processLine, hrsp, hsucc]
  · have herr : isFinalResponseError f = true := by simpa [isFinalResponse, hsucc] using hf
    simp [processLine, hrsp, hsucc, herr]

theorem waitLoop_answered {ch : ATChannel} {rsp : ATResponse} (timeoutMsec : Nat)
    (outRsp : Bool) (wakes : List Wake) (hrsp : ch.rsp = some rsp)
    (hanswered : answered ch rsp = true) :
    waitLoop ch timeoutMsec outRsp wakes = some (takeResponse ch rsp outRsp) := by
  cases wakes <;> simp [waitLoop, hrsp, hanswered]

theorem exit_after_final {ch : ATChannel} {rsp : ATResponse} {f : Line} (timeoutMsec : Nat)
    (hrsp : ch.rsp = some rsp) (hf : isFinalResponse f = true) :
    ∃ ch', processLine ch f = some ch' ∧
      waitLoop ch' timeoutMsec true [] = some (takeResponse ch' { rsp with
        success := if isFinalResponseSuccess f then 1 else 0, finalResp := some f } true) ∧
      ch'.events = ch.events ++ [.notify] :=
  ⟨_, processLine_final hrsp hf, waitLoop_answered timeoutMsec true [] rfl rfl, rfl⟩

theorem response_collected (ch : ATChannel) (type : ATCmdType) (pre : Line)
    (smsPdu : Option Line) (timeoutMsec : Nat) (ls : List Line) (f : Line)
    (hls : ∀ l ∈ ls, isFinalResponse l = false) (hf : isFinalResponse f = true) :
    ∃ ch' r sent new,
      (ls ++ [f]).foldlM processLine (setUp ch type (some pre) smsPdu) = some ch' ∧
      waitLoop ch' timeoutMsec true [] = some sent ∧
      sent.out = .resp r ∧
      r.finalResp = some f ∧
      (r.success ≠ 0 ↔ ∃ p ∈ kFinalResponsesSuccess, p <+: f) ∧
      r.intermediates = responseLines pre (afterPrompt smsPdu ls) type ∧
      sent.chan.events = (setUp ch type (some pre) smsPdu).events ++ new ∧
      writeLines new = pduWrites smsPdu ls ∧
      unsolCalls new = if ch.unsolHandler
        then (otherLines pre (afterPrompt smsPdu ls) type).map (·, none) else [] := by
  obtain ⟨ch₁, hrun, hch₁⟩ := collecting_lines ch type pre smsPdu ls hls
  obtain ⟨new, hnew, hwrote, hunsol⟩ := hch₁.events_eq
  obtain ⟨ch₂, hlast, hexit, hevents⟩ := exit_after_final timeoutMsec hch₁.rsp_eq hf
  refine ⟨ch₂, _, _, new ++ [.notify], by simp [List.foldlM_append, hrun, hlast], hexit, rfl,
    rfl, ?_, ?_, ?_, ?_, ?_⟩
  · rw [← isFinalResponseSuccess_iff]
    cases isFinalResponseSuccess f <;> simp [reverseIntermediates]
  · simp [reverseIntermediates, reverseLoop_eq]
  · simp [takeResponse, ATChannel.clearPendingCommand, hevents, hnew]
  · simpa [writeLines] using hwrote
  · have hhandler : (setUp ch type (some pre) smsPdu).unsolHandler = ch.unsolHandler := rfl
    rw [hhandler] at hunsol
    simpa [unsolCalls] using hunsol

/-- `AT+CMGS` with its prompt, an unsolicited line and the answer. -/
theorem response_collected_cmgs :
    ∃ r sent, ∃ ch : ATChannel,
      [smsPrompt, text "RING", text "+CMGS: 4", text "OK"].foldlM processLine
        (setUp (.opened 3 []) .singleLine
          (some (text "+CMGS:")) (some (text "0011"))) = some ch ∧
      waitLoop ch 0 true [] = some sent ∧ sent.out = .resp r ∧
      r.intermediates = [text "+CMGS: 4"] ∧
      writeLines sent.chan.events = [(text "0011", kCtrlZ)] ∧
      unsolCalls sent.chan.events = [(text "RING", none)] := by
  obtain ⟨ch, r, sent, new, hrun, hexit, hout, -, -, hlines, hevents, hwrites, hunsol⟩ :=
    response_collected (.opened 3 [])
      .singleLine (text "+CMGS:") (some (text "0011")) 0
      [smsPrompt, text "RING", text "+CMGS: 4"] (text "OK") (by decide) (by decide)
  refine ⟨r, sent, ch, hrun, hexit, hout, ?_, ?_, ?_⟩
  · rw [hlines]
    decide
  · rw [hevents, writeLines_append, hwrites]
    decide
  · rw [hevents, unsolCalls_append, hunsol]
    decide

end Mobile.Channel.Proofs.Collection
