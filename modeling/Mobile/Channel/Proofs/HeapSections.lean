import Mobile.Channel.HeapRuns
import Mobile.Channel.Proofs.HeapSpecs

/-!
# The channel's sections on the heap

What each section of the channel does to the pending response, whatever else is
alive, and what it does to the other members.  Which of its branches `ProcessLine`
takes depends on the pending response only through its being there and having no
intermediate line.
-/

namespace Mobile.Channel.Proofs.HeapSections

open Mobile.ProofSupport.Separation Mobile.ProofSupport.Separation.Assertion
open Mobile.ProofSupport.Chain
open Mobile.Token.Scan Mobile.Channel.Types Mobile.Channel.WriteLine
open Mobile.Channel.ProcessLine Mobile.Channel.SendCommand Mobile.Channel.Heap
open Mobile.Channel.Proofs.HeapSpecs

def Has (hc : HeapChannel) (pending : Option Contents) (R : Own) : Prop :=
  (Pending hc.rsp pending * R) hc.mem.heap

variable {al : Allocator Addr Obj} {hc : HeapChannel} {pending : Option Contents}
  {c : Contents} {R : Own}

theorem exec_ok {α : Type} {P : Own} {f : Prog α} {Q : α → Own} (hf : Triple P f Q)
    (h : (P * R) hc.mem.heap) :
    ∃ r mem, hc.exec f = .ok (r, { hc with mem := mem }) ∧ (Q r * R) mem.heap := by
  obtain ⟨r, mem, hrun, hmem⟩ := hf R hc.mem h
  refine ⟨r, mem, ?_, hmem⟩
  simp only [HeapChannel.exec, hrun]

theorem Has.rsp_eq (h : Has hc (some c) R) : ∃ a, hc.rsp = some a ∧
    (Response a c * R) hc.mem.heap := by
  rw [Has, Pending, any_mul] at h
  obtain ⟨a, h⟩ := h
  rw [mul_assoc, fact_mul] at h
  exact ⟨a, h⟩

theorem Has.rsp_none (h : Has hc none R) : hc.rsp = none ∧ R hc.mem.heap := fact_mul.1 h

theorem linked_eq_none {p : Ptr Addr} {xs : List (Option Line)} {h : Heap Addr Obj}
    (hlinked : Linked LineNode p xs h) : p = none ↔ xs = [] := by
  cases xs with
  | nil => exact ⟨fun _ => rfl, fun _ => hlinked.2⟩
  | cons x xs =>
      obtain ⟨a, next, hcons⟩ := hlinked
      have hp := (fact_mul.1 hcons).1
      simp [hp]

theorem copy_isSome {p : Ptr Addr} {text : Option Line} {h : Heap Addr Obj}
    (hcopy : Copy p text h) : p.isSome = text.isSome := by
  cases text with
  | none =>
      rw [hcopy.2]
      rfl
  | some s =>
      obtain ⟨a, hcopy⟩ := hcopy
      rw [(fact_mul.1 hcopy).1]
      rfl

theorem response_lookup {a : Addr} {h : Heap Addr Obj} (hown : (Response a c * R) h) :
    ∃ finalResp first, h.lookup a = some (.response ⟨c.success, finalResp, first⟩) ∧
      (Copy finalResp c.finalResp * (Linked LineNode first c.intermediates * R)) (h.erase a) := by
  rw [Response, any_mul] at hown
  obtain ⟨finalResp, hown⟩ := hown
  rw [any_mul] at hown
  obtain ⟨first, hown⟩ := hown
  rw [mul_assoc, pointsTo_mul, mul_assoc] at hown
  exact ⟨finalResp, first, hown⟩

theorem loadResponse_ok {a : Addr} (hown : (Response a c * R) hc.mem.heap) :
    ∃ finalResp first,
      hc.exec (loadResponse (some a)) = .ok (⟨c.success, finalResp, first⟩, hc) ∧
      finalResp.isSome = c.finalResp.isSome ∧ (first = none ↔ c.intermediates = []) := by
  obtain ⟨finalResp, first, hlookup, _, _, -, -, hcopy, _, _, -, -, hlinked, -⟩ :=
    response_lookup hown
  refine ⟨finalResp, first, ?_, copy_isSome hcopy, linked_eq_none hlinked⟩
  have hload : loadResponse (some a) hc.mem =
      .ok (⟨c.success, finalResp, first⟩, hc.mem) := by
    change (HeapM.load (some a) hc.mem >>= fun x => _) = _
    simp only [HeapM.load, hlookup]
    rfl
  rw [HeapChannel.exec, hload]

theorem finalText_eq (h : Has hc pending R) :
    HeapRuns.finalText hc = pending.bind (·.finalResp) := by
  cases pending with
  | none => rw [HeapRuns.finalText, h.rsp_none.1]; rfl
  | some c =>
      obtain ⟨a, hrsp, hown⟩ := h.rsp_eq
      obtain ⟨finalResp, first, hlookup, hrest⟩ := response_lookup hown
      rw [HeapRuns.finalText, hrsp, Option.bind_some, hlookup, Option.bind_some]
      cases htext : c.finalResp with
      | none =>
          rw [htext, Copy, fact_mul] at hrest
          simp [hrest.1]
      | some s =>
          rw [htext, Copy, any_mul] at hrest
          obtain ⟨b, hrest⟩ := hrest
          rw [mul_assoc, fact_mul, pointsTo_mul] at hrest
          obtain ⟨rfl, hb, -⟩ := hrest
          have hne : b ≠ a := by
            rintro rfl
            rw [Finmap.lookup_erase] at hb
            cases hb
          rw [Finmap.lookup_erase_ne hne] at hb
          simp [hb]

theorem clearPendingCommand_ok (h : Has hc pending R) : ∃ mem,
    hc.clearPendingCommand = .ok ⟨none, hc.rest.clearPendingCommand, mem⟩ ∧ R mem.heap := by
  obtain ⟨r, mem, hrun, hmem⟩ := exec_ok (freeResponce_spec hc.rsp pending) h
  refine ⟨mem, ?_, by rwa [one_mul] at hmem⟩
  rw [HeapChannel.clearPendingCommand, hrun]
  rfl

/-! ## A line -/

inductive Verdict
  | unsolicited
  | final (success : Int)
  | prompt (pdu : Line)
  | intermediate
  | crash

def prefixVerdict (ch : ATChannel) (line : Line) : Verdict :=
  match ch.rspPrefix with
  | none => .crash
  | some rspPrefix => if atStrStartWith line rspPrefix then .intermediate else .unsolicited

def dispatchVerdict (ch : ATChannel) (empty : Bool) (line : Line) : Verdict :=
  match ch.type with
  | .noResult => .unsolicited
  | .numeric => if empty ∧ startsWithDigit line then .intermediate else .unsolicited
  | .singleLine => if empty then prefixVerdict ch line else .unsolicited
  | .multiLine => prefixVerdict ch line

/-- The branch of `ProcessLine` taken while a response is pending; `empty` says that it
has no intermediate line. -/
def verdict (ch : ATChannel) (empty : Bool) (line : Line) : Verdict :=
  if isFinalResponseSuccess line then .final 1
  else if isFinalResponseError line then .final 0
  else
    match ch.smsPdu with
    | some pdu => if line = smsPrompt then .prompt pdu else dispatchVerdict ch empty line
    | none => dispatchVerdict ch empty line

def Verdict.isFinal : Verdict → Bool
  | .final _ => true
  | _ => false

theorem prefixVerdict_isFinal (ch : ATChannel) (line : Line) :
    (prefixVerdict ch line).isFinal = false := by
  unfold prefixVerdict
  split
  · rfl
  · split <;> rfl

theorem dispatchVerdict_isFinal (ch : ATChannel) (empty : Bool) (line : Line) :
    (dispatchVerdict ch empty line).isFinal = false := by
  unfold dispatchVerdict
  split
  · rfl
  · split <;> rfl
  · split
    · exact prefixVerdict_isFinal ch line
    · rfl
  · exact prefixVerdict_isFinal ch line

theorem verdict_isFinal (ch : ATChannel) (empty : Bool) (line : Line) :
    (verdict ch empty line).isFinal = isFinalResponse line := by
  unfold verdict isFinalResponse
  cases isFinalResponseSuccess line with
  | true => rfl
  | false =>
      cases isFinalResponseError line with
      | true => rfl
      | false =>
          simp only [Bool.false_eq_true, if_false, Bool.or_self]
          split
          · split
            · rfl
            · exact dispatchVerdict_isFinal ch empty line
          · exact dispatchVerdict_isFinal ch empty line

def applyVerdict (ch : ATChannel) (rsp : ATResponse) (line : Line) :
    Verdict → Option ATChannel
  | .unsolicited => some (handleUnsolicited ch line)
  | .final success => some (ProcessLine.handleFinalResponse ch rsp success line)
  | .prompt pdu => some { (writeLine ch pdu kCtrlZ).2 with smsPdu := none }
  | .intermediate => some (ProcessLine.addIntermediate ch rsp line)
  | .crash => none

def applyHeapVerdict (al : Allocator Addr Obj) (hc : HeapChannel) (line : Line) :
    Verdict → Except Stop HeapChannel
  | .unsolicited => .ok (hc.handleUnsolicited line)
  | .final success => hc.finish al success line
  | .prompt pdu =>
    .ok { hc with rest := { (writeLine hc.rest pdu kCtrlZ).2 with smsPdu := none } }
  | .intermediate => hc.addLine al line
  | .crash => .error (.fault .nullPointer)

theorem prefix_eq_verdict (ch : ATChannel) (rsp : ATResponse) (line : Line) : (do
      if atStrStartWith line (← ch.rspPrefix) then
        return ProcessLine.addIntermediate ch rsp line
      else return handleUnsolicited ch line) =
    applyVerdict ch rsp line (prefixVerdict ch line) := by
  unfold prefixVerdict
  cases ch.rspPrefix with
  | none => rfl
  | some rspPrefix =>
      by_cases hstart : atStrStartWith line rspPrefix = true <;> simp [hstart, applyVerdict]

theorem dispatch_eq_verdict (ch : ATChannel) (rsp : ATResponse) (line : Line) :
    ProcessLine.dispatch ch rsp line =
      applyVerdict ch rsp line (dispatchVerdict ch (decide (rsp.intermediates = [])) line) := by
  unfold ProcessLine.dispatch dispatchVerdict
  cases ch.type with
  | noResult => rfl
  | numeric =>
      simp only [decide_eq_true_eq]
      split <;> rfl
  | singleLine =>
      simp only [decide_eq_true_eq]
      split
      · exact prefix_eq_verdict ch rsp line
      · rfl
  | multiLine => exact prefix_eq_verdict ch rsp line

theorem processLine_eq_verdict {ch : ATChannel} {rsp : ATResponse} (hrsp : ch.rsp = some rsp)
    (line : Line) : processLine ch line =
      applyVerdict ch rsp line (verdict ch (decide (rsp.intermediates = [])) line) := by
  have hdispatch := dispatch_eq_verdict ch rsp line
  unfold processLine verdict
  rw [hrsp]
  dsimp only
  split
  · rfl
  split
  · rfl
  cases ch.smsPdu with
  | none => exact hdispatch
  | some pdu => dsimp only; split <;> [rfl; exact hdispatch]

theorem prefix_heap_eq_verdict (al : Allocator Addr Obj) (hc : HeapChannel) (line : Line) : (do
      if ← hc.startsWithPrefix line then hc.addLine al line
      else return hc.handleUnsolicited line) =
    applyHeapVerdict al hc line (prefixVerdict hc.rest line) := by
  unfold HeapChannel.startsWithPrefix prefixVerdict
  cases hc.rest.rspPrefix with
  | none => rfl
  | some rspPrefix =>
      by_cases hstart : atStrStartWith line rspPrefix = true
      · simp only [hstart, if_true]
        rfl
      · simp only [hstart]
        rfl

theorem dispatch_heap_eq_verdict (al : Allocator Addr Obj) (h : Has hc (some c) R) (line : Line) :
    hc.dispatch al line =
      applyHeapVerdict al hc line
        (dispatchVerdict hc.rest (decide (c.intermediates = [])) line) := by
  obtain ⟨a, hrsp, hown⟩ := h.rsp_eq
  obtain ⟨finalResp, first, hload, -, hempty⟩ := loadResponse_ok hown
  rw [← hrsp] at hload
  unfold HeapChannel.dispatch dispatchVerdict
  cases hc.rest.type with
  | noResult => rfl
  | numeric =>
      rw [hload]
      simp only [decide_eq_true_eq, ← hempty]
      change (if _ then _ else _) = _
      split <;> rfl
  | singleLine =>
      rw [hload]
      simp only [decide_eq_true_eq, ← hempty]
      change (if _ then _ else _) = _
      split
      · exact prefix_heap_eq_verdict al hc line
      · rfl
  | multiLine => exact prefix_heap_eq_verdict al hc line

theorem processLine_heap_eq_verdict (h : Has hc (some c) R) (line : Line) :
    hc.processLine al line =
      applyHeapVerdict al hc line
        (verdict hc.rest (decide (c.intermediates = [])) line) := by
  obtain ⟨a, hrsp, -⟩ := h.rsp_eq
  have hdispatch := dispatch_heap_eq_verdict al h line
  unfold HeapChannel.processLine verdict
  rw [hrsp]
  dsimp only
  split
  · rfl
  split
  · rfl
  cases hc.rest.smsPdu with
  | none => exact hdispatch
  | some pdu =>
      dsimp only
      split
      · rw [← hrsp]
        rfl
      · exact hdispatch

/-- What a line does to a pending response, and what it leaves without an owner. -/
inductive LineEffect (al : Allocator Addr Obj) (ch : ATChannel) (c : Contents) (line : Line) :
    Verdict → ATChannel → Contents → Own → Prop
  | unsolicited : LineEffect al ch c line .unsolicited (handleUnsolicited ch line) c 1
  | final {success : Int} {text : Option Line} (copied : Copied al line text) :
      LineEffect al ch c line (.final success) (ch.log .notify)
        { c with success := success, finalResp := text } (Lost c.finalResp)
  | prompt {pdu : Line} :
      LineEffect al ch c line (.prompt pdu)
        { (writeLine ch pdu kCtrlZ).2 with smsPdu := none } c 1
  | intermediate {c' : Contents} (added : Added al line c c') :
      LineEffect al ch c line .intermediate ch c' 1

theorem applyHeapVerdict_effect (al : Allocator Addr Obj) (h : Has hc (some c) R) (line : Line)
    (v : Verdict) :
    v = .crash ∧ applyHeapVerdict al hc line v = .error (.fault .nullPointer) ∨
    ∃ hc' c' lost, applyHeapVerdict al hc line v = .ok hc' ∧
      LineEffect al hc.rest c line v hc'.rest c' lost ∧ Has hc' (some c') (lost * R) := by
  cases v with
  | crash => exact .inl ⟨rfl, rfl⟩
  | unsolicited =>
      refine .inr ⟨_, c, 1, rfl, .unsolicited, ?_⟩
      rw [one_mul]
      exact h
  | prompt pdu =>
      refine .inr ⟨_, c, 1, rfl, .prompt, ?_⟩
      rw [one_mul]
      exact h
  | intermediate =>
      obtain ⟨a, hrsp, hown⟩ := h.rsp_eq
      obtain ⟨r, mem, hrun, hmem⟩ := exec_ok (addIntermediate_spec al c line) hown
      rw [any_mul] at hmem
      obtain ⟨c', hmem⟩ := hmem
      rw [mul_assoc, fact_mul] at hmem
      refine .inr ⟨{ hc with mem := mem }, c', 1, ?_, .intermediate hmem.1, ?_⟩
      · change (hc.exec _ >>= _) = _
        rw [← hrsp] at hrun
        rw [hrun]
        rfl
      · rw [one_mul, Has, hrsp]
        exact mul_mono_left (pending_some a c') R _ hmem.2
  | final success =>
      obtain ⟨a, hrsp, hown⟩ := h.rsp_eq
      obtain ⟨r, mem, hrun, hmem⟩ :=
        exec_ok (handleFinalResponse_spec al c success line) hown
      rw [any_mul] at hmem
      obtain ⟨text, hmem⟩ := hmem
      rw [mul_assoc, fact_mul, mul_assoc] at hmem
      refine .inr ⟨{ hc with rest := hc.rest.log .notify, mem := mem }, _, _, ?_,
        .final hmem.1, ?_⟩
      · change (hc.exec _ >>= _) = _
        rw [← hrsp] at hrun
        rw [hrun]
        rfl
      · rw [Has, hrsp]
        exact mul_mono_left (pending_some a _) _ _ hmem.2

theorem processLine_none (h : hc.rsp = none) (line : Line) :
    hc.processLine al line = .ok (hc.handleUnsolicited line) := by
  unfold HeapChannel.processLine
  rw [h]
  rfl

/-! ## A command -/

theorem setUp_ok (al : Allocator Addr Obj) (h : Has hc none R) (cmd : Command) :
    ∃ rsp mem pending,
    hc.setUp al cmd = .ok ⟨rsp, ({ hc.rest with
      type := cmd.type, rspPrefix := cmd.rspPrefix, smsPdu := cmd.smsPdu } : ATChannel).log
        .allocResponce, mem⟩ ∧
    Allocated al pending ∧ (Pending rsp pending * R) mem.heap := by
  have hown : (1 * R) hc.mem.heap := by
    rw [one_mul]
    exact h.rsp_none.2
  obtain ⟨rsp, mem, hrun, hmem⟩ := exec_ok (allocResponce_spec al) hown
  rw [any_mul] at hmem
  obtain ⟨pending, hmem⟩ := hmem
  rw [mul_assoc, fact_mul] at hmem
  refine ⟨rsp, mem, pending, ?_, hmem⟩
  rw [HeapChannel.setUp, hrun]
  rfl

theorem startCommand_ok (al : Allocator Addr Obj) (h : Has hc pending R) (cmd : Command) :
    ∃ early hc' pending',
    hc.startCommand al cmd = .ok (early, hc') ∧ Has hc' pending' R ∧
    ((pending.isSome ∧ early = some ATErrno.errorCommandPending.code ∧ pending' = none ∧
        hc'.rest = hc.rest.clearPendingCommand) ∨
      (pending = none ∧ (writeLine hc.rest cmd.cmd kCtrlEnter).1 < 0 ∧
        early = some (writeLine hc.rest cmd.cmd kCtrlEnter).1 ∧ pending' = none ∧
        hc'.rest = (writeLine hc.rest cmd.cmd kCtrlEnter).2.clearPendingCommand) ∨
      (pending = none ∧ ¬ (writeLine hc.rest cmd.cmd kCtrlEnter).1 < 0 ∧ early = none ∧
        Allocated al pending' ∧
        hc'.rest = ({ (writeLine hc.rest cmd.cmd kCtrlEnter).2 with
          type := cmd.type, rspPrefix := cmd.rspPrefix, smsPdu := cmd.smsPdu } :
            ATChannel).log .allocResponce)) := by
  unfold HeapChannel.startCommand
  cases pending with
  | some c =>
      obtain ⟨a, hrsp, -⟩ := h.rsp_eq
      obtain ⟨mem, hrun, hmem⟩ := clearPendingCommand_ok h
      rw [if_pos (by rw [hrsp]; exact Option.some_ne_none a), hrun]
      exact ⟨_, _, none, rfl, fact_mul.2 ⟨rfl, hmem⟩, .inl ⟨rfl, rfl, rfl, rfl⟩⟩
  | none =>
      rw [if_neg (not_not.2 h.rsp_none.1)]
      dsimp only
      have hwritten : Has { hc with rest := (writeLine hc.rest cmd.cmd kCtrlEnter).2 } none R := h
      by_cases hret : (writeLine hc.rest cmd.cmd kCtrlEnter).1 < 0
      · obtain ⟨mem, hrun, hmem⟩ := clearPendingCommand_ok hwritten
        rw [if_pos hret, hrun]
        exact ⟨_, _, none, rfl, fact_mul.2 ⟨rfl, hmem⟩, .inr (.inl ⟨rfl, hret, rfl, rfl, rfl⟩)⟩
      · obtain ⟨rsp, mem, pending', hrun, halloc, hmem⟩ := setUp_ok al hwritten cmd
        rw [if_neg hret, hrun]
        exact ⟨_, _, pending', rfl, hmem, .inr (.inr ⟨rfl, hret, rfl, halloc, rfl⟩)⟩

/-! ## The response -/

theorem answered_ok (h : Has hc (some c) R) :
    hc.answered = .ok (c.finalResp.isSome || hc.rest.readClosed) := by
  obtain ⟨a, hrsp, hown⟩ := h.rsp_eq
  obtain ⟨finalResp, first, hload, hfinal, -⟩ := loadResponse_ok hown
  rw [HeapChannel.answered, hrsp, hload]
  change Except.ok (finalResp.isSome || hc.rest.readClosed) = _
  rw [hfinal]

theorem answered_none (h : hc.rsp = none) :
    hc.answered = .error (.fault .nullPointer) := by
  rw [HeapChannel.answered, h]
  rfl

def Contents.turned (c : Contents) : Contents :=
  { c with intermediates := c.intermediates.reverse }

def takenRet (ch : ATChannel) : Int :=
  if ch.readClosed then ATErrno.errorChannelClosed.code else 0

theorem takeResponse_handed (h : Has hc (some c) R) : ∃ a mem, hc.rsp = some a ∧
    hc.takeResponse true = .ok ⟨takenRet hc.rest, .pointer (some a),
      none, hc.rest.clearPendingCommand, mem⟩ ∧
    (Response a (Contents.turned c) * R) mem.heap := by
  obtain ⟨a, hrsp, hown⟩ := h.rsp_eq
  obtain ⟨r, mem, hrun, hmem⟩ := exec_ok (reverseIntermediates_spec c) hown
  rw [← hrsp] at hrun
  refine ⟨a, mem, hrsp, ?_, hmem⟩
  rw [HeapChannel.takeResponse, if_pos rfl, hrun, ← hrsp]
  rfl

theorem takeResponse_freed (h : Has hc (some c) R) : ∃ mem,
    hc.takeResponse false = .ok ⟨takenRet hc.rest, .unassigned,
      none, hc.rest.clearPendingCommand, mem⟩ ∧ R mem.heap := by
  obtain ⟨r, mem, hrun, hmem⟩ := exec_ok (freeResponce_spec hc.rsp (some c)) h
  rw [one_mul] at hmem
  refine ⟨mem, ?_, hmem⟩
  rw [HeapChannel.takeResponse, if_neg Bool.false_ne_true, hrun]
  rfl

end Mobile.Channel.Proofs.HeapSections
