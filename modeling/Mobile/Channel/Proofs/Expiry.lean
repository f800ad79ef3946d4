import Mobile.ProofSupport.Transition
import Mobile.Channel.Proofs.Collection
import Mobile.Channel.Proofs.Log

/-!
# Expired waits

A timed wait ends with the return value of `wait_for`, which tells an expiry, and
with whatever `errno` holds at that moment.  The wait loop tests `errno`, so it
reports an expiry only when the two happen to agree.
-/

namespace Mobile.Channel.Proofs.Expiry

open Mobile.Token.Scan Mobile.ProofSupport.Transition
open Mobile.Channel.Types Mobile.Channel.WriteLine
open Mobile.Channel.ProcessLine Mobile.Channel.SendCommand
open Mobile.Channel.Proofs.WriteSpec Mobile.Channel.Proofs.Log Mobile.Channel.Proofs.Collection

/-- One wait: the lines served while the caller slept, whether `wait_for` reported
an expiry, and the `errno` found behind it. -/
structure TimedWake where
  lines : List Line
  expired : Bool
  errno : Nat
  deriving DecidableEq, Repr

def TimedWake.wake (w : TimedWake) : Wake := ⟨w.lines.map .processLine, w.errno⟩

structure Waited where
  expired : Bool
  errno : Nat
  recorded : Bool
  deriving DecidableEq, Repr

def Waited.timedOut (w : Waited) : Prop := w.expired = true ∧ w.recorded = false

def recorded (ch : ATChannel) : Bool := ch.rsp.any fun rsp => rsp.finalResp.isSome

/-- The waits the loop goes through, and the channel it leaves or still waits on. -/
def waits (ch : ATChannel) (timeoutMsec : Nat) : List TimedWake → List Waited × ATChannel
  | [] => ([], ch)
  | w :: wakes =>
    if recorded ch then ([], ch) else
    match w.lines.foldlM processLine (ch.log (.sleep timeoutMsec)) with
    | none => ([], ch)
    | some ch' =>
      if w.errno = etimedout then ([⟨w.expired, w.errno, recorded ch'⟩], ch')
      else
        let rest := waits ch' timeoutMsec wakes
        (⟨w.expired, w.errno, recorded ch'⟩ :: rest.1, rest.2)

def commandWaits (ch : ATChannel) (c : Command) (wakes : List TimedWake) :
    List Waited × ATChannel :=
  waits (setUp (writeLine ch c.cmd kCtrlEnter).2 c.type c.rspPrefix c.smsPdu) c.timeoutMsec wakes

def HandsOut (ch : ATChannel) (outRsp : Bool) (ret : Int) (out : OutRsp) : Prop :=
  ret = ATErrno.success.code ∧ ∃ rsp, ch.rsp = some rsp ∧ rsp.finalResp.isSome = true ∧
    out = if outRsp then .resp (reverseIntermediates rsp) else .unassigned

/-- A call reports an expiry exactly when it met one, and at once; an answered call
returns. -/
structure ReportsExpiry (waited : List Waited) (ch : ATChannel) (outRsp : Bool)
    (result : Option Sent) : Prop where
  iff_timedOut : ∀ sent, result = some sent →
    (sent.ret = ATErrno.errorTimeout.code ↔ ∃ w ∈ waited, w.timedOut)
  otherwise : ∀ sent, result = some sent → (∀ w ∈ waited, ¬ w.timedOut) →
    HandsOut ch outRsp sent.ret sent.out
  answered : recorded ch = true → ∃ sent, result = some sent
  ends : ∀ before w after, waited = before ++ w :: after → w.timedOut →
    after = [] ∧ ∃ sent, result = some sent

/-! ### The loop by the values of `errno` -/

/-- What the loop does, told by the values of `errno` it found. -/
inductive ByErrno (waited : List Waited) (ch : ATChannel) (outRsp : Bool) :
    Option Sent → Prop
  | timeout {before : List Waited} {last : Waited} {sent : Sent}
      (split : waited = before ++ [last]) (found : last.errno = etimedout)
      (others : ∀ w ∈ before, w.errno ≠ etimedout)
      (ret : sent.ret = ATErrno.errorTimeout.code) : ByErrno waited ch outRsp (some sent)
  | finished {sent : Sent} (others : ∀ w ∈ waited, w.errno ≠ etimedout)
      (out : HandsOut ch outRsp sent.ret sent.out) : ByErrno waited ch outRsp (some sent)
  | waiting (others : ∀ w ∈ waited, w.errno ≠ etimedout) (unanswered : recorded ch = false) :
      ByErrno waited ch outRsp none

theorem ByErrno.cons {waited : List Waited} {ch : ATChannel} {outRsp : Bool}
    {result : Option Sent} (h : ByErrno waited ch outRsp result) {w : Waited}
    (hw : w.errno ≠ etimedout) : ByErrno (w :: waited) ch outRsp result := by
  cases h with
  | @timeout before last sent split found others ret =>
      have hsplit : w :: waited = (w :: before) ++ [last] := by rw [split, List.cons_append]
      exact .timeout hsplit found (List.forall_mem_cons.2 ⟨hw, others⟩) ret
  | finished others out => exact .finished (List.forall_mem_cons.2 ⟨hw, others⟩) out
  | waiting others unanswered =>
      exact .waiting (List.forall_mem_cons.2 ⟨hw, others⟩) unanswered

theorem foldlM_acts (lines : List Line) (ch : ATChannel) :
    (lines.map Act.processLine).foldlM Act.run ch = lines.foldlM processLine ch := by
  rw [List.foldlM_map]
  rfl

theorem lines_readClosed {lines : List Line} {ch ch' : ATChannel}
    (h : lines.foldlM processLine ch = some ch') : ch'.readClosed = ch.readClosed := by
  apply foldlM_invariant (fun c => c.readClosed = ch.readClosed) _ rfl h
  intro c line c' hline hc
  exact (processLine_served hline).readClosed.trans hc

theorem processLine_pending {ch ch' : ATChannel} {line : Line} (hrsp : ch.rsp ≠ none)
    (h : processLine ch line = some ch') : ch'.rsp ≠ none := by
  obtain rfl | ⟨rsp, -, rfl⟩ | ⟨rsp, success, -, -, rfl⟩ | ⟨pdu, -, -, rfl⟩ :=
    processLine_cases h
  · rw [handleUnsolicited_eq]
    exact hrsp
  · simp [addIntermediate]
  · simp [handleFinalResponse, ATChannel.log]
  · obtain ⟨sent, ⟨writes, hch⟩, -⟩ := writeLine_spec ch pdu kCtrlZ
    rw [hch]
    exact hrsp

theorem lines_pending {lines : List Line} {ch ch' : ATChannel} (hrsp : ch.rsp ≠ none)
    (h : lines.foldlM processLine ch = some ch') : ch'.rsp ≠ none :=
  foldlM_invariant (fun c => c.rsp ≠ none) (fun _ _ _ hline hc => processLine_pending hc hline)
    hrsp h

theorem recorded_eq {ch : ATChannel} {rsp : ATResponse} (hrsp : ch.rsp = some rsp) :
    recorded ch = rsp.finalResp.isSome := by
  simp [recorded, hrsp]

theorem answered_eq {ch : ATChannel} {rsp : ATResponse} (hrsp : ch.rsp = some rsp)
    (hopen : ch.readClosed = false) : answered ch rsp = recorded ch := by
  simp [answered, hopen, recorded_eq hrsp]

theorem takeResponse_handsOut {ch : ATChannel} {rsp : ATResponse} (outRsp : Bool)
    (hrsp : ch.rsp = some rsp) (hopen : ch.readClosed = false) (hrec : recorded ch = true) :
    HandsOut ch outRsp (takeResponse ch rsp outRsp).ret (takeResponse ch rsp outRsp).out := by
  refine ⟨by simp [takeResponse, hopen, ATErrno.code], rsp, hrsp, ?_, rfl⟩
  rw [← recorded_eq hrsp]
  exact hrec

theorem waitLoop_wakes_cons {ch : ATChannel} {rsp : ATResponse} {timeoutMsec : Nat}
    (outRsp : Bool) (w : TimedWake) (wakes : List TimedWake) (hrsp : ch.rsp = some rsp)
    (hnot : answered ch rsp = false) :
    waitLoop ch timeoutMsec outRsp ((w :: wakes).map TimedWake.wake) =
      (w.lines.foldlM processLine (ch.log (.sleep timeoutMsec))).bind fun ch' =>
        if w.errno = etimedout then
          some ⟨ATErrno.errorTimeout.code, .unassigned, ch'.clearPendingCommand⟩
        else waitLoop ch' timeoutMsec outRsp (wakes.map TimedWake.wake) := by
  simp only [List.map_cons, waitLoop, hrsp, Option.bind_eq_bind, Option.bind_some, hnot,
    Bool.false_eq_true, if_false, TimedWake.wake, foldlM_acts]
  rfl

/-- On an open channel the loop leaves at the first `ETIMEDOUT` it finds and at a
recorded response, and nowhere else. -/
theorem waitLoop_byErrno {ch : ATChannel} (timeoutMsec : Nat) (outRsp : Bool)
    (wakes : List TimedWake) (hrsp : ch.rsp ≠ none) (hopen : ch.readClosed = false) :
    ByErrno (waits ch timeoutMsec wakes).1 (waits ch timeoutMsec wakes).2 outRsp
      (waitLoop ch timeoutMsec outRsp (wakes.map TimedWake.wake)) := by
  induction wakes generalizing ch with
  | nil =>
      obtain ⟨rsp, hsome⟩ := Option.ne_none_iff_exists'.1 hrsp
      have hanswered := answered_eq hsome hopen
      by_cases hrec : recorded ch = true
      · rw [List.map_nil, waitLoop_answered timeoutMsec outRsp [] hsome (hanswered.trans hrec)]
        exact .finished (by simp [waits]) (takeResponse_handsOut outRsp hsome hopen hrec)
      · have hloop : waitLoop ch timeoutMsec outRsp [] = none := by
          simp [waitLoop, hsome, hanswered, hrec]
        rw [List.map_nil, hloop]
        exact .waiting (by simp [waits]) (by simpa [waits] using hrec)
  | cons w wakes ih =>
      obtain ⟨rsp, hsome⟩ := Option.ne_none_iff_exists'.1 hrsp
      have hanswered := answered_eq hsome hopen
      by_cases hrec : recorded ch = true
      · have hwaits : waits ch timeoutMsec (w :: wakes) = ([], ch) := by simp [waits, hrec]
        rw [waitLoop_answered timeoutMsec outRsp _ hsome (hanswered.trans hrec), hwaits]
        exact .finished (by simp) (takeResponse_handsOut outRsp hsome hopen hrec)
      · have hnot : answered ch rsp = false := by simpa [hrec] using hanswered
        rw [waitLoop_wakes_cons outRsp w wakes hsome hnot]
        cases hlines : w.lines.foldlM processLine (ch.log (.sleep timeoutMsec)) with
        | none =>
            have hwaits : waits ch timeoutMsec (w :: wakes) = ([], ch) := by
              simp [waits, hrec, hlines]
            rw [hwaits]
            exact .waiting (by simp) (by simpa using hrec)
        | some ch' =>
            have hopen' : ch'.readClosed = false := (lines_readClosed hlines).trans hopen
            have hrsp' : ch'.rsp ≠ none := lines_pending (by exact hrsp) hlines
            by_cases herr : w.errno = etimedout
            · have hwaits : waits ch timeoutMsec (w :: wakes) =
                  ([⟨w.expired, w.errno, recorded ch'⟩], ch') := by
                simp [waits, hrec, hlines, herr]
              simp only [Option.bind_some, herr, if_true, hwaits]
              exact .timeout (List.nil_append _).symm rfl (by simp) rfl
            · have hwaits : waits ch timeoutMsec (w :: wakes) =
                  (⟨w.expired, w.errno, recorded ch'⟩ :: (waits ch' timeoutMsec wakes).1,
                    (waits ch' timeoutMsec wakes).2) := by
                simp [waits, hrec, hlines, herr]
              simp only [Option.bind_some, herr, if_false, hwaits]
              exact (ih hrsp' hopen').cons herr

/-! ### Expiries and `errno` -/

/-- An `ETIMEDOUT` is found behind the last wait only, and ends the call. -/
theorem ByErrno.last_of_found {waited : List Waited} {ch : ATChannel} {outRsp : Bool}
    {result : Option Sent} (h : ByErrno waited ch outRsp result) {before after : List Waited}
    {w : Waited} (hw : waited = before ++ w :: after) (hfound : w.errno = etimedout) :
    after = [] ∧ ∃ sent, result = some sent ∧ sent.ret = ATErrno.errorTimeout.code := by
  have hmem : w ∈ waited := by simp [hw]
  cases h with
  | @timeout init last sent split found others ret =>
      refine ⟨?_, sent, rfl, ret⟩
      rcases List.eq_nil_or_concat after with hnil | ⟨rest, x, rfl⟩
      · exact hnil
      · have heq : init ++ [last] = (before ++ w :: rest) ++ [x] := by
          rw [← split, hw]
          simp
        have hinit : init = before ++ w :: rest := (List.append_inj' heq rfl).1
        exact absurd hfound (others w (by simp [hinit]))
  | finished others out => exact absurd hfound (others w hmem)
  | waiting others _ => exact absurd hfound (others w hmem)

theorem ByErrno.found_of_timeout {waited : List Waited} {ch : ATChannel} {outRsp : Bool}
    {sent : Sent} (h : ByErrno waited ch outRsp (some sent))
    (hret : sent.ret = ATErrno.errorTimeout.code) : ∃ w ∈ waited, w.errno = etimedout := by
  cases h with
  | @timeout before last _ split found _ _ => exact ⟨last, by simp [split], found⟩
  | finished others out =>
      have hzero := out.1
      rw [hret] at hzero
      cases hzero

theorem ByErrno.handsOut {waited : List Waited} {ch : ATChannel} {outRsp : Bool}
    {sent : Sent} (h : ByErrno waited ch outRsp (some sent))
    (hnone : ∀ w ∈ waited, w.errno ≠ etimedout) : HandsOut ch outRsp sent.ret sent.out := by
  cases h with
  | @timeout before last _ split found _ _ => exact absurd found (hnone last (by simp [split]))
  | finished _ out => exact out

theorem ByErrno.returns {waited : List Waited} {ch : ATChannel} {outRsp : Bool}
    {result : Option Sent} (h : ByErrno waited ch outRsp result) (hrec : recorded ch = true) :
    ∃ sent, result = some sent := by
  cases h with
  | timeout | finished => exact ⟨_, rfl⟩
  | waiting _ unanswered =>
      rw [hrec] at unanswered
      cases unanswered

theorem last_eq_of_splits {waited before before' : List Waited} {w v : Waited}
    (hw : waited = before ++ [w]) (hv : waited = before' ++ [v]) : w = v := by
  have hlast := (List.append_inj' (hw.symm.trans hv) rfl).2
  cases hlast
  rfl

/-- A call that leaves by `errno` reports expiries rightly if and only if `errno`
says `ETIMEDOUT` exactly behind the waits that timed out. -/
theorem ByErrno.reports_iff {waited : List Waited} {ch : ATChannel} {outRsp : Bool}
    {result : Option Sent} (h : ByErrno waited ch outRsp result) :
    ReportsExpiry waited ch outRsp result ↔
      ∀ w ∈ waited, w.errno = etimedout ↔ w.timedOut := by
  constructor
  · intro hreports w hw
    obtain ⟨before, after, hsplit⟩ := List.append_of_mem hw
    constructor
    · intro hfound
      obtain ⟨rfl, sent, hsent, hret⟩ := h.last_of_found hsplit hfound
      obtain ⟨v, hv, htimed⟩ := (hreports.iff_timedOut sent hsent).1 hret
      obtain ⟨before', after', hsplit'⟩ := List.append_of_mem hv
      obtain ⟨rfl, -⟩ := hreports.ends before' v after' hsplit' htimed
      rw [last_eq_of_splits hsplit hsplit']
      exact htimed
    · intro htimed
      obtain ⟨rfl, sent, rfl⟩ := hreports.ends before w after hsplit htimed
      have hret := (hreports.iff_timedOut sent rfl).2 ⟨w, hw, htimed⟩
      obtain ⟨v, hv, hfound⟩ := h.found_of_timeout hret
      obtain ⟨before', after', hsplit'⟩ := List.append_of_mem hv
      obtain ⟨rfl, -⟩ := h.last_of_found hsplit' hfound
      rw [last_eq_of_splits hsplit hsplit']
      exact hfound
  · intro hagree
    refine ⟨?_, ?_, h.returns, ?_⟩
    · rintro sent rfl
      constructor
      · intro hret
        obtain ⟨w, hw, hfound⟩ := h.found_of_timeout hret
        exact ⟨w, hw, (hagree w hw).1 hfound⟩
      · rintro ⟨w, hw, htimed⟩
        obtain ⟨before, after, hsplit⟩ := List.append_of_mem hw
        obtain ⟨-, sent', hsent, hret⟩ := h.last_of_found hsplit ((hagree w hw).2 htimed)
        cases hsent
        exact hret
    · rintro sent rfl hnone
      exact h.handsOut fun w hw hfound => hnone w hw ((hagree w hw).1 hfound)
    · intro before w after hsplit htimed
      have hw : w ∈ waited := by simp [hsplit]
      obtain ⟨hnil, sent, hsent, -⟩ := h.last_of_found hsplit ((hagree w hw).2 htimed)
      exact ⟨hnil, sent, hsent⟩

/-! ### The whole call -/

theorem ByErrno.of_ret_out {waited : List Waited} {ch : ATChannel} {outRsp : Bool}
    {sent sent' : Sent} (h : ByErrno waited ch outRsp (some sent)) (hret : sent'.ret = sent.ret)
    (hout : sent'.out = sent.out) : ByErrno waited ch outRsp (some sent') := by
  cases h with
  | timeout split found others ret => exact .timeout split found others (hret.trans ret)
  | finished others out => exact .finished others (by rw [hret, hout]; exact out)

theorem sendCommandFull_byErrno {ch : ATChannel} (c : Command) (wakes : List TimedWake)
    (hrsp : ch.rsp = none) (hopen : ch.readClosed = false) :
    ByErrno (commandWaits ch c wakes).1 (commandWaits ch c wakes).2 c.outRsp
      (sendCommandFull ch c (wakes.map TimedWake.wake)) := by
  have hopen' : (setUp (writeLine ch c.cmd kCtrlEnter).2 c.type c.rspPrefix
      c.smsPdu).readClosed = false :=
    (writeLine_served ch c.cmd kCtrlEnter).readClosed.trans hopen
  have hloop := waitLoop_byErrno c.timeoutMsec c.outRsp wakes (by simp [setUp, ATChannel.log])
    hopen'
  have hfull : sendCommandFull ch c (wakes.map TimedWake.wake) =
      (waitLoop (setUp (writeLine ch c.cmd kCtrlEnter).2 c.type c.rspPrefix c.smsPdu)
        c.timeoutMsec c.outRsp (wakes.map TimedWake.wake)).bind fun r =>
          if r.ret = ATErrno.errorTimeout.code ∧ r.chan.timeoutHandler then
            some { r with chan := r.chan.log .timeoutHandler }
          else some r := by
    simp only [sendCommandFull, sendCommandNoLock, startCommand_ok c hrsp]
    rfl
  rw [hfull]
  cases hresult : waitLoop (setUp (writeLine ch c.cmd kCtrlEnter).2 c.type c.rspPrefix c.smsPdu)
      c.timeoutMsec c.outRsp (wakes.map TimedWake.wake) with
  | none =>
      rw [hresult] at hloop
      exact hloop
  | some sent =>
      rw [hresult] at hloop
      rw [Option.bind_some]
      split
      · exact hloop.of_ret_out rfl rfl
      · exact hloop

theorem reportsExpiry_iff (ch : ATChannel) (c : Command) (wakes : List TimedWake)
    (hrsp : ch.rsp = none) (hopen : ch.readClosed = false) :
    ReportsExpiry (commandWaits ch c wakes).1 (commandWaits ch c wakes).2 c.outRsp
        (sendCommandFull ch c (wakes.map TimedWake.wake)) ↔
      ∀ w ∈ (commandWaits ch c wakes).1, w.errno = etimedout ↔ w.timedOut :=
  (sendCommandFull_byErrno c wakes hrsp hopen).reports_iff

def handShakeCommand : Command := ⟨text "AT", .noResult, none, none, 250, true⟩

/-- A wait that expires and one that is notified, with `errno` as it should be. -/
theorem reportsExpiry_agreeing :
    ReportsExpiry (commandWaits (.opened 3 []) handShakeCommand [⟨[], false, 0⟩, ⟨[], true, 110⟩]).1
      (commandWaits (.opened 3 []) handShakeCommand [⟨[], false, 0⟩, ⟨[], true, 110⟩]).2 true
      (sendCommandFull (.opened 3 []) handShakeCommand [⟨[], 0⟩, ⟨[], 110⟩]) :=
  (reportsExpiry_iff (.opened 3 []) handShakeCommand [⟨[], false, 0⟩, ⟨[], true, 110⟩] rfl rfl).2
    (by
      have hwaits : (commandWaits (.opened 3 []) handShakeCommand
          [⟨[], false, 0⟩, ⟨[], true, 110⟩]).1 = [⟨false, 0, false⟩, ⟨true, 110, false⟩] := by
        decide
      rw [hwaits]
      simp [Waited.timedOut, etimedout])

/-- An expired wait is not reported, and a stale `ETIMEDOUT` turns an answered
command into a timeout. -/
theorem expiry_unreported :
    (∃ wakes : List TimedWake,
      ¬ ReportsExpiry (commandWaits (.opened 3 []) handShakeCommand wakes).1
        (commandWaits (.opened 3 []) handShakeCommand wakes).2 true
        (sendCommandFull (.opened 3 []) handShakeCommand (wakes.map TimedWake.wake))) ∧
    ∃ sent, sendCommandFull (.opened 3 []) handShakeCommand
        ([⟨[text "OK"], false, 110⟩].map TimedWake.wake) = some sent ∧
      sent.ret = ATErrno.errorTimeout.code := by
  constructor
  · refine ⟨[⟨[], true, 0⟩, ⟨[text "OK"], false, 0⟩], fun h => ?_⟩
    have hends := h.ends [] ⟨true, 0, false⟩ [⟨false, 0, true⟩] (by decide) ⟨rfl, rfl⟩
    exact absurd hends.1 (by decide)
  · exact ⟨_, rfl, rfl⟩

end Mobile.Channel.Proofs.Expiry
