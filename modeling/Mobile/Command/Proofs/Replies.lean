import Mobile.ProofSupport.Transition
import Mobile.Channel.Proofs.Log
import Mobile.Command.Callbacks

/-!
# The replies a channel can give

Every reply is one of three: a response with the code 0 or `CHANNEL_CLOSED`, the
null pointer of a successful command without its line, or a pointer left as it
was.
-/

namespace Mobile.Command.Proofs.Replies

open Mobile.ProofSupport.Transition
open Mobile.Token.Scan Mobile.Channel.Types Mobile.Channel.ProcessLine
open Mobile.Channel.SendCommand Mobile.Channel.Proofs.Log Mobile.Command.Callbacks

def Flagged (rsp : ATResponse) : Prop := rsp.success = 0 ∨ rsp.success = 1

def Pending (ch : ATChannel) : Prop := ∃ rsp, ch.rsp = some rsp ∧ Flagged rsp

theorem processLine_pending {ch ch' : ATChannel} {line : Line} (h : Pending ch)
    (hch : processLine ch line = some ch') : Pending ch' := by
  obtain ⟨rsp, hrsp, hflag⟩ := h
  by_cases hsucc : isFinalResponseSuccess line = true
  · simp only [processLine, hrsp, hsucc, if_true, Option.some.injEq] at hch
    rw [← hch]
    exact ⟨_, rfl, .inr rfl⟩
  by_cases herr : isFinalResponseError line = true
  · simp only [processLine, hrsp, hsucc, herr, if_true, if_false, Bool.false_eq_true,
      Option.some.injEq] at hch
    rw [← hch]
    exact ⟨_, rfl, .inl rfl⟩
  obtain rfl | ⟨rsp', hrsp', rfl⟩ | ⟨rsp', success, -, hfinal, -⟩ | ⟨pdu, -, -, rfl⟩ :=
    processLine_cases hch
  · refine ⟨rsp, ?_, hflag⟩
    unfold handleUnsolicited
    split <;> exact hrsp
  · rw [hrsp] at hrsp'
    cases hrsp'
    exact ⟨_, rfl, hflag⟩
  · simp [isFinalResponse, hsucc, herr] at hfinal
  · refine ⟨rsp, ?_, hflag⟩
    obtain ⟨sent, ⟨writes, hsent⟩, -⟩ :=
      Mobile.Channel.Proofs.WriteSpec.writeLine_spec ch pdu kCtrlZ
    rw [hsent]
    exact hrsp

theorem act_pending {ch ch' : ATChannel} {act : Act} (h : Pending ch)
    (hch : act.run ch = some ch') : Pending ch' := by
  cases act with
  | processLine line => exact processLine_pending h hch
  | readerClose =>
      cases hch
      obtain ⟨rsp, hrsp, hflag⟩ := h
      exact ⟨rsp, (readerClose_rsp ch).trans hrsp, hflag⟩

theorem acts_pending {ch ch' : ATChannel} {acts : List Act} (h : Pending ch)
    (hch : acts.foldlM Act.run ch = some ch') : Pending ch' :=
  foldlM_invariant Pending (fun _ _ _ hact hc => act_pending hc hact) h hch

inductive Ended : Int → OutRsp → Prop
  | answered {r : ATResponse} (hr : Flagged r) : Ended 0 (.resp r)
  | closed {r : ATResponse} (hr : Flagged r) : Ended ATErrno.errorChannelClosed.code (.resp r)
  | timeout : Ended ATErrno.errorTimeout.code .unassigned
  | pending : Ended ATErrno.errorCommandPending.code .unassigned

theorem takeResponse_ended {ch : ATChannel} {rsp : ATResponse} (h : Flagged rsp) :
    Ended (takeResponse ch rsp true).ret (takeResponse ch rsp true).out := by
  have hrev : Flagged (reverseIntermediates rsp) := h
  unfold takeResponse
  by_cases hclosed : ch.readClosed = true
  · simpa [hclosed] using Ended.closed hrev
  · simpa [hclosed] using Ended.answered hrev

theorem waitLoop_ended {ch : ATChannel} {timeoutMsec : Nat} {wakes : List Wake} {sent : Sent}
    (h : Pending ch) (hsent : waitLoop ch timeoutMsec true wakes = some sent) :
    Ended sent.ret sent.out := by
  replace hsent := waitLoop_waited hsent
  induction hsent with
  | answered hrsp _ =>
      obtain ⟨rsp, hsome, hflag⟩ := h
      rw [hrsp] at hsome
      cases hsome
      exact takeResponse_ended hflag
  | expired => exact .timeout
  | @woken ch ch' wake wakes sent hacts hrest ih =>
      have hsleep : Pending (ch.log (.sleep timeoutMsec)) := h
      exact ih (acts_pending hsleep hacts)

theorem sendCommandFull_ended {ch : ATChannel} {c : Command} {wakes : List Wake} {sent : Sent}
    (hout : c.outRsp = true) (hsent : sendCommandFull ch c wakes = some sent) :
    Ended sent.ret sent.out := by
  rw [sendCommandFull, Option.bind_eq_bind, Option.bind_eq_some_iff] at hsent
  obtain ⟨inner, hinner, hsent⟩ := hsent
  have hsame : sent.ret = inner.ret ∧ sent.out = inner.out := by
    split at hsent <;> cases hsent <;> exact ⟨rfl, rfl⟩
  rw [hsame.1, hsame.2]
  by_cases hrsp : ch.rsp = none
  · rw [sendCommandNoLock, startCommand_ok c hrsp, hout] at hinner
    exact waitLoop_ended ⟨.alloc, rfl, .inl rfl⟩ hinner
  · simp only [sendCommandNoLock, startCommand, ne_eq, hrsp, not_false_eq_true, if_true,
      Option.some.injEq] at hinner
    rw [← hinner]
    exact .pending

inductive Replied : Call → Reply → Prop
  | answered {call : Call} {r : ATResponse} (hr : Flagged r)
      (hline : ∀ cmd pre, call = .singleLine cmd pre → r.success = 1 → r.intermediates ≠ []) :
      Replied call ⟨0, .resp r⟩
  | closed {call : Call} {r : ATResponse} (hr : Flagged r) :
      Replied call ⟨ATErrno.errorChannelClosed.code, .resp r⟩
  | invalid {call : Call} : Replied call ⟨ATErrno.errorInvalidResponse.code, .null⟩
  | timeout {call : Call} : Replied call ⟨ATErrno.errorTimeout.code, .unassigned⟩
  | pending {call : Call} : Replied call ⟨ATErrno.errorCommandPending.code, .unassigned⟩

theorem Replied.ret_mem {call : Call} {reply : Reply} (h : Replied call reply) :
    0 ≤ reply.ret ∧ reply.ret < 256 := by
  cases h <;> simp [ATErrno.code]

theorem Replied.line_of_success {cmd pre : Line} {reply : Reply} {r : ATResponse}
    (h : Replied (.singleLine cmd pre) reply) (hout : reply.out = .resp r) (hr : r.success ≠ 0)
    (hret : reply.ret = 0) : r.intermediates ≠ [] := by
  cases h with
  | answered hflag hline =>
      cases hout
      exact hline cmd pre rfl (hflag.resolve_left hr)
  | closed _ => cases hret
  | invalid => cases hret
  | timeout => cases hret
  | pending => cases hret

theorem Replied.resp_of_zero {call : Call} {reply : Reply} (h : Replied call reply)
    (hret : reply.ret = 0) : ∃ r, reply = ⟨0, .resp r⟩ := by
  cases h with
  | @answered r _ _ => exact ⟨r, rfl⟩
  | closed _ => cases hret
  | invalid => cases hret
  | timeout => cases hret
  | pending => cases hret

theorem replied_of_ended {call : Call} {ret : Int} {out : OutRsp}
    (hcall : ∀ cmd pre, call ≠ .singleLine cmd pre) (h : Ended ret out) :
    Replied call ⟨ret, out⟩ := by
  cases h with
  | answered hr => exact .answered hr fun cmd pre heq => absurd heq (hcall cmd pre)
  | closed hr => exact .closed hr
  | timeout => exact .timeout
  | pending => exact .pending

theorem requireIntermediate_replied {sent : Sent} (cmd pre : Line)
    (h : Ended sent.ret sent.out) :
    Replied (.singleLine cmd pre) ⟨(requireIntermediate sent).ret,
      (requireIntermediate sent).out⟩ := by
  obtain ⟨ret, out, chan⟩ := sent
  cases h with
  | @answered r hr =>
      by_cases hempty : r.success > 0 ∧ r.intermediates = []
      · simpa [requireIntermediate, hempty] using Replied.invalid
      · have hline : r.success = 1 → r.intermediates ≠ [] := by
          intro hone hnil
          exact hempty ⟨by omega, hnil⟩
        have hsame : requireIntermediate ⟨0, .resp r, chan⟩ = ⟨0, .resp r, chan⟩ := by
          simp only [requireIntermediate, true_and, if_neg hempty]
        show Replied _ ⟨(requireIntermediate ⟨0, .resp r, chan⟩).ret,
          (requireIntermediate ⟨0, .resp r, chan⟩).out⟩
        rw [hsame]
        exact .answered hr fun _ _ _ => hline
  | closed hr => exact .closed hr
  | timeout => exact .timeout
  | pending => exact .pending

theorem replied_of_producible {call : Call} {reply : Reply} (hout : call.outRsp = true)
    (h : Producible call reply) : Replied call reply := by
  obtain ⟨ch, wakes, sent, hsent, hret, hrsp⟩ := h
  have hreply : reply = ⟨sent.ret, sent.out⟩ := by
    cases reply
    simp only at hret hrsp
    rw [hret, hrsp]
  rw [hreply]
  cases call with
  | command cmd outRsp =>
      exact replied_of_ended (by simp) (sendCommandFull_ended hout hsent)
  | multiLine cmd pre => exact replied_of_ended (by simp) (sendCommandFull_ended rfl hsent)
  | singleLine cmd pre =>
      obtain ⟨full, hfull, rfl⟩ := Option.map_eq_some_iff.1 hsent
      exact requireIntermediate_replied cmd pre (sendCommandFull_ended rfl hfull)

end Mobile.Command.Proofs.Replies
