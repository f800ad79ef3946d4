import Mobile.ProofSupport.Transition
import Mobile.Channel.Proofs.Log

/-!
# Reporting a failed write

`SendCommandNoLock` tests the result of `WriteLine` with `ret < 0`, and no
enumerator of `ATErrno` is negative: a failed write is never noticed, whichever
wrapper sent the command.  `HandShake` drops the result of its last attempt.
-/

namespace Mobile.Channel.Proofs.Reporting

open Mobile.ProofSupport.Transition
open Mobile.Token.Scan Mobile.Channel.ReadLine Mobile.Channel.Types Mobile.Channel.WriteLine
open Mobile.Channel.ProcessLine Mobile.Channel.SendCommand Mobile.Channel.Proofs.WriteSpec
open Mobile.Channel.Proofs.Log

/-! ### The log only grows -/

theorem log_events_grow (ch : ATChannel) (ev : Event) : ch.events <+: (ch.log ev).events :=
  List.prefix_append _ _

theorem act_events_grow {ch ch' : ATChannel} {act : Act} (h : act.run ch = some ch') :
    ch.events <+: ch'.events := by
  cases act with
  | processLine line => exact (processLine_served h).events_grow
  | readerClose =>
      cases h
      exact readerClose_events_grow ch

theorem acts_events_grow {ch ch' : ATChannel} {acts : List Act}
    (h : acts.foldlM Act.run ch = some ch') : ch.events <+: ch'.events := by
  apply foldlM_invariant (fun c => ch.events <+: c.events) _ List.prefix_rfl h
  intro c act c' hact hc
  exact hc.trans (act_events_grow hact)

theorem waitLoop_events_grow {ch : ATChannel} {timeoutMsec : Nat} {outRsp : Bool}
    {wakes : List Wake} {sent : Sent}
    (h : waitLoop ch timeoutMsec outRsp wakes = some sent) :
    ch.events <+: sent.chan.events := by
  have hslept : ∀ {ch₁ ch₂ : ATChannel} {acts : List Act},
      acts.foldlM Act.run (ch₁.log (.sleep timeoutMsec)) = some ch₂ → ch₁.events <+: ch₂.events :=
    fun hacts => (log_events_grow _ _).trans (acts_events_grow hacts)
  replace h := waitLoop_waited h
  induction h with
  | answered => exact List.prefix_rfl
  | expired hacts _ =>
      have hexpired := hslept hacts
      exact hexpired
  | woken hacts _ ih => exact (hslept hacts).trans ih

/-! ### The senders -/

inductive Sender
  | noLock (c : Command)
  | full (c : Command)
  | plain (cmd : Line) (outRsp : Bool)
  | singleLine (cmd rspPrefix : Line) (outRsp : Bool)
  | numeric (cmd : Line) (outRsp : Bool)
  | multiLine (cmd rspPrefix : Line) (outRsp : Bool)
  | sms (cmd pdu rspPrefix : Line) (outRsp : Bool)

namespace Sender

def run (ch : ATChannel) (wakes : List Wake) : Sender → Option Sent
  | .noLock c => sendCommandNoLock ch c wakes
  | .full c => sendCommandFull ch c wakes
  | .plain cmd outRsp => sendCommand ch cmd outRsp wakes
  | .singleLine cmd rspPrefix outRsp => sendCommandSingleLine ch cmd rspPrefix outRsp wakes
  | .numeric cmd outRsp => sendCommandNumeric ch cmd outRsp wakes
  | .multiLine cmd rspPrefix outRsp => sendCommandMultiLine ch cmd rspPrefix outRsp wakes
  | .sms cmd pdu rspPrefix outRsp => sendCommandSms ch cmd pdu rspPrefix outRsp wakes

def command : Sender → Command
  | .noLock c => c
  | .full c => c
  | .plain cmd outRsp => ⟨cmd, .noResult, none, none, 0, outRsp⟩
  | .singleLine cmd rspPrefix outRsp => ⟨cmd, .singleLine, some rspPrefix, none, 0, outRsp⟩
  | .numeric cmd outRsp => ⟨cmd, .numeric, none, none, 0, outRsp⟩
  | .multiLine cmd rspPrefix outRsp => ⟨cmd, .multiLine, some rspPrefix, none, 0, outRsp⟩
  | .sms cmd pdu rspPrefix outRsp => ⟨cmd, .singleLine, some rspPrefix, some pdu, 0, outRsp⟩

end Sender

theorem sendCommandFull_noLock {ch : ATChannel} {c : Command} {wakes : List Wake} {sent : Sent}
    (h : sendCommandFull ch c wakes = some sent) :
    ∃ inner, sendCommandNoLock ch c wakes = some inner ∧ inner.ret = sent.ret ∧
      inner.chan.events <+: sent.chan.events := by
  rw [sendCommandFull, Option.bind_eq_bind, Option.bind_eq_some_iff] at h
  obtain ⟨inner, hinner, h⟩ := h
  refine ⟨inner, hinner, ?_⟩
  split at h
  · cases h
    exact ⟨rfl, log_events_grow _ _⟩
  · cases h
    exact ⟨rfl, List.prefix_rfl⟩

theorem requireIntermediate_chan (sent : Sent) : (requireIntermediate sent).chan = sent.chan := by
  unfold requireIntermediate
  split
  · split <;> rfl
  · rfl

theorem Sender.noLock_of_run {ch : ATChannel} {wakes : List Wake} {s : Sender} {sent : Sent}
    (h : s.run ch wakes = some sent) :
    ∃ inner, sendCommandNoLock ch s.command wakes = some inner ∧
      inner.chan.events <+: sent.chan.events := by
  have hfull : ∀ {c : Command} {sent : Sent}, sendCommandFull ch c wakes = some sent →
      ∃ inner, sendCommandNoLock ch c wakes = some inner ∧
        inner.chan.events <+: sent.chan.events := by
    intro c sent hc
    obtain ⟨inner, hinner, -, hlog⟩ := sendCommandFull_noLock hc
    exact ⟨inner, hinner, hlog⟩
  have hchecked : ∀ {c : Command},
      (sendCommandFull ch c wakes).map requireIntermediate = some sent →
      ∃ inner, sendCommandNoLock ch c wakes = some inner ∧
        inner.chan.events <+: sent.chan.events := by
    intro c hc
    obtain ⟨full, hrun, rfl⟩ := Option.map_eq_some_iff.1 hc
    rw [requireIntermediate_chan]
    exact hfull hrun
  cases s with
  | noLock c => exact ⟨sent, h, List.prefix_rfl⟩
  | full c => exact hfull h
  | plain cmd outRsp => exact hfull h
  | singleLine cmd rspPrefix outRsp => exact hchecked h
  | numeric cmd outRsp => exact hchecked h
  | multiLine cmd rspPrefix outRsp => exact hfull h
  | sms cmd pdu rspPrefix outRsp => exact hchecked h

def commandWrites (ch : ATChannel) (cmd : Line) : List WriteResult :=
  (newEvents ch (writeLine ch cmd kCtrlEnter).2).filterMap fun
    | .write result _ => some result
    | _ => none

/-- If the command is written and `WriteLine` fails, the sender returns that
error, and it neither allocates a response nor waits. -/
def ReportsFailedWrite (ch : ATChannel) (s : Sender) (wakes : List Wake) : Prop :=
  ch.rsp = none → (writeLine ch s.command.cmd kCtrlEnter).1 ≠ ATErrno.success.code →
    ∃ sent, s.run ch wakes = some sent ∧
      sent.ret = (writeLine ch s.command.cmd kCtrlEnter).1 ∧
      .allocResponce ∉ newEvents ch sent.chan ∧
      ∀ timeoutMsec, .sleep timeoutMsec ∉ newEvents ch sent.chan

theorem writeLine_success_iff (ch : ATChannel) (cmd : Line) :
    (writeLine ch cmd kCtrlEnter).1 = ATErrno.success.code ↔
      ch.isOpen = true ∧ ∀ r ∈ commandWrites ch cmd, hardFailure r = false := by
  obtain ⟨sent, ⟨writes, hch⟩, hret, -⟩ := writeLine_spec ch cmd kCtrlEnter
  have hwrites : commandWrites ch cmd = sent.map Prod.fst := by
    simp [commandWrites, newEvents, hch, ATChannel.log, List.filterMap_map]
  rw [hret, hwrites, List.forall_mem_map]

theorem alloc_mem_newEvents {ch : ATChannel} {s : Sender} {wakes : List Wake} {sent : Sent}
    (hrsp : ch.rsp = none) (h : s.run ch wakes = some sent) :
    .allocResponce ∈ newEvents ch sent.chan := by
  obtain ⟨inner, hinner, hlog⟩ := Sender.noLock_of_run h
  rw [sendCommandNoLock, startCommand_ok _ hrsp] at hinner
  have hwritten := (writeLine_served ch s.command.cmd kCtrlEnter).events_grow
  have hwait := (waitLoop_events_grow hinner).trans hlog
  obtain ⟨xs, hxs⟩ := hwritten
  obtain ⟨ys, hys⟩ := hwait
  have hevents : sent.chan.events = ch.events ++ (xs ++ .allocResponce :: ys) := by
    rw [← hys]
    simp [setUp, ATChannel.log, ← hxs]
  simp [newEvents, hevents]

theorem handShakeLoop_spec (attempt : Nat → Int) (ret : Int) (i left : Nat) :
    i ≤ (handShakeLoop attempt ret i left).2 ∧
      ((∃ j, i ≤ j ∧ j < (handShakeLoop attempt ret i left).2 ∧ attempt j = 0) ↔
        ∃ j, i ≤ j ∧ j < i + left ∧ attempt j = 0) := by
  induction left generalizing ret i with
  | zero => simp [handShakeLoop]
  | succ left ih =>
      by_cases hi : attempt i = 0
      · simp only [handShakeLoop, hi, if_true]
        refine ⟨by omega, ?_, ?_⟩
        · exact fun _ => ⟨i, by omega, by omega, hi⟩
        · exact fun _ => ⟨i, by omega, by omega, hi⟩
      · simp only [handShakeLoop, hi, if_false]
        obtain ⟨hle, hiff⟩ := ih (attempt i) (i + 1)
        refine ⟨by omega, ?_, ?_⟩
        · rintro ⟨j, hij, hj, hzero⟩
          have hne : i ≠ j := fun h => hi (h ▸ hzero)
          obtain ⟨k, hk, hlt, hk0⟩ := hiff.1 ⟨j, by omega, hj, hzero⟩
          exact ⟨k, by omega, by omega, hk0⟩
        · rintro ⟨j, hij, hj, hzero⟩
          have hne : i ≠ j := fun h => hi (h ▸ hzero)
          obtain ⟨k, hk, hlt, hk0⟩ := hiff.2 ⟨j, by omega, by omega, hzero⟩
          exact ⟨k, by omega, hlt, hk0⟩

def HonestHandShake (attempt : Nat → Int) : Prop :=
  (handShake attempt).ret = 0 → ∃ i < (handShake attempt).attempts, attempt i = 0

theorem failures_reported_iff (ch : ATChannel) (s : Sender) (wakes : List Wake)
    (attempt : Nat → Int) :
    (ReportsFailedWrite ch s wakes ↔
      (ch.rsp = none → ch.isOpen = true ∧
        ∀ r ∈ commandWrites ch s.command.cmd, hardFailure r = false)) ∧
    (HonestHandShake attempt ↔ ∃ i < handshakeRetryCount, attempt i = 0) := by
  constructor
  · rw [ReportsFailedWrite, ← writeLine_success_iff]
    constructor
    · intro h hrsp
      by_contra hfail
      obtain ⟨sent, hrun, -, halloc, -⟩ := h hrsp hfail
      exact halloc (alloc_mem_newEvents hrsp hrun)
    · intro h hrsp hfail
      exact absurd (h hrsp) hfail
  · have hloop := (handShakeLoop_spec attempt 0 0 handshakeRetryCount).2
    simp only [Nat.zero_le, true_and, Nat.zero_add] at hloop
    rw [HonestHandShake, ← hloop]
    exact ⟨fun h => h rfl, fun h _ => h⟩

/-- A `write()` of `AT` that fails with `EIO` goes unnoticed: the command ends
with the `OK` of another one. -/
theorem failed_write_unreported :
    ¬ ((∀ ch s wakes, ReportsFailedWrite ch s wakes) ∧ ∀ attempt, HonestHandShake attempt) := by
  rintro ⟨hwrite, -⟩
  obtain ⟨sent, hrun, hret, -⟩ := hwrite
    (.opened 3 [.failed (.other 5)])
    (.plain (text "AT") true) [⟨[.processLine (text "OK")], 0⟩] rfl (by decide)
  have hzero : sent.ret = 0 := by
    have h : (Sender.run (.opened 3 [.failed (.other 5)]) [⟨[.processLine (text "OK")], 0⟩]
      (.plain (text "AT") true)).map Sent.ret = some 0 := by decide
    simpa [hrun] using h
  rw [hzero] at hret
  exact absurd hret (by decide)

end Mobile.Channel.Proofs.Reporting
