import Mobile.Channel.SendCommand
import Mobile.Channel.Proofs.WriteSpec

/-!
# What serving a line may do

`ProcessLine` adds to the log only line writes, unsolicited lines and
notifications, and it leaves the descriptor and the handlers alone.  A wait meets
its condition, runs out of time, or sleeps once more.
-/

namespace Mobile.Channel.Proofs.Log

open Mobile.Token.Scan Mobile.Channel.Types Mobile.Channel.WriteLine
open Mobile.Channel.ProcessLine Mobile.Channel.SendCommand Mobile.Channel.Proofs.WriteSpec

def newEvents (ch ch' : ATChannel) : List Event := ch'.events.drop ch.events.length

def lineEvent : Event → Bool
  | .writeLine _ _ => true
  | .write _ _ => true
  | .unsolHandler _ _ => true
  | .notify => true
  | _ => false

structure Served (ch ch' : ATChannel) : Prop where
  readFd : ch'.readFd = ch.readFd
  readClosed : ch'.readClosed = ch.readClosed
  unsolHandler : ch'.unsolHandler = ch.unsolHandler
  closeHandler : ch'.closeHandler = ch.closeHandler
  timeoutHandler : ch'.timeoutHandler = ch.timeoutHandler
  events : ∃ new, ch'.events = ch.events ++ new ∧ ∀ ev ∈ new, lineEvent ev = true

theorem Served.refl (ch : ATChannel) : Served ch ch :=
  ⟨rfl, rfl, rfl, rfl, rfl, [], by simp, by simp⟩

theorem Served.trans {ch₁ ch₂ ch₃ : ATChannel} (h : Served ch₁ ch₂) (h' : Served ch₂ ch₃) :
    Served ch₁ ch₃ := by
  obtain ⟨new, hnew, hok⟩ := h.events
  obtain ⟨new', hnew', hok'⟩ := h'.events
  refine ⟨h'.readFd.trans h.readFd, h'.readClosed.trans h.readClosed,
    h'.unsolHandler.trans h.unsolHandler, h'.closeHandler.trans h.closeHandler,
    h'.timeoutHandler.trans h.timeoutHandler, new ++ new', ?_, ?_⟩
  · rw [hnew', hnew, List.append_assoc]
  · exact List.forall_mem_append.2 ⟨hok, hok'⟩

theorem Served.newEvents {ch ch' : ATChannel} (h : Served ch ch') {ev : Event}
    (hev : ev ∈ newEvents ch ch') : lineEvent ev = true := by
  obtain ⟨new, hnew, hok⟩ := h.events
  apply hok
  simpa [Log.newEvents, hnew] using hev

theorem Served.events_grow {ch ch' : ATChannel} (h : Served ch ch') :
    ch.events <+: ch'.events := by
  obtain ⟨new, hnew, -⟩ := h.events
  rw [hnew]
  exact List.prefix_append _ _

theorem log_served (ch : ATChannel) {ev : Event} (hev : lineEvent ev = true) :
    Served ch (ch.log ev) :=
  ⟨rfl, rfl, rfl, rfl, rfl, [ev], rfl, by simpa using hev⟩

theorem writeLine_served (ch : ATChannel) (s ctrl : Line) :
    Served ch (writeLine ch s ctrl).2 := by
  obtain ⟨sent, ⟨writes, hch⟩, -⟩ := writeLine_spec ch s ctrl
  rw [hch]
  refine ⟨rfl, rfl, rfl, rfl, rfl, .writeLine s ctrl :: sent.map fun p => .write p.1 p.2,
    by simp [ATChannel.log], ?_⟩
  intro ev hev
  rw [List.mem_cons, List.mem_map] at hev
  rcases hev with rfl | ⟨p, -, rfl⟩
  · rfl
  · rfl

theorem handleUnsolicited_served (ch : ATChannel) (line : Line) :
    Served ch (handleUnsolicited ch line) := by
  unfold handleUnsolicited
  split
  · exact log_served ch rfl
  · exact Served.refl ch

theorem addIntermediate_served (ch : ATChannel) (rsp : ATResponse) (line : Line) :
    Served ch (addIntermediate ch rsp line) :=
  ⟨rfl, rfl, rfl, rfl, rfl, [], by simp [addIntermediate], by simp⟩

theorem handleFinalResponse_served (ch : ATChannel) (rsp : ATResponse) (success : Int)
    (line : Line) : Served ch (handleFinalResponse ch rsp success line) :=
  ⟨rfl, rfl, rfl, rfl, rfl, [.notify], rfl, by simp [lineEvent]⟩

theorem dispatch_cases {ch ch' : ATChannel} {rsp : ATResponse} {line : Line}
    (h : dispatch ch rsp line = some ch') :
    ch' = addIntermediate ch rsp line ∨ ch' = handleUnsolicited ch line := by
  unfold dispatch at h
  cases htype : ch.type <;> cases hpre : ch.rspPrefix <;> simp [htype, hpre] at h <;> grind

/-- Everything `ProcessLine` can do with a line. -/
theorem processLine_cases {ch ch' : ATChannel} {line : Line}
    (h : processLine ch line = some ch') :
    ch' = handleUnsolicited ch line ∨
    (∃ rsp, ch.rsp = some rsp ∧ ch' = addIntermediate ch rsp line) ∨
    (∃ rsp success, ch.rsp = some rsp ∧ isFinalResponse line = true ∧
      ch' = handleFinalResponse ch rsp success line) ∨
    (∃ pdu, ch.smsPdu = some pdu ∧ line = smsPrompt ∧
      ch' = { (writeLine ch pdu kCtrlZ).2 with smsPdu := none }) := by
  unfold processLine at h
  split at h
  · cases h
    exact .inl rfl
  · rename_i rsp hrsp
    have hdispatch : dispatch ch rsp line = some ch' →
        ch' = handleUnsolicited ch line ∨ ∃ rsp, ch.rsp = some rsp ∧
          ch' = addIntermediate ch rsp line := by
      intro hd
      rcases dispatch_cases hd with hadd | hunsol
      · exact .inr ⟨rsp, hrsp, hadd⟩
      · exact .inl hunsol
    split_ifs at h with hsucc herr hprompt
    · cases h
      exact .inr (.inr (.inl ⟨rsp, 1, hrsp, by simp [isFinalResponse, hsucc], rfl⟩))
    · cases h
      exact .inr (.inr (.inl ⟨rsp, 0, hrsp, by simp [isFinalResponse, herr], rfl⟩))
    · split at h
      · rename_i pdu hpdu
        cases h
        exact .inr (.inr (.inr ⟨pdu, hpdu, hprompt, rfl⟩))
      · exact (hdispatch h).imp_right .inl
    · split at h
      · exact (hdispatch h).imp_right .inl
      · exact (hdispatch h).imp_right .inl

theorem processLine_served {ch ch' : ATChannel} {line : Line}
    (h : processLine ch line = some ch') : Served ch ch' := by
  obtain rfl | ⟨rsp, -, rfl⟩ | ⟨rsp, success, -, -, rfl⟩ | ⟨pdu, -, -, rfl⟩ :=
    processLine_cases h
  · exact handleUnsolicited_served ch line
  · exact addIntermediate_served ch rsp line
  · exact handleFinalResponse_served ch rsp success line
  · obtain ⟨h₁, h₂, h₃, h₄, h₅, h₆⟩ := writeLine_served ch pdu kCtrlZ
    exact ⟨h₁, h₂, h₃, h₄, h₅, h₆⟩

theorem readerClose_closed {ch : ATChannel} (hclosed : ch.readClosed = true) :
    readerClose ch = ch := by
  simp [readerClose, hclosed]

theorem readerClose_open {ch : ATChannel} (hopen : ch.readClosed = false) :
    ∃ fd new, readerClose ch =
        { ch with readFd := fd, readClosed := true, events := ch.events ++ new } ∧
      new.count .closeHandler = if ch.closeHandler = true then 1 else 0 := by
  unfold readerClose
  by_cases hfd : ch.readFd > 0
  · by_cases hhandler : ch.closeHandler = true
    · exact ⟨-1, [.closeFd, .notify, .closeHandler],
        by simp [hopen, hfd, hhandler, ATChannel.log], by simp [hhandler]⟩
    · exact ⟨-1, [.closeFd, .notify], by simp [hopen, hfd, hhandler, ATChannel.log],
        by simp [hhandler]⟩
  · by_cases hhandler : ch.closeHandler = true
    · exact ⟨ch.readFd, [.notify, .closeHandler],
        by simp [hopen, hfd, hhandler, ATChannel.log], by simp [hhandler]⟩
    · exact ⟨ch.readFd, [.notify], by simp [hopen, hfd, hhandler, ATChannel.log],
        by simp [hhandler]⟩

theorem readerClose_events_grow (ch : ATChannel) :
    ch.events <+: (readerClose ch).events := by
  cases hclosed : ch.readClosed with
  | true => simp [readerClose_closed hclosed]
  | false =>
      obtain ⟨fd, new, hclose, -⟩ := readerClose_open hclosed
      rw [hclose]
      exact List.prefix_append _ _

theorem readerClose_closes (ch : ATChannel) :
    (readerClose ch).readClosed = true ∧
      (newEvents ch (readerClose ch)).count .closeHandler =
        if ch.readClosed = false ∧ ch.closeHandler = true then 1 else 0 := by
  cases hclosed : ch.readClosed with
  | true =>
      rw [readerClose_closed hclosed]
      simp [newEvents, hclosed]
  | false =>
      obtain ⟨fd, new, hclose, hcount⟩ := readerClose_open hclosed
      rw [hclose]
      simpa [newEvents] using hcount

theorem readerClose_rsp (ch : ATChannel) : (readerClose ch).rsp = ch.rsp := by
  cases hclosed : ch.readClosed with
  | true => rw [readerClose_closed hclosed]
  | false =>
      obtain ⟨fd, new, hclose, -⟩ := readerClose_open hclosed
      rw [hclose]

theorem startCommand_ok {ch : ATChannel} (c : Command) (hrsp : ch.rsp = none) :
    startCommand ch c =
      .ok (setUp (writeLine ch c.cmd kCtrlEnter).2 c.type c.rspPrefix c.smsPdu) := by
  have hret := writeLine_ret_nonneg ch c.cmd kCtrlEnter
  simp only [startCommand, hrsp, ne_eq, not_true_eq_false, if_false]
  rw [if_neg (by omega)]

/-! ### How a wait ends -/

inductive Waited (timeoutMsec : Nat) (outRsp : Bool) : ATChannel → List Wake → Sent → Prop
  | answered {ch : ATChannel} {rsp : ATResponse} {wakes : List Wake} (hrsp : ch.rsp = some rsp)
      (hanswered : answered ch rsp = true) :
      Waited timeoutMsec outRsp ch wakes (takeResponse ch rsp outRsp)
  | expired {ch ch' : ATChannel} {wake : Wake} {wakes : List Wake}
      (hacts : wake.acts.foldlM Act.run (ch.log (.sleep timeoutMsec)) = some ch')
      (herrno : wake.errno = etimedout) :
      Waited timeoutMsec outRsp ch (wake :: wakes)
        ⟨ATErrno.errorTimeout.code, .unassigned, ch'.clearPendingCommand⟩
  | woken {ch ch' : ATChannel} {wake : Wake} {wakes : List Wake} {sent : Sent}
      (hacts : wake.acts.foldlM Act.run (ch.log (.sleep timeoutMsec)) = some ch')
      (hrest : Waited timeoutMsec outRsp ch' wakes sent) :
      Waited timeoutMsec outRsp ch (wake :: wakes) sent

theorem waitLoop_waited {ch : ATChannel} {timeoutMsec : Nat} {outRsp : Bool}
    {wakes : List Wake} {sent : Sent} (h : waitLoop ch timeoutMsec outRsp wakes = some sent) :
    Waited timeoutMsec outRsp ch wakes sent := by
  induction wakes generalizing ch with
  | nil =>
      rw [waitLoop, Option.bind_eq_bind, Option.bind_eq_some_iff] at h
      obtain ⟨rsp, hrsp, h⟩ := h
      split at h
      case isTrue hanswered =>
        cases h
        exact .answered hrsp hanswered
      case isFalse => cases h
  | cons wake wakes ih =>
      rw [waitLoop, Option.bind_eq_bind, Option.bind_eq_some_iff] at h
      obtain ⟨rsp, hrsp, h⟩ := h
      split at h
      case isTrue hanswered =>
        cases h
        exact .answered hrsp hanswered
      case isFalse =>
        rw [Option.bind_eq_bind, Option.bind_eq_some_iff] at h
        obtain ⟨ch', hacts, h⟩ := h
        split at h
        case isTrue herrno =>
          cases h
          exact .expired hacts herrno
        case isFalse => exact .woken hacts (ih h)

end Mobile.Channel.Proofs.Log
