import Mobile.Channel.Proofs.Pending
import Mobile.Channel.Proofs.Units

/-!
# The line of a command on the wire

While no PDU waits for its prompt, nothing that the reader does writes.  A command puts
its text and a carriage return on the wire, whatever its wait meets, or nothing when the
channel is closed; a closed channel stays closed.
-/

namespace Mobile.Channel.Proofs.CommandLines

open Mobile.ProofSupport.Transition
open Mobile.Token.Scan Mobile.Channel.ReadLine Mobile.Channel.Types Mobile.Channel.WriteLine
open Mobile.Channel.ProcessLine Mobile.Channel.SendCommand Mobile.Channel.Entries
open Mobile.Channel.Proofs.WriteSpec Mobile.Channel.Proofs.Log Mobile.Channel.Proofs.Units
open Mobile.Channel.Proofs.Pending

def failing : Event → Bool
  | .write r _ => hardFailure r
  | _ => false

def Unfailing (evs : List Event) : Prop := ∀ ev ∈ evs, failing ev = false

instance (evs : List Event) : Decidable (Unfailing evs) :=
  inferInstanceAs (Decidable (∀ ev ∈ evs, _))

/-- From `ch` to `ch'` the `bytes` went out, and a closed channel was not opened. -/
structure Puts (ch ch' : ATChannel) (bytes : Line) : Prop where
  log : ∃ new, ch'.events = ch.events ++ new ∧ (Unfailing new → onWire new = bytes)
  opened : ch'.isOpen = true → ch.isOpen = true

section Puts

variable {ch ch₁ ch₂ : ATChannel}

theorem Puts.trans {bytes bytes' : Line} (h : Puts ch ch₁ bytes) (h' : Puts ch₁ ch₂ bytes') :
    Puts ch ch₂ (bytes ++ bytes') := by
  obtain ⟨new, hnew, hbytes⟩ := h.log
  obtain ⟨new', hnew', hbytes'⟩ := h'.log
  refine ⟨⟨new ++ new', ?_, fun hsound => ?_⟩, fun hopen => h.opened (h'.opened hopen)⟩
  · rw [hnew', hnew, List.append_assoc]
  · obtain ⟨hfirst, hsecond⟩ := List.forall_mem_append.1 hsound
    rw [onWire, List.flatMap_append, ← onWire, ← onWire, hbytes hfirst, hbytes' hsecond]

theorem Puts.then_nothing {bytes : Line} (h : Puts ch ch₁ bytes) (h' : Puts ch₁ ch₂ []) :
    Puts ch ch₂ bytes := by
  rw [← List.append_nil bytes]
  exact h.trans h'

theorem puts_same (hevents : ch₁.events = ch.events)
    (hopened : ch₁.isOpen = true → ch.isOpen = true) : Puts ch ch₁ [] :=
  ⟨⟨[], by rw [hevents, List.append_nil], fun _ => rfl⟩, hopened⟩

theorem puts_nothing {new : List Event} (hnew : ch₁.events = ch.events ++ new)
    (hwire : onWire new = []) (hopened : ch₁.isOpen = true → ch.isOpen = true) :
    Puts ch ch₁ [] :=
  ⟨⟨new, hnew, fun _ => hwire⟩, hopened⟩

theorem puts_refl (ch : ATChannel) : Puts ch ch [] := puts_same rfl id

theorem puts_clear (ch : ATChannel) : Puts ch ch.clearPendingCommand [] := puts_same rfl id

theorem handleUnsolicited_puts (ch : ATChannel) (line : Line) :
    Puts ch (handleUnsolicited ch line) [] := by
  unfold handleUnsolicited
  split
  · exact puts_nothing rfl rfl id
  · exact puts_refl ch

theorem writeLine_puts (ch : ATChannel) (s ctrl : Line) :
    Puts ch (writeLine ch s ctrl).2 (if ch.isOpen then s ++ [ctrl.headD 0] else []) := by
  have hserved := writeLine_served ch s ctrl
  have hopened : (writeLine ch s ctrl).2.isOpen = true → ch.isOpen = true := by
    unfold ATChannel.isOpen
    rw [hserved.readFd, hserved.readClosed]
    exact id
  obtain ⟨sent, hsent, hret, hend⟩ := writeLine_spec ch s ctrl
  have hbyte : (ctrl ++ [0]).take 1 = [ctrl.headD 0] := by cases ctrl <;> rfl
  rw [hbyte] at hend
  have htransmits := LineEnd.transmits hend
  refine ⟨⟨.writeLine s ctrl :: sent.map fun p => .write p.1 p.2, ?_, fun hsound => ?_⟩, hopened⟩
  · obtain ⟨writes, hch⟩ := hsent
    rw [hch]
    simp [ATChannel.log]
  · rw [show onWire (.writeLine s ctrl :: _) = taken sent from onWire_writes sent]
    cases hopen : ch.isOpen with
    | false =>
        apply htransmits.closed
        have hlogged : (ch.log (.writeLine s ctrl)).isOpen = false := hopen
        simp [writeLine, hlogged]
    | true =>
        apply htransmits.success
        refine hret.2 ⟨hopen, fun p hp => hsound (.write p.1 p.2) ?_⟩
        exact List.mem_cons_of_mem _ (List.mem_map_of_mem hp)

end Puts

/-! ### What the reader does -/

section Acts

variable {ch ch' : ATChannel}

theorem readerClose_puts (ch : ATChannel) : Puts ch (readerClose ch) [] := by
  cases hclosed : ch.readClosed with
  | true =>
      rw [readerClose_closed hclosed]
      exact puts_refl ch
  | false =>
      have hend : (readerClose ch).isOpen = false := by
        simp [ATChannel.isOpen, (readerClose_closes ch).1]
      have hlog : ∃ new, (readerClose ch).events = ch.events ++ new ∧ onWire new = [] := by
        unfold readerClose
        by_cases hfd : ch.readFd > 0 <;> by_cases hhandler : ch.closeHandler = true <;>
          simp [hclosed, hfd, hhandler, ATChannel.log, onWire]
      obtain ⟨new, hnew, hwire⟩ := hlog
      refine puts_nothing hnew hwire fun hopen => ?_
      rw [hend] at hopen
      cases hopen

theorem processLine_puts {line : Line} (hpdu : ch.smsPdu = none)
    (h : processLine ch line = some ch') : Puts ch ch' [] ∧ ch'.smsPdu = none := by
  obtain rfl | ⟨rsp, -, rfl⟩ | ⟨rsp, success, -, -, rfl⟩ | ⟨pdu, hsome, -⟩ := processLine_cases h
  · refine ⟨handleUnsolicited_puts ch line, ?_⟩
    unfold handleUnsolicited
    split <;> exact hpdu
  · exact ⟨puts_same rfl id, hpdu⟩
  · exact ⟨puts_nothing rfl rfl id, hpdu⟩
  · rw [hpdu] at hsome
    cases hsome

theorem act_puts {a : Act} (hpdu : ch.smsPdu = none) (h : a.run ch = some ch') :
    Puts ch ch' [] ∧ ch'.smsPdu = none := by
  cases a with
  | processLine line => exact processLine_puts hpdu h
  | readerClose =>
      cases h
      refine ⟨readerClose_puts ch, ?_⟩
      cases hclosed : ch.readClosed with
      | true => rwa [readerClose_closed hclosed]
      | false =>
          obtain ⟨fd, new, hclose, -⟩ := readerClose_open hclosed
          rwa [hclose]

theorem acts_puts {acts : List Act} (hpdu : ch.smsPdu = none)
    (h : acts.foldlM Act.run ch = some ch') : Puts ch ch' [] ∧ ch'.smsPdu = none := by
  apply foldlM_invariant (fun c => Puts ch c [] ∧ c.smsPdu = none) _ ⟨puts_refl ch, hpdu⟩ h
  intro c a c' hact hc
  obtain ⟨hputs, hnone⟩ := act_puts hc.2 hact
  exact ⟨hc.1.then_nothing hputs, hnone⟩

theorem acts_idle {acts : List Act} (hcmd : NoCommand ch)
    (h : acts.foldlM Act.run ch = some ch') : NoCommand ch' := by
  apply foldlM_invariant NoCommand _ hcmd h
  intro c a c' hact hc
  cases a with
  | processLine line =>
      rw [processLine_noCommand hc hact]
      exact handleUnsolicited_noCommand hc line
  | readerClose =>
      cases hact
      exact readerClose_noCommand hc

end Acts

/-! ### The command -/

section Command

variable {ch : ATChannel} {sent : Sent}

theorem takeResponse_puts (ch : ATChannel) (rsp : ATResponse) (outRsp : Bool) :
    Puts ch (takeResponse ch rsp outRsp).chan [] ∧ NoCommand (takeResponse ch rsp outRsp).chan :=
  ⟨puts_clear ch, clearPendingCommand_noCommand ch⟩

theorem waitLoop_puts {timeoutMsec : Nat} {outRsp : Bool} {wakes : List Wake}
    (hpdu : ch.smsPdu = none) (h : waitLoop ch timeoutMsec outRsp wakes = some sent) :
    Puts ch sent.chan [] ∧ NoCommand sent.chan := by
  have hslept : ∀ {ch₁ ch₂ : ATChannel} {acts : List Act}, ch₁.smsPdu = none →
      acts.foldlM Act.run (ch₁.log (.sleep timeoutMsec)) = some ch₂ →
      Puts ch₁ ch₂ [] ∧ ch₂.smsPdu = none := by
    intro ch₁ ch₂ acts hpdu hacts
    have hsleep : Puts ch₁ (ch₁.log (.sleep timeoutMsec)) [] := puts_nothing rfl rfl id
    have hnopdu : (ch₁.log (.sleep timeoutMsec)).smsPdu = none := hpdu
    obtain ⟨hputs, hnone⟩ := acts_puts hnopdu hacts
    exact ⟨hsleep.then_nothing hputs, hnone⟩
  replace h := waitLoop_waited h
  induction h with
  | @answered ch rsp wakes hrsp _ => exact takeResponse_puts ch rsp outRsp
  | @expired ch ch' wake wakes hacts _ =>
      obtain ⟨hputs, -⟩ := hslept hpdu hacts
      exact ⟨hputs.then_nothing (puts_clear ch'), clearPendingCommand_noCommand ch'⟩
  | woken hacts _ ih =>
      obtain ⟨hputs, hnone⟩ := hslept hpdu hacts
      obtain ⟨hrest, hcmd⟩ := ih hnone
      exact ⟨hputs.then_nothing hrest, hcmd⟩

theorem sendCommandNoLock_puts {c : Command} {wakes : List Wake} (hcmd : NoCommand ch)
    (hpdu : c.smsPdu = none) (h : sendCommandNoLock ch c wakes = some sent) :
    Puts ch sent.chan (if ch.isOpen then c.cmd ++ [cr] else []) ∧ NoCommand sent.chan := by
  rw [sendCommandNoLock, startCommand_ok c hcmd.rsp] at h
  have hsetUp : Puts (writeLine ch c.cmd kCtrlEnter).2
      (setUp (writeLine ch c.cmd kCtrlEnter).2 c.type c.rspPrefix c.smsPdu) [] :=
    puts_nothing rfl rfl id
  obtain ⟨hwait, hnone⟩ := waitLoop_puts hpdu h
  exact ⟨(writeLine_puts ch c.cmd kCtrlEnter).then_nothing (hsetUp.then_nothing hwait), hnone⟩

theorem sendCommandFull_puts {c : Command} {wakes : List Wake} (hcmd : NoCommand ch)
    (hpdu : c.smsPdu = none) (h : sendCommandFull ch c wakes = some sent) :
    Puts ch sent.chan (if ch.isOpen then c.cmd ++ [cr] else []) ∧ NoCommand sent.chan := by
  rw [sendCommandFull, Option.bind_eq_bind, Option.bind_eq_some_iff] at h
  obtain ⟨inner, hinner, h⟩ := h
  obtain ⟨hputs, hnone⟩ := sendCommandNoLock_puts hcmd hpdu hinner
  split at h
  · cases h
    exact ⟨hputs.then_nothing (puts_nothing rfl rfl id), hnone.rsp, hnone.rspPrefix, hnone.smsPdu⟩
  · cases h
    exact ⟨hputs, hnone⟩

end Command

end Mobile.Channel.Proofs.CommandLines
