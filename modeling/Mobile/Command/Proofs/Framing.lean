import Mobile.Channel.Proofs.CommandLines
import Mobile.Channel.Proofs.Reporting
import Mobile.Command.Proofs.Dispatch
import Mobile.ProofSupport.Decimal
import Mobile.ProofSupport.Lines

/-!
# The manager's commands on the wire

Every command an operation sends begins with `AT`, and it holds a carriage return only
where a text of the caller holds one.  Served by the channel one after another, the
commands are what a modem reads that cuts its input at carriage returns.
-/

namespace Mobile.Command.Proofs.Framing

open Mobile.ProofSupport.Lines Mobile.ProofSupport.Decimal
open Mobile.ProofSupport.Memory (cString)
open Mobile.Token.Scan Mobile.Token.Tokenizer Mobile.Channel.ReadLine Mobile.Channel.Types
open Mobile.Channel.SendCommand Mobile.Channel.Entries
open Mobile.Channel.Proofs.WriteSpec Mobile.Channel.Proofs.Log Mobile.Channel.Proofs.Units
open Mobile.Channel.Proofs.CommandLines
open Mobile.Channel.Proofs.Reporting (requireIntermediate_chan)
open Mobile.Command.Callbacks Mobile.Command.Slots Mobile.Command.Operations
open Mobile.Command.Manager
open Mobile.Command.Proofs.Effects (bind_ok bind_error)
open Mobile.Command.Proofs.Dispatch

def cmdOf : Call → Line
  | .command cmd _ => cmd
  | .singleLine cmd _ => cmd
  | .multiLine cmd _ => cmd

def ATCommand (cmd : Line) : Prop := text "AT" <+: cmd ∧ cr ∉ cmd

instance (cmd : Line) : Decidable (ATCommand cmd) := inferInstanceAs (Decidable (_ ∧ _))

def Framed : OpEvent → Prop
  | .sent call _ => ATCommand (cmdOf call)
  | _ => True

/-! ### Without the slots -/

def OpFrames {α : Type} (y : Op α) : Prop :=
  ∀ w, ∃ new, (y.run w).2.trace = w.trace ++ new ∧ ∀ ev ∈ new, Framed ev

section Op

variable {α β : Type}

theorem opFrames_pure (a : α) : OpFrames (pure a : Op α) :=
  fun _ => ⟨[], (List.append_nil _).symm, by simp⟩

theorem OpFrames.bind {y : Op α} {f : α → Op β} (hy : OpFrames y) (hf : ∀ a, OpFrames (f a)) :
    OpFrames (y >>= f) := by
  intro w
  obtain ⟨new, hnew, hok⟩ := hy w
  cases hrun : y.run w with
  | mk res w' =>
      rw [hrun] at hnew
      cases res with
      | error c =>
          rw [bind_error hrun]
          exact ⟨new, hnew, hok⟩
      | ok a =>
          rw [bind_ok hrun]
          obtain ⟨new', hnew', hok'⟩ := hf a w'
          refine ⟨new ++ new', ?_, List.forall_mem_append.2 ⟨hok, hok'⟩⟩
          rw [hnew', hnew, List.append_assoc]

theorem opFrames_log {ev : OpEvent} (h : Framed ev) : OpFrames (Op.log ev) :=
  fun _ => ⟨[ev], rfl, by simpa using h⟩

theorem opFrames_tested (ret : Int) (failed : Bool) : OpFrames (Op.log (.tested ret failed)) :=
  opFrames_log trivial

theorem opFrames_modemMatch (name : Line) : OpFrames (Op.log (.modemMatch name)) :=
  opFrames_log trivial

theorem opFrames_crash (c : Crash) : OpFrames (Op.crash c : Op α) :=
  fun _ => ⟨[], (List.append_nil _).symm, by simp⟩

theorem opFrames_tok (x : Option α) : OpFrames (tok x) := by
  cases x with
  | none => exact opFrames_crash _
  | some a => exact opFrames_pure a

theorem opFrames_deref (p : Ptr) : OpFrames (deref p) := by
  cases p with
  | unassigned => exact opFrames_crash _
  | null => exact opFrames_crash _
  | resp id r =>
      intro w
      unfold deref
      dsimp only
      split <;> exact ⟨[.use id], rfl, by simp [Framed]⟩

theorem opFrames_freeResp (p : Ptr) : OpFrames (freeResp p) := by
  cases p with
  | unassigned => exact opFrames_crash _
  | null => exact opFrames_pure ()
  | resp id r => exact opFrames_log trivial

theorem opFrames_failed (c : Prop) [Decidable c] (ret : Int) (p : Ptr) : OpFrames (do
    let failed ← if c then pure true else do
      let r ← deref p
      pure (r.success == 0)
    Op.log (.tested ret failed)
    return failed) := by
  split
  · exact (opFrames_pure true).bind fun _ => (opFrames_tested _ _).bind fun _ => opFrames_pure _
  · exact (opFrames_deref p).bind fun _ => (opFrames_pure _).bind fun _ =>
      (opFrames_tested _ _).bind fun _ => opFrames_pure _

theorem opFrames_failedReply (ret : Int) (p : Ptr) : OpFrames (failedReply ret p) :=
  opFrames_failed (ret < 0) ret p

theorem opFrames_nonzeroReply (ret : Int) : OpFrames (nonzeroReply ret) :=
  (opFrames_tested _ _).bind fun _ => opFrames_pure _

theorem opFrames_firstLine (p : Ptr) : OpFrames (firstLine p) := by
  refine (opFrames_deref p).bind fun r => ?_
  split
  · exact opFrames_pure _
  · exact opFrames_crash _

theorem opFrames_send {call : Call} (h : ATCommand (cmdOf call)) (p : Ptr) :
    OpFrames (send call p) := by
  intro w
  cases hout : (w.replies w.sent).out with
  | unassigned =>
      rw [Effects.send_unassigned hout]
      exact ⟨_, rfl, by simpa [Framed] using h⟩
  | null =>
      rw [Effects.send_null hout]
      exact ⟨_, rfl, by simpa [Framed] using h⟩
  | resp r =>
      rw [Effects.send_resp hout]
      exact ⟨_, rfl, by simpa [Framed] using h⟩

theorem opFrames_sendOnly {cmd : Line} (h : ATCommand cmd) : OpFrames (sendOnly cmd) :=
  fun w => ⟨[.sent (.command cmd false) (w.replies w.sent)], rfl, by simpa [Framed, cmdOf] using h⟩

end Op

/-! ### Through the slots -/

def Frames {α : Type} (x : Via α) : Prop :=
  ∀ d, ∃ new, (x.run d).2.world.trace = d.world.trace ++ new ∧ ∀ ev ∈ new, Framed ev

section Via

variable {α β : Type}

theorem frames_pure (a : α) : Frames (pure a : Via α) :=
  fun _ => ⟨[], (List.append_nil _).symm, by simp⟩

theorem Frames.bind {x : Via α} {f : α → Via β} (hx : Frames x) (hf : ∀ a, Frames (f a)) :
    Frames (x >>= f) := by
  intro d
  obtain ⟨new, hnew, hok⟩ := hx d
  cases hrun : x.run d with
  | mk res d' =>
      rw [hrun] at hnew
      cases res with
      | error e =>
          rw [via_bind_error hrun]
          exact ⟨new, hnew, hok⟩
      | ok a =>
          rw [via_bind_ok hrun]
          obtain ⟨new', hnew', hok'⟩ := hf a d'
          refine ⟨new ++ new', ?_, List.forall_mem_append.2 ⟨hok, hok'⟩⟩
          rw [hnew', hnew, List.append_assoc]

theorem Frames.ite {c : Prop} [Decidable c] {x y : Via α} (hx : Frames x) (hy : Frames y) :
    Frames (if c then x else y) := by
  split
  · exact hx
  · exact hy

theorem frames_lift {y : Op α} (hy : OpFrames y) : Frames (Via.lift y) := by
  intro d
  obtain ⟨new, hnew, hok⟩ := hy d.world
  cases hrun : y.run d.world with
  | mk res w =>
      rw [hrun] at hnew
      cases res with
      | ok a =>
          rw [lift_ok hrun]
          exact ⟨new, hnew, hok⟩
      | error c =>
          rw [lift_error hrun]
          exact ⟨new, hnew, hok⟩

theorem frames_invoke (slot : Slot) : Frames (Via.invoke slot) := by
  intro d
  cases hslot : d.slots slot with
  | none =>
      rw [invoke_none hslot]
      exact ⟨[], (List.append_nil _).symm, by simp⟩
  | some fn =>
      rw [invoke_some hslot]
      exact ⟨[], (List.append_nil _).symm, by simp⟩

theorem frames_sendVia {call : Call} (h : ATCommand (cmdOf call)) (rsp : Ptr) :
    Frames (sendVia call rsp) :=
  (frames_invoke _).bind fun _ => frames_lift (opFrames_send h rsp)

theorem frames_sendCommand {cmd : Line} (h : ATCommand cmd) : Frames (sendCommand cmd) :=
  (frames_invoke _).bind fun _ => frames_lift (opFrames_sendOnly h)

theorem frames_freeVia (rsp : Ptr) : Frames (freeVia rsp) :=
  (frames_invoke _).bind fun _ => frames_lift (opFrames_freeResp rsp)

theorem frames_cmeVia (rsp : Ptr) : Frames (cmeVia rsp) :=
  (frames_invoke _).bind fun _ =>
    frames_lift ((opFrames_deref rsp).bind fun _ => opFrames_tok _)

theorem frames_freed (rsp : Ptr) (a : α) : Frames (do freeVia rsp; return a) :=
  (frames_freeVia rsp).bind fun _ => frames_pure a

theorem frames_query {store : Int → Int} {cmd rspPrefix : Line} {rsp : Ptr} {failure : α}
    {read : Ptr → Line → Via α} (hcmd : ATCommand cmd)
    (hread : ∀ rsp line, Frames (read rsp line)) :
    Frames (query store cmd rspPrefix rsp failure read) :=
  (frames_sendVia (show ATCommand (cmdOf (.singleLine cmd rspPrefix)) from hcmd) rsp).bind fun r =>
    (frames_lift (opFrames_failedReply _ _)).bind fun _ =>
    (frames_freed r.2 failure).ite
      ((frames_lift (opFrames_firstLine _)).bind fun line => hread r.2 line)

theorem frames_sendAll {cmds : List String} (h : ∀ cmd ∈ cmds, ATCommand (text cmd)) :
    Frames (sendAll cmds) := by
  induction cmds with
  | nil => exact frames_pure ()
  | cons cmd cmds ih =>
      exact (frames_sendCommand (h cmd (by simp))).bind fun _ =>
        ih fun cmd' hcmd' => h cmd' (by simp [hcmd'])

theorem frames_sendAll_then {cmds : List String} (h : ∀ cmd ∈ cmds, ATCommand (text cmd)) (a : α) :
    Frames (do sendAll cmds; return a) :=
  (frames_sendAll h).bind fun _ => frames_pure a

theorem frames_sendEither {first second : Line} (hfirst : ATCommand first)
    (hsecond : ATCommand second) : Frames (sendEither first second) :=
  (frames_sendCommand hfirst).bind fun _ => (frames_sendCommand hsecond).ite (frames_pure _)

theorem frames_sendEither_then {first second : Line} (hfirst : ATCommand first)
    (hsecond : ATCommand second) (f : Int → α) :
    Frames (do let ret ← sendEither first second; return f ret) :=
  (frames_sendEither hfirst hsecond).bind fun _ => frames_pure _

theorem frames_sendCommand_then {cmd : Line} (h : ATCommand cmd) (f : Int → α) :
    Frames (do let ret ← sendCommand cmd; return f ret) :=
  (frames_sendCommand h).bind fun _ => frames_pure _

end Via

/-! ### Texts of the caller -/

theorem ATCommand.append {cmd t : Line} (hcmd : ATCommand cmd) (ht : cr ∉ t) :
    ATCommand (cmd ++ t) := by
  refine ⟨hcmd.1.trans (List.prefix_append _ _), ?_⟩
  rw [List.mem_append]
  rintro (hmem | hmem)
  · exact hcmd.2 hmem
  · exact ht hmem

/-- What `snprintf` cuts is still a command. -/
theorem ATCommand.snprintf {size : Nat} {cmd : Line} (hcmd : ATCommand cmd) (hsize : 2 < size) :
    ATCommand (Manager.snprintf size cmd) := by
  refine ⟨?_, fun hmem => hcmd.2 (List.mem_of_mem_take hmem)⟩
  rw [Manager.snprintf, List.prefix_take_iff]
  refine ⟨hcmd.1, ?_⟩
  have hlen : (text "AT").length = 2 := rfl
  omega

theorem cr_not_mem_cString {s : Line} (h : cr ∉ s) : cr ∉ cString s :=
  fun hmem => h (List.takeWhile_subset _ hmem)

theorem cr_not_mem_int (n : Int) : cr ∉ text (toString n) := by
  intro hmem
  obtain ⟨c, hc, hcr⟩ := List.mem_map.1 hmem
  rcases minus_or_digitByte_of_mem_int hc with rfl | hdigit
  · exact absurd hcr (by decide)
  · rw [hcr] at hdigit
    exact absurd hdigit.1 (by decide)

theorem command_int {cmd : String} (hcmd : ATCommand (text cmd)) (n : Int) :
    ATCommand (text (cmd ++ toString n)) := by
  rw [text_append]
  exact hcmd.append (cr_not_mem_int n)

/-! ### The operations -/

section Operations

theorem frames_initModem : Frames initModem := by
  refine (frames_sendAll ?_).bind fun _ => (frames_sendVia (by decide) _).bind fun r =>
    (frames_lift (opFrames_failedReply _ _)).bind fun failed => ?_
  · decide
  have hlast : Frames (do
      freeVia r.2
      sendAll ["AT+CGREG=1", "AT+CCWA=1", "AT+CMOD=0", "AT+CSSN=0,1", "AT+COLP=0", "AT+CUSD=1",
        "AT+CGEREP=1,0", "AT+CMGF=0"]
      return r.1 == 0) :=
    (frames_freeVia _).bind fun _ => frames_sendAll_then (by decide) _
  split
  · exact (frames_sendAll (by decide)).bind fun _ => hlast
  · exact hlast

theorem frames_readModel (rsp : Ptr) (line : Line) : Frames (readModel rsp line) :=
  (frames_freed _ _).ite ((frames_lift (opFrames_tok _)).bind fun _ =>
    (frames_freed _ _).ite ((frames_lift (opFrames_modemMatch _)).bind fun _ => frames_freed _ _))

theorem frames_readRadio (rsp : Ptr) (line : Line) : Frames (readRadio rsp line) :=
  (frames_freed _ _).ite ((frames_lift (opFrames_tok _)).bind fun _ =>
    (frames_freed _ _).ite (frames_freed _ _))

theorem frames_readNet3GPP (rsp : Ptr) (line : Line) : Frames (readNet3GPP rsp line) :=
  (frames_freed _ _).ite ((frames_lift (opFrames_tok _)).bind fun _ =>
    (frames_freed _ _).ite (frames_freed _ _))

theorem frames_getRadioState : Frames getRadioState := frames_query (by decide) frames_readRadio

theorem frames_setRadioState (cfun : Int) : Frames (setRadioState cfun) := by
  refine frames_getRadioState.bind fun _ => (frames_pure _).ite ?_
  rw [setRadioLoop_five]
  exact (frames_pure _).bind fun _ => frames_freed _ _

theorem frames_readCpin (rsp : Ptr) (line : Line) : Frames (readCpin rsp line) :=
  (frames_freed _ _).ite ((frames_lift (opFrames_tok _)).bind fun _ =>
    (frames_freed _ _).ite (frames_freed _ _))

theorem frames_readSIM (rsp : Ptr) : Frames (readSIM rsp) :=
  (frames_cmeVia rsp).bind fun _ =>
    ((frames_lift (opFrames_firstLine _)).bind fun _ => frames_readCpin _ _).ite
      ((frames_freed _ _).ite (frames_freed _ _))

theorem frames_getSIMStatus : Frames getSIMStatus :=
  (frames_sendVia (by decide) _).bind fun _ =>
    (frames_lift (opFrames_nonzeroReply _)).bind fun _ =>
      ((frames_sendVia (by decide) _).bind fun _ =>
        (frames_lift (opFrames_nonzeroReply _)).bind fun _ =>
          (frames_freed _ _).ite (frames_readSIM _)).ite (frames_readSIM _)

theorem frames_disableEhrpd (rsp : Ptr) (value : Option Int) : Frames (disableEhrpd rsp value) :=
  (frames_freed _ _).ite ((frames_sendVia (by decide) _).bind fun _ =>
    (frames_lift (opFrames_failedReply _ _)).bind fun _ =>
      (frames_freed _ _).ite (frames_freed _ _))

theorem frames_readEhrpd (rsp : Ptr) (line : Line) : Frames (readEhrpd rsp line) :=
  (frames_freed _ _).ite ((frames_lift (opFrames_tok _)).bind fun _ =>
    (frames_freed _ _).ite ((frames_freeVia _).bind fun _ => frames_disableEhrpd _ _))

theorem frames_apnLines (rsp : Ptr) (lines : List Line) : Frames (apnLines rsp lines) := by
  induction lines with
  | nil => exact frames_freed _ _
  | cons line lines ih =>
      exact (frames_lift (opFrames_tok _)).bind fun _ => ih.ite (frames_freed _ _)

theorem frames_getAPNS : Frames getAPNS := by
  refine (frames_sendVia (by decide) _).bind fun r => ?_
  refine (frames_lift (opFrames_failed (r.1 ≠ 0) r.1 r.2)).bind fun failed => ?_
  refine (frames_pure _).ite ?_
  exact (frames_lift (opFrames_deref _)).bind fun _ => frames_apnLines _ _

theorem frames_setChipErrorLevel (level : Int) : Frames (setChipErrorLevel level) := by
  have hcmd : ATCommand (text ("AT+CMEE=" ++ toString level)) := command_int (by decide) level
  exact frames_sendCommand_then (hcmd.snprintf (by decide)) _

theorem frames_setSIMUnlockPinCode {pincode : Line} (h : cr ∉ pincode) :
    Frames (setSIMUnlockPinCode pincode) := by
  have hcmd : ATCommand (text "AT+CPIN=\"" ++ cString pincode ++ text "\"") :=
    (ATCommand.append (by decide) (cr_not_mem_cString h)).append (by decide)
  exact frames_sendCommand_then (hcmd.snprintf (by decide)) _

theorem frames_setNewPinCode {oldcode newcode : Line} (hold : cr ∉ oldcode) (hnew : cr ∉ newcode) :
    Frames (setNewPinCode oldcode newcode) := by
  have hcmd : ATCommand (text "AT+CPIN=\"" ++ cString oldcode ++ text "\",\"" ++
      cString newcode ++ text "\"") :=
    (((ATCommand.append (by decide) (cr_not_mem_cString hold)).append (by decide)).append
      (cr_not_mem_cString hnew)).append (by decide)
  exact frames_sendCommand_then (hcmd.snprintf (by decide)) _

theorem frames_setAPNS {apn2 : Line} (h : cr ∉ apn2) : Frames (setAPNS apn2) := by
  have hcmd : ATCommand (text "AT+cgdcont=2,\"ip\",\"" ++ apn2 ++ text "\"") :=
    (ATCommand.append (by decide) h).append (by decide)
  exact frames_sendCommand_then (hcmd.snprintf (by decide)) _

theorem frames_setAuthInfo {szPassword szUsername : Line} (hpass : cr ∉ szPassword)
    (huser : cr ∉ szUsername) : Frames (setAuthInfo szPassword szUsername) := by
  have hcmd : ATCommand (text "AT^AUTHDATA=1,2,\"\",\"" ++ szPassword ++ text "\",\"" ++
      szUsername ++ text "\"") :=
    (((ATCommand.append (by decide) hpass).append (by decide)).append huser).append (by decide)
  exact frames_sendCommand_then (hcmd.snprintf (by decide)) _

theorem frames_setPDPStatus (pdpStatus : UInt32) : Frames (setPDPStatus pdpStatus) := by
  have hcmd : ATCommand (text ("AT+CGACT=" ++ toString (toInt pdpStatus.toNat) ++ ",1")) := by
    rw [text_append]
    exact (command_int (by decide) _).append (by decide)
  exact frames_sendCommand_then (hcmd.snprintf (by decide)) _

theorem frames_getNetStatus (type : NetWorkType) : Frames (getNetStatus type) := by
  cases type with
  | network5G => exact frames_pure _
  | _ => exact frames_sendAll_then (by decide) _

theorem frames_setSMSStorageArea : Frames setSMSStorageArea := by
  have hcmds : ∀ cmd ∈ ["AT+CPMS=\"ME\",\"ME\",\"ME\""], ATCommand (text cmd) := by decide
  exact frames_sendAll_then hcmds _

end Operations

/-- The texts that an operation takes from its caller hold no carriage return. -/
def Plain : Request → Prop
  | .setSIMUnlockPinCode pincode => cr ∉ pincode
  | .setNewPinCode oldcode newcode => cr ∉ oldcode ∧ cr ∉ newcode
  | .setAPNS apn2 => cr ∉ apn2
  | .setAuthInfo szPassword szUsername => cr ∉ szPassword ∧ cr ∉ szUsername
  | _ => True

theorem frames_withoutResult {α : Type} {x : Via α} (hx : Frames x) : Frames (withoutResult x) :=
  hx.bind fun _ => frames_pure _

theorem perform_frames {r : Request} (h : Plain r) : Frames r.perform := by
  cases r with
  | initModem => exact frames_withoutResult frames_initModem
  | getModem => exact frames_withoutResult (frames_query (by decide) frames_readModel)
  | getRadioState => exact frames_withoutResult frames_getRadioState
  | setRadioState cfun => exact frames_withoutResult (frames_setRadioState cfun)
  | setChipErrorLevel level => exact frames_withoutResult (frames_setChipErrorLevel level)
  | getSIMStatus => exact frames_withoutResult frames_getSIMStatus
  | getSIMLock =>
      exact frames_withoutResult (frames_sendEither_then (by decide) (by decide) _)
  | setSIMUnlockPinCode pincode => exact frames_withoutResult (frames_setSIMUnlockPinCode h)
  | setNewPinCode oldcode newcode => exact frames_withoutResult (frames_setNewPinCode h.1 h.2)
  | setEhrpd => exact frames_withoutResult (frames_query (by decide) frames_readEhrpd)
  | getNet3GPP => exact frames_withoutResult (frames_query (by decide) frames_readNet3GPP)
  | getNetStatus type => exact frames_withoutResult (frames_getNetStatus type)
  | setPDPStatus pdpStatus => exact frames_withoutResult (frames_setPDPStatus pdpStatus)
  | setSMSStorageArea => exact frames_withoutResult frames_setSMSStorageArea
  | setSMSFormat =>
      exact frames_withoutResult (frames_sendEither_then (by decide) (by decide) _)
  | hasSMS =>
      exact frames_withoutResult (frames_sendEither_then (by decide) (by decide) _)
  | setAPNS apn2 => exact frames_withoutResult (frames_setAPNS h)
  | getAPNS => exact frames_withoutResult frames_getAPNS
  | setAuthInfo szPassword szUsername => exact frames_withoutResult (frames_setAuthInfo h.1 h.2)
  | setSignalNotify =>
      exact frames_withoutResult (frames_sendEither_then (by decide) (by decide) _)
  | getOperator => exact frames_withoutResult (frames_pure _)
  | getNetSearchType => exact frames_withoutResult (frames_pure _)
  | setNetSearchType => exact frames_withoutResult (frames_pure _)
  | setTTS => exact frames_withoutResult (frames_pure _)
  | _ =>
      refine frames_withoutResult (frames_sendAll_then ?_ _)
      decide

/-! ### Served by the channel -/

/-- The channel serves the calls one after another, and the reader goes on between them;
so many of the calls are begun while it is open. -/
inductive Serves : ATChannel → List (Call × Reply) → Nat → ATChannel → Prop
  | done {ch ch' : ATChannel} {acts : List Act} (hacts : acts.foldlM Act.run ch = some ch') :
      Serves ch [] 0 ch'
  | call {ch ch₁ ch' : ATChannel} {acts : List Act} {wakes : List Wake} {call : Call} {sent : Sent}
      {calls : List (Call × Reply)} {begun : Nat} (hacts : acts.foldlM Act.run ch = some ch₁)
      (hsend : call.send ch₁ wakes = some sent) (hrest : Serves sent.chan calls begun ch') :
      Serves ch ((call, ⟨sent.ret, sent.out⟩) :: calls)
        (begun + if ch₁.isOpen then 1 else 0) ch'

theorem serves_nil (ch : ATChannel) : Serves ch [] 0 ch :=
  .done (show ([] : List Act).foldlM Act.run ch = some ch from rfl)

theorem call_puts {ch : ATChannel} {call : Call} {wakes : List Wake} {sent : Sent}
    (hcmd : NoCommand ch) (h : call.send ch wakes = some sent) :
    Puts ch sent.chan (if ch.isOpen then cmdOf call ++ [cr] else []) ∧ NoCommand sent.chan := by
  cases call with
  | command cmd outRsp => exact sendCommandFull_puts hcmd rfl h
  | singleLine cmd rspPrefix =>
      rw [Call.send, sendCommandSingleLine, Option.map_eq_some_iff] at h
      obtain ⟨inner, hinner, rfl⟩ := h
      rw [requireIntermediate_chan]
      exact sendCommandFull_puts hcmd rfl hinner
  | multiLine cmd rspPrefix => exact sendCommandFull_puts hcmd rfl h

/-- On the wire are the commands begun on the open channel, one line each: all of them, if
it was not closed. -/
theorem serves_puts {ch ch' : ATChannel} {calls : List (Call × Reply)} {n : Nat}
    (h : Serves ch calls n ch') (hcmd : NoCommand ch) :
    (ch'.isOpen = true → n = calls.length) ∧ (ch.isOpen = false → n = 0) ∧
      Puts ch ch' (((calls.map fun p => cmdOf p.1).take n).flatMap (· ++ [cr])) := by
  induction h with
  | done hacts => exact ⟨fun _ => rfl, fun _ => rfl, (acts_puts hcmd.smsPdu hacts).1⟩
  | @call ch ch₁ ch' acts wakes call sent calls n hacts hsend hrest ih =>
      obtain ⟨hbefore, -⟩ := acts_puts hcmd.smsPdu hacts
      obtain ⟨hcall, hnone⟩ := call_puts (acts_idle hcmd hacts) hsend
      obtain ⟨hall, hclosed, hputs⟩ := ih hnone
      cases hopen : ch₁.isOpen with
      | true =>
          refine ⟨fun hlast => congrArg (· + 1) (hall hlast), fun hstart => ?_, ?_⟩
          · rw [hbefore.opened hopen] at hstart
            cases hstart
          · rw [if_pos hopen] at hcall
            simp only [if_true]
            rw [List.map_cons, List.take_succ_cons, List.flatMap_cons]
            exact (hbefore.trans hcall).trans hputs
      | false =>
          have hshut : sent.chan.isOpen = false := by
            by_contra hne
            rw [hcall.opened (by simpa using hne)] at hopen
            cases hopen
          obtain rfl := hclosed hshut
          refine ⟨fun hlast => ?_, fun _ => rfl, ?_⟩
          · rw [hputs.opened hlast] at hshut
            cases hshut
          · rw [if_neg (by simp [hopen])] at hcall
            exact (hbefore.trans hcall).trans hputs

def callsOf (trace : List OpEvent) : List (Call × Reply) :=
  trace.filterMap fun ev =>
    match ev with
    | .sent call reply => some (call, reply)
    | _ => none

def sessionCalls (slots : Bindings) (requests : List (Request × (Nat → Reply))) :
    List (Call × Reply) :=
  requests.flatMap fun q => callsOf (q.1.perform.run ⟨slots, ⟨q.2, 0, []⟩, []⟩).2.world.trace

theorem sessionCalls_commands (slots : Bindings) {requests : List (Request × (Nat → Reply))}
    (hplain : ∀ q ∈ requests, Plain q.1) :
    ∀ l ∈ (sessionCalls slots requests).map fun p => cmdOf p.1, ATCommand l := by
  intro l hl
  obtain ⟨p, hp, rfl⟩ := List.mem_map.1 hl
  obtain ⟨q, hq, hcall⟩ := List.mem_flatMap.1 hp
  obtain ⟨ev, hev, hsent⟩ := List.mem_filterMap.1 hcall
  obtain ⟨new, hnew, hframed⟩ := perform_frames (hplain q hq) ⟨slots, ⟨q.2, 0, []⟩, []⟩
  rw [hnew, List.nil_append] at hev
  have hok := hframed ev hev
  cases ev with
  | sent call reply =>
      cases hsent
      exact hok
  | _ => cases hsent

/-- Whatever the operations are and however they are answered, what goes out, cut at
carriage returns, is the commands begun while the channel was open, each beginning with
`AT`. -/
theorem session_framed (slots : Bindings) (requests : List (Request × (Nat → Reply)))
    (hplain : ∀ q ∈ requests, Plain q.1) (ch ch' : ATChannel) (hcmd : NoCommand ch) (n : Nat)
    (hserves : Serves ch (sessionCalls slots requests) n ch')
    (hwrites : Unfailing (newEvents ch ch')) :
    (ch'.isOpen = true → n = (sessionCalls slots requests).length) ∧
      completeLines (· == cr) (onWire (newEvents ch ch')) =
        ((sessionCalls slots requests).map fun p => cmdOf p.1).take n ∧
      (completeLines (· == cr) (onWire (newEvents ch ch'))).flatMap (· ++ [cr]) =
        onWire (newEvents ch ch') ∧
      ∀ l ∈ completeLines (· == cr) (onWire (newEvents ch ch')), text "AT" <+: l := by
  obtain ⟨hall, -, hputs⟩ := serves_puts hserves hcmd
  obtain ⟨new, hnew, hwire⟩ := hputs.log
  have hevents : newEvents ch ch' = new := by simp [newEvents, hnew]
  rw [hevents] at hwrites ⊢
  have hcommands : ∀ l ∈ ((sessionCalls slots requests).map fun p => cmdOf p.1).take n,
      ATCommand l :=
    fun l hl => sessionCalls_commands slots hplain l (List.mem_of_mem_take hl)
  have hlines : completeLines (· == cr) (onWire new) =
      ((sessionCalls slots requests).map fun p => cmdOf p.1).take n := by
    rw [hwire hwrites]
    refine completeLines_flatMap (fun l hl hnil => ?_) (fun l hl d hd => ?_) (by simp)
    · have hat := (hcommands l hl).1
      rw [hnil, List.prefix_nil] at hat
      exact absurd hat (by decide)
    · rw [beq_eq_false_iff_ne]
      rintro rfl
      exact (hcommands l hl).2 hd
  rw [hlines]
  exact ⟨hall, rfl, (hwire hwrites).symm, fun l hl => (hcommands l hl).1⟩

/-- The radio state, asked for after a ring and written in three pieces. -/
theorem session_framed_cfun : ∃ ch',
    Serves (.opened 3 [.wrote 4, .failed .eintr]) (sessionCalls (registerATCommandCb noSlots)
      [(.getRadioState, fun _ => ⟨0, .resp ⟨1, some (text "OK"), [text "+CFUN: 1"]⟩⟩)]) 1 ch' ∧
    completeLines (· == cr) (onWire (newEvents (.opened 3 [.wrote 4, .failed .eintr]) ch')) =
      [text "AT+CFUN?"] := by
  have hring : [Act.processLine (text "RING")].foldlM Act.run
      (.opened 3 [.wrote 4, .failed .eintr]) = some _ := rfl
  have hsend : (Call.singleLine (text "AT+CFUN?") (text "+CFUN:")).send
      ((ATChannel.opened 3 [.wrote 4, .failed .eintr]).log (.unsolHandler (text "RING") none))
      [⟨[.processLine (text "+CFUN: 1"), .processLine (text "OK")], 0⟩] =
      some ⟨0, .resp ⟨1, some (text "OK"), [text "+CFUN: 1"]⟩, _⟩ := rfl
  have hserves := Serves.call hring hsend (serves_nil _)
  obtain ⟨-, hlines, -⟩ := session_framed (registerATCommandCb noSlots)
    [(.getRadioState, fun _ => ⟨0, .resp ⟨1, some (text "OK"), [text "+CFUN: 1"]⟩⟩)]
    (by simp [Plain]) _ _ ⟨rfl, rfl, rfl⟩ 1 hserves (by decide)
  exact ⟨_, hserves, hlines⟩

end Mobile.Command.Proofs.Framing
