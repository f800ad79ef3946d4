import Mobile.Command.Proofs.Effects
import Mobile.Command.Proofs.Replies

/-!
# The runs of the operations

The trace of each operation for each kind of reply, from the effects of its parts.
-/

namespace Mobile.Command.Proofs.Evaluation

open Mobile.Token.Scan Mobile.Token.Tokenizer Mobile.Channel.Types Mobile.Channel.SendCommand
open Mobile.Command.Callbacks Mobile.Command.Operations
open Mobile.Command.Proofs.Effects Mobile.Command.Proofs.Replies

def start (replies : Nat → Reply) : World := ⟨replies, 0, []⟩

@[simp] theorem start_replies (replies : Nat → Reply) : (start replies).replies = replies := rfl

@[simp] theorem start_sent (replies : Nat → Reply) : (start replies).sent = 0 := rfl

@[simp] theorem start_trace (replies : Nat → Reply) : (start replies).trace = [] := rfl

/-- Every command of a trace is answered as the channel can answer it. -/
def ChannelReplies (trace : List OpEvent) : Prop :=
  ∀ call reply, .sent call reply ∈ trace → Producible call reply

theorem replied_of_sent {trace : List OpEvent} {call : Call} {reply : Reply}
    (h : ChannelReplies trace) (hout : call.outRsp = true) (hmem : .sent call reply ∈ trace) :
    Replied call reply :=
  replied_of_producible hout (h call reply hmem)

/-! ### The trace only grows -/

theorem grows_freed {α : Type} (p : Ptr) (a : α) :
    Grows (do freeResp p; return a : Op α) :=
  (grows_freeResp p).bind fun _ => grows_pure a

theorem grows_readModel (p : Ptr) (line : Line) : Grows (readModel p line) :=
  (grows_freed p false).ite ((grows_tok _).bind fun _ =>
    (grows_freed p false).ite ((grows_log _).bind fun _ => grows_freed p true))

theorem grows_readRadio (p : Ptr) (line : Line) : Grows (readRadio p line) :=
  (grows_freed p _).ite ((grows_tok _).bind fun _ => (grows_freed p _).ite (grows_freed p _))

theorem grows_readNet3GPP (p : Ptr) (line : Line) : Grows (readNet3GPP p line) :=
  (grows_freed p _).ite ((grows_tok _).bind fun _ => (grows_freed p _).ite (grows_freed p _))

theorem grows_disabled (a : Int × Ptr) : Grows (do
    if ← failedReply a.1 a.2 then
      freeResp a.2
      return false
    else
      freeResp a.2
      return true) :=
  (grows_failedReply _ _).bind fun _ => (grows_freed _ _).ite (grows_freed _ _)

theorem grows_disableEhrpd (p : Ptr) (value : Option Int) : Grows (disableEhrpd p value) :=
  (grows_freed p _).ite ((grows_send _ _).bind grows_disabled)

theorem grows_readEhrpd (p : Ptr) (line : Line) : Grows (readEhrpd p line) :=
  (grows_freed p _).ite ((grows_tok _).bind fun _ => (grows_freed p _).ite
    ((grows_freeResp p).bind fun _ => grows_disableEhrpd p _))

theorem grows_readCpin (p : Ptr) (line : Line) : Grows (readCpin p line) :=
  (grows_freed p _).ite ((grows_tok _).bind fun _ => (grows_freed p _).ite (grows_freed p _))

theorem grows_readSIM (p : Ptr) : Grows (readSIM p) :=
  (grows_cmeError p).bind fun _ =>
    ((grows_firstLine p).bind (grows_readCpin p)).ite ((grows_freed p _).ite (grows_freed p _))

theorem grows_nonzeroReply (ret : Int) : Grows (nonzeroReply ret) :=
  (grows_log _).bind fun _ => grows_pure _

theorem query_replied {α : Type} {store : Int → Int} {cmd pre : Line} {p : Ptr} {failure : α}
    {read : Ptr → Line → Op α} {w : World} (hread : ∀ p line, Grows (read p line))
    (h : ChannelReplies ((query store cmd pre p failure read).run w).2.trace) :
    Replied (.singleLine cmd pre) (w.replies w.sent) := by
  refine replied_of_sent h rfl (sent_mem (fun a => ?_) w)
  exact (grows_failedReply _ _).bind fun _ => (grows_freed _ _).ite
    ((grows_firstLine _).bind fun _ => hread _ _)

def lineWorld (replies : Nat → Reply) (store : Int → Int) (cmd pre : Line) : World :=
  sends (start replies) (asked (start replies) store cmd pre false ++ [.use 0])

/-! ### initModem -/

/-- Commands without a response. -/
def Quiet (evs : List OpEvent) : Prop := ∀ ev ∈ evs, ∃ call reply, ev = .sent call reply

theorem sendAll_run (cmds : List String) (w : World) :
    ∃ evs, Quiet evs ∧
      (sendAll cmds).run w = (.ok (), ⟨w.replies, w.sent + cmds.length, w.trace ++ evs⟩) := by
  induction cmds generalizing w with
  | nil => exact ⟨[], by simp [Quiet], by simp [sendAll, pure_run]⟩
  | cons cmd cmds ih =>
      obtain ⟨evs, hquiet, hrun⟩ :=
        ih (sends w [.sent (.command (text cmd) false) (w.replies w.sent)])
      refine ⟨.sent (.command (text cmd) false) (w.replies w.sent) :: evs, ?_, ?_⟩
      · intro ev hev
        rcases List.mem_cons.1 hev with rfl | hev
        · exact ⟨_, _, rfl⟩
        · exact hquiet ev hev
      · have hsend : (Calls.sendOnly (text cmd)).run w = (.ok (w.replies w.sent).ret,
            sends w [.sent (.command (text cmd) false) (w.replies w.sent)]) := rfl
        rw [sendAll, bind_ok hsend, hrun]
        simp only [sends, List.length_cons, List.append_assoc, List.singleton_append]
        rw [Nat.add_assoc, Nat.add_comm 1]

theorem Quiet.fresh {evs : List OpEvent} {id : Nat} (h : Quiet evs) : .free id ∉ evs := by
  intro hmem
  obtain ⟨_, _, hev⟩ := h _ hmem
  cases hev

/-- `initModem` up to `AT+CREG=2`, its sixth command. -/
theorem initModem_before (replies : Nat → Reply) :
    ∃ before, Quiet before ∧ (sendAll ["ATE1", "ATS0=0", "AT+CMEE=1", "AT+NVRW=1,50058,\"01\"",
      "AT+BNDPRF=896,1272,131072"]).run (start replies) = (.ok (), ⟨replies, 5, before⟩) := by
  obtain ⟨before, hbefore, hrun⟩ := sendAll_run ["ATE1", "ATS0=0", "AT+CMEE=1",
    "AT+NVRW=1,50058,\"01\"", "AT+BNDPRF=896,1272,131072"] (start replies)
  exact ⟨before, hbefore, by simpa using hrun⟩

theorem initModem_after (id : Nat) (r : ATResponse) (ret : Int) (failed : Bool) (w : World) :
    ∃ between after : List OpEvent, ∃ n, Quiet between ∧ Quiet after ∧
      (do
        if failed then
          sendAll ["AT+CREG=1"]
        freeResp (.resp id r)
        sendAll ["AT+CGREG=1", "AT+CCWA=1", "AT+CMOD=0", "AT+CSSN=0,1", "AT+COLP=0",
          "AT+CUSD=1", "AT+CGEREP=1,0", "AT+CMGF=0"]
        return ret == 0 : Op Bool).run w = (.ok (ret == 0),
          ⟨w.replies, n, w.trace ++ between ++ [.free id] ++ after⟩) := by
  cases failed with
  | false =>
      obtain ⟨after, hafter, hrun⟩ := sendAll_run ["AT+CGREG=1", "AT+CCWA=1", "AT+CMOD=0",
        "AT+CSSN=0,1", "AT+COLP=0", "AT+CUSD=1", "AT+CGEREP=1,0", "AT+CMGF=0"]
        (logs w [.free id])
      refine ⟨[], after, w.sent + 8, by simp [Quiet], hafter, ?_⟩
      simp only [Bool.false_eq_true, if_false]
      rw [bind_ok freeResp_resp, bind_ok hrun, pure_run]
      simp [logs]
  | true =>
      obtain ⟨between, hbetween, hfirst⟩ := sendAll_run ["AT+CREG=1"] w
      obtain ⟨after, hafter, hrun⟩ := sendAll_run ["AT+CGREG=1", "AT+CCWA=1", "AT+CMOD=0",
        "AT+CSSN=0,1", "AT+COLP=0", "AT+CUSD=1", "AT+CGEREP=1,0", "AT+CMGF=0"]
        (logs ⟨w.replies, w.sent + 1, w.trace ++ between⟩ [.free id])
      refine ⟨between, after, w.sent + 9, hbetween, hafter, ?_⟩
      simp only [if_true]
      rw [bind_ok hfirst, bind_ok freeResp_resp]
      have hlen : w.sent + ["AT+CREG=1"].length = w.sent + 1 := rfl
      rw [hlen, bind_ok hrun, pure_run]
      simp [logs]

theorem initModem_answered {replies : Nat → Reply} {r : ATResponse}
    (hret : 0 ≤ (replies 5).ret) (hout : (replies 5).out = .resp r) :
    ∃ before between after : List OpEvent, ∃ n, Quiet before ∧ Quiet between ∧ Quiet after ∧
      initModem.run (start replies) = (.ok ((replies 5).ret == 0), ⟨replies, n,
        before ++ [.sent (.command (text "AT+CREG=2") true) (replies 5), .handOut 5, .use 5,
          .tested (replies 5).ret (r.success == 0)] ++ between ++ [.free 5] ++ after⟩) := by
  obtain ⟨before, hbefore, hrun⟩ := initModem_before replies
  have hfresh : .free 5 ∉ before := hbefore.fresh
  obtain ⟨between, after, n, hbetween, hafter, htail⟩ := initModem_after 5 r
    (replies 5).ret (r.success == 0)
    (sends ⟨replies, 5, before⟩ [.sent (.command (text "AT+CREG=2") true) (replies 5),
      .handOut 5, .use 5, .tested (replies 5).ret (r.success == 0)])
  refine ⟨before, between, after, n, hbefore, hbetween, hafter, ?_⟩
  have hw : (send (.command (text "AT+CREG=2") true) .null).run ⟨replies, 5, before⟩ = _ :=
    send_resp hout
  rw [initModem, bind_ok hrun]
  simp only [Calls.send, Calls.lift, Calls.freeResp]
  rw [bind_ok hw]
  refine (bind_ok (failedReply_resp hret ?_)).trans ?_
  · simpa using hfresh
  · rw [logs_sends]
    exact htail

theorem initModem_missing {replies : Nat → Reply} (hret : 0 ≤ (replies 5).ret)
    (hout : ∀ r, (replies 5).out ≠ .resp r) :
    ∃ before, Quiet before ∧ initModem.run (start replies) = (.error .nullResponse,
      ⟨replies, 6, before ++ [.sent (.command (text "AT+CREG=2") true) (replies 5)]⟩) := by
  obtain ⟨before, hbefore, hrun⟩ := initModem_before replies
  refine ⟨before, hbefore, ?_⟩
  have hsend : (send (.command (text "AT+CREG=2") true) .null).run ⟨replies, 5, before⟩ =
      (.ok ((replies 5).ret, .null),
        ⟨replies, 6, before ++ [.sent (.command (text "AT+CREG=2") true) (replies 5)]⟩) :=
    send_missing hout
  rw [initModem, bind_ok hrun]
  simp only [Calls.send, Calls.lift]
  rw [bind_ok hsend]
  exact bind_error (failedReply_crash hret rfl)

theorem initModem_replied {replies : Nat → Reply}
    (h : ChannelReplies (initModem.run (start replies)).2.trace) :
    Replied (.command (text "AT+CREG=2") true) (replies 5) := by
  obtain ⟨before, -, hrun⟩ := initModem_before replies
  rw [initModem, bind_ok hrun] at h
  refine replied_of_sent h rfl (sent_mem (fun a => ?_) ⟨replies, 5, before⟩)
  refine (grows_failedReply _ _).bind fun _ => ?_
  have htail : Grows (do
      freeResp a.2
      sendAll ["AT+CGREG=1", "AT+CCWA=1", "AT+CMOD=0", "AT+CSSN=0,1", "AT+COLP=0",
        "AT+CUSD=1", "AT+CGEREP=1,0", "AT+CMGF=0"]
      return a.1 == 0 : Op Bool) :=
    (grows_freeResp _).bind fun _ => (grows_sendAll _).bind fun _ => grows_pure _
  exact ((grows_sendAll _).bind fun _ => htail).ite htail

/-! ### setRadioState -/

/-- The loop is never entered, so nothing follows the first query. -/
theorem setRadioState_run (cfun : Int) (w : World) :
    (setRadioState cfun).run w = ((getRadioState.run w).1.map fun mode => !decide (mode = cfun),
      (getRadioState.run w).2) := by
  cases hrun : getRadioState.run w with
  | mk res w' =>
      cases res with
      | error c => exact bind_error hrun
      | ok mode =>
          refine (bind_ok hrun).trans ?_
          by_cases hmode : mode = cfun
          · rw [if_pos hmode, hmode]
            simp [Except.map, pure_run]
          · rw [if_neg hmode]
            simp only [Except.map, hmode, decide_false, Bool.not_false]
            rfl

/-! ### setEhrpd -/

def ehrpdValue (line : Line) : Option Int := do
  let cur ← (atTokStart (some line)).2
  let (rc, value, _) ← atTokNextBool (some cur)
  if rc < 0 then none else value

theorem atTokNextBool_value {cur rest : Cursor} {rc : Int} {value : Option Int}
    (h : atTokNextBool cur = some (rc, value, rest)) (hrc : ¬ rc < 0) :
    value = some 0 ∨ value = some 1 := by
  simp only [atTokNextBool, Option.bind_eq_bind, Option.bind_eq_some_iff] at h
  obtain ⟨⟨ret, result, cur'⟩, -, h⟩ := h
  split_ifs at h with h1 h2
  · cases h
    exact absurd (by decide) hrc
  · cases h
    exact h2
  · cases h
    exact absurd (by decide) hrc

/-- The four ways of reading the line: the null cursor, no value, off and on. -/
theorem readEhrpd_cases (id : Nat) (r : ATResponse) (line : Line) (w : World) :
    (intReadable line = false ∧ ehrpdValue line = none ∧
      (readEhrpd (.resp id r) line).run w = (.error .nullCursor, w)) ∨
    (intReadable line = true ∧ ehrpdValue line = none ∧
      (readEhrpd (.resp id r) line).run w = (.ok false, logs w [.free id])) ∨
    (intReadable line = true ∧ ehrpdValue line = some 0 ∧
      (readEhrpd (.resp id r) line).run w = (.ok false, logs w [.free id, .free id])) ∨
    (intReadable line = true ∧ ehrpdValue line = some 1 ∧
      (readEhrpd (.resp id r) line).run w =
        (disableEhrpd (.resp id r) (some 1)).run (logs w [.free id])) := by
  unfold readEhrpd ehrpdValue intReadable
  simp only [Calls.lift, Calls.freeResp]
  rcases atTokStart_cases (some line) with h | ⟨s, h⟩
  · rw [h]
    exact .inr (.inl ⟨rfl, rfl, freed_run false⟩)
  rw [h]
  have hsome := atTokNextBool_isSome (some s)
  simp only [Option.all_some, Option.bind_eq_bind, Option.bind_some, ← hsome]
  rw [if_neg (Int.lt_irrefl 0)]
  cases htok : atTokNextBool (some s) with
  | none => exact .inl ⟨rfl, rfl, tok_bind_none rfl⟩
  | some t =>
      obtain ⟨rc, value, rest⟩ := t
      right
      simp only [tok_bind_some rfl, Option.isSome_some, Option.bind_some, true_and]
      by_cases hrc : rc < 0
      · simp only [hrc, if_true, true_and]
        exact .inl (freed_run false)
      · right
        simp only [hrc, if_false, bind_ok freeResp_resp]
        rcases atTokNextBool_value htok hrc with rfl | rfl
        · left
          refine ⟨rfl, ?_⟩
          simp only [disableEhrpd, if_true, Calls.freeResp]
          rw [freed_run, logs_logs]
          rfl
        · exact .inr ⟨rfl, rfl⟩

section Disable

variable {id : Nat} {r r₁ : ATResponse} {w : World}

def disabled (w : World) (failed : Bool) : List OpEvent :=
  [.sent (.command (text "AT+EHRPDENABLE=0") true) (w.replies w.sent), .handOut w.sent,
    .use w.sent, .tested (w.replies w.sent).ret failed, .free w.sent]

theorem disableEhrpd_answered (hret : 0 ≤ (w.replies w.sent).ret)
    (hout : (w.replies w.sent).out = .resp r₁) (hfresh : .free w.sent ∉ w.trace) :
    (disableEhrpd (.resp id r) (some 1)).run w = (.ok (!(r₁.success == 0)),
      sends w (disabled w (r₁.success == 0))) := by
  rw [disableEhrpd, if_neg (by decide)]
  simp only [Calls.send, Calls.lift, Calls.freeResp]
  rw [bind_ok (send_resp hout)]
  refine (bind_ok (failedReply_resp hret (by simpa using hfresh))).trans ?_
  rw [logs_sends]
  cases hr : (r₁.success == 0) with
  | true =>
      rw [if_pos rfl, freed_run, logs_sends]
      rfl
  | false =>
      rw [if_neg (by simp), freed_run, logs_sends]
      rfl

theorem disableEhrpd_null (hret : 0 ≤ (w.replies w.sent).ret)
    (hout : (w.replies w.sent).out = .null) :
    (disableEhrpd (.resp id r) (some 1)).run w = (.error .nullResponse, sends w
      [.sent (.command (text "AT+EHRPDENABLE=0") true) (w.replies w.sent)]) := by
  rw [disableEhrpd, if_neg (by decide)]
  simp only [Calls.send, Calls.lift, Calls.freeResp]
  rw [bind_ok (send_null hout)]
  exact bind_error (failedReply_crash hret rfl)

theorem disableEhrpd_unassigned (hret : 0 ≤ (w.replies w.sent).ret)
    (hout : (w.replies w.sent).out = .unassigned) (hfreed : .free id ∈ w.trace) :
    (disableEhrpd (.resp id r) (some 1)).run w = (.error .freedResponse, sends w
      [.sent (.command (text "AT+EHRPDENABLE=0") true) (w.replies w.sent), .use id]) := by
  rw [disableEhrpd, if_neg (by decide)]
  simp only [Calls.send, Calls.lift, Calls.freeResp]
  rw [bind_ok (send_unassigned hout)]
  refine bind_error (failedReply_crash hret ?_)
  simp [deref, hfreed, World.log, sends]

theorem disableEhrpd_replied {p : Ptr}
    (h : ChannelReplies ((disableEhrpd p (some 1)).run w).2.trace) :
    Replied (.command (text "AT+EHRPDENABLE=0") true) (w.replies w.sent) := by
  rw [disableEhrpd, if_neg (by decide)] at h
  exact replied_of_sent h rfl (sent_mem grows_disabled w)

end Disable

/-! ### getSIMStatus -/

section SIM

variable {id : Nat} {r : ATResponse} {w : World}

def Reads (id : Nat) (evs : List OpEvent) : Prop :=
  ∀ ev ∈ evs, ev = .use id ∨ ∃ name, ev = .modemMatch name

/-- The error code can be read, and behind the code 0 a line with a string. -/
def SimReadable (r : ATResponse) : Prop :=
  ∃ cme, getCmeError r = some cme ∧
    (cme = 0 → ∃ line lines, r.intermediates = line :: lines ∧ strReadable line = true)

theorem simReadable_iff {cme : Int} (h : getCmeError r = some cme) :
    SimReadable r ↔
      (cme = 0 → ∃ line lines, r.intermediates = line :: lines ∧ strReadable line = true) := by
  constructor
  · rintro ⟨cme', h', hline⟩
    cases h.symm.trans h'
    exact hline
  · exact fun hline => ⟨cme, h, hline⟩

theorem readLine_cases (hfresh : .free id ∉ w.trace) :
    (∃ line lines, r.intermediates = line :: lines ∧ strReadable line = true ∧
      ∃ status evs, Reads id evs ∧ (firstLine (.resp id r) >>= readCpin (.resp id r)).run w =
        (.ok status, logs w (evs ++ [.free id]))) ∨
    (∃ line lines, r.intermediates = line :: lines ∧ strReadable line = false ∧
      (firstLine (.resp id r) >>= readCpin (.resp id r)).run w =
        (.error .nullCursor, logs w [.use id])) ∨
    (r.intermediates = [] ∧ (firstLine (.resp id r) >>= readCpin (.resp id r)).run w =
      (.error .nullIntermediates, logs w [.use id])) := by
  cases hlines : r.intermediates with
  | nil => exact .inr (.inr ⟨rfl, bind_error (firstLine_nil hlines hfresh)⟩)
  | cons line lines =>
      rw [bind_ok (firstLine_cons hlines hfresh)]
      have hfin : Finishes (readCpin (.resp id r) line) id (strReadable line) :=
        readCpin_finishes line
      have hrun := hfin (logs w [.use id])
      cases hread : strReadable line with
      | true =>
          rw [hread, if_pos rfl] at hrun
          obtain ⟨status, names, hrun⟩ := hrun
          refine .inl ⟨line, lines, rfl, hread, status, .use id :: names.map .modemMatch, ?_, ?_⟩
          · simp [Reads]
          · rw [hrun, logs_logs]
            rfl
      | false =>
          rw [hread, if_neg (by simp)] at hrun
          exact .inr (.inl ⟨line, lines, rfl, hread, hrun⟩)

/-- The response is read and freed, or the reading ends in one of two crashes. -/
theorem readSIM_cases (hfresh : .free id ∉ w.trace) :
    (SimReadable r ∧ ∃ status evs, Reads id evs ∧
      (readSIM (.resp id r)).run w = (.ok status, logs w (evs ++ [.free id]))) ∨
    (¬ SimReadable r ∧ (getCmeError r = some 0 → r.intermediates ≠ []) ∧ ∃ evs, Reads id evs ∧
      (readSIM (.resp id r)).run w = (.error .nullCursor, logs w evs)) ∨
    (¬ SimReadable r ∧ getCmeError r = some 0 ∧ r.intermediates = [] ∧ ∃ evs, Reads id evs ∧
      (readSIM (.resp id r)).run w = (.error .nullIntermediates, logs w evs)) := by
  unfold readSIM
  cases hcme : getCmeError r with
  | none =>
      refine .inr (.inl ⟨?_, by simp, [.use id], by simp [Reads],
        bind_error (cmeError_none hcme hfresh)⟩)
      rintro ⟨cme, hsome, -⟩
      cases hcme.symm.trans hsome
  | some cme =>
      rw [bind_ok (cmeError_some hcme hfresh), simReadable_iff hcme]
      simp only [Calls.lift, Calls.freeResp]
      by_cases hzero : cme = 0
      · have hused : .free id ∉ (logs w [.use id]).trace := by simpa using hfresh
        rw [if_pos hzero, hzero]
        obtain ⟨line, lines, hlines, hread, status, evs, hevs, hrun⟩ |
            ⟨line, lines, hlines, hread, hrun⟩ | ⟨hlines, hrun⟩ := readLine_cases (r := r) hused
        · refine .inl ⟨fun _ => ⟨line, lines, hlines, hread⟩, status, .use id :: evs, ?_, ?_⟩
          · simpa [Reads] using hevs
          · rw [hrun, logs_logs]
            rfl
        · refine .inr (.inl ⟨?_, by simp [hlines], [.use id, .use id], by simp [Reads], ?_⟩)
          · simp [hlines, hread]
          · rw [hrun, logs_logs]
            rfl
        · refine .inr (.inr ⟨by simp [hlines], rfl, hlines, [.use id, .use id], by simp [Reads], ?_⟩)
          rw [hrun, logs_logs]
          rfl
      · rw [if_neg hzero]
        by_cases habsent : cme = 10
        · rw [if_pos habsent, freed_run, logs_logs]
          exact .inl ⟨fun h => absurd h hzero, _, [.use id], by simp [Reads], rfl⟩
        · rw [if_neg habsent, freed_run, logs_logs]
          exact .inl ⟨fun h => absurd h hzero, _, [.use id], by simp [Reads], rfl⟩

end SIM

/-- The pointer variable behind a command, when it was `p` before. -/
def assigned (p : Ptr) (id : Nat) : OutRsp → Ptr
  | .unassigned => p
  | .null => .null
  | .resp r => .resp id r

theorem assigned_ne {p : Ptr} (hp : p ≠ .unassigned) (id : Nat) (out : OutRsp) :
    assigned p id out ≠ .unassigned := by
  cases out <;> simp [assigned, hp]

def handed (id : Nat) : OutRsp → List OpEvent
  | .resp _ => [.handOut id]
  | _ => []

/-- A command and the test `ret != 0` of its result. -/
def tests (call : Call) (id : Nat) (reply : Reply) : List OpEvent :=
  .sent call reply :: handed id reply.out ++ [.tested reply.ret (reply.ret != 0)]

theorem fresh_tests (call : Call) (id n : Nat) (reply : Reply) : .free n ∉ tests call id reply := by
  cases hout : reply.out <;> simp [tests, handed, hout]

theorem send_nonzero {α : Type} {call : Call} {p : Ptr} {w : World} {f : Bool → Int × Ptr → Op α} :
    (do
      let a ← send call p
      let failed ← nonzeroReply a.1
      f failed a : Op α).run w =
      (f ((w.replies w.sent).ret != 0)
        ((w.replies w.sent).ret, assigned p w.sent (w.replies w.sent).out)).run
        (sends w (tests call w.sent (w.replies w.sent))) := by
  have htest : ∀ (w : World) (ret : Int), (nonzeroReply ret).run w =
      (.ok (ret != 0), logs w [.tested ret (ret != 0)]) := fun _ _ => rfl
  cases hout : (w.replies w.sent).out with
  | unassigned =>
      rw [bind_ok (send_unassigned hout), bind_ok (htest _ _), logs_sends]
      simp [tests, handed, hout, assigned]
  | null =>
      rw [bind_ok (send_null hout), bind_ok (htest _ _), logs_sends]
      simp [tests, handed, hout, assigned]
  | resp r =>
      rw [bind_ok (send_resp hout), bind_ok (htest _ _), logs_sends]
      simp [tests, handed, hout, assigned]

section SIMStatus

variable {replies : Nat → Reply} {r : ATResponse}

def cpin : Call := .singleLine (text "AT+CPIN?") (text "+CPIN:")

def qcpin : Call := .singleLine (text "AT+QCPIN?") (text "+QCPIN:")

def cpinWorld (replies : Nat → Reply) : World := ⟨replies, 1, tests cpin 0 (replies 0)⟩

def qcpinWorld (replies : Nat → Reply) : World :=
  ⟨replies, 2, tests cpin 0 (replies 0) ++ tests qcpin 1 (replies 1)⟩

def fallback (rsp : Ptr) : Op SIMStatus := do
  let (ret, rsp) ← send qcpin rsp
  if ← nonzeroReply ret then
    freeResp rsp
    return .notReady
  else readSIM rsp

theorem getSIMStatus_run (replies : Nat → Reply) :
    getSIMStatus.run (start replies) =
      if (replies 0).ret ≠ 0
        then (fallback (assigned .null 0 (replies 0).out)).run (cpinWorld replies)
        else (readSIM (assigned .null 0 (replies 0).out)).run (cpinWorld replies) := by
  refine (send_nonzero (f := fun failed a => if failed then fallback a.2 else readSIM a.2)).trans
    ?_
  by_cases hret : (replies 0).ret = 0
  · simp [hret, cpinWorld, sends, cpin]
  · simp [hret, cpinWorld, sends, cpin]

theorem fallback_run (replies : Nat → Reply) (p : Ptr) :
    (fallback p).run (cpinWorld replies) =
      if (replies 1).ret ≠ 0
        then (do
          freeResp (assigned p 1 (replies 1).out)
          return SIMStatus.notReady : Op SIMStatus).run (qcpinWorld replies)
        else (readSIM (assigned p 1 (replies 1).out)).run (qcpinWorld replies) := by
  refine (send_nonzero (f := fun failed a => if failed then (do
    freeResp a.2
    return SIMStatus.notReady : Op SIMStatus) else readSIM a.2)).trans ?_
  by_cases hret : (replies 1).ret = 0
  · simp [hret, cpinWorld, qcpinWorld, sends]
  · simp [hret, cpinWorld, qcpinWorld, sends]

theorem grows_fallback (p : Ptr) : Grows (fallback p) :=
  (grows_send _ _).bind fun _ => (grows_nonzeroReply _).bind fun _ =>
    (grows_freed _ _).ite (grows_readSIM _)

theorem getSIMStatus_replied (h : ChannelReplies (getSIMStatus.run (start replies)).2.trace) :
    Replied cpin (replies 0) :=
  replied_of_sent h rfl (sent_mem (fun _ => (grows_nonzeroReply _).bind fun _ =>
    (grows_fallback _).ite (grows_readSIM _)) (start replies))

theorem fallback_replied {p : Ptr}
    (h : ChannelReplies ((fallback p).run (cpinWorld replies)).2.trace) :
    Replied qcpin (replies 1) :=
  replied_of_sent h rfl (sent_mem (fun _ => (grows_nonzeroReply _).bind fun _ =>
    (grows_freed _ _).ite (grows_readSIM _)) (cpinWorld replies))

end SIMStatus

/-! ### getAPNS -/

section APNS

variable {replies : Nat → Reply} {r : ATResponse}

def cgdcont : Call := .multiLine (text "AT+CGDCONT?") (text "+CGDCONT:")

theorem getAPNS_failed (hret : (replies 0).ret ≠ 0) :
    getAPNS.run (start replies) =
      (.ok true, ⟨replies, 1, tests cgdcont 0 (replies 0)⟩) := by
  have hrun : ∀ p w, (do
      if ← failedQuery (replies 0).ret p then return true
      else
        let r ← deref p
        apnLines p r.intermediates : Op Bool).run w =
      (.ok true, logs w [.tested (replies 0).ret true]) := by
    intro p w
    rw [bind_ok (failedQuery_nonzero hret), if_pos rfl, pure_run]
  have htested : ((replies 0).ret != 0) = true := by simpa using hret
  cases hout : (replies 0).out with
  | unassigned =>
      refine (bind_ok (send_unassigned hout)).trans ((hrun _ _).trans ?_)
      simp [tests, handed, hout, htested, sends, logs, cgdcont]
  | null =>
      refine (bind_ok (send_null hout)).trans ((hrun _ _).trans ?_)
      simp [tests, handed, hout, htested, sends, logs, cgdcont]
  | resp r =>
      refine (bind_ok (send_resp hout)).trans ((hrun _ _).trans ?_)
      simp [tests, handed, hout, htested, sends, logs, cgdcont]

theorem getAPNS_answered (h : replies 0 = ⟨0, .resp r⟩) :
    getAPNS.run (start replies) =
      (if r.success == 0 then pure true else do
        let r' ← deref (.resp 0 r)
        apnLines (.resp 0 r) r'.intermediates : Op Bool).run ⟨replies, 1,
          [.sent cgdcont (replies 0), .handOut 0, .use 0, .tested 0 (r.success == 0)]⟩ := by
  have hout : ((start replies).replies (start replies).sent).out = .resp r := by simp [h]
  have hret : ((start replies).replies (start replies).sent).ret = 0 := by simp [h]
  unfold getAPNS
  simp only [Calls.send, Calls.lift]
  rw [bind_ok (send_resp hout)]
  simp only [hret]
  rw [bind_ok (failedQuery_resp (by simp))]
  simp [sends, logs, cgdcont]

theorem getAPNS_refused (h : replies 0 = ⟨0, .resp r⟩) (hr : r.success = 0) :
    getAPNS.run (start replies) = (.ok true, ⟨replies, 1,
      [.sent cgdcont (replies 0), .handOut 0, .use 0, .tested 0 true]⟩) := by
  rw [getAPNS_answered h]
  simp [hr, pure_run]

theorem getAPNS_lines (h : replies 0 = ⟨0, .resp r⟩) (hr : r.success ≠ 0) :
    getAPNS.run (start replies) = (apnLines (.resp 0 r) r.intermediates).run ⟨replies, 1,
      [.sent cgdcont (replies 0), .handOut 0, .use 0, .tested 0 false, .use 0]⟩ := by
  have hflag : (r.success == 0) = false := by simpa using hr
  rw [getAPNS_answered h, hflag, if_neg (by simp), bind_ok (deref_resp (by simp))]
  rfl

theorem grows_apnLines (p : Ptr) (lines : List Line) : Grows (apnLines p lines) := by
  induction lines with
  | nil => exact grows_freed p true
  | cons line lines ih => exact (grows_tok _).bind fun _ => ih.ite (grows_freed p false)

theorem getAPNS_replied (h : ChannelReplies (getAPNS.run (start replies)).2.trace) :
    Replied cgdcont (replies 0) := by
  refine replied_of_sent h rfl (sent_mem (fun a => ?_) (start replies))
  exact (grows_failedQuery _ _).bind fun _ =>
    (grows_pure _).ite ((grows_deref _).bind fun _ => grows_apnLines _ _)

end APNS

end Mobile.Command.Proofs.Evaluation
