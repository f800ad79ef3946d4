import Mobile.Channel.Proofs.Ownership
import Mobile.Channel.Proofs.Collection

/-!
# The heap refines the lists

With an allocator that does not fail the channel on the heap does what the channel
with lists does: the calls return the same, the responses in memory say what the
lists say, in the order in which the lines came, and where one does not return the
other does not either.
-/

namespace Mobile.Channel.Proofs.HeapRefinement

open Mobile.ProofSupport.Separation Mobile.ProofSupport.Separation.Assertion
open Mobile.ProofSupport.Outcomes
open Mobile.Token.Scan Mobile.Channel.Types Mobile.Channel.WriteLine
open Mobile.Channel.ProcessLine Mobile.Channel.SendCommand Mobile.Channel.Heap
open Mobile.Channel.HeapRuns
open Mobile.Channel.Proofs.HeapSpecs Mobile.Channel.Proofs.HeapSections
open Mobile.Channel.Proofs.Ownership Mobile.Channel.Proofs.Collection

/-! ## The members beside `rsp_` -/

def setRsp (ch : ATChannel) (r : Option ATResponse) : ATChannel := { ch with rsp := r }

theorem writeText_setRsp (r : Option ATResponse) (script : List WriteResult) (ch : ATChannel)
    (text : Line) : writeText (setRsp ch r) text script =
      ((writeText ch text script).1, setRsp (writeText ch text script).2 r) := by
  induction script generalizing ch text with
  | nil =>
      unfold writeText
      split <;> rfl
  | cons w rest ih =>
      unfold writeText
      split
      · rfl
      · split
        · exact ih (ch.log _) _
        · exact ih (ch.log _) _
        · rfl

theorem writeCtrl_setRsp (r : Option ATResponse) (script : List WriteResult) (ch : ATChannel)
    (c : Line) : writeCtrl (setRsp ch r) c script =
      ((writeCtrl ch c script).1, setRsp (writeCtrl ch c script).2 r) := by
  induction script generalizing ch with
  | nil => rfl
  | cons w rest ih =>
      unfold writeCtrl
      split
      · exact ih (ch.log _)
      · rfl
      · exact ih (ch.log _)
      · rfl

theorem writeLine_setRsp (r : Option ATResponse) (ch : ATChannel) (s ctrl : Line) :
    writeLine (setRsp ch r) s ctrl =
      ((writeLine ch s ctrl).1, setRsp (writeLine ch s ctrl).2 r) := by
  have hlog : (setRsp ch r).log (.writeLine s ctrl) = setRsp (ch.log (.writeLine s ctrl)) r := rfl
  unfold writeLine
  rw [hlog]
  generalize ch.log (.writeLine s ctrl) = ch'
  dsimp only
  rw [show (setRsp ch' r).isOpen = ch'.isOpen from rfl,
    show (setRsp ch' r).writes = ch'.writes from rfl, writeText_setRsp]
  split
  · rfl
  · dsimp only
    split
    · rfl
    · rw [show (setRsp (writeText ch' s ch'.writes).2 r).writes =
        (writeText ch' s ch'.writes).2.writes from rfl, writeCtrl_setRsp]
      dsimp only
      split <;> rfl

theorem handleUnsolicited_setRsp (r : Option ATResponse) (ch : ATChannel) (line : Line) :
    handleUnsolicited (setRsp ch r) line = setRsp (handleUnsolicited ch line) r := by
  unfold handleUnsolicited
  rw [show (setRsp ch r).unsolHandler = ch.unsolHandler from rfl]
  split <;> rfl

theorem readerClose_setRsp (r : Option ATResponse) (ch : ATChannel) :
    SendCommand.readerClose (setRsp ch r) = setRsp (SendCommand.readerClose ch) r := by
  by_cases hclosed : ch.readClosed = true
  · simp [SendCommand.readerClose, setRsp, hclosed]
  · by_cases hfd : 0 < ch.readFd <;> by_cases hclose : ch.closeHandler = true <;>
      simp [SendCommand.readerClose, setRsp, ATChannel.log, hclosed, hfd, hclose]

/-! ## One response, two representations -/

def Contents.ofResponse (r : ATResponse) : Contents :=
  ⟨r.success, r.finalResp, r.intermediates.map some⟩

/-- `hc` shows `ch`; beside the pending response `F` is alive, and perhaps more. -/
def Shows (F : Own) (hc : HeapChannel) (ch : ATChannel) : Prop :=
  ∃ r R, ch = setRsp hc.rest r ∧ Has hc (r.map Contents.ofResponse) (F * R)

def NoReturn (stop : Stop) : Prop := stop = .asleep ∨ stop = .fault .nullPointer

variable {al : Allocator Addr Obj} {F : Own} {hc : HeapChannel} {ch : ATChannel}

theorem turned_ofResponse (r : ATResponse) :
    Contents.turned (Contents.ofResponse r) =
      Contents.ofResponse (SendCommand.reverseIntermediates r) := by
  simp [Contents.turned, Contents.ofResponse, SendCommand.reverseIntermediates, reverseLoop_eq]

theorem clear_shows (h : Shows F hc ch) : ∃ hc', hc.clearPendingCommand = .ok hc' ∧
    Shows F hc' ch.clearPendingCommand := by
  obtain ⟨r, R, rfl, hhas⟩ := h
  obtain ⟨mem, hrun, hmem⟩ := clearPendingCommand_ok hhas
  exact ⟨_, hrun, none, R, rfl, fact_mul.2 ⟨rfl, hmem⟩⟩

theorem verdict_setRsp (r : Option ATResponse) (ch : ATChannel) (empty : Bool) (line : Line) :
    verdict (setRsp ch r) empty line = verdict ch empty line := rfl

theorem copied_total (htotal : al.Total) {line : Line} {text : Option Line}
    (h : Copied al line text) : text = some line :=
  h.resolve_right fun hfail => hfail.1 htotal

theorem effect_shows (htotal : al.Total) {ch' : ATChannel} {c' : Contents} {L R : Own}
    {rsp : ATResponse} {line : Line} {v : Verdict} {hc' : HeapChannel}
    (heffect : LineEffect al ch (Contents.ofResponse rsp) line v ch' c' L)
    (hrest : hc'.rest = ch') (hhas : Has hc' (some c') (L * (F * R))) :
    ∃ ch'', applyVerdict (setRsp ch (some rsp)) rsp line v = some ch'' ∧ Shows F hc' ch'' := by
  rw [mul_left_comm] at hhas
  cases heffect with
  | unsolicited =>
      refine ⟨_, rfl, some rsp, _, ?_, hhas⟩
      rw [handleUnsolicited_setRsp, hrest]
  | prompt =>
      refine ⟨_, rfl, some rsp, _, ?_, hhas⟩
      rw [writeLine_setRsp, hrest]
      rfl
  | @final success text copied =>
      rw [copied_total htotal copied] at hhas
      refine ⟨_, rfl, some { rsp with success := success, finalResp := some line }, _, ?_, hhas⟩
      rw [hrest]
      rfl
  | intermediate added =>
      obtain ⟨text, copied, rfl⟩ := added.resolve_right fun hfail => hfail.1 htotal
      rw [copied_total htotal copied] at hhas
      refine ⟨_, rfl, some { rsp with intermediates := line :: rsp.intermediates }, _, ?_, hhas⟩
      rw [hrest]
      rfl

theorem processLine_agree (htotal : al.Total) (h : Shows F hc ch) (line : Line) :
    Agree NoReturn (Shows F) (hc.processLine al line) (processLine ch line) := by
  obtain ⟨r, R, rfl, hhas⟩ := h
  cases r with
  | none =>
      rw [processLine_none hhas.rsp_none.1]
      rw [show processLine (setRsp hc.rest none) line =
        some (handleUnsolicited (setRsp hc.rest none) line) from rfl]
      exact .ok ⟨none, R, handleUnsolicited_setRsp none hc.rest line, hhas⟩
  | some rsp =>
      have hempty : decide ((Contents.ofResponse rsp).intermediates = []) =
          decide (rsp.intermediates = []) :=
        decide_eq_decide.2 List.map_eq_nil_iff
      rw [processLine_heap_eq_verdict hhas, hempty,
        processLine_eq_verdict (show (setRsp hc.rest (some rsp)).rsp = some rsp from rfl),
        verdict_setRsp]
      generalize verdict hc.rest _ line = v
      obtain ⟨rfl, hrun⟩ | ⟨hc', c', L, hrun, heffect, hhas'⟩ :=
        applyHeapVerdict_effect al hhas line v
      · rw [hrun]
        exact .stop (.inr rfl)
      · obtain ⟨ch'', hlist, hshows⟩ := effect_shows htotal heffect rfl hhas'
        rw [hrun, hlist]
        exact .ok hshows

theorem act_agree (htotal : al.Total) (h : Shows F hc ch) (a : Act) :
    Agree NoReturn (Shows F) (hc.act al a) (a.run ch) := by
  cases a with
  | processLine line => exact processLine_agree htotal h line
  | readerClose =>
      obtain ⟨r, R, rfl, hhas⟩ := h
      exact .ok ⟨r, R, readerClose_setRsp r hc.rest, hhas⟩

/-! ## Calls -/

def OutOwn : HeapOut → OutRsp → Own
  | .unassigned, .unassigned => 1
  | .pointer (some a), .resp r => Response a (Contents.ofResponse r)
  | _, _ => fact False

def EntryOwn : HeapOut → OutRsp → Own
  | .pointer none, .null => 1
  | x, y => OutOwn x y

structure SentShows (own : HeapOut → OutRsp → Own) (F : Own) (x : HeapSent) (y : Sent) :
    Prop where
  ret : x.ret = y.ret
  chan : Shows (own x.out y.out * F) x.chan y.chan

theorem SentShows.unassigned {ret : Int} (h : Shows F hc ch) :
    SentShows OutOwn F ⟨ret, .unassigned, hc⟩ ⟨ret, .unassigned, ch⟩ :=
  ⟨rfl, by rwa [OutOwn, one_mul]⟩

theorem not_shows_false (h : Shows (fact False * F) hc ch) : False := by
  obtain ⟨r, R, -, hhas⟩ := h
  rw [Has, mul_left_comm, mul_assoc, fact_mul] at hhas
  exact hhas.1

theorem takeResponse_agree {R : Own} {rsp : ATResponse}
    (h : Has hc (some (Contents.ofResponse rsp)) (F * R)) (outRsp : Bool) :
    Agree NoReturn (SentShows OutOwn F) (hc.takeResponse outRsp)
      (some (takeResponse (setRsp hc.rest (some rsp)) rsp outRsp)) := by
  cases outRsp with
  | true =>
      obtain ⟨a, mem, -, hrun, hmem⟩ := takeResponse_handed h
      rw [hrun]
      refine .ok ⟨rfl, none, R, rfl, fact_mul.2 ⟨rfl, ?_⟩⟩
      rw [turned_ofResponse, ← mul_assoc] at hmem
      exact hmem
  | false =>
      obtain ⟨mem, hrun, hmem⟩ := takeResponse_freed h
      rw [hrun]
      exact .ok <| SentShows.unassigned ⟨none, R, rfl, fact_mul.2 ⟨rfl, hmem⟩⟩

theorem answered_shows {R : Own} {rsp : ATResponse}
    (h : Has hc (some (Contents.ofResponse rsp)) (F * R)) :
    hc.answered = .ok (answered (setRsp hc.rest (some rsp)) rsp) :=
  answered_ok h

/-- Both loops test their condition alike and leave alike once it is met. -/
theorem woken_agree {outRsp : Bool} {x : Except Stop HeapSent} {y : Option Sent}
    (h : Shows F hc ch) (hasleep : Agree NoReturn (SentShows OutOwn F) x y) :
    Agree NoReturn (SentShows OutOwn F) (do if ← hc.answered then hc.takeResponse outRsp else x)
      (do
        let rsp ← ch.rsp
        if answered ch rsp then return takeResponse ch rsp outRsp else y) := by
  obtain ⟨r, R, rfl, hhas⟩ := h
  cases r with
  | none =>
      rw [answered_none hhas.rsp_none.1]
      exact .stop (.inr rfl)
  | some rsp =>
      rw [answered_shows hhas]
      change Agree _ _ (if _ then _ else _) (if _ then _ else _)
      split
      · exact takeResponse_agree hhas outRsp
      · exact hasleep

theorem waitLoop_agree (htotal : al.Total) (timeoutMsec : Nat) (outRsp : Bool)
    (wakes : List Wake) (h : Shows F hc ch) :
    Agree NoReturn (SentShows OutOwn F) (hc.waitLoop al timeoutMsec outRsp wakes)
      (waitLoop ch timeoutMsec outRsp wakes) := by
  induction wakes generalizing hc ch with
  | nil => exact woken_agree h (.stop (.inl rfl))
  | cons wake wakes ih =>
      have hasleep : Shows F { hc with rest := hc.rest.log (.sleep timeoutMsec) }
          (ch.log (.sleep timeoutMsec)) := by
        obtain ⟨r, R, rfl, hhas⟩ := h
        exact ⟨r, R, rfl, hhas⟩
      have hacts := Agree.foldlM (fun _ _ a => (act_agree htotal · a)) hasleep wake.acts
      refine woken_agree h (hacts.bind fun hc' ch' hshows => ?_)
      split
      · obtain ⟨hc'', hrun, hclear⟩ := clear_shows hshows
        rw [hrun]
        exact .ok <| SentShows.unassigned hclear
      · exact ih hshows

theorem startCommand_pending (rsp : ATResponse) (ch : ATChannel) (c : Command) :
    startCommand (setRsp ch (some rsp)) c =
      .error (ATErrno.errorCommandPending.code, setRsp ch.clearPendingCommand none) :=
  if_pos (Option.some_ne_none rsp)

theorem startCommand_free (ch : ATChannel) (c : Command) :
    startCommand (setRsp ch none) c =
      if (writeLine ch c.cmd kCtrlEnter).1 < 0 then
        .error ((writeLine ch c.cmd kCtrlEnter).1,
          setRsp (writeLine ch c.cmd kCtrlEnter).2.clearPendingCommand none)
      else .ok (setRsp (setUp (writeLine ch c.cmd kCtrlEnter).2 c.type c.rspPrefix c.smsPdu)
        (some .alloc)) := by
  have hfree : ¬ (setRsp ch none).rsp ≠ none := not_not.2 rfl
  rw [startCommand, if_neg hfree, writeLine_setRsp]
  rfl

theorem sendCommandNoLock_agree (htotal : al.Total) (c : Command) (wakes : List Wake)
    (h : Shows F hc ch) :
    Agree NoReturn (SentShows OutOwn F) (hc.sendCommandNoLock al c wakes)
      (sendCommandNoLock ch c wakes) := by
  obtain ⟨r, R, rfl, hhas⟩ := h
  obtain ⟨early, hc', pending', hrun, hhas', hcase⟩ := startCommand_ok al hhas c
  rw [HeapChannel.sendCommandNoLock, hrun, sendCommandNoLock]
  cases r with
  | some rsp =>
      obtain ⟨-, rfl, rfl, hrest⟩ := hcase.resolve_right (by simp)
      rw [startCommand_pending]
      exact .ok <| SentShows.unassigned ⟨none, R, by rw [hrest], hhas'⟩
  | none =>
      rw [startCommand_free]
      obtain ⟨-, hret, rfl, rfl, hrest⟩ | ⟨-, hret, rfl, halloc, hrest⟩ :=
        hcase.resolve_left (by simp)
      · rw [if_pos hret]
        exact .ok <| SentShows.unassigned ⟨none, R, by rw [hrest], hhas'⟩
      · rw [if_neg hret]
        refine waitLoop_agree htotal c.timeoutMsec c.outRsp wakes ⟨some .alloc, R, ?_, ?_⟩
        · rw [hrest]
          rfl
        · rw [halloc.resolve_right fun hfail => hfail.1 htotal] at hhas'
          exact hhas'

theorem sendCommandFull_agree (htotal : al.Total) (c : Command) (wakes : List Wake)
    (h : Shows F hc ch) :
    Agree NoReturn (SentShows OutOwn F) (hc.sendCommandFull al c wakes)
      (sendCommandFull ch c wakes) := by
  refine (sendCommandNoLock_agree htotal c wakes h).bind fun x y hsent => ?_
  obtain ⟨r, R, hchan, hhas⟩ := hsent.chan
  have hhandler : y.chan.timeoutHandler = x.chan.rest.timeoutHandler := by
    rw [hchan]
    rfl
  rw [hsent.ret, hhandler]
  change Agree _ _ (if _ then _ else _) (if _ then _ else _)
  split
  · exact .ok ⟨rfl, r, R, by rw [hchan]; rfl, hhas⟩
  · exact .ok hsent

theorem SentShows.entry {x : HeapSent} {y : Sent} (h : SentShows OutOwn F x y) :
    SentShows EntryOwn F x y := by
  obtain ⟨ret, out, hc⟩ := x
  obtain ⟨ret', out', ch⟩ := y
  refine ⟨h.ret, ?_⟩
  have hchan := h.chan
  cases out with
  | unassigned => exact hchan
  | pointer p =>
      cases p with
      | some a => exact hchan
      | none => cases out' <;> exact (not_shows_false hchan).elim

theorem keepOrTakeBack_agree {ret : Int} {a : Addr} {r : ATResponse}
    (h : Shows (Response a (Contents.ofResponse r) * F) hc ch) :
    Agree NoReturn (SentShows EntryOwn F) (requireIntermediate ⟨ret, .pointer (some a), hc⟩)
      (some (SendCommand.requireIntermediate ⟨ret, .resp r, ch⟩)) := by
  have hkept : SentShows EntryOwn F ⟨ret, .pointer (some a), hc⟩ ⟨ret, .resp r, ch⟩ := ⟨rfl, h⟩
  obtain ⟨r', R, rfl, hhas⟩ := h
  have hown : (Response a (Contents.ofResponse r) *
      (Pending hc.rsp (r'.map Contents.ofResponse) * (F * R))) hc.mem.heap := by
    rwa [Has, mul_assoc, mul_left_comm] at hhas
  obtain ⟨finalResp, first, hload, -, hempty⟩ := loadResponse_ok hown
  unfold Heap.requireIntermediate SendCommand.requireIntermediate
  dsimp only
  by_cases hret : ret = 0
  · rw [if_pos hret, hload]
    change Agree _ _ (if _ then _ else _) _
    by_cases hcheck : r.success > 0 ∧ r.intermediates = []
    · have hfirst : first = none := hempty.2 (by simp [Contents.ofResponse, hcheck.2])
      have hfree := (freeResponce_spec (some a) (some (Contents.ofResponse r))).entails
        (pending_some _ _) fun _ => le_refl _
      obtain ⟨_, mem, hrun, hmem⟩ := exec_ok hfree hown
      rw [one_mul] at hmem
      rw [if_pos ⟨hcheck.1, hfirst⟩, if_pos ⟨hret, hcheck⟩, hrun]
      refine .ok ⟨rfl, r', R, rfl, ?_⟩
      rwa [EntryOwn, one_mul]
    · have hfirst : ¬ ((Contents.ofResponse r).success > 0 ∧ first = none) := by
        rintro ⟨hsuccess, hnone⟩
        exact hcheck ⟨hsuccess, List.map_eq_nil_iff.1 (hempty.1 hnone)⟩
      rw [if_neg hfirst, if_neg fun hall => hcheck hall.2]
      exact .ok hkept
  · rw [if_neg hret, if_neg fun hall => hret hall.1]
    exact .ok hkept

theorem requireIntermediate_agree {x : HeapSent} {y : Sent} (h : SentShows OutOwn F x y) :
    Agree NoReturn (SentShows EntryOwn F) (requireIntermediate x)
      (some (SendCommand.requireIntermediate y)) := by
  obtain ⟨ret, out, hc⟩ := x
  obtain ⟨ret', out', ch⟩ := y
  obtain rfl : ret = ret' := h.ret
  have hchan := h.chan
  cases out with
  | unassigned =>
      cases out' with
      | unassigned => exact .ok h.entry
      | null => exact (not_shows_false hchan).elim
      | resp r => exact (not_shows_false hchan).elim
  | pointer p =>
      cases p with
      | none => cases out' <;> exact (not_shows_false hchan).elim
      | some a =>
          cases out' with
          | unassigned => exact (not_shows_false hchan).elim
          | null => exact (not_shows_false hchan).elim
          | resp r => exact keepOrTakeBack_agree hchan

theorem checked_agree (htotal : al.Total) (c : Command) (wakes : List Wake)
    (h : Shows F hc ch) :
    Agree NoReturn (SentShows EntryOwn F)
      (hc.sendCommandFull al c wakes >>= Heap.requireIntermediate)
      ((sendCommandFull ch c wakes).map SendCommand.requireIntermediate) := by
  rw [Option.map_eq_bind]
  exact (sendCommandFull_agree htotal c wakes h).bind fun _ _ => requireIntermediate_agree

theorem entry_agree (htotal : al.Total) (e : Entry) (wakes : List Wake) (h : Shows F hc ch) :
    Agree NoReturn (SentShows EntryOwn F) (e.runHeap al hc wakes) (e.run ch wakes) := by
  have hfull := fun c => (sendCommandFull_agree htotal c wakes h).mono fun _ _ => SentShows.entry
  cases e with
  | sendCommand cmd outRsp => exact hfull _
  | sendCommandSingleLine cmd rspPrefix outRsp => exact checked_agree htotal _ wakes h
  | sendCommandNumeric cmd outRsp => exact checked_agree htotal _ wakes h
  | sendCommandMultiLine cmd rspPrefix outRsp => exact hfull _
  | sendCommandSms cmd pdu rspPrefix outRsp => exact checked_agree htotal _ wakes h

/-! ## Sessions -/

def Pair.contents (x : Addr × ATResponse) : Addr × Contents := (x.1, Contents.ofResponse x.2)

/-- The callers' pointers lead to the responses they have without a heap. -/
def Refines (s : HeapSession) (t : Session) : Prop :=
  s.rets = t.rets ∧ ∃ pairs : List (Addr × ATResponse),
    s.owner.held = pairs.map Prod.fst ∧ t.held = pairs.map Prod.snd ∧
    Shows (Responses (pairs.map Pair.contents)) s.owner.chan t.chan

theorem entryOwn_cases {x : HeapOut} {y : OutRsp} (h : Shows (EntryOwn x y * F) hc ch) :
    (HeapOut.addr x = [] ∧ OutRsp.responses y = [] ∧ Shows F hc ch) ∨
    ∃ a r, HeapOut.addr x = [a] ∧ OutRsp.responses y = [r] ∧
      Shows (Response a (Contents.ofResponse r) * F) hc ch := by
  cases x with
  | unassigned =>
      cases y with
      | unassigned =>
          have hone : Shows (1 * F) hc ch := h
          rw [one_mul] at hone
          exact .inl ⟨rfl, rfl, hone⟩
      | null => exact (not_shows_false h).elim
      | resp r => exact (not_shows_false h).elim
  | pointer p =>
      cases p with
      | none =>
          cases y with
          | unassigned => exact (not_shows_false h).elim
          | null =>
              rw [EntryOwn, one_mul] at h
              exact .inl ⟨rfl, rfl, h⟩
          | resp r => exact (not_shows_false h).elim
      | some a =>
          cases y with
          | unassigned => exact (not_shows_false h).elim
          | null => exact (not_shows_false h).elim
          | resp r => exact .inr ⟨a, r, rfl, rfl, h⟩

theorem call_agree (htotal : al.Total) {s : HeapSession} {t : Session} (h : Refines s t)
    (e : Entry) (wakes : List Wake) :
    Agree NoReturn Refines (s.step al (.call e wakes)) (t.step (.call e wakes)) := by
  obtain ⟨hrets, pairs, hheld, hheld', hshows⟩ := h
  refine (entry_agree htotal e wakes hshows).bind fun x y hsent => ?_
  have hrets' : s.rets ++ [x.ret] = t.rets ++ [y.ret] := by rw [hrets, hsent.ret]
  obtain ⟨haddr, hresp, hchan⟩ | ⟨a, r, haddr, hresp, hchan⟩ := entryOwn_cases hsent.chan
  · exact .ok ⟨hrets', pairs, by simp [haddr, hheld], by simp [hresp, hheld'], hchan⟩
  · refine .ok ⟨hrets', pairs ++ [(a, r)], by simp [haddr, hheld], by simp [hresp, hheld'], ?_⟩
    rw [List.map_append]
    exact (responses_concat _ a _).symm ▸ hchan

theorem giveUp_agree {s : HeapSession} {t : Session} (h : Refines s t) (i : Nat) :
    Agree NoReturn Refines (s.step al (.freeResponce i)) (t.step (.freeResponce i)) := by
  obtain ⟨hrets, pairs, hheld, hheld', r, R, hchan, hhas⟩ := h
  change Agree _ _ (s.owner.giveUp i >>= _) _
  rw [Owner.giveUp, hheld, List.getElem?_map]
  by_cases hi : i < pairs.length
  · rw [List.getElem?_eq_getElem hi]
    have hown := hhas
    rw [Has, responses_eraseIdx (by rwa [List.length_map]), List.getElem_map, mul_assoc,
      mul_left_comm] at hown
    have hfree := (freeResponce_spec (some pairs[i].1)
      (some (Contents.ofResponse pairs[i].2))).entails (pending_some _ _) fun _ => le_refl _
    obtain ⟨_, mem, hrun, hmem⟩ := exec_ok hfree hown
    rw [one_mul, List.eraseIdx_map] at hmem
    change Agree _ _ ((s.owner.chan.exec _ >>= _) >>= _) _
    rw [hrun]
    refine .ok ⟨hrets, pairs.eraseIdx i, List.eraseIdx_map _ _ _, ?_, r, R, hchan, hmem⟩
    rw [hheld', List.eraseIdx_map]
  · rw [List.getElem?_eq_none (by omega)]
    refine .ok ⟨hrets, pairs, hheld, ?_, r, R, hchan, hhas⟩
    change t.held.eraseIdx i = _
    rw [hheld', List.eraseIdx_of_length_le (by simpa using hi)]

theorem session_step_agree (htotal : al.Total) {s : HeapSession} {t : Session}
    (h : Refines s t) (a : SessionStep) :
    Agree NoReturn Refines (s.step al a) (t.step a) := by
  cases a with
  | call e wakes => exact call_agree htotal h e wakes
  | freeResponce i => exact giveUp_agree h i
  | act a =>
      obtain ⟨hrets, pairs, hheld, hheld', hshows⟩ := h
      exact (act_agree htotal hshows a).bind fun hc ch hshows' =>
        .ok ⟨hrets, pairs, hheld, hheld', hshows'⟩

theorem opened_refines (fd : Int) (writes : List WriteResult) :
    Refines ⟨.opened fd writes, []⟩ ⟨.opened fd writes, [], []⟩ := by
  refine ⟨rfl, [], rfl, rfl, none, 1, rfl, fact_mul.2 ⟨rfl, ?_⟩⟩
  rw [mul_one]
  rfl

/-- Any session of calls, lines, closings and freed responses. -/
theorem session_agrees (al : Allocator Addr Obj) (htotal : al.Total) (fd : Int)
    (writes : List WriteResult) (steps : List SessionStep) :
    Agree NoReturn Refines (steps.foldlM (HeapSession.step al) ⟨.opened fd writes, []⟩)
      (steps.foldlM Session.step ⟨.opened fd writes, [], []⟩) :=
  Agree.foldlM (fun _ _ a h => session_step_agree htotal h a) (opened_refines fd writes) steps

def clccSession : List SessionStep :=
  [.call (.sendCommandMultiLine (text "AT+CLCC") (text "+CLCC:") true)
    [⟨[.processLine (text "+CLCC: 1"), .processLine (text "+CLCC: 2"),
      .processLine (text "OK")], 0⟩],
    .freeResponce 0]

theorem session_agrees_clcc :
    Agree NoReturn Refines (clccSession.foldlM (HeapSession.step behindLast) ⟨.opened 3 [], []⟩)
      (clccSession.foldlM Session.step ⟨.opened 3 [], [], []⟩) :=
  session_agrees behindLast behindLast_total 3 [] clccSession

end Mobile.Channel.Proofs.HeapRefinement
