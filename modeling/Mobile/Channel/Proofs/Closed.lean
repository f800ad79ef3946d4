import Mobile.Channel.Proofs.Pending

/-!
# The closed channel

`read_closed_` is never reset, and each entry point meets it in time: `WriteLine`
tests it before the first `write()`, and the wait loop before the first wait.  A
call on a closed channel therefore runs through without a byte or a wait.
-/

namespace Mobile.Channel.Proofs.Closed

open Mobile.Token.Scan Mobile.ProofSupport.Transition
open Mobile.Channel.Types Mobile.Channel.WriteLine Mobile.Channel.ProcessLine
open Mobile.Channel.SendCommand Mobile.Channel.Concurrent Mobile.Channel.Entries
open Mobile.Channel.Proofs.Log Mobile.Channel.Proofs.Locking Mobile.Channel.Proofs.Pending

/-- No byte on the wire, no wait, no call of `close_handler_`. -/
def silent : Event → Bool
  | .write _ _ => false
  | .sleep _ => false
  | .closeHandler => false
  | _ => true

/-- What every step but the closing one does to the channel. -/
structure Quiet (ch ch' : ATChannel) : Prop where
  readClosed : ch'.readClosed = ch.readClosed
  events : ∃ new, ch'.events = ch.events ++ new ∧ .closeHandler ∉ new ∧
    (ch.readClosed = true → ∀ ev ∈ new, silent ev = true)

theorem Quiet.of_events {ch ch' : ATChannel} (hclosed : ch'.readClosed = ch.readClosed)
    (hevents : ch'.events = ch.events) : Quiet ch ch' :=
  ⟨hclosed, [], by simpa using hevents, by simp, by simp⟩

theorem Quiet.refl (ch : ATChannel) : Quiet ch ch := .of_events rfl rfl

theorem Quiet.log {ch ch' : ATChannel} {ev : Event} (hev : silent ev = true)
    (hclosed : ch'.readClosed = ch.readClosed) (hevents : ch'.events = ch.events ++ [ev]) :
    Quiet ch ch' := by
  refine ⟨hclosed, [ev], hevents, ?_, by simpa using fun _ => hev⟩
  rw [List.mem_singleton]
  rintro rfl
  cases hev

theorem Quiet.trans {ch₁ ch₂ ch₃ : ATChannel} (h : Quiet ch₁ ch₂) (h' : Quiet ch₂ ch₃) :
    Quiet ch₁ ch₃ := by
  obtain ⟨new, hnew, hclose, hsilent⟩ := h.events
  obtain ⟨new', hnew', hclose', hsilent'⟩ := h'.events
  refine ⟨h'.readClosed.trans h.readClosed, new ++ new', ?_, ?_, ?_⟩
  · rw [hnew', hnew, List.append_assoc]
  · simp [hclose, hclose']
  · intro hclosed
    exact List.forall_mem_append.2 ⟨hsilent hclosed, hsilent' (h.readClosed.trans hclosed)⟩

theorem Quiet.newEvents {ch ch' : ATChannel} (h : Quiet ch ch') (hclosed : ch.readClosed = true)
    {ev : Event} (hev : ev ∈ newEvents ch ch') : silent ev = true := by
  obtain ⟨new, hnew, -, hsilent⟩ := h.events
  apply hsilent hclosed
  simpa [Log.newEvents, hnew] using hev

/-! ### The functions of the channel -/

theorem writeLine_closed {ch : ATChannel} (hclosed : ch.readClosed = true) (s ctrl : Line) :
    writeLine ch s ctrl = (ATErrno.errorChannelClosed.code, ch.log (.writeLine s ctrl)) := by
  simp [writeLine, ATChannel.isOpen, ATChannel.log, hclosed]

theorem Quiet.of_served {ch ch' : ATChannel} (h : Served ch ch') (hopen : ch.readClosed = false) :
    Quiet ch ch' := by
  obtain ⟨new, hnew, hline⟩ := h.events
  refine ⟨h.readClosed, new, hnew, fun hmem => ?_, by simp [hopen]⟩
  cases hline _ hmem

theorem writeLine_quiet (ch : ATChannel) (s ctrl : Line) : Quiet ch (writeLine ch s ctrl).2 := by
  cases hclosed : ch.readClosed with
  | false => exact .of_served (writeLine_served ch s ctrl) hclosed
  | true =>
      rw [writeLine_closed hclosed]
      exact .log rfl rfl rfl

theorem processLine_quiet {ch ch' : ATChannel} {line : Line}
    (h : processLine ch line = some ch') : Quiet ch ch' := by
  obtain rfl | ⟨rsp, -, rfl⟩ | ⟨rsp, success, -, -, rfl⟩ | ⟨pdu, -, -, rfl⟩ :=
    processLine_cases h
  · unfold handleUnsolicited
    split
    · exact .log rfl rfl rfl
    · exact .refl ch
  · exact .of_events rfl rfl
  · exact Quiet.log (show silent .notify = true from rfl) rfl rfl
  · exact (writeLine_quiet ch pdu kCtrlZ).trans (.of_events rfl rfl)

theorem setUp_quiet (ch : ATChannel) (type : ATCmdType) (rspPrefix smsPdu : Option Line) :
    Quiet ch (setUp ch type rspPrefix smsPdu) :=
  Quiet.log (show silent .allocResponce = true from rfl) rfl rfl

theorem afterUnlock_quiet (ch : ATChannel) (ret : Int) : Quiet ch (afterUnlock ch ret) := by
  unfold afterUnlock
  split
  · exact .log rfl rfl rfl
  · exact .refl ch

/-! ### The steps -/

section

variable {ι κ : Type*} [DecidableEq ι] [DecidableEq κ] {s t : Sys ι κ}

theorem sys_quiet {a : SysAction ι κ} (h : EntryInv s) (hstep : Step s a t) :
    Quiet s.chan t.chan ∨ s.chan.readClosed = false ∧ t.chan = readerClose s.chan := by
  cases hstep with
  | @sendReturn i c ret ch pc start =>
      rw [h.start_ok pc] at start
      cases start
  | @send i c ch pc start =>
      rw [h.start_ok pc] at start
      cases start
      exact .inl ((writeLine_quiet s.chan c.cmd kCtrlEnter).trans (setUp_quiet _ _ _ _))
  | @leave i c rsp pc hrsp done => exact .inl (.of_events rfl rfl)
  | @sleep i c rsp pc hrsp waits =>
      simp only [answered, Bool.or_eq_false_iff] at waits
      exact .inl ⟨rfl, [.sleep c.timeoutMsec], rfl, by simp, by simp [waits.2]⟩
  | @timeOut i c pc => exact .inl (.of_events rfl rfl)
  | @unlock i ret pc => exact .inl (afterUnlock_quiet s.chan ret)
  | @serve line ch callers pc hch notify => exact .inl (processLine_quiet hch)
  | @close k callers pc notify =>
      cases hclosed : s.chan.readClosed with
      | false => exact .inr ⟨rfl, rfl⟩
      | true => exact .inl (.of_events (by rw [readerClose_closed hclosed])
          (by rw [readerClose_closed hclosed]))
  | call | lock | lockCond | wake | relockCond | resume | unlockCond | receive | readerLock
  | readerUnlock | enterClose | closerLock | closerUnlock => exact .inl (.refl _)

theorem step_quiet {a : EntryAction ι κ} (h : EntryInv s) (hstep : EntryStep s a t) :
    Quiet s.chan t.chan ∨ s.chan.readClosed = false ∧ t.chan = readerClose s.chan := by
  cases hstep with
  | sys step => exact sys_quiet h step
  | @serveAsleep i c n line ch callers pc hch notify => exact .inl (processLine_quiet hch)
  | @closeAsleep i c n callers pc notify =>
      cases hclosed : s.chan.readClosed with
      | false => exact .inr ⟨rfl, rfl⟩
      | true => exact .inl (.of_events (by rw [readerClose_closed hclosed])
          (by rw [readerClose_closed hclosed]))
  | writeLine line ctrl => exact .inl (writeLine_quiet s.chan line ctrl)

/-- `close_handler_` has been called at most once, and not while the channel is open. -/
def HandledOnce (ch : ATChannel) : Prop :=
  ch.events.count .closeHandler ≤ 1 ∧ (ch.readClosed = false → .closeHandler ∉ ch.events)

theorem HandledOnce.step {a : EntryAction ι κ} (h : EntryInv s) (hstep : EntryStep s a t)
    (hs : HandledOnce s.chan) : HandledOnce t.chan := by
  rcases step_quiet h hstep with hquiet | ⟨hopen, hclose⟩
  · obtain ⟨new, hnew, hnone, -⟩ := hquiet.events
    constructor
    · rw [hnew, List.count_append, List.count_eq_zero.2 hnone]
      exact hs.1
    · intro hopen
      rw [hquiet.readClosed] at hopen
      simp [hnew, hnone, hs.2 hopen]
  · obtain ⟨fd, new, hnew, hone⟩ := readerClose_open hopen
    rw [hclose, hnew]
    constructor
    · rw [List.count_append, List.count_eq_zero.2 (hs.2 hopen), Nat.zero_add, hone]
      split <;> decide
    · intro hopen'
      cases hopen'

def Late : CallerPc → Prop
  | .asleep _ _ => False
  | .waking _ => False
  | .woken _ => False
  | .unlockingCond ret => ret = ATErrno.errorChannelClosed.code
  | .unlocking ret => ret = ATErrno.errorChannelClosed.code
  | _ => True

omit [DecidableEq κ] in
theorem late_setCaller {i j : ι} {pc : CallerPc} (hi : Late (s.callers i))
    (hpc : j = i → Late pc) : Late ((s.setCaller j pc).callers i) := by
  by_cases hij : j = i
  · subst hij
    simpa [Sys.setCaller] using hpc rfl
  · simpa [Sys.setCaller, Function.update_of_ne (Ne.symm hij)] using hi

omit [DecidableEq κ] in
theorem late_notified {ch : ATChannel} {callers : ι → CallerPc}
    (h : Notified s.chan ch s.callers callers) {i : ι} (hi : Late (s.callers i)) :
    Late (callers i) := by
  rcases Notified.pc h i with heq | ⟨c, hbefore, -⟩
  · rw [heq]
    exact hi
  · rw [hbefore] at hi
    exact hi.elim

theorem late_sys {a : SysAction ι κ} (h : EntryInv s) (hstep : Step s a t)
    (hclosed : s.chan.readClosed = true) {i : ι} (hi : Late (s.callers i)) :
    Late (t.callers i) := by
  cases hstep with
  | @call j c pc => exact late_setCaller hi fun _ => trivial
  | @lock j c pc free => exact late_setCaller hi fun _ => trivial
  | @sendReturn j c ret ch pc start =>
      rw [h.start_ok pc] at start
      cases start
  | @send j c ch pc start => exact late_setCaller hi fun _ => trivial
  | @lockCond j c pc free => exact late_setCaller hi fun _ => trivial
  | @leave j c rsp pc hrsp done =>
      refine late_setCaller hi fun _ => ?_
      simp [Late, takeResponse, hclosed]
  | @sleep j c rsp pc hrsp waits => simp [answered, hclosed] at waits
  | @wake j c n cause pc possible =>
      refine late_setCaller hi fun hji => ?_
      rw [hji] at pc
      rw [pc] at hi
      exact hi.elim
  | @relockCond j c pc free =>
      refine late_setCaller hi fun hji => ?_
      rw [hji] at pc
      rw [pc] at hi
      exact hi.elim
  | @resume j c errno pc herr => exact late_setCaller hi fun _ => trivial
  | @timeOut j c pc =>
      refine late_setCaller hi fun hji => ?_
      rw [hji] at pc
      rw [pc] at hi
      exact hi.elim
  | @unlockCond j ret pc =>
      refine late_setCaller hi fun hji => ?_
      rw [hji] at pc
      rw [pc] at hi
      exact hi
  | @unlock j ret pc => exact late_setCaller hi fun _ => trivial
  | @serve line ch callers pc hch notify => exact late_notified notify hi
  | @close k callers pc notify => exact late_notified notify hi
  | receive | readerLock | readerUnlock | enterClose | closerLock | closerUnlock => exact hi

theorem late_step {a : EntryAction ι κ} (h : EntryInv s) (hstep : EntryStep s a t)
    (hclosed : s.chan.readClosed = true) {i : ι} (hi : Late (s.callers i)) :
    Late (t.callers i) := by
  cases hstep with
  | sys step => exact late_sys h step hclosed hi
  | @serveAsleep j c n line ch callers pc hch notify => exact late_notified notify hi
  | @closeAsleep j c n callers pc notify => exact late_notified notify hi
  | writeLine line ctrl => exact hi

/-! ### Runs on the closed channel -/

def callSteps (i : ι) : List (EntryAction ι κ) :=
  [.sys (.lock (.caller i)), .sys (.send i), .sys (.lockCond i), .sys (.check i),
    .sys (.unlockCond i)]

theorem call_returns (h : EntryInv s) (hclosed : s.chan.readClosed = true) {i : ι} {c : Command}
    (hi : s.callers i = .locking c) (hfree : s.mutex = none) :
    ∃ u v, Run EntryStep s (callSteps i) u ∧
      u.callers i = .unlocking ATErrno.errorChannelClosed.code ∧ NoCommand u.chan ∧
      EntryStep u (.sys (.unlock (.caller i))) v ∧ v.callers i = .idle := by
  have hcmd : NoCommand s.chan :=
    h.noCommand_of_outside fun j => h.owned.outside (by simp [hfree])
  have hself : ∀ (s : Sys ι κ) pc, (s.setCaller i pc).callers i = pc :=
    fun s pc => Function.update_self ..
  have run : Run EntryStep s [] s := .nil
  have run := run.snoc (.sys (.lock hi hfree))
  have run := run.snoc (.sys (.send (hself _ _) (startCommand_ok c hcmd.rsp)))
  have run := run.snoc (.sys (.lockCond (hself _ _) (h.cond_free hfree)))
  have hclosed' : (writeLine s.chan c.cmd kCtrlEnter).2.readClosed = true :=
    (writeLine_quiet s.chan c.cmd kCtrlEnter).readClosed.trans hclosed
  have hdone : answered (setUp (writeLine s.chan c.cmd kCtrlEnter).2 c.type c.rspPrefix c.smsPdu)
      .alloc = true := by
    simp [answered, setUp, ATChannel.log, hclosed']
  have run := run.snoc (.sys (.leave (hself _ _) rfl hdone))
  have run := run.snoc (.sys (.unlockCond (hself _ _)))
  have hret : (takeResponse (setUp (writeLine s.chan c.cmd kCtrlEnter).2 c.type c.rspPrefix
      c.smsPdu) .alloc c.outRsp).ret = ATErrno.errorChannelClosed.code := by
    simp [takeResponse, setUp, ATChannel.log, hclosed']
  refine ⟨_, _, run, (hself _ _).trans (congrArg _ hret),
    clearPendingCommand_noCommand _, .sys (.unlock (hself _ _)), hself _ _⟩

structure StaysClosed (s : Sys ι κ) (bs : List (EntryAction ι κ)) (t : Sys ι κ) : Prop where
  readClosed : t.chan.readClosed = true
  silent : ∀ ev ∈ newEvents s.chan t.chan, silent ev = true
  writeLine : ∀ line ctrl ret, .writeLine line ctrl ret ∈ bs →
    ret = ATErrno.errorChannelClosed.code
  calls : ∀ i, s.callers i = .idle → Late (t.callers i)
  returned : ∀ i ret, returns (t.callers i) = some ret → NoCommand t.chan
  free : t.mutex = none → NoCommand t.chan
  returns : ∀ i c, t.callers i = .locking c → t.mutex = none →
    ∃ u v, Run EntryStep t (callSteps i) u ∧
      u.callers i = .unlocking ATErrno.errorChannelClosed.code ∧ NoCommand u.chan ∧
      EntryStep u (.sys (.unlock (.caller i))) v ∧ v.callers i = .idle

theorem writeLine_label {line ctrl : Line} {ret : Int} (hclosed : s.chan.readClosed = true)
    (hstep : EntryStep s (.writeLine line ctrl ret) t) :
    ret = ATErrno.errorChannelClosed.code := by
  cases hstep
  rw [writeLine_closed hclosed]

theorem run_closed {bs : List (EntryAction ι κ)} (h : EntryInv s)
    (hclosed : s.chan.readClosed = true) (run : Run EntryStep s bs t) :
    EntryInv t ∧ Quiet s.chan t.chan ∧ (∀ i, Late (s.callers i) → Late (t.callers i)) ∧
      ∀ line ctrl ret, .writeLine line ctrl ret ∈ bs →
        ret = ATErrno.errorChannelClosed.code := by
  induction run with
  | nil => exact ⟨h, .refl _, fun _ => id, by simp⟩
  | @snoc bs b t u run last ih =>
      obtain ⟨ht, hquiet, hlate, hlines⟩ := ih
      have htclosed : t.chan.readClosed = true := hquiet.readClosed.trans hclosed
      refine ⟨ht.step last, ?_, ?_, ?_⟩
      · rcases step_quiet ht last with hlast | ⟨hopen, -⟩
        · exact hquiet.trans hlast
        · rw [htclosed] at hopen
          cases hopen
      · intro i hi
        exact late_step ht last htclosed (hlate i hi)
      · intro line ctrl ret hmem
        rw [List.mem_append, List.mem_singleton] at hmem
        rcases hmem with hmem | rfl
        · exact hlines line ctrl ret hmem
        · exact writeLine_label htclosed last

theorem run_staysClosed {bs : List (EntryAction ι κ)} (h : EntryInv s)
    (hclosed : s.chan.readClosed = true) (run : Run EntryStep s bs t) :
    StaysClosed s bs t := by
  obtain ⟨ht, hquiet, hlate, hlines⟩ := run_closed h hclosed run
  have htclosed : t.chan.readClosed = true := hquiet.readClosed.trans hclosed
  refine ⟨htclosed, fun ev hev => hquiet.newEvents hclosed hev, hlines, ?_,
    fun i ret hret => ht.noCommand_of_returns hret, ht.noCommand_of_free,
    fun i c hi hfree => call_returns ht htclosed hi hfree⟩
  intro i hi
  apply hlate
  rw [hi]
  trivial

/-- In every run `close_handler_` is called at most once, and from the state in
which the channel is closed on it stays so, whatever the entry points do. -/
theorem closing_permanent {ch : ATChannel} (hch : NoCommand ch)
    (hlog : .closeHandler ∉ ch.events) {as : List (EntryAction ι κ)} {s : Sys ι κ}
    (run : Run EntryStep (initial ch) as s) :
    s.chan.events.count .closeHandler ≤ 1 ∧
    (s.chan.readClosed = true →
      ∀ (bs : List (EntryAction ι κ)) (t : Sys ι κ), Run EntryStep s bs t →
        StaysClosed s bs t) := by
  have hboth : EntryInv s ∧ HandledOnce s.chan := by
    apply Run.invariant (fun s => EntryInv s ∧ HandledOnce s.chan) _ _ run
    · intro s a t hstep h
      exact ⟨h.1.step hstep, h.2.step h.1 hstep⟩
    · refine ⟨entryInv_initial hch, ?_, fun _ => hlog⟩
      change ch.events.count .closeHandler ≤ 1
      rw [List.count_eq_zero.2 hlog]
      decide
  exact ⟨hboth.2.1, fun hclosed bs t run' => run_staysClosed hboth.1 hclosed run'⟩

end

/-- The channel is closed by a closer.  `WriteLine` is then refused, and a command that is
started afterwards returns as one on a closed channel. -/
theorem closing_permanent_writeLine :
    ∃ (s t : Sys Unit Unit) (bs : List (EntryAction Unit Unit)), s.chan.readClosed = true ∧
      .writeLine (text "AT") kCtrlEnter ATErrno.errorChannelClosed.code ∈ bs ∧
      returns (t.callers ()) = some ATErrno.errorChannelClosed.code ∧ StaysClosed s bs t := by
  let c : Command := ⟨text "AT", .noResult, none, none, 250, true⟩
  have run : Run EntryStep (initial (.opened 3 []) : Sys Unit Unit) [] _ := .nil
  have run := run.snoc (.sys (Step.enterClose (k := ()) rfl))
  have run := run.snoc (.sys (Step.closerLock (k := ()) rfl rfl))
  have run := run.snoc (.sys (Step.close (k := ()) rfl (Notified.of_outside fun _ => rfl)))
  have run := run.snoc (.sys (Step.closerUnlock (k := ()) rfl))
  have hstays := (closing_permanent ⟨rfl, rfl, rfl⟩ (by simp [ATChannel.opened]) run).2 rfl
  refine ⟨_, _, _, rfl, ?_, ?_, hstays _ _
    ((Run.single (.writeLine _ (text "AT") kCtrlEnter)
      |>.snoc (.sys (Step.call (i := ()) (c := c) rfl))
      |>.snoc (.sys (Step.lock (i := ()) rfl rfl))
      |>.snoc (.sys (Step.send (i := ()) rfl (startCommand_ok c rfl)))
      |>.snoc (.sys (Step.lockCond (i := ()) (c := c) rfl rfl))
      |>.snoc (.sys (Step.leave (i := ()) (c := c) rfl rfl rfl))))⟩
  · exact .head _
  · rfl

end Mobile.Channel.Proofs.Closed
