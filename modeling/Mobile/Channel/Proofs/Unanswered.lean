import Mobile.ProofSupport.Transition
import Mobile.Channel.Proofs.Collection
import Mobile.Channel.Proofs.Pending

/-!
# No command is answered

A caller waits on `cond_` with `mutex_` in its hands, and `ProcessLine` locks `mutex_`
before it looks at a line.  So the reader never finds a command pending: every line goes to
the unsolicited handler, and a command ends by its timeout or because the channel was
closed before it was sent.
-/

namespace Mobile.Channel.Proofs.Unanswered

open Mobile.Token.Scan Mobile.ProofSupport.Transition
open Mobile.Channel.Types Mobile.Channel.WriteLine Mobile.Channel.ProcessLine
open Mobile.Channel.SendCommand Mobile.Channel.Concurrent
open Mobile.Channel.Proofs.WriteSpec Mobile.Channel.Proofs.Log Mobile.Channel.Proofs.Locking
open Mobile.Channel.Proofs.Pending Mobile.Channel.Proofs.Collection

variable {ι κ : Type*}

def receivedLines (as : List (SysAction ι κ)) : List Line :=
  as.filterMap fun
    | .receive line => some line
    | _ => none

/-- The line that the reader has taken from the wire and has not handed on. -/
def atHand : ReaderPc → List Line
  | .locking line => [line]
  | .serving line => [line]
  | _ => []

def Fails (ret : Int) : Prop :=
  ret = ATErrno.errorChannelClosed.code ∨ ret = ATErrno.errorTimeout.code

/-- After the actions `as` every pending response is still empty, every call that returns
fails, and the lines received have gone to the unsolicited handler, in their order. -/
structure NoAnswer (ch : ATChannel) (as : List (SysAction ι κ)) (s : Sys ι κ) : Prop where
  untouched : ∀ rsp, s.chan.rsp = some rsp → rsp = .alloc
  fails : ∀ i ret, returns (s.callers i) = some ret → Fails ret
  handler : s.chan.unsolHandler = ch.unsolHandler
  lines : ∃ served, receivedLines as = served ++ atHand s.reader ∧
    unsolCalls s.chan.events =
      unsolCalls ch.events ++ if ch.unsolHandler then served.map (·, none) else []

/-! ### What leaves the handler alone -/

structure Silent (ch ch' : ATChannel) : Prop where
  handler : ch'.unsolHandler = ch.unsolHandler
  calls : unsolCalls ch'.events = unsolCalls ch.events

theorem Silent.refl (ch : ATChannel) : Silent ch ch := ⟨rfl, rfl⟩

theorem silent_log (ch : ATChannel) {ev : Event} (h : unsolCalls [ev] = []) :
    Silent ch (ch.log ev) :=
  ⟨rfl, by rw [ATChannel.log, unsolCalls_append, h, List.append_nil]⟩

theorem writeLine_silent (ch : ATChannel) (s ctrl : Line) : Silent ch (writeLine ch s ctrl).2 := by
  obtain ⟨sent, ⟨writes, hch⟩, -⟩ := writeLine_spec ch s ctrl
  rw [hch]
  refine ⟨rfl, ?_⟩
  simp only [ATChannel.log, unsolCalls_append]
  simp [unsolCalls]

theorem startCommand_silent {ch ch' : ATChannel} {c : Command} (hrsp : ch.rsp = none)
    (h : startCommand ch c = .ok ch') : Silent ch ch' ∧ ch'.rsp = some .alloc := by
  rw [startCommand_ok c hrsp] at h
  cases h
  obtain ⟨hhandler, hcalls⟩ := writeLine_silent ch c.cmd kCtrlEnter
  refine ⟨⟨hhandler, ?_⟩, rfl⟩
  rw [← hcalls, setUp, ATChannel.log, unsolCalls_append]
  simp [unsolCalls]

theorem readerClose_silent (ch : ATChannel) : Silent ch (readerClose ch) := by
  unfold readerClose
  split
  · exact .refl ch
  · constructor
    · dsimp only
      split_ifs <;> rfl
    · dsimp only
      split_ifs <;> simp [ATChannel.log, unsolCalls]

theorem afterUnlock_silent (ch : ATChannel) (ret : Int) : Silent ch (afterUnlock ch ret) := by
  unfold afterUnlock
  split
  · exact silent_log ch rfl
  · exact .refl ch

/-! ### One step -/

section Step

variable {ch : ATChannel} {as : List (SysAction ι κ)} {s t : Sys ι κ} {a : SysAction ι κ}

theorem NoAnswer.quiet (h : NoAnswer ch as s) (hsilent : Silent s.chan t.chan)
    (hrsp : ∀ rsp, t.chan.rsp = some rsp → rsp = .alloc)
    (hfails : ∀ i ret, returns (t.callers i) = some ret → Fails ret)
    (hread : atHand s.reader ++ receivedLines [a] = atHand t.reader) :
    NoAnswer ch (as ++ [a]) t := by
  obtain ⟨served, hreceived, hcalls⟩ := h.lines
  refine ⟨hrsp, hfails, hsilent.handler.trans h.handler, served, ?_, hsilent.calls.trans hcalls⟩
  rw [← hread, ← List.append_assoc, ← hreceived]
  exact List.filterMap_append

variable [DecidableEq ι]

theorem NoAnswer.update_fails (h : NoAnswer ch as s) {i : ι} {pc : CallerPc}
    (hpc : ∀ ret, returns pc = some ret → Fails ret) (j : ι) (ret : Int)
    (hret : returns ((s.setCaller i pc).callers j) = some ret) : Fails ret := by
  by_cases hji : j = i
  · subst hji
    exact hpc ret (by simpa [Sys.setCaller] using hret)
  · exact h.fails j ret (by simpa [Sys.setCaller, Function.update_of_ne hji] using hret)

theorem idle_fails {pc : CallerPc} (hpc : returns pc = none) (ret : Int)
    (hret : returns pc = some ret) : Fails ret := by
  rw [hpc] at hret
  cases hret

/-- A caller goes on without touching the channel and without returning. -/
theorem NoAnswer.goes_on (h : NoAnswer ch as s) {i : ι} {pc : CallerPc}
    {mutex : Option (Thread ι κ)} {mutexCond : Option ι} (hpc : returns pc = none)
    (hread : receivedLines [a] = []) :
    NoAnswer ch (as ++ [a])
      { s.setCaller i pc with mutex := mutex, mutexCond := mutexCond } :=
  h.quiet (.refl _) h.untouched (h.update_fails (idle_fails hpc)) (by simp [hread, Sys.setCaller])

/-- The reader owns `mutex_`, so it finds no command: the line goes to the handler. -/
theorem NoAnswer.serve (h : NoAnswer ch as s) (hinv : Inv s) {line : Line} {ch' : ATChannel}
    {callers : ι → CallerPc} (pc : s.reader = .serving line)
    (hch : processLine s.chan line = some ch') (notify : Notified s.chan ch' s.callers callers) :
    NoAnswer ch (as ++ [.serve])
      { s with reader := .unlocking, chan := ch', callers := callers } := by
  have howns := hinv.reader_owns (by rw [pc]; rfl)
  have hnone := hinv.no_caller (by simp [howns])
  have hrsp := hinv.rsp_of_outside hnone
  obtain rfl : handleUnsolicited s.chan line = ch' := by simpa [processLine, hrsp] using hch
  obtain ⟨served, hreceived, hcalls⟩ := h.lines
  refine ⟨?_, ?_, ?_, served ++ [line], ?_, ?_⟩
  · intro rsp hpending
    rw [processLine_rsp_none hrsp hch] at hpending
    cases hpending
  · rw [Notified.eq notify hnone]
    exact h.fails
  · exact (handleUnsolicited_served s.chan line).unsolHandler.trans h.handler
  · rw [pc] at hreceived
    simpa [receivedLines, atHand] using hreceived
  · rw [handleUnsolicited, h.handler]
    cases hhandler : ch.unsolHandler with
    | true =>
        simp only [hhandler, if_true] at hcalls ⊢
        rw [ATChannel.log, unsolCalls_append, hcalls]
        simp [unsolCalls]
    | false => simpa [hhandler] using hcalls

/-- A caller that leaves its wait has found the channel closed. -/
theorem takeResponse_fails {rsp : ATResponse} (halloc : rsp = .alloc) (outRsp : Bool)
    {ch : ATChannel} (hdone : answered ch rsp = true) : Fails (takeResponse ch rsp outRsp).ret := by
  have hclosed : ch.readClosed = true := by simpa [answered, halloc, ATResponse.alloc] using hdone
  exact .inl (by simp [takeResponse, hclosed])

variable [DecidableEq κ]

theorem NoAnswer.step (h : NoAnswer ch as s) (hinv : Inv s) (hstep : Step s a t) :
    NoAnswer ch (as ++ [a]) t := by
  cases hstep with
  | call pc => exact h.goes_on rfl rfl
  | lock pc free => exact h.goes_on rfl rfl
  | @sendReturn i c ret ch' pc start =>
      rw [startCommand_ok c (hinv.rsp_of_owner (by rw [pc]; rfl) (by rw [pc]; rfl))] at start
      cases start
  | @send i c ch' pc start =>
      have hrsp := hinv.rsp_of_owner (by rw [pc]; rfl) (by rw [pc]; rfl)
      obtain ⟨hsilent, halloc⟩ := startCommand_silent hrsp start
      refine h.quiet hsilent ?_ (h.update_fails (idle_fails rfl)) (List.append_nil _)
      intro rsp hpending
      rw [halloc] at hpending
      exact (Option.some.inj hpending).symm
  | lockCond pc free => exact h.goes_on rfl rfl
  | @leave i c rsp pc hrsp done =>
      refine h.quiet ⟨rfl, rfl⟩ nofun (h.update_fails ?_) (List.append_nil _)
      intro ret hret
      cases hret
      exact takeResponse_fails (h.untouched rsp hrsp) c.outRsp done
  | sleep pc hrsp waits =>
      exact h.quiet (silent_log _ rfl) h.untouched (h.update_fails (idle_fails rfl))
        (List.append_nil _)
  | wake pc possible => exact h.goes_on rfl rfl
  | relockCond pc free => exact h.goes_on rfl rfl
  | resume pc herr => exact h.goes_on rfl rfl
  | timeOut pc =>
      refine h.quiet ⟨rfl, rfl⟩ nofun (h.update_fails ?_) (List.append_nil _)
      intro ret hret
      cases hret
      exact .inr rfl
  | @unlockCond i ret pc =>
      refine h.quiet (.refl _) h.untouched (h.update_fails ?_) (List.append_nil _)
      intro ret' hret
      exact h.fails i ret' (by rw [pc]; exact hret)
  | @unlock i ret pc =>
      refine h.quiet (afterUnlock_silent _ _) ?_ (h.update_fails (idle_fails rfl)) (List.append_nil _)
      rw [afterUnlock_rsp]
      exact h.untouched
  | receive pc =>
      exact h.quiet (.refl _) h.untouched h.fails (by rw [pc]; rfl)
  | readerLock pc free =>
      exact h.quiet (.refl _) h.untouched h.fails (by rw [pc]; rfl)
  | @serve line ch' callers pc hch notify =>
      exact h.serve hinv pc hch notify
  | readerUnlock pc =>
      exact h.quiet (.refl _) h.untouched h.fails (by rw [pc]; rfl)
  | enterClose pc => exact h.quiet (.refl _) h.untouched h.fails (List.append_nil _)
  | closerLock pc free => exact h.quiet (.refl _) h.untouched h.fails (List.append_nil _)
  | @close k callers pc notify =>
      have howns := hinv.closer_owns k (by rw [pc]; rfl)
      have hnone := hinv.no_caller (by simp [howns])
      refine h.quiet (readerClose_silent _) ?_ ?_ (List.append_nil _)
      · rw [readerClose_rsp]
        exact h.untouched
      · rw [Notified.eq notify hnone]
        exact h.fails
  | closerUnlock pc => exact h.quiet (.refl _) h.untouched h.fails (List.append_nil _)

/-- In no run of callers, reader and closers does a command get an answer: its response
stays empty, its call returns `AT_ERROR_CHANNEL_CLOSED` or `AT_ERROR_TIMEOUT`, and every
line received goes to the unsolicited handler, once and in order. -/
theorem no_command_answered (hch : ch.rsp = none)
    (run : Run Step (initial ch : Sys ι κ) as s) : NoAnswer ch as s := by
  have hboth : Inv s ∧ NoAnswer ch as s := by
    induction run with
    | nil =>
        refine ⟨inv_initial hch, ?_, by simp [initial, returns], rfl, [], rfl, ?_⟩
        · intro rsp hrsp
          rw [show (initial ch : Sys ι κ).chan.rsp = none from hch] at hrsp
          cases hrsp
        · cases ch.unsolHandler <;> simp [initial]
    | snoc _ last ih => exact ⟨inv_step last ih.1, ih.2.step ih.1 last⟩
  exact hboth.2

end Step

def timedAT : Command := ⟨text "AT", .noResult, none, none, 250, true⟩

/-- The wait expires with the `OK` at `mutex_`. -/
theorem no_command_answered_ok :
    ∃ (as : List (SysAction Unit Unit)) (s : Sys Unit Unit),
      Run Step (initial (.opened 3 [])) as s ∧ s.reader = .locking (text "OK") ∧
      returns (s.callers ()) = some ATErrno.errorTimeout.code ∧
      NoAnswer (.opened 3 []) as s := by
  have hexpires : WakeCause.expired.possible timedAT false := by
    show timedAT.timeoutMsec ≠ 0
    decide
  have run : Run Step (initial (.opened 3 []) : Sys Unit Unit) [] _ := .nil
  have run := run.snoc (.call (i := ()) (c := timedAT) rfl)
  have run := run.snoc (.lock (i := ()) rfl rfl)
  have run := run.snoc (.send (i := ()) rfl (startCommand_ok timedAT rfl))
  have run := run.snoc (.lockCond (i := ()) (c := timedAT) rfl rfl)
  have run := run.snoc (.sleep (i := ()) (c := timedAT) rfl rfl rfl)
  have run := run.snoc (a := .receive (text "OK")) (.receive rfl)
  have run := run.snoc (.wake (i := ()) rfl hexpires)
  have run := run.snoc (.relockCond (i := ()) (c := timedAT) rfl rfl)
  have run := run.snoc (.timeOut (i := ()) (c := timedAT) rfl)
  exact ⟨_, _, run, rfl, rfl, no_command_answered rfl run⟩

end Mobile.Channel.Proofs.Unanswered
