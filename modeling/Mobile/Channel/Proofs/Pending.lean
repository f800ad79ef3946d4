import Mobile.ProofSupport.Mutex
import Mobile.ProofSupport.Transition
import Mobile.Channel.Entries
import Mobile.Channel.Proofs.Locking

/-!
# No command is left pending

Whoever is inside a function that locks `mutex_` owns it, so a command is pending
only while its caller waits.  Every way out of the wait clears the command, and a
caller that enters finds none.
-/

namespace Mobile.Channel.Proofs.Pending

open Mobile.Token.Scan Mobile.ProofSupport.Transition Mobile.ProofSupport.Mutex
open Mobile.Channel.Types Mobile.Channel.WriteLine Mobile.Channel.ProcessLine
open Mobile.Channel.SendCommand Mobile.Channel.Concurrent Mobile.Channel.Entries
open Mobile.Channel.Proofs.WriteSpec Mobile.Channel.Proofs.Log Mobile.Channel.Proofs.Locking

/-! ### The three members of a pending command -/

theorem clearPendingCommand_noCommand (ch : ATChannel) : NoCommand ch.clearPendingCommand :=
  ⟨rfl, rfl, rfl⟩

theorem writeLine_noCommand {ch : ATChannel} (h : NoCommand ch) (s ctrl : Line) :
    NoCommand (writeLine ch s ctrl).2 := by
  obtain ⟨sent, ⟨writes, hch⟩, -⟩ := writeLine_spec ch s ctrl
  rw [hch]
  exact ⟨h.rsp, h.rspPrefix, h.smsPdu⟩

theorem handleUnsolicited_noCommand {ch : ATChannel} (h : NoCommand ch) (line : Line) :
    NoCommand (handleUnsolicited ch line) := by
  unfold handleUnsolicited
  split
  · exact ⟨h.rsp, h.rspPrefix, h.smsPdu⟩
  · exact h

theorem processLine_noCommand {ch ch' : ATChannel} {line : Line} (h : NoCommand ch)
    (hch : processLine ch line = some ch') : ch' = handleUnsolicited ch line := by
  simpa [processLine, h.rsp] using hch.symm

theorem readerClose_noCommand {ch : ATChannel} (h : NoCommand ch) :
    NoCommand (readerClose ch) := by
  cases hclosed : ch.readClosed with
  | true => rwa [readerClose_closed hclosed]
  | false =>
      obtain ⟨fd, new, hclose, -⟩ := readerClose_open hclosed
      rw [hclose]
      exact ⟨h.rsp, h.rspPrefix, h.smsPdu⟩

theorem afterUnlock_noCommand {ch : ATChannel} (h : NoCommand ch) (ret : Int) :
    NoCommand (afterUnlock ch ret) := by
  unfold afterUnlock
  split
  · exact ⟨h.rsp, h.rspPrefix, h.smsPdu⟩
  · exact h

theorem takeResponse_ret (ch : ATChannel) (rsp : ATResponse) (outRsp : Bool) :
    (takeResponse ch rsp outRsp).ret ≠ ATErrno.errorCommandPending.code := by
  unfold takeResponse
  dsimp only
  split <;> decide

/-! ### Who is inside -/

section

variable {ι κ : Type*}

def Inside (s : Sys ι κ) : Thread ι κ → Prop
  | .caller i => callerHolds (s.callers i) = true
  | .reader => readerHolds s.reader = true
  | .closer k => closerHolds (s.closers k) = true

def returns : CallerPc → Option Int
  | .unlockingCond ret => some ret
  | .unlocking ret => some ret
  | _ => none

structure EntryInv (s : Sys ι κ) : Prop where
  owned : Owned (Inside s) s.mutex
  cond_owner : ∀ i, s.mutexCond = some i → callerHoldsCond (s.callers i) = true
  clear : (∀ i, waitsFor (s.callers i) = none) → NoCommand s.chan
  accepted : ∀ i, returns (s.callers i) ≠ some ATErrno.errorCommandPending.code

theorem entryInv_initial {ch : ATChannel} (hch : NoCommand ch) :
    EntryInv (initial ch : Sys ι κ) where
  owned := by
    intro t ht
    cases t <;> simp [Inside, initial, callerHolds, readerHolds, closerHolds] at ht
  cond_owner := by simp [initial]
  clear := fun _ => hch
  accepted := by simp [initial, returns]

variable {s t : Sys ι κ} {i : ι}

theorem EntryInv.noCommand_of_outside (h : EntryInv s)
    (hnone : ∀ i, ¬ Inside s (.caller i)) : NoCommand s.chan :=
  h.clear fun i => waitsFor_eq_none (by simpa [Inside] using hnone i)

theorem EntryInv.others_outside (h : EntryInv s) (hi : Inside s (.caller i)) (j : ι)
    (hj : j ≠ i) : callerHolds (s.callers j) = false := by
  rw [← Bool.not_eq_true]
  intro hin
  have hsame : Thread.caller j = (.caller i : Thread ι κ) := h.owned.unique hin hi
  cases hsame
  exact hj rfl

theorem EntryInv.noCommand_of_free (h : EntryInv s) (hfree : s.mutex = none) :
    NoCommand s.chan :=
  h.noCommand_of_outside fun _ => h.owned.outside (by simp [hfree])

theorem EntryInv.noCommand_of_caller (h : EntryInv s) (hi : Inside s (.caller i))
    (hw : waitsFor (s.callers i) = none) : NoCommand s.chan := by
  apply h.clear
  intro j
  by_cases hji : j = i
  · rw [hji]
    exact hw
  · exact waitsFor_eq_none (h.others_outside hi j hji)

theorem EntryInv.noCommand_of_returns (h : EntryInv s) {ret : Int}
    (hret : returns (s.callers i) = some ret) : NoCommand s.chan := by
  apply h.noCommand_of_caller (i := i)
  · cases hpc : s.callers i <;> simp [hpc, returns] at hret <;> simp [Inside, hpc, callerHolds]
  · cases hpc : s.callers i <;> simp [hpc, returns] at hret <;> rfl

theorem EntryInv.keep_cond (h : EntryInv s) (hi : Inside s (.caller i)) {pc : CallerPc}
    (hpc : callerHoldsCond (s.callers i) = true → callerHoldsCond pc = true) (j : ι)
    (hj : s.mutexCond = some j) : j = i ∧ callerHoldsCond pc = true := by
  have hcond := h.cond_owner j hj
  have hsame : Thread.caller j = (.caller i : Thread ι κ) :=
    h.owned.unique (callerHolds_of_holdsCond hcond) hi
  cases hsame
  exact ⟨rfl, hpc hcond⟩

theorem EntryInv.cond_free (h : EntryInv s) (hfree : s.mutex = none) : s.mutexCond = none := by
  rw [Option.eq_none_iff_forall_not_mem]
  intro i hi
  have hin : Inside s (.caller i) := callerHolds_of_holdsCond (h.cond_owner i hi)
  have howner := h.owned _ hin
  rw [hfree] at howner
  cases howner

theorem EntryInv.start_ok (h : EntryInv s) {c : Command} (pc : s.callers i = .sending c) :
    startCommand s.chan c =
      .ok (setUp (writeLine s.chan c.cmd kCtrlEnter).2 c.type c.rspPrefix c.smsPdu) := by
  have hi : Inside s (.caller i) := by simp [Inside, pc, callerHolds]
  have hcmd : NoCommand s.chan := h.noCommand_of_caller hi (by rw [pc]; rfl)
  exact startCommand_ok c hcmd.rsp

variable [DecidableEq ι]

theorem Notified.pc {ch ch' : ATChannel} {callers callers' : ι → CallerPc}
    (h : Notified ch ch' callers callers') (i : ι) :
    callers' i = callers i ∨
      ∃ c, callers i = .asleep c false ∧ callers' i = .asleep c true := by
  unfold Notified at h
  split at h
  · rcases h with ⟨j, c, hj, rfl⟩ | ⟨-, rfl⟩
    · by_cases hij : i = j
      · subst hij
        exact .inr ⟨c, hj, Function.update_self ..⟩
      · exact .inl (Function.update_of_ne hij ..)
    · exact .inl rfl
  · exact .inl (by rw [h])

theorem Notified.view {α : Type*} (f : CallerPc → α)
    (hf : ∀ c, f (.asleep c true) = f (.asleep c false)) {ch ch' : ATChannel}
    {callers callers' : ι → CallerPc} (h : Notified ch ch' callers callers') (i : ι) :
    f (callers' i) = f (callers i) := by
  rcases Notified.pc h i with heq | ⟨c, hbefore, hafter⟩
  · rw [heq]
  · rw [hbefore, hafter, hf]

/-- A step of the reader, a closer or an outsider: the callers are at most notified. -/
theorem EntryInv.step_other (h : EntryInv s) {ch : ATChannel}
    (hcallers : Notified s.chan ch s.callers t.callers) (hcond : t.mutexCond = s.mutexCond)
    (howned : Owned (Inside t) t.mutex)
    (hclear : (∀ i, waitsFor (s.callers i) = none) → NoCommand t.chan) : EntryInv t := by
  refine ⟨howned, ?_, ?_, ?_⟩
  · intro j hj
    rw [Notified.view callerHoldsCond (fun _ => rfl) hcallers]
    exact h.cond_owner j (hcond ▸ hj)
  · intro hnone
    apply hclear
    intro j
    rw [← Notified.view waitsFor (fun _ => rfl) hcallers]
    exact hnone j
  · intro j
    rw [Notified.view returns (fun _ => rfl) hcallers]
    exact h.accepted j

theorem Notified.of_outside {ch ch' : ATChannel} {callers : ι → CallerPc}
    (hnone : ∀ i, callerHolds (callers i) = false) : Notified ch ch' callers callers := by
  unfold Notified
  split
  · refine .inr ⟨fun i c hi => ?_, rfl⟩
    exact absurd (hnone i) (by simp [hi, callerHolds])
  · rfl

theorem Notified.refl (ch : ATChannel) (callers : ι → CallerPc) :
    Notified ch ch callers callers := by
  simp [Notified]

theorem moves_caller {pc : CallerPc} (hcallers : t.callers = Function.update s.callers i pc)
    (hreader : t.reader = s.reader) (hclosers : t.closers = s.closers) :
    Moves (.caller i) (Inside s) (Inside t) := by
  intro th hne hin
  cases th with
  | caller j =>
      have hji : j ≠ i := fun hji => hne (congrArg Thread.caller hji)
      simpa [Inside, hcallers, Function.update_of_ne hji] using hin
  | reader => simpa [Inside, hreader] using hin
  | closer k => simpa [Inside, hclosers] using hin

theorem moves_reader {ch : ATChannel} (hcallers : Notified s.chan ch s.callers t.callers)
    (hclosers : t.closers = s.closers) : Moves .reader (Inside s) (Inside t) := by
  intro th hne hin
  cases th with
  | caller j => simpa [Inside, Notified.view callerHolds (fun _ => rfl) hcallers j] using hin
  | reader => exact absurd rfl hne
  | closer k => simpa [Inside, hclosers] using hin

theorem moves_closer [DecidableEq κ] {ch : ATChannel} {k : κ} {pc : CloserPc}
    (hcallers : Notified s.chan ch s.callers t.callers) (hreader : t.reader = s.reader)
    (hclosers : t.closers = Function.update s.closers k pc) :
    Moves (.closer k) (Inside s) (Inside t) := by
  intro th hne hin
  cases th with
  | caller j => simpa [Inside, Notified.view callerHolds (fun _ => rfl) hcallers j] using hin
  | reader => simpa [Inside, hreader] using hin
  | closer j =>
      have hjk : j ≠ k := fun hjk => hne (congrArg Thread.closer hjk)
      simpa [Inside, hclosers, Function.update_of_ne hjk] using hin

theorem EntryInv.step_caller (h : EntryInv s) {pc : CallerPc}
    (hcallers : t.callers = Function.update s.callers i pc) (howned : Owned (Inside t) t.mutex)
    (hcond : ∀ j, t.mutexCond = some j →
      j = i ∧ callerHoldsCond pc = true ∨ j ≠ i ∧ s.mutexCond = some j)
    (hclear : (∀ j, j ≠ i → waitsFor (s.callers j) = none) → waitsFor pc = none →
      NoCommand t.chan)
    (haccepted : returns pc ≠ some ATErrno.errorCommandPending.code) : EntryInv t := by
  have hself : t.callers i = pc := by rw [hcallers, Function.update_self]
  have helse : ∀ j, j ≠ i → t.callers j = s.callers j := by
    intro j hj
    rw [hcallers, Function.update_of_ne hj]
  refine ⟨howned, ?_, ?_, ?_⟩
  · intro j hj
    rcases hcond j hj with ⟨rfl, hpc⟩ | ⟨hne, hs⟩
    · rw [hself]
      exact hpc
    · rw [helse j hne]
      exact h.cond_owner j hs
  · intro hnone
    refine hclear (fun j hj => ?_) (hself ▸ hnone i)
    rw [← helse j hj]
    exact hnone j
  · intro j
    by_cases hji : j = i
    · rw [hji, hself]
      exact haccepted
    · rw [helse j hji]
      exact h.accepted j

/-- A step of the caller that owns `mutex_` and keeps it. -/
theorem EntryInv.move (h : EntryInv s) (hi : Inside s (.caller i)) {pc : CallerPc}
    {ch : ATChannel} {cond : Option ι}
    (hcond : ∀ j, cond = some j → j = i ∧ callerHoldsCond pc = true)
    (hclear : waitsFor pc = none → NoCommand ch)
    (haccepted : returns pc ≠ some ATErrno.errorCommandPending.code) :
    EntryInv { s.setCaller i pc with chan := ch, mutexCond := cond } := by
  refine h.step_caller rfl ?_ (fun j hj => .inl (hcond j hj)) (fun _ => hclear) haccepted
  exact h.owned.keep (moves_caller rfl rfl rfl) fun _ => hi

variable [DecidableEq κ]

theorem EntryInv.step_sys {a : SysAction ι κ} (h : EntryInv s) (hstep : Step s a t) :
    EntryInv t := by
  cases hstep with
  | @call i c pc =>
      have hout : ¬ Inside s (.caller i) := by simp [Inside, pc, callerHolds]
      refine h.step_caller rfl (h.owned.keep (moves_caller rfl rfl rfl) ?_) ?_ ?_
        (by simp [returns])
      · simp [Inside, Sys.setCaller, callerHolds]
      · intro j hj
        refine .inr ⟨?_, hj⟩
        rintro rfl
        exact hout (callerHolds_of_holdsCond (h.cond_owner j hj))
      · intro hothers _
        apply h.clear
        intro j
        by_cases hji : j = i
        · rw [hji, pc]
          rfl
        · exact hothers j hji
  | @lock i c pc free =>
      have hcond := h.cond_free free
      have howned : Owned (Inside s) none := free ▸ h.owned
      refine h.step_caller rfl (howned.acquire (moves_caller rfl rfl rfl))
        (by simp [Sys.setCaller, hcond]) ?_ (by simp [returns])
      intro _ _
      exact h.noCommand_of_outside fun j => howned.outside (by simp)
  | @sendReturn i c ret ch pc start =>
      rw [h.start_ok pc] at start
      cases start
  | @send i c ch pc start =>
      have hi : Inside s (.caller i) := by simp [Inside, pc, callerHolds]
      exact h.move hi (h.keep_cond hi (by simp [pc, callerHoldsCond])) (by simp [waitsFor])
        (by simp [returns])
  | @lockCond i c pc free =>
      exact h.move (by simp [Inside, pc, callerHolds]) (by simp [callerHoldsCond, eq_comm])
        (by simp [waitsFor]) (by simp [returns])
  | @leave i c rsp pc hrsp done =>
      have hi : Inside s (.caller i) := by simp [Inside, pc, callerHolds]
      exact h.move hi (h.keep_cond hi fun _ => rfl)
        (fun _ => clearPendingCommand_noCommand s.chan)
        (by simpa [returns] using takeResponse_ret s.chan rsp c.outRsp)
  | @sleep i c rsp pc hrsp waits =>
      exact h.move (by simp [Inside, pc, callerHolds]) (by simp) (by simp [waitsFor])
        (by simp [returns])
  | @wake i c n cause pc possible =>
      have hi : Inside s (.caller i) := by simp [Inside, pc, callerHolds]
      exact h.move hi (h.keep_cond hi (by simp [pc, callerHoldsCond])) (by simp [waitsFor])
        (by simp [returns])
  | @relockCond i c pc free =>
      exact h.move (by simp [Inside, pc, callerHolds]) (by simp [callerHoldsCond, eq_comm])
        (by simp [waitsFor]) (by simp [returns])
  | @resume i c errno pc herr =>
      have hi : Inside s (.caller i) := by simp [Inside, pc, callerHolds]
      exact h.move hi (h.keep_cond hi fun _ => rfl) (by simp [waitsFor]) (by simp [returns])
  | @timeOut i c pc =>
      have hi : Inside s (.caller i) := by simp [Inside, pc, callerHolds]
      exact h.move hi (h.keep_cond hi fun _ => rfl)
        (fun _ => clearPendingCommand_noCommand s.chan) (by decide)
  | @unlockCond i ret pc =>
      have hi : Inside s (.caller i) := by simp [Inside, pc, callerHolds]
      have hret := h.accepted i
      rw [pc] at hret
      exact h.move hi (by simp) (fun _ => h.noCommand_of_caller hi (by rw [pc]; rfl)) hret
  | @unlock i ret pc =>
      have hi : Inside s (.caller i) := by simp [Inside, pc, callerHolds]
      have hcmd : NoCommand s.chan := h.noCommand_of_caller hi (by rw [pc]; rfl)
      refine h.step_caller rfl (h.owned.release hi (moves_caller rfl rfl rfl) ?_) ?_
        (fun _ _ => afterUnlock_noCommand hcmd ret) (by simp [returns])
      · simp [Inside, Sys.setCaller, callerHolds]
      · intro j hj
        obtain ⟨-, hcond⟩ := h.keep_cond hi id j hj
        simp [pc, callerHoldsCond] at hcond
  | @receive line pc =>
      have hself := Notified.refl s.chan s.callers
      refine h.step_other hself rfl (h.owned.keep (moves_reader hself rfl) ?_) h.clear
      simp [Inside, readerHolds]
  | @readerLock line pc free =>
      have hself := Notified.refl s.chan s.callers
      have howned : Owned (Inside s) none := free ▸ h.owned
      exact h.step_other hself rfl (howned.acquire (moves_reader hself rfl)) h.clear
  | @serve line ch callers pc hch notify =>
      have hin : Inside s .reader := by simp [Inside, pc, readerHolds]
      refine h.step_other notify rfl (h.owned.keep (moves_reader notify rfl) fun _ => hin) ?_
      intro hnone
      rw [processLine_noCommand (h.clear hnone) hch]
      exact handleUnsolicited_noCommand (h.clear hnone) line
  | @readerUnlock pc =>
      have hself := Notified.refl s.chan s.callers
      have hin : Inside s .reader := by simp [Inside, pc, readerHolds]
      refine h.step_other hself rfl (h.owned.release hin (moves_reader hself rfl) ?_) h.clear
      simp [Inside, readerHolds]
  | @enterClose k pc =>
      have hself := Notified.refl s.chan s.callers
      refine h.step_other hself rfl (h.owned.keep (moves_closer hself rfl rfl) ?_) h.clear
      simp [Inside, Sys.setCloser, closerHolds]
  | @closerLock k pc free =>
      have hself := Notified.refl s.chan s.callers
      have howned : Owned (Inside s) none := free ▸ h.owned
      exact h.step_other hself rfl (howned.acquire (moves_closer hself rfl rfl)) h.clear
  | @close k callers pc notify =>
      have hin : Inside s (.closer k) := by simp [Inside, pc, closerHolds]
      exact h.step_other notify rfl (h.owned.keep (moves_closer notify rfl rfl) fun _ => hin)
        fun hnone => readerClose_noCommand (h.clear hnone)
  | @closerUnlock k pc =>
      have hself := Notified.refl s.chan s.callers
      have hin : Inside s (.closer k) := by simp [Inside, pc, closerHolds]
      refine h.step_other hself rfl (h.owned.release hin (moves_closer hself rfl rfl) ?_) h.clear
      simp [Inside, Sys.setCloser, closerHolds]

theorem EntryInv.step {a : EntryAction ι κ} (h : EntryInv s) (hstep : EntryStep s a t) :
    EntryInv t := by
  cases hstep with
  | sys step => exact h.step_sys step
  | @serveAsleep i c n line ch callers pc hch notify =>
      refine h.step_other notify rfl (h.owned.keep (moves_reader notify rfl) id) ?_
      intro hnone
      have hwaits := hnone i
      rw [pc] at hwaits
      cases hwaits
  | @closeAsleep i c n callers pc notify =>
      exact h.step_other notify rfl (h.owned.keep (moves_reader notify rfl) id) fun hnone =>
        readerClose_noCommand (h.clear hnone)
  | writeLine line ctrl =>
      exact h.step_other (Notified.refl s.chan s.callers) rfl h.owned fun hnone =>
        writeLine_noCommand (h.clear hnone) line ctrl

theorem run_entryInv {ch : ATChannel} (hch : NoCommand ch) {as : List (EntryAction ι κ)}
    (run : Run EntryStep (initial ch) as s) : EntryInv s :=
  Run.invariant EntryInv (fun _ _ _ hstep h => h.step hstep) (entryInv_initial hch) run

/-! ### Nothing pending, nothing refused -/

theorem processLine_writes_nothing {ch ch' : ATChannel} {line : Line} (h : NoCommand ch)
    (hch : processLine ch line = some ch') (r : WriteResult) (b : Line) :
    .write r b ∉ newEvents ch ch' := by
  rw [processLine_noCommand h hch]
  unfold newEvents handleUnsolicited
  split <;> simp [ATChannel.log]

/-- In every run from a channel without a command: when `mutex_` is free and
whenever `SendCommandNoLock` has returned, no command is pending; no call returns
`AT_ERROR_COMMAND_PENDING`; and a line that arrives while no caller waits, a prompt
among them, writes nothing. -/
theorem no_command_left_pending {ch : ATChannel} (hch : NoCommand ch)
    {as : List (EntryAction ι κ)} {s : Sys ι κ} (run : Run EntryStep (initial ch) as s) :
    (s.mutex = none → NoCommand s.chan) ∧
    (∀ i ret, returns (s.callers i) = some ret →
      NoCommand s.chan ∧ ret ≠ ATErrno.errorCommandPending.code) ∧
    (∀ line ch', (∀ i, waitsFor (s.callers i) = none) → processLine s.chan line = some ch' →
      ∀ r b, .write r b ∉ newEvents s.chan ch') ∧
    ∀ line, s.reader = .serving line → ∀ i, waitsFor (s.callers i) = none := by
  have h := run_entryInv hch run
  refine ⟨?_, ?_, ?_, ?_⟩
  · exact h.noCommand_of_free
  · intro i ret hret
    refine ⟨h.noCommand_of_returns hret, ?_⟩
    rintro rfl
    exact h.accepted i hret
  · intro line ch' hnone hserve r b
    exact processLine_writes_nothing (h.clear hnone) hserve r b
  · intro line hline i
    have hreader : Inside s .reader := by simp [Inside, hline, readerHolds]
    have hmutex : s.mutex ≠ some (.caller i) := by
      rw [h.owned _ hreader]
      simp
    exact waitsFor_eq_none (by simpa [Inside] using h.owned.outside hmutex)

end

def cmgsCommand : Command :=
  ⟨text "AT+CMGS=18", .singleLine, some (text "+CMGS:"), some (text "0011"), 250, true⟩

/-- A command that times out leaves nothing behind. -/
theorem no_command_left_pending_timeout :
    ∃ s : Sys Unit Unit, s.callers () = .unlockingCond ATErrno.errorTimeout.code ∧
      NoCommand s.chan := by
  have run : Run EntryStep (initial (.opened 3 []) : Sys Unit Unit) [] _ := .nil
  have run := run.snoc (.sys (Step.call (i := ()) (c := cmgsCommand) rfl))
  have run := run.snoc (.sys (Step.lock (i := ()) rfl rfl))
  have run := run.snoc (.sys (Step.send (i := ()) rfl (startCommand_ok cmgsCommand rfl)))
  have run := run.snoc (.sys (Step.lockCond (i := ()) (c := cmgsCommand) rfl rfl))
  have run := run.snoc (.sys (Step.sleep (i := ()) (c := cmgsCommand) rfl rfl rfl))
  have hexpired : WakeCause.expired.possible cmgsCommand false := by
    simp [WakeCause.possible, cmgsCommand]
  have run := run.snoc (.sys (Step.wake (i := ()) (c := cmgsCommand) rfl hexpired))
  have run := run.snoc (.sys (Step.relockCond (i := ()) (c := cmgsCommand) rfl rfl))
  have run := run.snoc (.sys (Step.timeOut (i := ()) (c := cmgsCommand) rfl))
  exact ⟨_, rfl, ((no_command_left_pending ⟨rfl, rfl, rfl⟩ run).2.1 () _ rfl).1⟩

end Mobile.Channel.Proofs.Pending
