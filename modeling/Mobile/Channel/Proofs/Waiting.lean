import Mobile.Channel.Proofs.Locking
import Mobile.ProofSupport.Transition

/-!
# Waiting for an answer

`SendCommandFull` holds `mutex_` across its wait on `mutex_cond_`, and both
`ProcessLine` and `ReaderClose` need `mutex_`: an answer that arrives during an
untimed wait cannot be delivered.
-/

namespace Mobile.Channel.Proofs.Waiting

open Mobile.Token.Scan Mobile.Channel.Types Mobile.Channel.ProcessLine
open Mobile.Channel.SendCommand Mobile.Channel.Concurrent Mobile.Channel.Proofs.Log
open Mobile.Channel.Proofs.Locking Mobile.ProofSupport.Transition

variable {ι κ : Type*}

def SleepsUntimed (s : Sys ι κ) (i : ι) (notified : Bool) : Prop :=
  ∃ c, s.callers i = .asleep c notified ∧ c.timeoutMsec = 0

def ReaderBlocked (s : Sys ι κ) (line : Line) : Prop :=
  s.reader = .locking line ∧ s.mutex ≠ none

def CloserBlocked (s : Sys ι κ) (k : κ) : Prop :=
  s.closers k = .locking ∧ s.mutex ≠ none

/-- No caller sleeps without a timeout while its answer or the close of the
channel is there. -/
structure NoneStuck (s : Sys ι κ) : Prop where
  line : ∀ i n l, SleepsUntimed s i n → isFinalResponse l = true → ¬ ReaderBlocked s l
  close : ∀ i n k, SleepsUntimed s i n → ¬ CloserBlocked s k
  notified : ∀ i, SleepsUntimed s i false →
    (∀ rsp, s.chan.rsp = some rsp → rsp.finalResp = none) ∧ s.chan.readClosed = false

def inCall : CallerPc → Option Command
  | .sending c => some c
  | pc => waitsFor pc

/-- On the open channel a call without a timeout owns `mutex_` and has not left
its wait loop. -/
def UntimedCall (s : Sys ι κ) : Prop :=
  ∃ i c, inCall (s.callers i) = some c ∧ c.timeoutMsec = 0 ∧ s.chan.readClosed = false

/-- The reader with a final response, or a `ReaderClose`, is at `mutex_`. -/
def AnswerAtMutex (s : Sys ι κ) : Prop :=
  (∃ l, s.reader = .locking l ∧ isFinalResponse l = true) ∨ ∃ k, s.closers k = .locking

/-- The condition on a step: a final response and a `ReaderClose` come to
`mutex_` only while no untimed call owns it, and an untimed call takes it only
while neither is there. -/
def Clear (s : Sys ι κ) : SysAction ι κ → Prop
  | .receive l => isFinalResponse l = true → ¬ UntimedCall s
  | .enterClose _ => ¬ UntimedCall s
  | .lock (.caller i) => ∀ c, s.callers i = .locking c → c.timeoutMsec = 0 →
      s.chan.readClosed = false → ¬ AnswerAtMutex s
  | _ => True

theorem callerHolds_of_inCall {pc : CallerPc} {c : Command} (h : inCall pc = some c) :
    callerHolds pc = true := by
  cases pc <;> first | rfl | cases h

theorem no_untimedCall {s : Sys ι κ} (hnone : ∀ i, callerHolds (s.callers i) = false) :
    ¬ UntimedCall s := by
  rintro ⟨i, c, hi, -⟩
  exact absurd (callerHolds_of_inCall hi) (by simp [hnone i])

/-- Only parts 1 and 2 need the condition: a sleeper owns `mutex_`, so nobody can
have answered it. -/
theorem noneStuck_of_inv {s : Sys ι κ} (h : Inv s)
    (hclear : UntimedCall s → ¬ AnswerAtMutex s) :
    NoneStuck s := by
  have huntimed : ∀ i n, SleepsUntimed s i n → UntimedCall s := by
    rintro i n ⟨c, hc, h0⟩
    exact ⟨i, c, by rw [hc]; rfl, h0, h.asleep_open i c n hc⟩
  constructor
  · intro i n l hs hl hb
    exact hclear (huntimed i n hs) (.inl ⟨l, hb.1, hl⟩)
  · intro i n k hs hb
    exact hclear (huntimed i n hs) (.inr ⟨k, hb.1⟩)
  · rintro i ⟨c, hc, -⟩
    obtain ⟨rsp, hrsp, hfinal⟩ := h.pending i c (by rw [hc]; rfl)
    refine ⟨?_, h.asleep_open i c false hc⟩
    intro rsp' hrsp'
    rw [hrsp] at hrsp'
    cases hrsp'
    exact hfinal

theorem not_noneStuck_of_asleep {s : Sys ι κ} (h : Inv s) {i : ι} {c : Command} {n : Bool}
    (hi : s.callers i = .asleep c n) (h0 : c.timeoutMsec = 0) (ha : AnswerAtMutex s) :
    ¬ NoneStuck s := by
  intro hnone
  have hmutex : s.mutex ≠ none := by simp [h.caller_owns i (by rw [hi]; rfl)]
  rcases ha with ⟨l, hl, hfinal⟩ | ⟨k, hk⟩
  · exact hnone.line i n l ⟨c, hi, h0⟩ hfinal ⟨hl, hmutex⟩
  · exact hnone.close i n k ⟨c, hi, h0⟩ ⟨hk, hmutex⟩

variable [DecidableEq ι]

theorem UntimedCall.of_move {s t : Sys ι κ} (h : Inv s) {i : ι}
    (hi : callerHolds (s.callers i) = true) {pc : CallerPc}
    (hcallers : t.callers = Function.update s.callers i pc)
    (hpc : ∀ c, inCall pc = some c →
      inCall (s.callers i) = some c ∧ t.chan.readClosed = s.chan.readClosed)
    (hu : UntimedCall t) : UntimedCall s := by
  obtain ⟨j, c, hj, h0, hopen⟩ := hu
  rw [hcallers] at hj
  by_cases hji : j = i
  · rw [hji, Function.update_self] at hj
    obtain ⟨hc, hclosed⟩ := hpc c hj
    exact ⟨i, c, hc, h0, hclosed ▸ hopen⟩
  · rw [Function.update_of_ne hji] at hj
    exact absurd (callerHolds_of_inCall hj) (by simp [h.others_outside hi j hji])

theorem startCommand_readClosed {ch ch' : ATChannel} {c : Command}
    (h : startCommand ch c = .ok ch') : ch'.readClosed = ch.readClosed := by
  have hrsp : ch.rsp = none := by
    by_contra hne
    simp [startCommand, hne] at h
  rw [startCommand_ok c hrsp] at h
  cases h
  exact (writeLine_served ch c.cmd kCtrlEnter).readClosed

variable [DecidableEq κ]

theorem step_untimedCall {s t : Sys ι κ} {a : SysAction ι κ} (hstep : Step s a t) (h : Inv s)
    (hu : UntimedCall t) :
    UntimedCall s ∨ ∃ i c, a = .lock (.caller i) ∧ s.callers i = .locking c ∧
      c.timeoutMsec = 0 ∧ s.chan.readClosed = false := by
  cases hstep with
  | @call i c pc =>
      obtain ⟨j, d, hj, h0, hopen⟩ := hu
      by_cases hji : j = i
      · simp [Sys.setCaller, hji, inCall, waitsFor] at hj
      · exact .inl ⟨j, d, by simpa [Sys.setCaller, Function.update_of_ne hji] using hj, h0, hopen⟩
  | @lock i c pc free =>
      obtain ⟨j, d, hj, h0, hopen⟩ := hu
      by_cases hji : j = i
      · simp [Sys.setCaller, hji, inCall] at hj
        exact .inr ⟨i, c, rfl, pc, hj ▸ h0, hopen⟩
      · exact .inl ⟨j, d, by simpa [Sys.setCaller, Function.update_of_ne hji] using hj, h0, hopen⟩
  | @sendReturn i c ret ch pc start =>
      exact .inl (hu.of_move h (by rw [pc]; rfl) rfl (by simp [inCall, waitsFor]))
  | @send i c ch pc start =>
      refine .inl (hu.of_move h (by rw [pc]; rfl) rfl fun d hd => ?_)
      exact ⟨by rw [pc]; exact hd, startCommand_readClosed start⟩
  | @lockCond i c pc free | @sleep i c _ pc _ _ | @wake i c _ _ pc _ | @relockCond i c pc free
  | @resume i c _ pc _ =>
      refine .inl (hu.of_move h (by rw [pc]; rfl) rfl fun d hd => ?_)
      exact ⟨by rw [pc]; exact hd, rfl⟩
  | @leave i c rsp pc hrsp done | @timeOut i c pc | @unlockCond i ret pc | @unlock i ret pc =>
      exact .inl (hu.of_move h (by rw [pc]; rfl) rfl (by simp [inCall, waitsFor]))
  | @receive line pc | @readerLock line pc free | @readerUnlock pc | @enterClose k pc
  | @closerLock k pc free | @closerUnlock k pc => exact .inl hu
  | @serve line ch callers pc hch notify =>
      have hnone := h.no_caller (by simp [h.reader_owns (by rw [pc]; rfl)])
      obtain rfl := Notified.eq notify hnone
      exact absurd hu (no_untimedCall hnone)
  | @close k callers pc notify =>
      have hnone := h.no_caller (by simp [h.closer_owns k (by rw [pc]; rfl)])
      obtain rfl := Notified.eq notify hnone
      exact absurd hu (no_untimedCall hnone)

theorem step_answerAtMutex {s t : Sys ι κ} {a : SysAction ι κ} (hstep : Step s a t)
    (ha : AnswerAtMutex t) :
    AnswerAtMutex s ∨ (∃ l, a = .receive l ∧ isFinalResponse l = true) ∨
      ∃ k, a = .enterClose k := by
  cases hstep with
  | call | lock | sendReturn | send | lockCond | leave | sleep | wake | relockCond | resume
  | timeOut | unlockCond | unlock => exact .inl ha
  | @receive line pc =>
      rcases ha with ⟨l, hl, hfinal⟩ | hk
      · cases hl
        exact .inr (.inl ⟨line, rfl, hfinal⟩)
      · exact .inl (.inr hk)
  | readerLock | serve | readerUnlock =>
      rcases ha with ⟨l, hl, -⟩ | hk
      · cases hl
      · exact .inl (.inr hk)
  | @enterClose k pc => exact .inr (.inr ⟨k, rfl⟩)
  | @closerLock k pc _ | @close k _ pc _ | @closerUnlock k pc =>
      rcases ha with hl | ⟨j, hj⟩
      · exact .inl (.inl hl)
      · by_cases hjk : j = k
        · simp [Sys.setCloser, hjk] at hj
        · exact .inl (.inr ⟨j, by simpa [Sys.setCloser, Function.update_of_ne hjk] using hj⟩)

/-- A step that meets the condition brings no answer and untimed call together. -/
theorem clear_step {s t : Sys ι κ} {a : SysAction ι κ} (hstep : Step s a t) (hok : Clear s a)
    (h : Inv s) (hclear : UntimedCall s → ¬ AnswerAtMutex s) :
    UntimedCall t → ¬ AnswerAtMutex t := by
  intro hu ha
  rcases step_untimedCall hstep h hu with hu' | ⟨i, c, rfl, hi, h0, hopen⟩
  · rcases step_answerAtMutex hstep ha with ha' | ⟨l, rfl, hl⟩ | ⟨k, rfl⟩
    · exact hclear hu' ha'
    · exact hok hl hu'
    · exact hok hu'
  · rcases step_answerAtMutex hstep ha with ha' | ⟨l, heq, -⟩ | ⟨k, heq⟩
    · exact hok c hi h0 hopen ha'
    · cases heq
    · cases heq

/-! ### A step against the condition -/

/-- `s` can still run into a state with a stuck caller. -/
def CanStick (s : Sys ι κ) : Prop :=
  ∃ as t, Run Step s as t ∧ ¬ NoneStuck t

theorem CanStick.of_step {s t : Sys ι κ} {a : SysAction ι κ} (hstep : Step s a t)
    (h : CanStick t) : CanStick s := by
  obtain ⟨as, u, hrun, hu⟩ := h
  exact ⟨[a] ++ as, u, (Run.single hstep).append hrun, hu⟩

section Stick

variable {s : Sys ι κ} {i : ι} {c : Command}

theorem canStick_checking (h : Inv s) (hi : s.callers i = .checking c) (h0 : c.timeoutMsec = 0)
    (hopen : s.chan.readClosed = false) (ha : AnswerAtMutex s) : CanStick s := by
  obtain ⟨rsp, hrsp, hfinal⟩ := h.pending i c (by rw [hi]; rfl)
  have hstep := Step.sleep hi hrsp (by simp [answered, hfinal, hopen])
  refine CanStick.of_step hstep ⟨[], _, .nil, ?_⟩
  exact not_noneStuck_of_asleep (inv_step hstep h) (Function.update_self ..) h0 ha

theorem canStick_lockingCond (h : Inv s) (hi : s.callers i = .lockingCond c)
    (h0 : c.timeoutMsec = 0) (hopen : s.chan.readClosed = false) (ha : AnswerAtMutex s) :
    CanStick s := by
  have hfree := h.cond_free_of_owner (by rw [hi]; rfl) (by rw [hi]; rfl)
  have hstep := Step.lockCond hi hfree
  exact .of_step hstep
    (canStick_checking (inv_step hstep h) (Function.update_self ..) h0 hopen ha)

theorem canStick_sending (h : Inv s) (hi : s.callers i = .sending c) (h0 : c.timeoutMsec = 0)
    (hopen : s.chan.readClosed = false) (ha : AnswerAtMutex s) : CanStick s := by
  have hrsp := h.rsp_of_owner (by rw [hi]; rfl) (by rw [hi]; rfl)
  have hstart := startCommand_ok c hrsp
  have hstep := Step.send hi hstart
  exact .of_step hstep (canStick_lockingCond (inv_step hstep h) (Function.update_self ..) h0
    ((startCommand_readClosed hstart).trans hopen) ha)

theorem canStick_woken (h : Inv s) (hi : s.callers i = .woken c) (h0 : c.timeoutMsec = 0)
    (hopen : s.chan.readClosed = false) (ha : AnswerAtMutex s) : CanStick s := by
  have hstep := Step.resume hi (show 0 ≠ etimedout by decide)
  exact .of_step hstep
    (canStick_checking (inv_step hstep h) (Function.update_self ..) h0 hopen ha)

theorem canStick_waking (h : Inv s) (hi : s.callers i = .waking c) (h0 : c.timeoutMsec = 0)
    (hopen : s.chan.readClosed = false) (ha : AnswerAtMutex s) : CanStick s := by
  have hfree := h.cond_free_of_owner (by rw [hi]; rfl) (by rw [hi]; rfl)
  have hstep := Step.relockCond hi hfree
  exact .of_step hstep (canStick_woken (inv_step hstep h) (Function.update_self ..) h0 hopen ha)

end Stick

theorem canStick {s : Sys ι κ} (h : Inv s) (hu : UntimedCall s) (ha : AnswerAtMutex s) :
    CanStick s := by
  obtain ⟨i, c, hi, h0, hopen⟩ := hu
  cases hpc : s.callers i with
  | sending d =>
      rw [hpc] at hi
      cases hi
      exact canStick_sending h hpc h0 hopen ha
  | lockingCond d =>
      rw [hpc] at hi
      cases hi
      exact canStick_lockingCond h hpc h0 hopen ha
  | checking d =>
      rw [hpc] at hi
      cases hi
      exact canStick_checking h hpc h0 hopen ha
  | asleep d n =>
      rw [hpc] at hi
      cases hi
      exact ⟨[], s, .nil, not_noneStuck_of_asleep h hpc h0 ha⟩
  | waking d =>
      rw [hpc] at hi
      cases hi
      exact canStick_waking h hpc h0 hopen ha
  | woken d =>
      rw [hpc] at hi
      cases hi
      exact canStick_woken h hpc h0 hopen ha
  | idle | locking | unlockingCond | unlocking =>
      rw [hpc] at hi
      cases hi

/-- A step against the condition brings an untimed call and its answer together. -/
theorem together_of_not_clear {s t : Sys ι κ} {a : SysAction ι κ} (hstep : Step s a t)
    (hnot : ¬ Clear s a) : UntimedCall t ∧ AnswerAtMutex t := by
  cases hstep with
  | @receive line pc =>
      simp only [Clear, Classical.not_imp, not_not] at hnot
      exact ⟨hnot.2, .inl ⟨line, rfl, hnot.1⟩⟩
  | @enterClose k pc =>
      simp only [Clear, not_not] at hnot
      exact ⟨hnot, .inr ⟨k, Function.update_self ..⟩⟩
  | @lock i c pc free =>
      simp only [Clear, not_forall, not_not] at hnot
      obtain ⟨d, hd, h0, hopen, ha⟩ := hnot
      rw [pc] at hd
      cases hd
      exact ⟨⟨i, c, by simp [Sys.setCaller, inCall], h0, hopen⟩, ha⟩
  | call | sendReturn | send | lockCond | leave | sleep | wake | relockCond | resume
  | timeOut | unlockCond | unlock | readerLock | serve | readerUnlock | closerLock | close
  | closerUnlock => exact absurd trivial hnot

/-- In a run whose steps meet the condition no caller is ever stuck, and every
other step can be followed by a run to a stuck caller. -/
theorem noneStuck_of_clear {ch : ATChannel} (hch : ch.rsp = none) :
    (∀ (as : List (SysAction ι κ)) (s : Sys ι κ),
      Run (Restrict Step Clear) (initial ch) as s → NoneStuck s) ∧
    ∀ (as : List (SysAction ι κ)) (s t : Sys ι κ) (a : SysAction ι κ),
      Run Step (initial ch) as s → Step s a t → ¬ Clear s a →
        ∃ bs u, Run Step t bs u ∧ ¬ NoneStuck u := by
  have hinv : Inv (initial ch : Sys ι κ) := inv_initial hch
  constructor
  · intro as s hrun
    have hboth : Inv s ∧ (UntimedCall s → ¬ AnswerAtMutex s) := by
      apply Run.invariant (fun s => Inv s ∧ (UntimedCall s → ¬ AnswerAtMutex s)) _ _ hrun
      · intro s a t hstep h
        exact ⟨inv_step hstep.1 h.1, clear_step hstep.1 hstep.2 h.1 h.2⟩
      · refine ⟨hinv, ?_⟩
        rintro ⟨i, c, hi, -⟩
        cases hi
    exact noneStuck_of_inv hboth.1 hboth.2
  · intro as s t a hrun hstep hnot
    have hs : Inv s := Run.invariant Inv (fun _ _ _ hstep h => inv_step hstep h) hinv hrun
    obtain ⟨hu, ha⟩ := together_of_not_clear hstep hnot
    exact canStick (inv_step hstep hs) hu ha

def untimedAT : Command := ⟨text "AT", .noResult, none, none, 0, true⟩

def sleepSteps : List (SysAction Unit Unit) :=
  [.call () untimedAT, .lock (.caller ()), .send (), .lockCond (), .check ()]

theorem sleepSteps_run :
    ∃ s : Sys Unit Unit, Run (Restrict Step Clear) (initial (.opened 3 [])) sleepSteps s ∧
      s.callers () = .asleep untimedAT false ∧ s.reader = .idle ∧ s.mutex ≠ none := by
  have run : Run (Restrict Step Clear) (initial (.opened 3 []) : Sys Unit Unit) [] _ := .nil
  have run := run.snoc_restrict (Step.call (i := ()) (c := untimedAT) rfl) trivial
  have run := run.snoc_restrict (Step.lock (i := ()) rfl rfl)
    (by simp [Clear, AnswerAtMutex, initial, Sys.setCaller])
  have run := run.snoc_restrict (Step.send (i := ()) rfl (startCommand_ok untimedAT rfl)) trivial
  have run := run.snoc_restrict (Step.lockCond (i := ()) (c := untimedAT) rfl rfl) trivial
  have run := run.snoc_restrict (Step.sleep (i := ()) (c := untimedAT) rfl rfl rfl) trivial
  exact ⟨_, run, rfl, rfl, by simp [Sys.setCaller]⟩

/-- `AT` without a timeout, its caller asleep, and the `OK` at `mutex_`. -/
theorem untimed_caller_stuck :
    ¬ ∀ (ch : ATChannel) (as : List (SysAction Unit Unit)) (s : Sys Unit Unit),
      ch.rsp = none → Run Step (initial ch) as s → NoneStuck s := by
  intro h
  obtain ⟨s, hrun, hs, hreader, hmutex⟩ := sleepSteps_run
  have hreceive : Step s (.receive (text "OK")) _ := .receive hreader
  have hok := h _ _ _ rfl (hrun.of_restrict.snoc hreceive)
  exact hok.line () false (text "OK") ⟨untimedAT, hs, rfl⟩ (by decide) ⟨rfl, hmutex⟩

/-- The sleeping caller is not stuck as long as nothing has arrived for it. -/
theorem noneStuck_of_clear_asleep :
    ∃ s : Sys Unit Unit, s.callers () = .asleep untimedAT false ∧ NoneStuck s := by
  obtain ⟨s, hrun, hs, -⟩ := sleepSteps_run
  exact ⟨s, hs, (noneStuck_of_clear rfl).1 sleepSteps s hrun⟩

end Mobile.Channel.Proofs.Waiting
