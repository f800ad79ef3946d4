import Mobile.Channel.Concurrent
import Mobile.Channel.Proofs.Log

/-!
# Who owns the channel's mutexes

The invariant of the interleaved channel: one thread at a time is inside the
functions that lock `mutex_`, a waiting caller is that thread, and a command is
pending exactly while its caller waits.
-/

namespace Mobile.Channel.Proofs.Locking

open Mobile.Token.Scan Mobile.Channel.Types Mobile.Channel.ProcessLine
open Mobile.Channel.SendCommand Mobile.Channel.Concurrent Mobile.Channel.Proofs.Log

def callerHolds : CallerPc → Bool
  | .idle => false
  | .locking _ => false
  | _ => true

def callerHoldsCond : CallerPc → Bool
  | .checking _ => true
  | .woken _ => true
  | .unlockingCond _ => true
  | _ => false

def readerHolds : ReaderPc → Bool
  | .serving _ => true
  | .unlocking => true
  | _ => false

def closerHolds : CloserPc → Bool
  | .closing => true
  | .unlocking => true
  | _ => false

def waitsFor : CallerPc → Option Command
  | .lockingCond c => some c
  | .checking c => some c
  | .asleep c _ => some c
  | .waking c => some c
  | .woken c => some c
  | _ => none

section

variable {ι κ : Type*}

structure Inv (s : Sys ι κ) : Prop where
  caller_owns : ∀ i, callerHolds (s.callers i) = true → s.mutex = some (.caller i)
  reader_owns : readerHolds s.reader = true → s.mutex = some .reader
  closer_owns : ∀ k, closerHolds (s.closers k) = true → s.mutex = some (.closer k)
  cond_owner : ∀ i, s.mutexCond = some i → callerHoldsCond (s.callers i) = true
  pending : ∀ i c, waitsFor (s.callers i) = some c →
    ∃ rsp, s.chan.rsp = some rsp ∧ rsp.finalResp = none
  asleep_open : ∀ i c n, s.callers i = .asleep c n → s.chan.readClosed = false
  clear : (∀ i, waitsFor (s.callers i) = none) → s.chan.rsp = none

theorem callerHolds_of_waitsFor {pc : CallerPc} {c : Command} (h : waitsFor pc = some c) :
    callerHolds pc = true := by
  cases pc <;> first | rfl | cases h

theorem callerHolds_of_holdsCond {pc : CallerPc} (h : callerHoldsCond pc = true) :
    callerHolds pc = true := by
  cases pc <;> first | rfl | cases h

theorem callerHoldsCond_eq_false {pc : CallerPc} (h : callerHolds pc = false) :
    callerHoldsCond pc = false := by
  cases pc <;> first | rfl | cases h

theorem inv_initial {ch : ATChannel} (hch : ch.rsp = none) : Inv (initial ch : Sys ι κ) := by
  constructor <;> simp [initial, callerHolds, readerHolds, closerHolds, waitsFor, hch]

theorem Inv.caller_unique {s : Sys ι κ} (h : Inv s) {i j : ι}
    (hi : callerHolds (s.callers i) = true) (hj : callerHolds (s.callers j) = true) : i = j := by
  have hsame := (h.caller_owns i hi).symm.trans (h.caller_owns j hj)
  cases hsame
  rfl

theorem Inv.no_caller {s : Sys ι κ} (h : Inv s) (hmutex : ∀ i, s.mutex ≠ some (.caller i)) (i : ι) :
    callerHolds (s.callers i) = false := by
  rw [← Bool.not_eq_true]
  exact fun hi => hmutex i (h.caller_owns i hi)

/-- With `mutex_` in other hands no caller is inside, and the channel is free to
change. -/
theorem Inv.outside {s : Sys ι κ} (h : Inv s) (hnone : ∀ i, callerHolds (s.callers i) = false)
    {t : Sys ι κ} (hcallers : t.callers = s.callers) (hcond : t.mutexCond = s.mutexCond)
    (hrsp : t.chan.rsp = none)
    (hreader : readerHolds t.reader = true → t.mutex = some .reader)
    (hcloser : ∀ k, closerHolds (t.closers k) = true → t.mutex = some (.closer k)) : Inv t := by
  constructor
  · intro i hi
    rw [hcallers, hnone i] at hi
    cases hi
  · exact hreader
  · exact hcloser
  · intro i hi
    rw [hcallers]
    exact h.cond_owner i (hcond ▸ hi)
  · intro i c hi
    rw [hcallers] at hi
    exact absurd (callerHolds_of_waitsFor hi) (by simp [hnone i])
  · intro i c n hi
    rw [hcallers] at hi
    exact absurd (hnone i) (by simp [hi, callerHolds])
  · exact fun _ => hrsp

theorem Inv.others_outside {s : Sys ι κ} (h : Inv s) {i : ι}
    (hi : callerHolds (s.callers i) = true) (j : ι) (hj : j ≠ i) :
    callerHolds (s.callers j) = false := by
  rw [← Bool.not_eq_true]
  exact fun hjh => hj (h.caller_unique hjh hi)

theorem Inv.no_reader {s : Sys ι κ} (h : Inv s) (hmutex : s.mutex ≠ some .reader) :
    readerHolds s.reader = false := by
  rw [← Bool.not_eq_true]
  exact fun hr => hmutex (h.reader_owns hr)

theorem Inv.no_closer {s : Sys ι κ} (h : Inv s) {k : κ} (hmutex : s.mutex ≠ some (.closer k)) :
    closerHolds (s.closers k) = false := by
  rw [← Bool.not_eq_true]
  exact fun hk => hmutex (h.closer_owns k hk)

theorem Inv.cond_free {s : Sys ι κ} (h : Inv s)
    (hnone : ∀ i, callerHoldsCond (s.callers i) = false) : s.mutexCond = none := by
  rw [Option.eq_none_iff_forall_not_mem]
  intro i hi
  exact absurd (h.cond_owner i hi) (by simp [hnone i])

theorem waitsFor_eq_none {pc : CallerPc} (h : callerHolds pc = false) : waitsFor pc = none := by
  cases pc <;> first | rfl | cases h

theorem Inv.rsp_of_outside {s : Sys ι κ} (h : Inv s)
    (hnone : ∀ i, callerHolds (s.callers i) = false) : s.chan.rsp = none :=
  h.clear fun i => waitsFor_eq_none (hnone i)

theorem Inv.rsp_of_owner {s : Sys ι κ} (h : Inv s) {i : ι}
    (hi : callerHolds (s.callers i) = true) (hw : waitsFor (s.callers i) = none) :
    s.chan.rsp = none := by
  apply h.clear
  intro j
  by_cases hji : j = i
  · rw [hji]
    exact hw
  · exact waitsFor_eq_none (h.others_outside hi j hji)

theorem Inv.cond_free_of_owner {s : Sys ι κ} (h : Inv s) {i : ι}
    (hi : callerHolds (s.callers i) = true)
    (hcond : callerHoldsCond (s.callers i) = false) : s.mutexCond = none := by
  apply h.cond_free
  intro j
  by_cases hji : j = i
  · rw [hji]
    exact hcond
  · exact callerHoldsCond_eq_false (h.others_outside hi j hji)

theorem Inv.keep_cond {s : Sys ι κ} (h : Inv s) {i : ι}
    (hi : callerHolds (s.callers i) = true) {pc : CallerPc}
    (hpc : callerHoldsCond (s.callers i) = true → callerHoldsCond pc = true) (j : ι)
    (hj : s.mutexCond = some j) : j = i ∧ callerHoldsCond pc = true := by
  have hcond := h.cond_owner j hj
  obtain rfl := h.caller_unique (callerHolds_of_holdsCond hcond) hi
  exact ⟨rfl, hpc hcond⟩

theorem setCloser_owns [DecidableEq κ] {s : Sys ι κ} {k : κ} {pc : CloserPc} {mutex : Option (Thread ι κ)}
    (hself : closerHolds pc = true → mutex = some (.closer k))
    (helse : ∀ j, j ≠ k → closerHolds (s.closers j) = true → mutex = some (.closer j)) (j : κ)
    (hj : closerHolds ((s.setCloser k pc).closers j) = true) : mutex = some (.closer j) := by
  by_cases hjk : j = k
  · subst hjk
    exact hself (by simpa [Sys.setCloser] using hj)
  · exact helse j hjk (by simpa [Sys.setCloser, Function.update_of_ne hjk] using hj)

variable [DecidableEq ι]

theorem Inv.update {s t : Sys ι κ} {i : ι} {pc : CallerPc}
    (hother : ∀ j, j ≠ i → callerHolds (s.callers j) = false)
    (hcallers : t.callers = Function.update s.callers i pc)
    (howns : callerHolds pc = true → t.mutex = some (.caller i))
    (hreader : readerHolds t.reader = true → t.mutex = some .reader)
    (hcloser : ∀ k, closerHolds (t.closers k) = true → t.mutex = some (.closer k))
    (hcond : ∀ j, t.mutexCond = some j → j = i ∧ callerHoldsCond pc = true)
    (hpending : ∀ c, waitsFor pc = some c →
      ∃ rsp, t.chan.rsp = some rsp ∧ rsp.finalResp = none)
    (hopen : ∀ c n, pc = .asleep c n → t.chan.readClosed = false)
    (hclear : waitsFor pc = none → t.chan.rsp = none) : Inv t := by
  have hself : t.callers i = pc := by rw [hcallers, Function.update_self]
  have helse : ∀ j, j ≠ i → callerHolds (t.callers j) = false := by
    intro j hj
    rw [hcallers, Function.update_of_ne hj]
    exact hother j hj
  constructor
  · intro j hj
    by_cases hji : j = i
    · subst hji
      exact howns (hself ▸ hj)
    · exact absurd hj (by simp [helse j hji])
  · exact hreader
  · exact hcloser
  · intro j hj
    obtain ⟨rfl, hc⟩ := hcond j hj
    rw [hself]
    exact hc
  · intro j c hj
    by_cases hji : j = i
    · subst hji
      exact hpending c (hself ▸ hj)
    · exact absurd (callerHolds_of_waitsFor hj) (by simp [helse j hji])
  · intro j c n hj
    by_cases hji : j = i
    · subst hji
      exact hopen c n (hself ▸ hj)
    · exact absurd (helse j hji) (by simp [hj, callerHolds])
  · intro hnone
    exact hclear (hself ▸ hnone i)

/-- A step of the caller that owns `mutex_` and keeps it. -/
theorem Inv.move {s : Sys ι κ} (h : Inv s) {i : ι} (hi : callerHolds (s.callers i) = true)
    {pc : CallerPc} {ch : ATChannel} {cond : Option ι}
    (hcond : ∀ j, cond = some j → j = i ∧ callerHoldsCond pc = true)
    (hpending : ∀ c, waitsFor pc = some c → ∃ rsp, ch.rsp = some rsp ∧ rsp.finalResp = none)
    (hopen : ∀ c n, pc = .asleep c n → ch.readClosed = false)
    (hclear : waitsFor pc = none → ch.rsp = none) :
    Inv { s.setCaller i pc with chan := ch, mutexCond := cond } :=
  Inv.update (h.others_outside hi) rfl (fun _ => h.caller_owns i hi) h.reader_owns h.closer_owns
    hcond hpending hopen hclear

/-- A caller that takes `mutex_` or hands it back: it was free or its own, so nobody
else is inside. -/
theorem Inv.pass {s : Sys ι κ} (h : Inv s) {i : ι} {pc : CallerPc}
    {mutex : Option (Thread ι κ)} {ch : ATChannel}
    (hmutex : s.mutex = none ∨ s.mutex = some (.caller i)) (hcond : s.mutexCond = none)
    (howns : callerHolds pc = true → mutex = some (.caller i)) (hwaits : waitsFor pc = none)
    (hrsp : ch.rsp = none) : Inv { s.setCaller i pc with mutex := mutex, chan := ch } := by
  refine Inv.update ?_ rfl howns ?_ ?_ ?_ (by simp [hwaits]) ?_ (fun _ => hrsp)
  · intro j hj
    rw [← Bool.not_eq_true]
    intro hjh
    have howner := h.caller_owns j hjh
    rcases hmutex with hmutex | hmutex
    · simp [hmutex] at howner
    · simp [hmutex, Ne.symm hj] at howner
  · intro hr
    have howner := h.reader_owns hr
    rcases hmutex with hmutex | hmutex <;> simp [hmutex] at howner
  · intro k hk
    have howner := h.closer_owns k hk
    rcases hmutex with hmutex | hmutex <;> simp [hmutex] at howner
  · intro j hj
    exact absurd hj (by simp [Sys.setCaller, hcond])
  · rintro c n rfl
    cases hwaits

theorem Inv.enter {s : Sys ι κ} (h : Inv s) {i : ι} {pc : CallerPc}
    (hi : callerHolds (s.callers i) = false) (hpc : callerHolds pc = false)
    {t : Sys ι κ} (ht : t = s.setCaller i pc) : Inv t := by
  subst ht
  have hself : (s.setCaller i pc).callers i = pc := Function.update_self ..
  have helse : ∀ j, j ≠ i → (s.setCaller i pc).callers j = s.callers j :=
    fun j hj => Function.update_of_ne hj ..
  constructor
  · intro j hj
    by_cases hji : j = i
    · rw [hji, hself, hpc] at hj
      cases hj
    · exact h.caller_owns j (helse j hji ▸ hj)
  · exact h.reader_owns
  · exact h.closer_owns
  · intro j hj
    by_cases hji : j = i
    · subst hji
      exact absurd (callerHolds_of_holdsCond (h.cond_owner j hj)) (by simp [hi])
    · rw [helse j hji]
      exact h.cond_owner j hj
  · intro j d hj
    by_cases hji : j = i
    · rw [hji, hself, waitsFor_eq_none hpc] at hj
      cases hj
    · exact h.pending j d (helse j hji ▸ hj)
  · intro j d n hj
    by_cases hji : j = i
    · rw [hji, hself] at hj
      rw [hj] at hpc
      cases hpc
    · exact h.asleep_open j d n (helse j hji ▸ hj)
  · intro hnone
    apply h.clear
    intro j
    by_cases hji : j = i
    · rw [hji]
      exact waitsFor_eq_none hi
    · rw [← helse j hji]
      exact hnone j

theorem Notified.eq {ch ch' : ATChannel} {callers callers' : ι → CallerPc}
    (h : Notified ch ch' callers callers') (hnone : ∀ i, callerHolds (callers i) = false) :
    callers' = callers := by
  unfold Notified at h
  split at h
  · rcases h with ⟨i, c, hi, -⟩ | ⟨-, h⟩
    · exact absurd (hnone i) (by simp [hi, callerHolds])
    · exact h
  · exact h

theorem startCommand_rsp {ch ch' : ATChannel} {c : Command}
    (h : startCommand ch c = .ok ch') :
    ∃ rsp, ch'.rsp = some rsp ∧ rsp.finalResp = none := by
  have hrsp : ch.rsp = none := by
    by_contra hne
    simp [startCommand, hne] at h
  rw [startCommand_ok c hrsp] at h
  cases h
  exact ⟨.alloc, rfl, rfl⟩

theorem startCommand_error_rsp {ch ch' : ATChannel} {c : Command} {ret : Int}
    (h : startCommand ch c = .error (ret, ch')) : ch'.rsp = none := by
  unfold startCommand at h
  split at h
  · cases h
    rfl
  · dsimp only at h
    split at h
    · cases h
      rfl
    · cases h

theorem processLine_rsp_none {ch ch' : ATChannel} {line : Line} (hrsp : ch.rsp = none)
    (h : processLine ch line = some ch') : ch'.rsp = none := by
  simp only [processLine, hrsp, Option.some.injEq] at h
  rw [← h]
  unfold handleUnsolicited
  split <;> exact hrsp

theorem afterUnlock_rsp (ch : ATChannel) (ret : Int) : (afterUnlock ch ret).rsp = ch.rsp := by
  unfold afterUnlock
  split <;> rfl

variable [DecidableEq κ]

theorem inv_step {s t : Sys ι κ} {a : SysAction ι κ} (hstep : Step s a t) (h : Inv s) : Inv t := by
  cases hstep with
  | @call i c pc => exact h.enter (by rw [pc]; rfl) rfl rfl
  | @lock i c pc free =>
      have hnone := h.no_caller (by simp [free])
      have hcond := h.cond_free fun j => callerHoldsCond_eq_false (hnone j)
      exact h.pass (.inl free) hcond (fun _ => rfl) rfl (h.rsp_of_outside hnone)
  | @sendReturn i c ret ch pc start =>
      have hi : callerHolds (s.callers i) = true := by rw [pc]; rfl
      exact h.move hi (h.keep_cond hi (by simp [pc, callerHoldsCond])) (by simp [waitsFor])
        (by simp) fun _ => startCommand_error_rsp start
  | @send i c ch pc start =>
      have hi : callerHolds (s.callers i) = true := by rw [pc]; rfl
      exact h.move hi (h.keep_cond hi (by simp [pc, callerHoldsCond]))
        (fun _ _ => startCommand_rsp start) (by simp) (by simp [waitsFor])
  | @lockCond i c pc free =>
      have hi : callerHolds (s.callers i) = true := by rw [pc]; rfl
      exact h.move hi (by simp [callerHoldsCond, eq_comm])
        (fun _ _ => h.pending i c (by rw [pc]; rfl)) (by simp) (by simp [waitsFor])
  | @leave i c rsp pc hrsp done =>
      have hi : callerHolds (s.callers i) = true := by rw [pc]; rfl
      exact h.move hi (h.keep_cond hi fun _ => rfl) (by simp [waitsFor]) (by simp) fun _ => rfl
  | @sleep i c rsp pc hrsp waits =>
      have hi : callerHolds (s.callers i) = true := by rw [pc]; rfl
      simp only [answered, Bool.or_eq_false_iff] at waits
      exact h.move hi (by simp) (fun _ _ => h.pending i c (by rw [pc]; rfl))
        (fun _ _ _ => waits.2) (by simp [waitsFor])
  | @wake i c n cause pc possible =>
      have hi : callerHolds (s.callers i) = true := by rw [pc]; rfl
      exact h.move hi (h.keep_cond hi (by simp [pc, callerHoldsCond]))
        (fun _ _ => h.pending i c (by rw [pc]; rfl)) (by simp) (by simp [waitsFor])
  | @relockCond i c pc free =>
      have hi : callerHolds (s.callers i) = true := by rw [pc]; rfl
      exact h.move hi (by simp [callerHoldsCond, eq_comm])
        (fun _ _ => h.pending i c (by rw [pc]; rfl)) (by simp) (by simp [waitsFor])
  | @resume i c errno pc herr =>
      have hi : callerHolds (s.callers i) = true := by rw [pc]; rfl
      exact h.move hi (h.keep_cond hi fun _ => rfl)
        (fun _ _ => h.pending i c (by rw [pc]; rfl)) (by simp) (by simp [waitsFor])
  | @timeOut i c pc =>
      have hi : callerHolds (s.callers i) = true := by rw [pc]; rfl
      exact h.move hi (h.keep_cond hi fun _ => rfl) (by simp [waitsFor]) (by simp) fun _ => rfl
  | @unlockCond i ret pc =>
      have hi : callerHolds (s.callers i) = true := by rw [pc]; rfl
      exact h.move hi (by simp) (by simp [waitsFor]) (by simp)
        fun _ => h.rsp_of_owner hi (by rw [pc]; rfl)
  | @unlock i ret pc =>
      have hi : callerHolds (s.callers i) = true := by rw [pc]; rfl
      have hcond := h.cond_free_of_owner hi (by rw [pc]; rfl)
      exact h.pass (.inr (h.caller_owns i hi)) hcond (by simp [callerHolds]) rfl
        ((afterUnlock_rsp s.chan ret).trans (h.rsp_of_owner hi (by rw [pc]; rfl)))
  | @receive line pc =>
      exact ⟨h.caller_owns, by simp [readerHolds], h.closer_owns, h.cond_owner, h.pending,
        h.asleep_open, h.clear⟩
  | @readerLock line pc free =>
      have hnone := h.no_caller (by simp [free])
      refine h.outside hnone rfl rfl (h.rsp_of_outside hnone) (fun _ => rfl) ?_
      intro k hk
      exact absurd hk (by simp [h.no_closer (by simp [free])])
  | @serve line ch callers pc hch notify =>
      have howns := h.reader_owns (by rw [pc]; rfl)
      have hnone := h.no_caller (by simp [howns])
      exact h.outside hnone (Notified.eq notify hnone) rfl
        (processLine_rsp_none (h.rsp_of_outside hnone) hch) (fun _ => howns) h.closer_owns
  | @readerUnlock pc =>
      have howns := h.reader_owns (by rw [pc]; rfl)
      have hnone := h.no_caller (by simp [howns])
      refine h.outside hnone rfl rfl (h.rsp_of_outside hnone) (by simp [readerHolds]) ?_
      intro k hk
      exact absurd hk (by simp [h.no_closer (by simp [howns])])
  | @enterClose k pc =>
      refine ⟨h.caller_owns, h.reader_owns, ?_, h.cond_owner, h.pending, h.asleep_open, h.clear⟩
      exact setCloser_owns (by simp [closerHolds]) fun j _ => h.closer_owns j
  | @closerLock k pc free =>
      have hnone := h.no_caller (by simp [free])
      refine h.outside hnone rfl rfl (h.rsp_of_outside hnone) ?_ ?_
      · intro hr
        exact absurd hr (by simp [Sys.setCloser, h.no_reader (by simp [free])])
      · refine setCloser_owns (fun _ => rfl) fun j _ hj => ?_
        exact absurd hj (by simp [h.no_closer (by simp [free])])
  | @close k callers pc notify =>
      have howns := h.closer_owns k (by rw [pc]; rfl)
      have hnone := h.no_caller (by simp [howns])
      exact h.outside hnone (Notified.eq notify hnone) rfl
        ((readerClose_rsp s.chan).trans (h.rsp_of_outside hnone)) h.reader_owns
        (setCloser_owns (fun _ => howns) fun j _ => h.closer_owns j)
  | @closerUnlock k pc =>
      have howns := h.closer_owns k (by rw [pc]; rfl)
      have hnone := h.no_caller (by simp [howns])
      refine h.outside hnone rfl rfl (h.rsp_of_outside hnone) ?_ ?_
      · intro hr
        exact absurd hr (by simp [Sys.setCloser, h.no_reader (by simp [howns])])
      · refine setCloser_owns (by simp [closerHolds]) fun j hjk hj => ?_
        have hout : closerHolds (s.closers j) = false :=
          h.no_closer (by simp [howns, Ne.symm hjk])
        exact absurd hj (by simp [hout])

end

end Mobile.Channel.Proofs.Locking
