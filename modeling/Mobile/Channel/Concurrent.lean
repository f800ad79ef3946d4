import Mathlib.Logic.Function.Basic
import Mobile.Channel.SendCommand

/-!
# Callers, reader and closers

Any number of threads inside `SendCommandFull`, the reader thread inside
`ProcessLine` and any number of threads inside `ReaderClose`, interleaved at
their actions on `mutex_`, `mutex_cond_` and `cond_`.  What a thread does to the
channel between two such actions is the sequential model's function.
`std::condition_variable::wait` releases the mutex of its argument, `mutex_cond_`,
and no other.
-/

namespace Mobile.Channel.Concurrent

open Mobile.Token.Scan Mobile.Channel.Types Mobile.Channel.ProcessLine
open Mobile.Channel.SendCommand

inductive Thread (ι κ : Type*)
  | caller (i : ι)
  | reader
  | closer (k : κ)

inductive CallerPc
  | idle
  /-- at `lock_guard lock(mutex_)` -/
  | locking (c : Command)
  | sending (c : Command)
  /-- at `unique_lock lock(mutex_cond_)` -/
  | lockingCond (c : Command)
  /-- at the condition of the wait loop -/
  | checking (c : Command)
  | asleep (c : Command) (notified : Bool)
  /-- out of the wait but for `mutex_cond_` -/
  | waking (c : Command)
  /-- at `if (errno == ETIMEDOUT)` -/
  | woken (c : Command)
  | unlockingCond (ret : Int)
  | unlocking (ret : Int)
  deriving DecidableEq

inductive ReaderPc
  | idle
  | locking (line : Line)
  | serving (line : Line)
  | unlocking
  deriving DecidableEq

inductive CloserPc
  | idle
  | locking
  | closing
  | unlocking
  deriving DecidableEq

structure Sys (ι κ : Type*) where
  chan : ATChannel
  mutex : Option (Thread ι κ)
  mutexCond : Option ι
  callers : ι → CallerPc
  reader : ReaderPc
  closers : κ → CloserPc

inductive WakeCause
  | notified
  | spurious
  | expired
  deriving DecidableEq

def WakeCause.possible (c : Command) (notified : Bool) : WakeCause → Prop
  | .notified => notified = true
  | .spurious => True
  | .expired => c.timeoutMsec ≠ 0

inductive SysAction (ι κ : Type*)
  | call (i : ι) (c : Command)
  | lock (t : Thread ι κ)
  | unlock (t : Thread ι κ)
  | send (i : ι)
  | lockCond (i : ι)
  | unlockCond (i : ι)
  | check (i : ι)
  | wake (i : ι) (cause : WakeCause)
  | resume (i : ι) (errno : Nat)
  | receive (line : Line)
  | serve
  | enterClose (k : κ)
  | close (k : κ)

section

variable {ι κ : Type*} [DecidableEq ι] [DecidableEq κ]

def Sys.setCaller (s : Sys ι κ) (i : ι) (pc : CallerPc) : Sys ι κ :=
  { s with callers := Function.update s.callers i pc }

def Sys.setCloser (s : Sys ι κ) (k : κ) (pc : CloserPc) : Sys ι κ :=
  { s with closers := Function.update s.closers k pc }

/-- `cond_.notify_one()`: one of the sleepers not yet notified, if there is one. -/
def NotifyOne (callers callers' : ι → CallerPc) : Prop :=
  (∃ i c, callers i = .asleep c false ∧
    callers' = Function.update callers i (.asleep c true)) ∨
  (∀ i c, callers i ≠ .asleep c false) ∧ callers' = callers

/-- The sleepers after a thread has taken the channel from `ch` to `ch'`: one is
notified if the log says so. -/
def Notified (ch ch' : ATChannel) (callers callers' : ι → CallerPc) : Prop :=
  if .notify ∈ ch'.events.drop ch.events.length then NotifyOne callers callers'
  else callers' = callers

/-- `SendCommandFull` behind the locked block. -/
def afterUnlock (ch : ATChannel) (ret : Int) : ATChannel :=
  if ret = ATErrno.errorTimeout.code ∧ ch.timeoutHandler then ch.log .timeoutHandler else ch

inductive Step : Sys ι κ → SysAction ι κ → Sys ι κ → Prop
  | call {s i c} (pc : s.callers i = .idle) :
      Step s (.call i c) (s.setCaller i (.locking c))
  | lock {s i c} (pc : s.callers i = .locking c) (free : s.mutex = none) :
      Step s (.lock (.caller i)) { s.setCaller i (.sending c) with mutex := some (.caller i) }
  | sendReturn {s i c ret ch} (pc : s.callers i = .sending c)
      (start : startCommand s.chan c = .error (ret, ch)) :
      Step s (.send i) { s.setCaller i (.unlocking ret) with chan := ch }
  | send {s i c ch} (pc : s.callers i = .sending c) (start : startCommand s.chan c = .ok ch) :
      Step s (.send i) { s.setCaller i (.lockingCond c) with chan := ch }
  | lockCond {s i c} (pc : s.callers i = .lockingCond c) (free : s.mutexCond = none) :
      Step s (.lockCond i) { s.setCaller i (.checking c) with mutexCond := some i }
  | leave {s i c rsp} (pc : s.callers i = .checking c) (hrsp : s.chan.rsp = some rsp)
      (done : answered s.chan rsp = true) :
      Step s (.check i) { s.setCaller i (.unlockingCond (takeResponse s.chan rsp c.outRsp).ret)
        with chan := (takeResponse s.chan rsp c.outRsp).chan }
  | sleep {s i c rsp} (pc : s.callers i = .checking c) (hrsp : s.chan.rsp = some rsp)
      (waits : answered s.chan rsp = false) :
      Step s (.check i) { s.setCaller i (.asleep c false) with
        chan := s.chan.log (.sleep c.timeoutMsec), mutexCond := none }
  | wake {s i c n cause} (pc : s.callers i = .asleep c n) (possible : cause.possible c n) :
      Step s (.wake i cause) (s.setCaller i (.waking c))
  | relockCond {s i c} (pc : s.callers i = .waking c) (free : s.mutexCond = none) :
      Step s (.lockCond i) { s.setCaller i (.woken c) with mutexCond := some i }
  | resume {s i c errno} (pc : s.callers i = .woken c) (h : errno ≠ etimedout) :
      Step s (.resume i errno) (s.setCaller i (.checking c))
  | timeOut {s i c} (pc : s.callers i = .woken c) :
      Step s (.resume i etimedout)
        { s.setCaller i (.unlockingCond ATErrno.errorTimeout.code) with
          chan := s.chan.clearPendingCommand }
  | unlockCond {s i ret} (pc : s.callers i = .unlockingCond ret) :
      Step s (.unlockCond i) { s.setCaller i (.unlocking ret) with mutexCond := none }
  | unlock {s i ret} (pc : s.callers i = .unlocking ret) :
      Step s (.unlock (.caller i)) { s.setCaller i .idle with
        mutex := none, chan := afterUnlock s.chan ret }
  | receive {s line} (pc : s.reader = .idle) :
      Step s (.receive line) { s with reader := .locking line }
  | readerLock {s line} (pc : s.reader = .locking line) (free : s.mutex = none) :
      Step s (.lock .reader) { s with reader := .serving line, mutex := some .reader }
  | serve {s line ch callers} (pc : s.reader = .serving line)
      (hch : processLine s.chan line = some ch)
      (notify : Notified s.chan ch s.callers callers) :
      Step s .serve { s with reader := .unlocking, chan := ch, callers := callers }
  | readerUnlock {s} (pc : s.reader = .unlocking) :
      Step s (.unlock .reader) { s with reader := .idle, mutex := none }
  | enterClose {s k} (pc : s.closers k = .idle) :
      Step s (.enterClose k) (s.setCloser k .locking)
  | closerLock {s k} (pc : s.closers k = .locking) (free : s.mutex = none) :
      Step s (.lock (.closer k)) { s.setCloser k .closing with mutex := some (.closer k) }
  | close {s k callers} (pc : s.closers k = .closing)
      (notify : Notified s.chan (readerClose s.chan) s.callers callers) :
      Step s (.close k) { s.setCloser k .unlocking with
        chan := readerClose s.chan, callers := callers }
  | closerUnlock {s k} (pc : s.closers k = .unlocking) :
      Step s (.unlock (.closer k)) { s.setCloser k .idle with mutex := none }

def initial (ch : ATChannel) : Sys ι κ :=
  ⟨ch, none, none, fun _ => .idle, .idle, fun _ => .idle⟩

end

end Mobile.Channel.Concurrent
