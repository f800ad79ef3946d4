import Mobile.Channel.ReadLine

/-!
# The channel object

The members of `ATChannel` that its functions read and write, together with the
environment they meet: the results of the coming `write()` calls and a log of
everything an outside observer sees, in order.
-/

namespace Mobile.Channel.Types

open Mobile.Token.Scan Mobile.Channel.ReadLine

/-- A string literal of the source as bytes. -/
def text (s : String) : Line := s.toList.map fun c => UInt8.ofNat c.toNat

theorem text_append (s t : String) : text (s ++ t) = text s ++ text t := by
  simp [text]

inductive ATErrno
  | success
  | errorGeneric
  | errorCommandPending
  | errorChannelClosed
  | errorTimeout
  | errorInvalidThread
  | errorInvalidResponse
  | errorUnknown
  deriving DecidableEq, Repr

/-- The enumerators' values: no error is negative. -/
def ATErrno.code : ATErrno → Int
  | .success => 0
  | .errorGeneric => 1
  | .errorCommandPending => 2
  | .errorChannelClosed => 3
  | .errorTimeout => 4
  | .errorInvalidThread => 5
  | .errorInvalidResponse => 6
  | .errorUnknown => 7

theorem ATErrno.code_nonneg (e : ATErrno) : 0 ≤ e.code := by
  cases e <;> decide

inductive ATCmdType
  | noResult
  | numeric
  | singleLine
  | multiLine
  deriving DecidableEq, Repr

structure ATResponse where
  success : Int
  finalResp : Option Line
  intermediates : List Line
  deriving DecidableEq, Repr

/-- `AllocResponce`: zeroed memory. -/
def ATResponse.alloc : ATResponse := ⟨0, none, []⟩

/-- One `write()` result; a count is cut to the length asked for. -/
inductive WriteResult
  | wrote (count : Nat)
  | failed (errno : Errno)
  deriving DecidableEq, Repr

inductive Event
  | writeLine (s ctrl : Line)
  | write (result : WriteResult) (sent : Line)
  | unsolHandler (line : Line) (smsPdu : Option Line)
  | closeHandler
  | timeoutHandler
  | closeFd
  | notify
  | allocResponce
  | sleep (timeoutMsec : Nat)
  deriving DecidableEq, Repr

/-- A handler member is `true` when the `std::function` is not empty.  `writes`
scripts the coming `write()` calls; behind its end each call takes all it is
given, so that every `write()` history of a call that returns is a script. -/
structure ATChannel where
  readFd : Int
  readClosed : Bool
  rsp : Option ATResponse
  rspPrefix : Option Line
  smsPdu : Option Line
  type : ATCmdType
  unsolHandler : Bool
  closeHandler : Bool
  timeoutHandler : Bool
  writes : List WriteResult
  events : List Event
  deriving DecidableEq, Repr

def kCtrlZ : Line := [0x1a]

def kCtrlEnter : Line := [cr]

namespace ATChannel

/-- The channel behind its constructor and `ReaderOpen`, with all handlers set. -/
def opened (fd : Int) (writes : List WriteResult) : ATChannel :=
  ⟨fd, false, none, none, none, .noResult, true, true, true, writes, []⟩

def log (ch : ATChannel) (ev : Event) : ATChannel :=
  { ch with events := ch.events ++ [ev] }

def isOpen (ch : ATChannel) : Bool := !(decide (ch.readFd < 0) || ch.readClosed)

def clearPendingCommand (ch : ATChannel) : ATChannel :=
  { ch with rsp := none, rspPrefix := none, smsPdu := none }

end ATChannel

end Mobile.Channel.Types
