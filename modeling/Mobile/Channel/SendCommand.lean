import Mobile.Channel.ProcessLine

/-!
# Sending a command

`SendCommandNoLock`, `SendCommandFull`, the `SendCommand*` wrappers, `HandShake`
and `ReaderClose` of `channel.cc`.  A wait is scripted by its wake-ups: what the
other threads did to the channel while the caller slept, and the value of
`errno` the caller finds.  `none` stands for a call that does not return, because
it sleeps past the end of its script or dereferences a null pointer.
-/

namespace Mobile.Channel.SendCommand

open Mobile.Token.Scan Mobile.Channel.Types Mobile.Channel.WriteLine Mobile.Channel.ProcessLine

def readerClose (ch : ATChannel) : ATChannel :=
  if ch.readClosed then ch else
  let ch := if ch.readFd > 0 then { ch.log .closeFd with readFd := -1 } else ch
  let ch := { ch with readClosed := true }.log .notify
  if ch.closeHandler then ch.log .closeHandler else ch

inductive Act
  | processLine (line : Line)
  | readerClose
  deriving DecidableEq, Repr

def Act.run (ch : ATChannel) : Act → Option ATChannel
  | .processLine line => ProcessLine.processLine ch line
  | .readerClose => some (SendCommand.readerClose ch)

structure Wake where
  acts : List Act
  errno : Nat
  deriving DecidableEq, Repr

def etimedout : Nat := 110

inductive OutRsp
  | unassigned
  | null
  | resp (r : ATResponse)
  deriving DecidableEq, Repr

structure Sent where
  ret : Int
  out : OutRsp
  chan : ATChannel
  deriving DecidableEq, Repr

/-- The loop takes one line from the head of the old list to the head of the new. -/
def reverseLoop (done : List Line) : List Line → List Line
  | [] => done
  | l :: pending => reverseLoop (l :: done) pending

def reverseIntermediates (r : ATResponse) : ATResponse :=
  { r with intermediates := reverseLoop [] r.intermediates }

def setUp (ch : ATChannel) (type : ATCmdType) (rspPrefix smsPdu : Option Line) : ATChannel :=
  { ch with type, rspPrefix, smsPdu, rsp := some .alloc }.log .allocResponce

def takeResponse (ch : ATChannel) (rsp : ATResponse) (outRsp : Bool) : Sent :=
  let out := if outRsp then .resp (reverseIntermediates rsp) else .unassigned
  let ret := if ch.readClosed then ATErrno.errorChannelClosed.code else 0
  ⟨ret, out, ch.clearPendingCommand⟩

def answered (ch : ATChannel) (rsp : ATResponse) : Bool :=
  rsp.finalResp.isSome || ch.readClosed

def waitLoop (ch : ATChannel) (timeoutMsec : Nat) (outRsp : Bool) :
    List Wake → Option Sent
  | [] => do
    let rsp ← ch.rsp
    if answered ch rsp then return takeResponse ch rsp outRsp else none
  | wake :: wakes => do
    let rsp ← ch.rsp
    if answered ch rsp then return takeResponse ch rsp outRsp
    else
      let ch ← wake.acts.foldlM Act.run (ch.log (.sleep timeoutMsec))
      if wake.errno = etimedout then
        return ⟨ATErrno.errorTimeout.code, .unassigned, ch.clearPendingCommand⟩
      else waitLoop ch timeoutMsec outRsp wakes

structure Command where
  cmd : Line
  type : ATCmdType
  rspPrefix : Option Line
  smsPdu : Option Line
  timeoutMsec : Nat
  outRsp : Bool
  deriving DecidableEq, Repr

/-- `SendCommandNoLock` above its wait loop: an early return, or the channel it
waits on. -/
def startCommand (ch : ATChannel) (c : Command) : Except (Int × ATChannel) ATChannel :=
  if ch.rsp ≠ none then .error (ATErrno.errorCommandPending.code, ch.clearPendingCommand)
  else
    let (ret, ch) := writeLine ch c.cmd kCtrlEnter
    if ret < 0 then .error (ret, ch.clearPendingCommand)
    else .ok (setUp ch c.type c.rspPrefix c.smsPdu)

def sendCommandNoLock (ch : ATChannel) (c : Command) (wakes : List Wake) : Option Sent :=
  match startCommand ch c with
  | .error (ret, ch) => some ⟨ret, .unassigned, ch⟩
  | .ok ch => waitLoop ch c.timeoutMsec c.outRsp wakes

def sendCommandFull (ch : ATChannel) (c : Command) (wakes : List Wake) : Option Sent := do
  let r ← sendCommandNoLock ch c wakes
  if r.ret = ATErrno.errorTimeout.code ∧ r.chan.timeoutHandler then
    return { r with chan := r.chan.log .timeoutHandler }
  else return r

def sendCommand (ch : ATChannel) (cmd : Line) (outRsp : Bool) (wakes : List Wake) :
    Option Sent :=
  sendCommandFull ch ⟨cmd, .noResult, none, none, 0, outRsp⟩ wakes

def requireIntermediate (r : Sent) : Sent :=
  match r.out with
  | .resp rsp =>
    if r.ret = 0 ∧ rsp.success > 0 ∧ rsp.intermediates = [] then
      { r with ret := ATErrno.errorInvalidResponse.code, out := .null }
    else r
  | _ => r

def sendCommandSingleLine (ch : ATChannel) (cmd rspPrefix : Line) (outRsp : Bool)
    (wakes : List Wake) : Option Sent :=
  (sendCommandFull ch ⟨cmd, .singleLine, some rspPrefix, none, 0, outRsp⟩ wakes).map
    requireIntermediate

def sendCommandNumeric (ch : ATChannel) (cmd : Line) (outRsp : Bool) (wakes : List Wake) :
    Option Sent :=
  (sendCommandFull ch ⟨cmd, .numeric, none, none, 0, outRsp⟩ wakes).map requireIntermediate

def sendCommandMultiLine (ch : ATChannel) (cmd rspPrefix : Line) (outRsp : Bool)
    (wakes : List Wake) : Option Sent :=
  sendCommandFull ch ⟨cmd, .multiLine, some rspPrefix, none, 0, outRsp⟩ wakes

def sendCommandSms (ch : ATChannel) (cmd pdu rspPrefix : Line) (outRsp : Bool)
    (wakes : List Wake) : Option Sent :=
  (sendCommandFull ch ⟨cmd, .singleLine, some rspPrefix, some pdu, 0, outRsp⟩ wakes).map
    requireIntermediate

def handshakeRetryCount : Nat := 8

/-- The retry loop of `HandShake` from attempt `i` on, given the results of the
`SendCommandFull` attempts: the last `ret` and the number of attempts made. -/
def handShakeLoop (attempt : Nat → Int) (ret : Int) (i : Nat) : Nat → Int × Nat
  | 0 => (ret, i)
  | left + 1 =>
    let ret := attempt i
    if ret = 0 then (ret, i + 1) else handShakeLoop attempt ret (i + 1) left

structure HandShake where
  ret : Int
  attempts : Nat
  slept : Bool
  deriving DecidableEq, Repr

def handShake (attempt : Nat → Int) : HandShake :=
  -- the first attempt overwrites the initial `ret`
  let (ret, attempts) := handShakeLoop attempt 0 0 handshakeRetryCount
  ⟨0, attempts, ret = 0⟩

end Mobile.Channel.SendCommand
