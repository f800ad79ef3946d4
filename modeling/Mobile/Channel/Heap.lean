import Mobile.ProofSupport.Chain
import Mobile.Channel.SendCommand

/-!
# Responses on the heap

`AllocResponce`, `AddIntermediate`, `HandleFinalResponse`, `ReverseIntermediates`,
`FreeResponce` and `ClearPendingCommand` of `channel.cc` on the objects they
allocate and free, and `ProcessLine` and the `SendCommand*` functions with `rsp_` as
the pointer it is.  What these functions do besides is that of the models without a
heap.
-/

namespace Mobile.Channel.Heap

open Mobile.ProofSupport.Separation Mobile.ProofSupport.Chain
open Mobile.Token.Scan Mobile.Channel.Types Mobile.Channel.WriteLine
open Mobile.Channel.ProcessLine Mobile.Channel.SendCommand

abbrev Addr := Nat

structure LineObj where
  line : Ptr Addr
  next : Ptr Addr
  deriving DecidableEq, Repr

structure ResponseObj where
  success : Int
  finalResp : Ptr Addr
  intermediates : Ptr Addr
  deriving DecidableEq, Repr

inductive Obj
  | line (l : LineObj)
  | response (r : ResponseObj)
  | chars (s : Line)
  deriving DecidableEq, Repr

abbrev Prog (α : Type) := HeapM Addr Obj α

/-- A pointer to an object of another type is as bad as one to none. -/
def loadLine (p : Ptr Addr) : Prog LineObj := do
  let obj ← HeapM.load p
  match obj with
  | .line l => return l
  | _ => throw .dangling

def loadResponse (p : Ptr Addr) : Prog ResponseObj := do
  let obj ← HeapM.load p
  match obj with
  | .response r => return r
  | _ => throw .dangling

section

variable (al : Allocator Addr Obj)

def strdup (s : Line) : Prog (Ptr Addr) := HeapM.malloc al (.chars s)

def allocResponce : Prog (Ptr Addr) := HeapM.malloc al (.response ⟨0, none, none⟩)

def addIntermediate (rsp : Ptr Addr) (line : Line) : Prog Unit := do
  let pNew ← HeapM.malloc al (.line ⟨none, none⟩)
  if pNew = none then return ()
  let copy ← strdup al line
  HeapM.store pNew (.line ⟨copy, none⟩)
  let r ← loadResponse rsp
  HeapM.store pNew (.line ⟨copy, r.intermediates⟩)
  HeapM.store rsp (.response { r with intermediates := pNew })

/-- `rsp_->success_ = success; HandleFinalResponse(line);` without the notification. -/
def handleFinalResponse (rsp : Ptr Addr) (success : Int) (line : Line) : Prog Unit := do
  let r ← loadResponse rsp
  HeapM.store rsp (.response { r with success := success })
  let copy ← strdup al line
  let r ← loadResponse rsp
  HeapM.store rsp (.response { r with finalResp := copy })

end

def reverseOne (rsp : Ptr Addr) (pcur : Addr) : Prog (Ptr Addr) := do
  let l ← loadLine (some pcur)
  let r ← loadResponse rsp
  HeapM.store (some pcur) (.line { l with next := r.intermediates })
  HeapM.store rsp (.response { r with intermediates := some pcur })
  return l.next

def reverseIntermediates (rsp : Ptr Addr) : Prog Unit := do
  let r ← loadResponse rsp
  HeapM.store rsp (.response { r with intermediates := none })
  walkAll (reverseOne rsp) r.intermediates

def freeLine (toFree : Addr) : Prog (Ptr Addr) := do
  let l ← loadLine (some toFree)
  HeapM.free l.line
  HeapM.free (some toFree)
  return l.next

def freeResponce (rsp : Ptr Addr) : Prog Unit := do
  if rsp = none then return ()
  let r ← loadResponse rsp
  walkAll freeLine r.intermediates
  let r ← loadResponse rsp
  HeapM.free r.finalResp
  HeapM.free rsp

inductive Stop
  | fault (f : Fault)
  | asleep
  deriving DecidableEq, Repr

/-- The channel with `rsp_` as a pointer.  The other members are those of `rest`,
whose own `rsp` is not looked at. -/
structure HeapChannel where
  rsp : Ptr Addr
  rest : ATChannel
  mem : Mem Addr Obj

namespace HeapChannel

def exec {α : Type} (hc : HeapChannel) (f : Prog α) : Except Stop (α × HeapChannel) :=
  match f hc.mem with
  | .ok (r, mem) => .ok (r, { hc with mem := mem })
  | .error fault => .error (.fault fault)

def handleUnsolicited (hc : HeapChannel) (line : Line) : HeapChannel :=
  { hc with rest := ProcessLine.handleUnsolicited hc.rest line }

def clearPendingCommand (hc : HeapChannel) : Except Stop HeapChannel := do
  let (_, hc) ← hc.exec (freeResponce hc.rsp)
  return { hc with rsp := none, rest := hc.rest.clearPendingCommand }

section

variable (al : Allocator Addr Obj)

def addLine (hc : HeapChannel) (line : Line) : Except Stop HeapChannel := do
  let (_, hc) ← hc.exec (addIntermediate al hc.rsp line)
  return hc

def finish (hc : HeapChannel) (success : Int) (line : Line) : Except Stop HeapChannel := do
  let (_, hc) ← hc.exec (handleFinalResponse al hc.rsp success line)
  return { hc with rest := hc.rest.log .notify }

def startsWithPrefix (hc : HeapChannel) (line : Line) : Except Stop Bool :=
  match hc.rest.rspPrefix with
  | some rspPrefix => .ok (atStrStartWith line rspPrefix)
  | none => .error (.fault .nullPointer)

def dispatch (hc : HeapChannel) (line : Line) : Except Stop HeapChannel :=
  match hc.rest.type with
  | .noResult => return hc.handleUnsolicited line
  | .numeric => do
    let (r, hc) ← hc.exec (loadResponse hc.rsp)
    if r.intermediates = none ∧ startsWithDigit line then hc.addLine al line
    else return hc.handleUnsolicited line
  | .singleLine => do
    let (r, hc) ← hc.exec (loadResponse hc.rsp)
    if r.intermediates = none then
      if ← hc.startsWithPrefix line then hc.addLine al line
      else return hc.handleUnsolicited line
    else return hc.handleUnsolicited line
  | .multiLine => do
    if ← hc.startsWithPrefix line then hc.addLine al line
    else return hc.handleUnsolicited line

def processLine (hc : HeapChannel) (line : Line) : Except Stop HeapChannel :=
  match hc.rsp with
  | none => return hc.handleUnsolicited line
  | some _ =>
    if isFinalResponseSuccess line then hc.finish al 1 line
    else if isFinalResponseError line then hc.finish al 0 line
    else
      match hc.rest.smsPdu with
      | some pdu =>
        if line = smsPrompt then
          return { hc with rest := { (writeLine hc.rest pdu kCtrlZ).2 with smsPdu := none } }
        else hc.dispatch al line
      | none => hc.dispatch al line

def readerClose (hc : HeapChannel) : HeapChannel :=
  { hc with rest := SendCommand.readerClose hc.rest }

def act (hc : HeapChannel) : Act → Except Stop HeapChannel
  | .processLine line => hc.processLine al line
  | .readerClose => return hc.readerClose

end

end HeapChannel

inductive HeapOut
  | unassigned
  | pointer (p : Ptr Addr)
  deriving DecidableEq, Repr

structure HeapSent where
  ret : Int
  out : HeapOut
  chan : HeapChannel

namespace HeapChannel

def takeResponse (hc : HeapChannel) (outRsp : Bool) : Except Stop HeapSent := do
  let (out, hc) ←
    if outRsp then do
      let (_, hc) ← hc.exec (Heap.reverseIntermediates hc.rsp)
      pure (HeapOut.pointer hc.rsp, hc)
    else do
      let (_, hc) ← hc.exec (freeResponce hc.rsp)
      pure (HeapOut.unassigned, hc)
  let ret := if hc.rest.readClosed then ATErrno.errorChannelClosed.code else 0
  let hc ← { hc with rsp := none }.clearPendingCommand
  return ⟨ret, out, hc⟩

def answered (hc : HeapChannel) : Except Stop Bool := do
  let (r, _) ← hc.exec (loadResponse hc.rsp)
  return r.finalResp.isSome || hc.rest.readClosed

section

variable (al : Allocator Addr Obj)

def waitLoop (hc : HeapChannel) (timeoutMsec : Nat) (outRsp : Bool) :
    List Wake → Except Stop HeapSent
  | [] => do
    if ← hc.answered then hc.takeResponse outRsp else .error .asleep
  | wake :: wakes => do
    if ← hc.answered then hc.takeResponse outRsp
    else
      let hc ← wake.acts.foldlM (act al) { hc with rest := hc.rest.log (.sleep timeoutMsec) }
      if wake.errno = etimedout then
        let hc ← hc.clearPendingCommand
        return ⟨ATErrno.errorTimeout.code, .unassigned, hc⟩
      else hc.waitLoop timeoutMsec outRsp wakes

def setUp (hc : HeapChannel) (c : Command) : Except Stop HeapChannel := do
  let (rsp, hc) ← hc.exec (allocResponce al)
  return { hc with
    rsp := rsp
    rest := { hc.rest with type := c.type, rspPrefix := c.rspPrefix, smsPdu := c.smsPdu }.log
      .allocResponce }

/-- `SendCommandNoLock` above its wait loop: the value of an early return, or none. -/
def startCommand (hc : HeapChannel) (c : Command) : Except Stop (Option Int × HeapChannel) :=
  if hc.rsp ≠ none then do
    let hc ← hc.clearPendingCommand
    return (some ATErrno.errorCommandPending.code, hc)
  else
    let (ret, rest) := writeLine hc.rest c.cmd kCtrlEnter
    if ret < 0 then do
      let hc ← { hc with rest := rest }.clearPendingCommand
      return (some ret, hc)
    else do
      let hc ← { hc with rest := rest }.setUp al c
      return (none, hc)

def sendCommandNoLock (hc : HeapChannel) (c : Command) (wakes : List Wake) :
    Except Stop HeapSent := do
  let (early, hc) ← hc.startCommand al c
  match early with
  | some ret => return ⟨ret, .unassigned, hc⟩
  | none => hc.waitLoop al c.timeoutMsec c.outRsp wakes

def sendCommandFull (hc : HeapChannel) (c : Command) (wakes : List Wake) :
    Except Stop HeapSent := do
  let r ← hc.sendCommandNoLock al c wakes
  if r.ret = ATErrno.errorTimeout.code ∧ r.chan.rest.timeoutHandler then
    return { r with chan := { r.chan with rest := r.chan.rest.log .timeoutHandler } }
  else return r

end

end HeapChannel

def requireIntermediate (r : HeapSent) : Except Stop HeapSent :=
  match r.out with
  | .pointer p =>
    if r.ret = 0 then do
      let (rsp, chan) ← r.chan.exec (loadResponse p)
      if rsp.success > 0 ∧ rsp.intermediates = none then
        let (_, chan) ← chan.exec (freeResponce p)
        return ⟨ATErrno.errorInvalidResponse.code, .pointer none, chan⟩
      else return r
    else return r
  | .unassigned => return r

namespace HeapChannel

variable (al : Allocator Addr Obj)

def sendCommand (hc : HeapChannel) (cmd : Line) (outRsp : Bool) (wakes : List Wake) :
    Except Stop HeapSent :=
  hc.sendCommandFull al ⟨cmd, .noResult, none, none, 0, outRsp⟩ wakes

def sendCommandSingleLine (hc : HeapChannel) (cmd rspPrefix : Line) (outRsp : Bool)
    (wakes : List Wake) : Except Stop HeapSent :=
  hc.sendCommandFull al ⟨cmd, .singleLine, some rspPrefix, none, 0, outRsp⟩ wakes >>=
    requireIntermediate

def sendCommandNumeric (hc : HeapChannel) (cmd : Line) (outRsp : Bool) (wakes : List Wake) :
    Except Stop HeapSent :=
  hc.sendCommandFull al ⟨cmd, .numeric, none, none, 0, outRsp⟩ wakes >>= requireIntermediate

def sendCommandMultiLine (hc : HeapChannel) (cmd rspPrefix : Line) (outRsp : Bool)
    (wakes : List Wake) : Except Stop HeapSent :=
  hc.sendCommandFull al ⟨cmd, .multiLine, some rspPrefix, none, 0, outRsp⟩ wakes

def sendCommandSms (hc : HeapChannel) (cmd pdu rspPrefix : Line) (outRsp : Bool)
    (wakes : List Wake) : Except Stop HeapSent :=
  hc.sendCommandFull al ⟨cmd, .singleLine, some rspPrefix, some pdu, 0, outRsp⟩ wakes >>=
    requireIntermediate

end HeapChannel

end Mobile.Channel.Heap
