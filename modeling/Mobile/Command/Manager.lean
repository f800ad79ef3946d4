import Mobile.Command.Operations
import Mobile.Command.Slots

/-!
# The command manager

Every public operation of `ATCommandManager`, with its calls through the slots.  Those
that look at a response are the operations of `Operations`.
-/

namespace Mobile.Command.Manager

open Mobile.ProofSupport.Memory (cString)
open Mobile.Token.Scan Mobile.Token.Tokenizer Mobile.Channel.Types
open Mobile.Command.Callbacks Mobile.Command.Slots
open Mobile.Command.Operations (sendAll)

/-! ### Operations that only send -/

def kMaxATCmdLen : Nat := 256

/-- `snprintf(cmd, size, ..)` -/
def snprintf (size : Nat) (s : Line) : Line := s.take (size - 1)

/-- The second command is sent when the first is not answered with 0. -/
def sendEither (first second : Line) : Via Int := do
  let ret ← sendCommand first
  if ret ≠ 0 then sendCommand second else return ret

def setChipErrorLevel (level : Int) : Via Bool := do
  let ret ← sendCommand (snprintf (kMaxATCmdLen - 1) (text s!"AT+CMEE={level}"))
  return ret == 0

def resetModem : Via Bool := do
  sendAll ["AT^RESET"]
  return true

def getSIMLock : Via Int := do
  let ret ← sendEither (text "AT+CLCK=\"SC\",2") (text "AT+QCLCK=\"SC\",2")
  return if ret ≠ 0 then -1 else 0

def setSIMUnlockPinCode (pincode : Line) : Via Int := do
  let _ ← sendCommand
    (snprintf (kMaxATCmdLen - 1) (text "AT+CPIN=\"" ++ cString pincode ++ text "\""))
  return 0

def setNewPinCode (oldcode newcode : Line) : Via Int := do
  let _ ← sendCommand (snprintf kMaxATCmdLen
    (text "AT+CPIN=\"" ++ cString oldcode ++ text "\",\"" ++ cString newcode ++ text "\""))
  return 0

/-- Its texts are written to `cmd` and not sent. -/
def getNetSearchType : Via Int := pure 1

def setNetSearchType : Via Int := pure (-1)

def setSignalNotify : Via Int := do
  let ret ← sendEither (text "AT+CSQ") (text "AT+CCSQ")
  return if ret ≠ 0 then -1 else ret

def getSignal : Via Int := do
  sendAll ["AT+SIGNALIND=1"]
  return 0

def setWapen : Via Int := do
  sendAll ["AT+SIMSWAPEN=1"]
  return 0

def getLSCellInfo : Via Int := do
  sendAll ["AT+LSCELLINFO"]
  return 0

def getClccInfo : Via Int := do
  sendAll ["AT+CLCC"]
  return 0

/-- The `%d` is sent as it stands. -/
def setDtmf : Via Int := do
  sendAll ["AT+LSHTONEDET=%d"]
  return 0

def setAudio : Via Int := do
  sendAll ["AT+SYSCMD=start_pcm acdb", "AT+SYSCMD=start_pcm volume 33"]
  return 0

def answerCall : Via Int := do
  sendAll ["ATA"]
  return 0

def setCallInfo : Via Int := do
  sendAll ["AT+CLIP=%d"]
  return 0

def getCallInfo : Via Int := do
  sendAll ["AT+CLIP"]
  return 0

def setTTS : Via Int := pure 0

/-- Its body is compiled out. -/
def getOperator : Via Int := pure 0

def listAllOperators : Via Bool := do
  sendAll ["AT+COPS=?"]
  return true

def listOperatorByNumberic : Via Bool := do
  sendAll ["AT+COPS=3,2"]
  return true

def setAutoRegister : Via Bool := do
  sendAll ["AT+COPS=0,0"]
  return true

def getNetMode : Via Bool := do
  sendAll ["AT+PSRAT", "AT^SYSINFOEX", "AT^HCSQ?"]
  return true

inductive NetWorkType
  | network2G
  | network3G
  | network4G
  | network5G
  deriving DecidableEq, Repr

def getNetStatus (type : NetWorkType) : Via Bool := do
  match type with
  | .network2G => sendAll ["AT+CGREG?"]
  | .network3G => sendAll ["AT+CREG?"]
  | .network4G => sendAll ["AT+CEREG?"]
  | .network5G => pure ()
  return true

def setCallerId : Via Bool := do
  sendAll ["AT+CLIP=0"]
  return true

def setTeStatus : Via Bool := do
  sendAll ["AT+CNMI=2,1,2,2,0"]
  return true

def getSMSCenter : Via Bool := do
  sendAll ["AT+CSCA?"]
  return true

/-- `ME_AREA` and `SM_AREA`; the area is always the first. -/
def meArea : Nat := 0
def smArea : Nat := 1

def setSMSStorageArea : Via Bool := do
  let area := 0
  if meArea = area then sendAll ["AT+CPMS=\"ME\",\"ME\",\"ME\""]
  else if smArea = area then sendAll ["AT+CPMS=\"SM\",\"SM\",\"SM\""]
  return true

def setSMSFormat : Via Bool := do
  let ret ← sendEither (text "AT+CMGF=0") (text "AT$QCMGF=0")
  return ret == 0

def hasSMS : Via Bool := do
  let ret ← sendEither (text "AT+CMGD=?") (text "AT$QCMGD=?")
  return ret == 0

/-- Only the second of its two texts is sent. -/
def readSMS : Via Bool := do
  sendAll ["AT^HCMGR=0"]
  return true

def clearSMS : Via Bool := do
  sendAll ["AT+CMGD=0,0"]
  return true

def clearAPNS : Via Bool := do
  sendAll ["AT+cgdcont=1", "AT+cgdcont=2"]
  return true

/-- `apn2` is the text that its array happens to hold. -/
def setAPNS (apn2 : Line) : Via Bool := do
  let _ ← sendCommand (snprintf kMaxATCmdLen (text "AT+cgdcont=2,\"ip\",\"" ++ apn2 ++ text "\""))
  return true

/-- Both arrays are sent as they happen to be. -/
def setAuthInfo (szPassword szUsername : Line) : Via Bool := do
  let _ ← sendCommand (snprintf kMaxATCmdLen (text "AT^AUTHDATA=1,2,\"\",\"" ++ szPassword ++
    text "\",\"" ++ szUsername ++ text "\""))
  return true

/-- The unsigned value is printed as an `int`. -/
def setPDPStatus (pdpStatus : UInt32) : Via Bool := do
  let value := toInt pdpStatus.toNat
  let _ ← sendCommand (snprintf kMaxATCmdLen (text s!"AT+CGACT={value},1"))
  return true

def setQosRequestBrief : Via Bool := do
  sendAll ["AT+CGEQREQ=1,3,11520,11520,11520,11520,,,,,,,3"]
  return true

/-! ### Sequences of operations -/

inductive Request
  | initModem
  | resetModem
  | getModem
  | getRadioState
  | setRadioState (cfun : Int)
  | setChipErrorLevel (level : Int)
  | getSIMStatus
  | getSIMLock
  | setSIMUnlockPinCode (pincode : Line)
  | setNewPinCode (oldcode newcode : Line)
  | setEhrpd
  | getOperator
  | listAllOperators
  | listOperatorByNumberic
  | setAutoRegister
  | getNetSearchType
  | setNetSearchType
  | getNetMode
  | getNet3GPP
  | getNetStatus (type : NetWorkType)
  | setPDPStatus (pdpStatus : UInt32)
  | setQosRequestBrief
  | getSMSCenter
  | setSMSStorageArea
  | setSMSFormat
  | hasSMS
  | readSMS
  | clearSMS
  | setAPNS (apn2 : Line)
  | getAPNS
  | clearAPNS
  | setAuthInfo (szPassword szUsername : Line)
  | setSignalNotify
  | getSignal
  | getLSCellInfo
  | getClccInfo
  | setCallerId
  | setTeStatus
  | setWapen
  | setDtmf
  | setAudio
  | setTTS
  | answerCall
  | setCallInfo
  | getCallInfo
  deriving DecidableEq, Repr

def withoutResult {α : Type} (x : Via α) : Via Unit := do
  let _ ← x

def Request.perform : Request → Via Unit
  | .initModem => withoutResult Operations.initModem
  | .resetModem => withoutResult Manager.resetModem
  | .getModem => withoutResult Operations.getModem
  | .getRadioState => withoutResult Operations.getRadioState
  | .setRadioState cfun => withoutResult (Operations.setRadioState cfun)
  | .setChipErrorLevel level => withoutResult (Manager.setChipErrorLevel level)
  | .getSIMStatus => withoutResult Operations.getSIMStatus
  | .getSIMLock => withoutResult Manager.getSIMLock
  | .setSIMUnlockPinCode pincode => withoutResult (Manager.setSIMUnlockPinCode pincode)
  | .setNewPinCode oldcode newcode => withoutResult (Manager.setNewPinCode oldcode newcode)
  | .setEhrpd => withoutResult Operations.setEhrpd
  | .getOperator => withoutResult Manager.getOperator
  | .listAllOperators => withoutResult Manager.listAllOperators
  | .listOperatorByNumberic => withoutResult Manager.listOperatorByNumberic
  | .setAutoRegister => withoutResult Manager.setAutoRegister
  | .getNetSearchType => withoutResult Manager.getNetSearchType
  | .setNetSearchType => withoutResult Manager.setNetSearchType
  | .getNetMode => withoutResult Manager.getNetMode
  | .getNet3GPP => withoutResult Operations.getNet3GPP
  | .getNetStatus type => withoutResult (Manager.getNetStatus type)
  | .setPDPStatus pdpStatus => withoutResult (Manager.setPDPStatus pdpStatus)
  | .setQosRequestBrief => withoutResult Manager.setQosRequestBrief
  | .getSMSCenter => withoutResult Manager.getSMSCenter
  | .setSMSStorageArea => withoutResult Manager.setSMSStorageArea
  | .setSMSFormat => withoutResult Manager.setSMSFormat
  | .hasSMS => withoutResult Manager.hasSMS
  | .readSMS => withoutResult Manager.readSMS
  | .clearSMS => withoutResult Manager.clearSMS
  | .setAPNS apn2 => withoutResult (Manager.setAPNS apn2)
  | .getAPNS => withoutResult Operations.getAPNS
  | .clearAPNS => withoutResult Manager.clearAPNS
  | .setAuthInfo szPassword szUsername => withoutResult (Manager.setAuthInfo szPassword szUsername)
  | .setSignalNotify => withoutResult Manager.setSignalNotify
  | .getSignal => withoutResult Manager.getSignal
  | .getLSCellInfo => withoutResult Manager.getLSCellInfo
  | .getClccInfo => withoutResult Manager.getClccInfo
  | .setCallerId => withoutResult Manager.setCallerId
  | .setTeStatus => withoutResult Manager.setTeStatus
  | .setWapen => withoutResult Manager.setWapen
  | .setDtmf => withoutResult Manager.setDtmf
  | .setAudio => withoutResult Manager.setAudio
  | .setTTS => withoutResult Manager.setTTS
  | .answerCall => withoutResult Manager.answerCall
  | .setCallInfo => withoutResult Manager.setCallInfo
  | .getCallInfo => withoutResult Manager.getCallInfo

inductive Action
  | register
  | request (r : Request) (replies : Nat → Reply)

/-- A manager and what its operations have called.  A fault ends the program: no
caller catches the exception. -/
structure ManagerState where
  slots : Bindings
  invoked : List Invocation
  alive : Bool

namespace ManagerState

def registered : ManagerState := ⟨registerATCommandCb noSlots, [], true⟩

def exec (m : ManagerState) : Action → ManagerState
  | .register => { m with slots := registerATCommandCb m.slots }
  | .request r replies =>
    let res := r.perform.run ⟨m.slots, ⟨replies, 0, []⟩, []⟩
    { m with invoked := m.invoked ++ res.2.invoked, alive := res.1.isOk }

def Step (m : ManagerState) (a : Action) (m' : ManagerState) : Prop :=
  m.alive = true ∧ m' = m.exec a

end ManagerState

end Mobile.Command.Manager
