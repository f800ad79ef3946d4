import Mobile.Command.Callbacks

/-!
# The operations of the command manager

Eight operations of `ATCommandManager` in `command.cc`, statement by statement.
Plain `char` is unsigned, as on the aarch64 device of the README.
-/

namespace Mobile.Command.Operations

open Mobile.Token.Scan Mobile.Token.Tokenizer Mobile.Channel.Types Mobile.Command.Callbacks

/-- `ret < 0 || rsp->success_ == 0` -/
def failedReply (ret : Int) (rsp : Ptr) : Op Bool := do
  let failed ← if ret < 0 then pure true else do
    let r ← deref rsp
    pure (r.success == 0)
  Op.log (.tested ret failed)
  return failed

/-- `ret != 0 || rsp->success_ == 0` -/
def failedQuery (ret : Int) (rsp : Ptr) : Op Bool := do
  let failed ← if ret ≠ 0 then pure true else do
    let r ← deref rsp
    pure (r.success == 0)
  Op.log (.tested ret failed)
  return failed

/-- `ret != 0` -/
def nonzeroReply (ret : Int) : Op Bool := do
  Op.log (.tested ret (ret != 0))
  return ret != 0

/-- `rsp->intermediates_->line_` -/
def firstLine (rsp : Ptr) : Op Line := do
  let r ← deref rsp
  match r.intermediates with
  | line :: _ => pure line
  | [] => Op.crash .nullIntermediates

section Operations

variable {M : Type → Type} [Calls M]

/-- The query that `getModem`, `getRadioState`, `setEhrpd` and `getNet3GPP` start
with: a failed reply is freed, and of any other reply the first line is read.
`store` is the conversion to the type of the result variable. -/
def query {α : Type} (store : Int → Int) (cmd rspPrefix : Line) (rsp : Ptr) (failure : α)
    (read : Ptr → Line → M α) : M α := do
  let (ret, rsp) ← Calls.send (.singleLine cmd rspPrefix) rsp
  if ← Calls.lift (failedReply (store ret) rsp) then
    Calls.freeResp rsp
    return failure
  else
    let line ← Calls.lift (firstLine rsp)
    read rsp line

def sendAll : List String → M Unit
  | [] => pure ()
  | cmd :: cmds => do
    let _ ← Calls.sendOnly (text cmd)
    sendAll cmds

def initModem : M Bool := do
  sendAll ["ATE1", "ATS0=0", "AT+CMEE=1", "AT+NVRW=1,50058,\"01\"", "AT+BNDPRF=896,1272,131072"]
  let (ret, rsp) ← Calls.send (.command (text "AT+CREG=2") true) .null
  if ← Calls.lift (failedReply ret rsp) then
    sendAll ["AT+CREG=1"]
  Calls.freeResp rsp
  sendAll ["AT+CGREG=1", "AT+CCWA=1", "AT+CMOD=0", "AT+CSSN=0,1", "AT+COLP=0", "AT+CUSD=1",
    "AT+CGEREP=1,0", "AT+CMGF=0"]
  return ret == 0

def readModel (rsp : Ptr) (line : Line) : M Bool := do
  let (ret, cur) := atTokStart (some line)
  if ret < 0 then
    Calls.freeResp rsp
    return false
  else
    let (ret, out, _) ← Calls.lift (tok (atTokNextStr cur))
    if ret < 0 then
      Calls.freeResp rsp
      return false
    else
      Calls.lift (Op.log (.modemMatch out))
      Calls.freeResp rsp
      return true

def getModem : M Bool := query id (text "ATI") (text "Model:") .null false readModel

def radioLpmMode : Int := 0

/-- A value stored in a `char`. -/
def toChar (n : Int) : Int := n % 256

/-- `getRadioState` with the line of its reply.  The return codes go through the
`char ret`, whose `ret < 0` is never true. -/
def readRadio (rsp : Ptr) (line : Line) : M Int := do
  let (ret, cur) := atTokStart (some line)
  if toChar ret < 0 then
    Calls.freeResp rsp
    return radioLpmMode
  else
    let (ret, _, _) ← Calls.lift (tok (atTokNextBool cur))
    if toChar ret < 0 then
      Calls.freeResp rsp
      return radioLpmMode
    else
      Calls.freeResp rsp
      return toChar ret

def getRadioState : M Int :=
  query toChar (text "AT+CFUN?") (text "+CFUN:") .null radioLpmMode readRadio

/-- `while (count-- < 0)`; the first argument bounds the rounds. -/
def setRadioLoop (cmd : Line) (cfun : Int) : Nat → Int → Ptr → M Ptr
  | 0, _, rsp => pure rsp
  | rounds + 1, count, rsp =>
    if count < 0 then do
      let (rc, rsp) ← Calls.send (.command cmd true) rsp
      if ← Calls.lift (failedReply rc rsp) then
        setRadioLoop cmd cfun rounds (count - 1) rsp
      else
        let radioMode ← getRadioState
        if radioMode = cfun then return rsp
        else setRadioLoop cmd cfun rounds (count - 1) rsp
    else pure rsp

/-- The loop counter starts at 5 and the loop test fails at once. -/
def setRadioState (cfun : Int) : M Bool := do
  let radioMode ← getRadioState
  if radioMode = cfun then return false
  else
    let rsp ← setRadioLoop (text s!"AT+CFUN={cfun}") cfun 1 5 .null
    Calls.freeResp rsp
    return true

/-- The enumerators of `SIMStatus` that `getSIMStatus` returns. -/
inductive SIMStatus
  | absent
  | notReady
  | ready
  | pin
  | puk
  | networkPersonalization
  deriving DecidableEq, Repr

def cpinStatus (result : Line) : SIMStatus :=
  if result = text "SIM PIN" then .pin
  else if result = text "SIM PUK" then .puk
  else if result = text "PH-NET PIN" then .networkPersonalization
  else if result ≠ text "READY" then .absent
  else .ready

def readCpin (rsp : Ptr) (line : Line) : M SIMStatus := do
  let (ret, cur) := atTokStart (some line)
  if ret < 0 then
    Calls.freeResp rsp
    return .notReady
  else
    let (ret, result, _) ← Calls.lift (tok (atTokNextStr cur))
    if ret < 0 then
      Calls.freeResp rsp
      return .notReady
    else
      Calls.freeResp rsp
      return cpinStatus result

def readSIM (rsp : Ptr) : M SIMStatus := do
  let cme ← Calls.cmeError rsp
  if cme = 0 then
    let line ← Calls.lift (firstLine rsp)
    readCpin rsp line
  else if cme = 10 then
    Calls.freeResp rsp
    return .absent
  else
    Calls.freeResp rsp
    return .notReady

def getSIMStatus : M SIMStatus := do
  let (ret, rsp) ← Calls.send (.singleLine (text "AT+CPIN?") (text "+CPIN:")) .null
  if ← Calls.lift (nonzeroReply ret) then
    let (ret, rsp) ← Calls.send (.singleLine (text "AT+QCPIN?") (text "+QCPIN:")) rsp
    if ← Calls.lift (nonzeroReply ret) then
      Calls.freeResp rsp
      return .notReady
    else readSIM rsp
  else readSIM rsp

/-- `setEhrpd` behind the release of its first response. -/
def disableEhrpd (rsp : Ptr) (value : Option Int) : M Bool := do
  if value = some 0 then
    Calls.freeResp rsp
    return false
  else
    let (rc, rsp) ← Calls.send (.command (text "AT+EHRPDENABLE=0") true) rsp
    if ← Calls.lift (failedReply rc rsp) then
      Calls.freeResp rsp
      return false
    else
      Calls.freeResp rsp
      return true

def readEhrpd (rsp : Ptr) (line : Line) : M Bool := do
  let (rc, cur) := atTokStart (some line)
  if rc < 0 then
    Calls.freeResp rsp
    return false
  else
    let (rc, value, _) ← Calls.lift (tok (atTokNextBool cur))
    if rc < 0 then
      Calls.freeResp rsp
      return false
    else
      Calls.freeResp rsp
      disableEhrpd rsp value

def setEhrpd : M Bool :=
  query id (text "AT+EHRPDENABLE?") (text "+EHRPDENABLE:") .null false readEhrpd

def readNet3GPP (rsp : Ptr) (line : Line) : M Int := do
  let (ret, cur) := atTokStart (some line)
  if ret < 0 then
    Calls.freeResp rsp
    return -1
  else
    let (ret, _, _) ← Calls.lift (tok (atTokNextInt cur))
    if ret < 0 then
      Calls.freeResp rsp
      return -1
    else
      Calls.freeResp rsp
      return 0

def getNet3GPP : M Int :=
  query id (text "AT+COPS?") (text "+COPS:") .unassigned (-1) readNet3GPP

/-- One round of the loop of `getAPNS`: whether the line has its fields. -/
def apnFields (line : Line) : Option Bool := do
  let (ret, cur) := atTokStart (some line)
  if ret < 0 then return false
  else
    let (ret, _, cur) ← atTokNextInt cur
    if ret < 0 then return false
    else
      let (ret, _, cur) ← atTokNextStr cur
      if ret < 0 then return false
      else
        let (ret, _, cur) ← atTokNextStr cur
        if ret < 0 then return false
        else
          let (ret, _, _) ← atTokNextStr cur
          return !decide (ret < 0)

def apnLines (rsp : Ptr) : List Line → M Bool
  | [] => do
    Calls.freeResp rsp
    return true
  | line :: lines => do
    if ← Calls.lift (tok (apnFields line)) then apnLines rsp lines
    else
      Calls.freeResp rsp
      return false

/-- The failure branch returns `-1`, which is `true`. -/
def getAPNS : M Bool := do
  let (ret, rsp) ← Calls.send (.multiLine (text "AT+CGDCONT?") (text "+CGDCONT:")) .unassigned
  if ← Calls.lift (failedQuery ret rsp) then return true
  else
    let r ← Calls.lift (deref rsp)
    apnLines rsp r.intermediates

end Operations

inductive Operation
  | initModem
  | getModem
  | getRadioState
  | setRadioState (cfun : Int)
  | getSIMStatus
  | setEhrpd
  | getNet3GPP
  | getAPNS
  deriving DecidableEq, Repr

/-- How an operation ends, its result left aside, when it meets the replies. -/
def Operation.run (replies : Nat → Reply) (o : Operation) : Except Crash Unit × World :=
  let finish {α : Type} (x : Op α) : Except Crash Unit × World :=
    let r := x.run ⟨replies, 0, []⟩
    (r.1.map fun _ => (), r.2)
  match o with
  | .initModem => finish Operations.initModem
  | .getModem => finish Operations.getModem
  | .getRadioState => finish Operations.getRadioState
  | .setRadioState cfun => finish (Operations.setRadioState cfun)
  | .getSIMStatus => finish Operations.getSIMStatus
  | .setEhrpd => finish Operations.setEhrpd
  | .getNet3GPP => finish Operations.getNet3GPP
  | .getAPNS => finish Operations.getAPNS

end Mobile.Command.Operations
