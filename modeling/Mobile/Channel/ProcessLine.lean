import Mobile.Channel.WriteLine

/-!
# Dispatching a line

`ATChannel::ProcessLine` of `channel.cc` with the helpers it calls.  `none` is
the null pointer dereference of `AtStrStartWith(line, rsp_prefix_)` without a
prefix.
-/

namespace Mobile.Channel.ProcessLine

open Mobile.Token.Scan Mobile.Channel.Types Mobile.Channel.WriteLine

def kFinalResponsesError : List Line :=
  ["ERROR", "+CMS ERROR:", "+CME ERROR:", "NO CARRIER", "NO ANSWER", "NO DIALTONE"].map text

def kFinalResponsesSuccess : List Line :=
  ["OK", "CONNECT"].map text

def kSsmsUnsoliciteds : List Line :=
  ["+CMT:", "+CDS:", "+CBM:"].map text

def isFinalResponseError (line : Line) : Bool :=
  kFinalResponsesError.any (atStrStartWith line)

def isFinalResponseSuccess (line : Line) : Bool :=
  kFinalResponsesSuccess.any (atStrStartWith line)

def isFinalResponse (line : Line) : Bool :=
  isFinalResponseSuccess line || isFinalResponseError line

def isSMSUnsolicited (line : Line) : Bool :=
  kSsmsUnsoliciteds.any (atStrStartWith line)

/-- `isdigit(line[0])`; the first byte of an empty line is its terminator. -/
def startsWithDigit : Line → Bool
  | [] => false
  | c :: _ => 0x30 ≤ c && c ≤ 0x39

def handleUnsolicited (ch : ATChannel) (line : Line) : ATChannel :=
  if ch.unsolHandler then ch.log (.unsolHandler line none) else ch

def addIntermediate (ch : ATChannel) (rsp : ATResponse) (line : Line) : ATChannel :=
  { ch with rsp := some { rsp with intermediates := line :: rsp.intermediates } }

/-- `rsp_->success_ = success; HandleFinalResponse(line);` -/
def handleFinalResponse (ch : ATChannel) (rsp : ATResponse) (success : Int) (line : Line) :
    ATChannel :=
  { ch with rsp := some { rsp with success := success, finalResp := some line } }.log .notify

def dispatch (ch : ATChannel) (rsp : ATResponse) (line : Line) : Option ATChannel :=
  match ch.type with
  | .noResult => some (handleUnsolicited ch line)
  | .numeric =>
    if rsp.intermediates = [] ∧ startsWithDigit line then some (addIntermediate ch rsp line)
    else some (handleUnsolicited ch line)
  | .singleLine =>
    if rsp.intermediates = [] then do
      if atStrStartWith line (← ch.rspPrefix) then return addIntermediate ch rsp line
      else return handleUnsolicited ch line
    else some (handleUnsolicited ch line)
  | .multiLine => do
    if atStrStartWith line (← ch.rspPrefix) then return addIntermediate ch rsp line
    else return handleUnsolicited ch line

def processLine (ch : ATChannel) (line : Line) : Option ATChannel :=
  match ch.rsp with
  | none => some (handleUnsolicited ch line)
  | some rsp =>
    if isFinalResponseSuccess line then some (handleFinalResponse ch rsp 1 line)
    else if isFinalResponseError line then some (handleFinalResponse ch rsp 0 line)
    else
      match ch.smsPdu with
      | some pdu =>
        if line = smsPrompt then
          some { (writeLine ch pdu kCtrlZ).2 with smsPdu := none }
        else dispatch ch rsp line
      | none => dispatch ch rsp line

end Mobile.Channel.ProcessLine
