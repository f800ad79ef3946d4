import Mobile.ProofSupport.Search
import Mobile.Sms.Accesses
import Mobile.Sms.SendMessage

/-!
# Reading a message

`ATReadSMSThread` of `sms.cc`.  The run stops where the code searches from a null pointer,
passes a negative length, or writes behind an object: nothing is known of it from there on.
-/

namespace Mobile.Sms.ReadMessage

open Mobile.ProofSupport.Image Mobile.ProofSupport.Search Mobile.Token.Scan
open Mobile.Sms.Helpers Mobile.Sms.Unicode Mobile.Sms.Pdu Mobile.Sms.Accesses
open Mobile.Sms.SendMessage (SMSMode sprintf)
open Mobile.Token.Tokenizer (strtol toInt)

structure CString where
  bytes : Bytes
  text : Line
  holds : bytes.Holds text

inductive Fault
  | nullSearch
  | negativeLength
  | phoneNum
  | msg
  /-- `DecodePdu` leaves its objects. -/
  | decoder
  /-- No terminator stands in the members. -/
  | members
  /-- `StrUnicode2GB` does not return. -/
  | endless
  deriving DecidableEq, Repr

def comma : UInt8 := 0x2c

def phoneNumSize : Nat := 32

def msgSize : Nat := 164

def store (fault : Fault) (ws : Writes) (size : Nat) : Except Fault Unit :=
  if ws.all fun w => 0 ≤ w.1 && w.1 < size then .ok () else .error fault

/-- `strncpy`: behind the terminator of `src` the rest is filled with zeros. -/
def strncpy (src : Bytes) (n : Nat) : Writes :=
  (List.range n).map fun k : Nat =>
    ((k : Int), if (List.range k).any fun i : Nat => src i == 0 then 0 else src k)

def unsigned (n : Int) : Except Fault Nat :=
  if n < 0 then .error .negativeLength else .ok n.toNat

/-- `strchr(p + 1, ',')` -/
def searchNext : Option Line → Except Fault (Option Line)
  | none => .error .nullSearch
  | some p => .ok (search p.tail [comma])

/-- The loop over the time stamp, which looks at no result. -/
def stampLoop : Nat → Option Line → Except Fault (Option Line)
  | 0, p => .ok p
  | k + 1, p => do
      let p ← searchNext p
      stampLoop k p

def atoi (s : Line) : Int := toInt (strtol s).1

/-- `strcpy` from a member: the terminator may stand in another one. -/
def copyMember (fault : Fault) (members : Bytes) (member : Int) (size : Nat) :
    Except Fault Unit :=
  match memberLen members member with
  | none => .error .members
  | some n =>
      store fault (sprintf ((List.range n).map fun i : Nat => members.shift member i)) size

def readText (table : Table) (smsEncForm : Int) (line2 : CString) (line2Len : Int)
    (members buf : Bytes) (tmp : UInt8) : Except Fault Unit :=
  if smsEncForm = 1 then do
    let n ← unsigned line2Len
    store .msg (strncpy line2.bytes n) msgSize
  else if smsEncForm = 4 then do
    let n ← unsigned (line2Len - 2)
    match strUnicode2GB table line2.bytes (UInt32.ofNat n) with
    | none => .error .endless
    | some out => store .msg out.writes msgSize
  else
    match tracedDecodePdu table line2.bytes members buf tmp with
    | none => .error .endless
    | some (_, t) =>
        if t.log.all fun a => a.isInside line2.text.length then do
          copyMember .phoneNum t.state.members tpa phoneNumSize
          copyMember .msg t.state.members tpUd msgSize
        else .error .decoder

/-- `members` is what the manager holds, `buf` and `tmp` the garbage in the locals of
`DecodePdu`. -/
def atReadSMSThread (table : Table) (format : SMSMode) (line1 : Line) (line2 : CString)
    (line2Len : Int) (members buf : Bytes) (tmp : UInt8) : Except Fault Int :=
  if format ≠ .text then .ok 0
  else do
    let pTmp1 := line1.drop 7
    let pTmp2 := search pTmp1 [comma]
    match pTmp2 with
    -- the difference to the null pointer
    | none => .error .negativeLength
    | some p =>
        store .phoneNum (strncpy (Bytes.literal pTmp1) (pTmp1.length - p.length)) phoneNumSize
        let pTmp2 ← stampLoop 5 pTmp2
        match ← searchNext pTmp2 with
        | none => return -1
        | some p =>
            match ← searchNext (some p) with
            | none => return -1
            | some p =>
                let smsEncForm := atoi p.tail
                let line2Len := if line2Len > 140 then 140 else line2Len
                readText table smsEncForm line2 line2Len members buf tmp
                return 0

end Mobile.Sms.ReadMessage
