import Mobile.Channel.Types
import Mobile.Sms.Pdu
import Mobile.Token.Tokenizer

/-!
# Sending a message

`SendSMSMsg` of `sms.cc` with the positions it and `EncodePdu` write in their local
arrays, and the lines it hands to the channel.
-/

namespace Mobile.Sms.SendMessage

open Mobile.ProofSupport.Image Mobile.Token.Scan Mobile.Channel.Types
open Mobile.Sms.Helpers Mobile.Sms.Unicode Mobile.Sms.Pdu
open Mobile.Token.Tokenizer (toInt)

inductive SMSMode
  | pdu
  | text
  deriving DecidableEq, Repr

inductive Local
  | buf
  | pdu
  | printfBuf
  | atCommand
  | nSmscLength
  deriving DecidableEq, Repr

def Local.size : Local → Nat
  | buf => 256
  | pdu => 512
  | printfBuf => 256
  | atCommand => 32
  | nSmscLength => 4

abbrev Position := Local × Int

def Inside (p : Position) : Prop := 0 ≤ p.2 ∧ p.2 < p.1.size

def positions (l : Local) (ws : Writes) : List Position := ws.map fun w => (l, w.1)

/-! ## EncodePdu -/

def stores (bs : List UInt8) : Writes := bs.mapIdx fun i b => ((i : Int), b)

/-- What is written to `buf` for the user data and the length that goes to `buf[3]`,
which is a `char`. -/
def userDataWrites (table : Table) (m : Bytes) (nLength : Nat) : Option (Writes × Nat) :=
  let ud := m.shift tpUd
  let head := stores [m tpPid, m tpDcs, 0]
  if m tpDcs = gsm7Bit then
    let out := encode7Bit ud (nLength + 1)
    some (head ++ [(3, UInt8.ofNat nLength)] ++ Writes.shift out.writes 4, nLength)
  else if m tpDcs = gsmUcs2 then do
    let out ← strGB2Unicode table ud (membersSize - tpUd.toNat)
    return (head ++ Writes.shift out.writes 4 ++ [(3, UInt8.ofNat out.ret)], out.ret)
  else
    let out := encode8Bit ud nLength
    some (head ++ Writes.shift out.writes 4 ++ [(3, UInt8.ofNat out.ret)], out.ret)

/-- Every write of `EncodePdu` to `buf`, in order, and the length of the user data. -/
def bufWrites (table : Table) (m : Bytes) : Option (Writes × Nat) := do
  let nLength ← memberLen m sca
  let even := if nLength % 2 = 0 then nLength else nLength + 1
  let udLength ← memberLen m tpUd
  let (ws, length) ← userDataWrites table m udLength
  return (stores [UInt8.ofNat even / 2 + 1, 0x91] ++
    stores [0x11, 0, UInt8.ofNat nLength, 0x91] ++ ws, length)

/-! ## SendSMSMsg -/

/-- `StrGB2Unicode` on a message of any length: an overflow of its `j` comes long after
the writes have left `pdu`. -/
def convertMessage (table : Table) (msg : Line) : Out :=
  strGB2UnicodeLoop table (scannedBytes msg) 0 []

def sprintf (s : Line) : Writes := Writes.run 0 (s ++ [0])

def readInt (p : Bytes) : Int :=
  (p 0).toNat + 256 * (p 1).toNat + 65536 * (p 2).toNat + 16777216 * (p 3).toNat

def modeNone : Nat := 0

def modeEvdo : Nat := 4

structure Sent where
  positions : List Position
  /-- The arguments of `write_line_`. -/
  lines : List (Line × Line)
  ret : Int

def ctrlEnter : Line := [cr]

def sendText (table : Table) (phone msg : Line) : Sent :=
  let out := convertMessage table msg
  let nSmscLength := toInt out.ret
  let strlen := msg.length % 0x10000000000000000
  let printfBuf := text s!"{nSmscLength}, {strlen}"
  let atCommand := text "AT^HCMGS=\"" ++ phone ++ text "\""
  ⟨positions .pdu out.writes ++ positions .printfBuf (sprintf printfBuf) ++
      positions .atCommand (sprintf atCommand),
    [(text "AT^HSMSSS=0,0,6,0", ctrlEnter), (atCommand, ctrlEnter)], 0⟩

/-- `garbage` is what `nSmscLength` holds before. -/
def sendPdu (table : Table) (m buf garbage : Bytes) : Option Sent := do
  let (inBuf, _) ← bufWrites table m
  let out ← encodePdu table m buf
  let pdu : Bytes := Bytes.apply (fun _ => 0) out.writes
  let octets := (string2Byte pdu 2).writes
  let nSmscLength := readInt (garbage.apply octets) + 1
  let nPduLength := out.ret
  let printfBuf := text s!"nPduLength[{nPduLength}], nSmscLength[{nSmscLength}]"
  let length : Int := (nPduLength : Int) / 2 - nSmscLength
  let atCommand :=
    -- `mobile_mode` is never set
    if modeEvdo = modeNone then text s!"AT^HCMGS={length}" else text s!"AT+CMGS={length}"
  return ⟨positions .buf inBuf ++ positions .pdu out.writes ++ positions .nSmscLength octets ++
      positions .printfBuf (sprintf printfBuf) ++ positions .atCommand (sprintf atCommand),
    [(atCommand, ctrlEnter)], 0⟩

def sendSMSMsg (table : Table) (format : SMSMode) (phone msg : Line) (m buf garbage : Bytes) :
    Option Sent :=
  match format with
  | .text => some (sendText table phone msg)
  | .pdu => sendPdu table m buf garbage

end Mobile.Sms.SendMessage
