import Mobile.Sms.Unicode

/-!
# The PDU coder

`EncodePdu` and `DecodePdu` of `sms.cc`.  The character members of the manager lie
one behind the other, so a helper that leaves its member writes to the next one.
What is written around a local variable of one byte is lost.
-/

namespace Mobile.Sms.Pdu

open Mobile.ProofSupport.Image Mobile.Sms.Helpers Mobile.Sms.Unicode

/-- The offsets of `sca_`, `tpa_`, `tp_pid_`, `tp_dcs_`, `tp_scts_` and `tp_ud_`. -/
def sca : Int := 0
def tpa : Int := 16
def tpPid : Int := 32
def tpDcs : Int := 33
def tpScts : Int := 34
def tpUd : Int := 50

/-- The end of the last character member, `index_`. -/
def membersSize : Nat := 212

def gsm7Bit : UInt8 := 0
def gsmUcs2 : UInt8 := 8

def memberLen (m : Bytes) (member : Int) : Option Nat :=
  (m.shift member).strlen (membersSize - member.toNat)

def setBuf (buf : Bytes) (bs : List UInt8) : Bytes :=
  buf.apply (bs.mapIdx fun i b => ((i : Int), b))

/-- The user data of `EncodePdu` in `buf`, and the `nLength` of the segment. -/
def encodeUserData (table : Table) (m buf : Bytes) (nLength : Nat) : Option (Bytes × Nat) :=
  let ud := m.shift tpUd
  let buf := setBuf buf [m tpPid, m tpDcs, 0]
  if m tpDcs = gsm7Bit then
    let buf := buf.apply [(3, UInt8.ofNat nLength)]
    let out := encode7Bit ud (nLength + 1)
    some (buf.apply (Writes.shift out.writes 4), out.ret + 4)
  else if m tpDcs = gsmUcs2 then do
    let out ← strGB2Unicode table ud (membersSize - tpUd.toNat)
    let buf := (buf.apply (Writes.shift out.writes 4)).apply [(3, UInt8.ofNat out.ret)]
    return (buf, (buf 3).toNat + 4)
  else
    let out := encode8Bit ud nLength
    let buf := (buf.apply (Writes.shift out.writes 4)).apply [(3, UInt8.ofNat out.ret)]
    some (buf, (buf 3).toNat + 4)

/-- `EncodePdu` with the members and the garbage in its `buf`.  The length of
`tpa_` is never taken: the statement has become part of a comment. -/
def encodePdu (table : Table) (m buf : Bytes) : Option Out := do
  let nLength ← memberLen m sca
  let even := if nLength % 2 = 0 then nLength else nLength + 1
  let buf := setBuf buf [UInt8.ofNat even / 2 + 1, 0x91]
  let head := byte2String buf 2
  let number := invetNumbers (m.shift sca) nLength
  let nDstLength := head.ret + number.ret
  let ws := head.writes ++ Writes.shift number.writes head.ret
  let buf := setBuf buf [0x11, 0, UInt8.ofNat nLength, 0x91]
  let head := byte2String buf 4
  let ws := ws ++ Writes.shift head.writes nDstLength
  let nDstLength := nDstLength + head.ret
  let number := invetNumbers (m.shift tpa) nLength
  let ws := ws ++ Writes.shift number.writes nDstLength
  let nDstLength := nDstLength + number.ret
  let nLength ← memberLen m tpUd
  let (buf, nLength) ← encodeUserData table m buf nLength
  let out := byte2String buf nLength
  return ⟨ws ++ Writes.shift out.writes nDstLength, nDstLength + out.ret⟩

inductive Target
  | tmp
  | udhl
  | buf
  | members
  deriving DecidableEq, Repr

/-- The state of `DecodePdu`: its locals, the members and every position written. -/
structure Decode where
  src : Bytes
  tmp : UInt8
  udhl : UInt8
  buf : Bytes
  members : Bytes
  written : List (Target × Int)

namespace Decode

def note (s : Decode) (target : Target) (ws : Writes) : Decode :=
  { s with written := s.written ++ ws.map fun w => (target, w.1) }

/-- `String2Byte(src, &tmp, 2)` -/
def readTmp (s : Decode) : Decode :=
  let ws := (string2Byte s.src 2).writes
  { s.note .tmp ws with tmp := Bytes.apply (fun _ => s.tmp) ws 0 }

def readUdhl (s : Decode) : Decode :=
  let ws := (string2Byte s.src 2).writes
  { s.note .udhl ws with udhl := Bytes.apply (fun _ => s.udhl) ws 0 }

/-- Writes to a member and to what lies behind it. -/
def setMember (s : Decode) (member : Int) (ws : Writes) : Decode :=
  let ws := Writes.shift ws member
  { s.note .members ws with members := s.members.apply ws }

def readNumber (s : Decode) (member : Int) (srcLen : Nat) : Decode :=
  s.setMember member (serializeNumbers s.src (s.members.shift member) srcLen).writes

def advance (s : Decode) (k : Nat) : Decode := { s with src := s.src.shift k }

def readSca (s : Decode) : Decode :=
  let s := s.readTmp
  let s := { s with tmp := (s.tmp - 1) * 2 }
  let s := s.advance 4
  let s := s.readNumber sca s.tmp.toNat
  s.advance s.tmp.toNat

def readTpa (s : Decode) : UInt8 × Decode :=
  let s := s.readTmp
  let tpMtiMmsRp := s.tmp
  let s := s.advance 2
  let s := s.readTmp
  let s := if s.tmp &&& 1 ≠ 0 then { s with tmp := s.tmp + 1 } else s
  let s := s.advance 4
  let s := s.readNumber tpa s.tmp.toNat
  (tpMtiMmsRp, s.advance s.tmp.toNat)

def readParameters (s : Decode) : Decode :=
  let s := (s.setMember tpPid (string2Byte s.src 2).writes).advance 2
  let s := (s.setMember tpDcs (string2Byte s.src 2).writes).advance 2
  let s := (s.readNumber tpScts 14).advance 14
  s.readTmp.advance 2

def skipHeader (s : Decode) (tpMtiMmsRp : UInt8) : Decode :=
  if tpMtiMmsRp &&& 0x40 ≠ 0 then
    let s := s.readUdhl.advance 2
    let s := s.advance (s.udhl.toNat * 2)
    { s with tmp := s.tmp - UInt8.ofNat ((s.udhl.toNat * 2 + 2) / 2) }
  else s

/-- `String2Byte(src, buf, ..)` and what it returns. -/
def readBuf (s : Decode) (srcLen : Nat) : Nat × Decode :=
  let out := string2Byte s.src srcLen
  (out.ret, { s.note .buf out.writes with buf := s.buf.apply out.writes })

def readUserData (table : Table) (s : Decode) : Option (Nat × Decode) :=
  let tmp := s.tmp.toNat
  if s.members tpDcs = gsm7Bit then
    let (nDstLength, s) := s.readBuf (if tmp % 8 ≠ 0 then tmp * 7 / 4 + 2 else tmp * 7 / 4)
    let out := decode7Bit (s.members.shift tpUd) nDstLength
    some (tmp, s.setMember tpUd out.writes)
  else if s.members tpDcs = gsmUcs2 then do
    let (nDstLength, s) := s.readBuf (tmp * 2)
    let out ← strUnicode2GB table s.buf (UInt32.ofNat nDstLength)
    return (out.ret, s.setMember tpUd out.writes)
  else
    let (nDstLength, s) := s.readBuf (tmp * 2)
    let out := decode8Bit s.buf nDstLength
    some (out.ret, s.setMember tpUd out.writes)

end Decode

/-- `DecodePdu` with the members and the garbage in its locals; the result is the
returned length and the state at the return. -/
def decodePdu (table : Table) (src members buf : Bytes) (tmp : UInt8) : Option (Nat × Decode) :=
  let s : Decode := ⟨src, tmp, 0, buf, members, []⟩
  let s := s.readSca
  let (tpMtiMmsRp, s) := s.readTpa
  let s := s.readParameters
  let s := s.skipHeader tpMtiMmsRp
  s.readUserData table

end Mobile.Sms.Pdu
