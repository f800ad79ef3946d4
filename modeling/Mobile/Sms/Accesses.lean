import Mobile.Sms.Pdu

/-!
# The accesses of the decoder

`DecodePdu` with a record of its accesses: which object a helper is given and the
position it writes there, and the position it reads in `src`, counted from the
argument of the call.
-/

namespace Mobile.Sms.Accesses

open Mobile.ProofSupport.Image Mobile.Sms.Helpers Mobile.Sms.Unicode Mobile.Sms.Pdu

inductive Member
  | sca
  | tpa
  | tpPid
  | tpDcs
  | tpScts
  | tpUd
  deriving DecidableEq, Repr

namespace Member

def offset : Member → Int
  | sca => Pdu.sca
  | tpa => Pdu.tpa
  | tpPid => Pdu.tpPid
  | tpDcs => Pdu.tpDcs
  | tpScts => Pdu.tpScts
  | tpUd => Pdu.tpUd

def size : Member → Nat
  | sca | tpa | tpScts => 16
  | tpPid | tpDcs => 1
  | tpUd => 161

end Member

inductive Field
  | tmp
  | udhl
  | buf
  | member (m : Member)
  deriving DecidableEq, Repr

def Field.size : Field → Nat
  | tmp | udhl => 1
  | buf => 256
  | member m => m.size

inductive Access
  | read (pos : Int)
  | write (field : Field) (pos : Int)
  deriving DecidableEq, Repr

/-- A write inside its object, a read up to the terminator of `src`. -/
def Access.Inside (srcLen : Nat) : Access → Prop
  | read pos => 0 ≤ pos ∧ pos ≤ srcLen
  | write field pos => 0 ≤ pos ∧ pos < field.size

def Access.isInside (srcLen : Nat) : Access → Bool
  | read pos => 0 ≤ pos && pos ≤ srcLen
  | write field pos => 0 ≤ pos && pos < field.size

theorem Access.isInside_iff {srcLen : Nat} {a : Access} :
    a.isInside srcLen = true ↔ a.Inside srcLen := by
  cases a <;> simp [isInside, Inside]

/-- The object and the offset that `Decode` records for a write. -/
def Access.written : Access → Option (Target × Int)
  | read _ => none
  | write .tmp pos => some (.tmp, pos)
  | write .udhl pos => some (.udhl, pos)
  | write .buf pos => some (.buf, pos)
  | write (.member m) pos => some (.members, m.offset + pos)

/-- `pos` is how far `src` has moved. -/
structure Traced where
  state : Decode
  pos : Int
  log : List Access

namespace Traced

/-- A helper reads `reads` characters of `src` and writes to `field`. -/
def access (t : Traced) (reads : Nat) (field : Field) (ws : Writes) : Traced :=
  { t with log := t.log ++ ((List.range reads).map fun k : Nat => .read (t.pos + k)) ++
      ws.map fun w => .write field w.1 }

def readTmp (t : Traced) : Traced :=
  { t.access 2 .tmp (string2Byte t.state.src 2).writes with state := t.state.readTmp }

def readUdhl (t : Traced) : Traced :=
  { t.access 2 .udhl (string2Byte t.state.src 2).writes with state := t.state.readUdhl }

def setTmp (t : Traced) (tmp : UInt8) : Traced := { t with state := { t.state with tmp } }

def setMember (t : Traced) (reads : Nat) (m : Member) (ws : Writes) : Traced :=
  { t.access reads (.member m) ws with state := t.state.setMember m.offset ws }

def readOctet (t : Traced) (m : Member) : Traced :=
  t.setMember 2 m (string2Byte t.state.src 2).writes

/-- `SerializeNumbers` takes `src` two characters at a time. -/
def readNumber (t : Traced) (m : Member) (srcLen : Nat) : Traced :=
  t.setMember ((srcLen + 1) / 2 * 2) m
    (serializeNumbers t.state.src (t.state.members.shift m.offset) srcLen).writes

def readBuf (t : Traced) (srcLen : Nat) : Nat × Traced :=
  let out := string2Byte t.state.src srcLen
  (out.ret, { t.access srcLen .buf out.writes with state := (t.state.readBuf srcLen).2 })

def advance (t : Traced) (k : Nat) : Traced :=
  { t with state := t.state.advance k, pos := t.pos + k }

def readSca (t : Traced) : Traced :=
  let t := t.readTmp
  let t := t.setTmp ((t.state.tmp - 1) * 2)
  let t := t.advance 4
  let t := t.readNumber .sca t.state.tmp.toNat
  t.advance t.state.tmp.toNat

def readTpa (t : Traced) : UInt8 × Traced :=
  let t := t.readTmp
  let tpMtiMmsRp := t.state.tmp
  let t := t.advance 2
  let t := t.readTmp
  let t := if t.state.tmp &&& 1 ≠ 0 then t.setTmp (t.state.tmp + 1) else t
  let t := t.advance 4
  let t := t.readNumber .tpa t.state.tmp.toNat
  (tpMtiMmsRp, t.advance t.state.tmp.toNat)

def readParameters (t : Traced) : Traced :=
  let t := (t.readOctet .tpPid).advance 2
  let t := (t.readOctet .tpDcs).advance 2
  let t := (t.readNumber .tpScts 14).advance 14
  t.readTmp.advance 2

def skipHeader (t : Traced) (tpMtiMmsRp : UInt8) : Traced :=
  if tpMtiMmsRp &&& 0x40 ≠ 0 then
    let t := t.readUdhl.advance 2
    let t := t.advance (t.state.udhl.toNat * 2)
    t.setTmp (t.state.tmp - UInt8.ofNat ((t.state.udhl.toNat * 2 + 2) / 2))
  else t

def readUserData (table : Table) (t : Traced) : Option (Nat × Traced) :=
  let tmp := t.state.tmp.toNat
  if t.state.members tpDcs = gsm7Bit then
    let (nDstLength, t) := t.readBuf (if tmp % 8 ≠ 0 then tmp * 7 / 4 + 2 else tmp * 7 / 4)
    let out := decode7Bit (t.state.members.shift tpUd) nDstLength
    some (tmp, t.setMember 0 .tpUd out.writes)
  else if t.state.members tpDcs = gsmUcs2 then do
    let (nDstLength, t) := t.readBuf (tmp * 2)
    let out ← strUnicode2GB table t.state.buf (UInt32.ofNat nDstLength)
    return (out.ret, t.setMember 0 .tpUd out.writes)
  else
    let (nDstLength, t) := t.readBuf (tmp * 2)
    let out := decode8Bit t.state.buf nDstLength
    some (out.ret, t.setMember 0 .tpUd out.writes)

def Inside (t : Traced) (srcLen : Nat) : Prop := ∀ a ∈ t.log, a.Inside srcLen

end Traced

def tracedDecodePdu (table : Table) (src members buf : Bytes) (tmp : UInt8) : Option (Nat × Traced) :=
  let t : Traced := ⟨⟨src, tmp, 0, buf, members, []⟩, 0, []⟩
  let t := t.readSca
  let (tpMtiMmsRp, t) := t.readTpa
  let t := t.readParameters
  let t := t.skipHeader tpMtiMmsRp
  t.readUserData table

end Mobile.Sms.Accesses
