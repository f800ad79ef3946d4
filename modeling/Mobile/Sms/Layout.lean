import Mobile.Sms.Pdu
import Mathlib.Data.Nat.Digits.Defs

/-!
# SMS-SUBMIT and SMS-DELIVER

What the coder is for: the two PDUs in uppercase hex, the numbers in swapped
semi-octets, and the user data in one of three codings.
-/

namespace Mobile.Sms.Layout

open Mobile.ProofSupport.Image Mobile.Sms.Unicode Mobile.Sms.Pdu

def hexDigit (n : Nat) : UInt8 := UInt8.ofNat (if n < 10 then 0x30 + n else 0x41 + (n - 10))

def hex (b : UInt8) : List UInt8 := [hexDigit (b.toNat / 16), hexDigit (b.toNat % 16)]

def hexText (octets : List UInt8) : List UInt8 := octets.flatMap hex

/-- The digits of a number two by two, with `F` beside the last of an odd number. -/
def semiOctets : List UInt8 → List UInt8
  | [] => []
  | [a] => [0x46, a]
  | a :: b :: rest => b :: a :: semiOctets rest

theorem hexText_length (octets : List UInt8) : (hexText octets).length = 2 * octets.length := by
  induction octets with
  | nil => rfl
  | cons b octets ih =>
      have hcons : hexText (b :: octets) = hex b ++ hexText octets := rfl
      rw [hcons, List.length_append, ih]
      simp only [hex, List.length_cons, List.length_nil]
      omega

theorem semiOctets_length (s : List UInt8) :
    (semiOctets s).length = 2 * ((s.length + 1) / 2) := by
  fun_induction semiOctets s with
  | case1 => rfl
  | case2 a => simp
  | case3 a b rest ih =>
      simp only [List.length_cons, ih]
      omega

inductive Coding
  | sevenBit
  | eightBit
  | ucs2
  deriving DecidableEq, Repr

def Coding.dcs : Coding → UInt8
  | .sevenBit => 0
  | .eightBit => 4
  | .ucs2 => 8

/-- The septets as one little-endian number, cut into octets. -/
def packSeptets (s : List UInt8) : List UInt8 :=
  (List.range ((7 * s.length + 7) / 8)).map fun k =>
    UInt8.ofNat (Nat.ofDigits 128 (s.map UInt8.toNat) / 256 ^ k)

/-- The UCS2 octets of a GB text; 0x81 is the smallest lead byte. -/
def ucs2Octets (table : Table) : List UInt8 → Option (List UInt8)
  | [] => some []
  | [c] => if c < 0x81 then some [0, c] else none
  | c :: d :: rest =>
    if c < 0x81 then (ucs2Octets table (d :: rest)).map ([0, c] ++ ·)
    else do
      let row ← table.toList.find? fun row => row.2 == (c.toUInt16 <<< 8 ||| d.toUInt16)
      let octets ← ucs2Octets table rest
      return (row.1 >>> 8).toUInt8 :: row.1.toUInt8 :: octets

def Coding.encode (table : Table) (s : List UInt8) : Coding → Option (List UInt8)
  | .sevenBit => if s.all fun c => c.toNat < 128 then some (packSeptets s) else none
  | .eightBit => some s
  | .ucs2 => ucs2Octets table s

structure Number where
  digits : List UInt8
  isDigit : ∀ d ∈ digits, 0x30 ≤ d ∧ d ≤ 0x39
  fits : digits.length < 16

def Number.smscLength (n : Number) : UInt8 := UInt8.ofNat (1 + (n.digits.length + 1) / 2)

theorem smscLength_hex (n : Number) : hexDigit (n.smscLength.toNat / 16) = 0x30 := by
  have hlen := n.fits
  have hsmall : 1 + (n.digits.length + 1) / 2 < 16 := by omega
  have hval : n.smscLength.toNat = 1 + (n.digits.length + 1) / 2 := by
    rw [Number.smscLength, UInt8.toNat_ofNat', Nat.mod_eq_of_lt (by omega)]
  rw [hval, Nat.div_eq_of_lt hsmall]
  rfl

structure UserData (table : Table) where
  text : List UInt8
  coding : Coding
  octets : List UInt8
  nul_not_mem : 0 ∉ text
  encodes : coding.encode table text = some octets
  fits : octets.length ≤ 140

def UserData.length {table : Table} (ud : UserData table) : UInt8 :=
  match ud.coding with
  | .sevenBit => UInt8.ofNat ud.text.length
  | _ => UInt8.ofNat ud.octets.length

structure Submit (table : Table) where
  sca : Number
  tpa : Number
  pid : UInt8
  ud : UserData table

def Submit.pdu {table : Table} (msg : Submit table) : List UInt8 :=
  hexText [msg.sca.smscLength, 0x91] ++ semiOctets msg.sca.digits ++
    hexText [0x11, 0, UInt8.ofNat msg.tpa.digits.length, 0x91] ++ semiOctets msg.tpa.digits ++
    hexText ([msg.pid, msg.ud.coding.dcs, 0, msg.ud.length] ++ msg.ud.octets)

structure Submit.In {table : Table} (msg : Submit table) (m : Bytes) : Prop where
  sca : (m.shift Pdu.sca).Holds msg.sca.digits
  tpa : (m.shift Pdu.tpa).Holds msg.tpa.digits
  pid : m tpPid = msg.pid
  dcs : m tpDcs = msg.ud.coding.dcs
  ud : (m.shift tpUd).Holds msg.ud.text

structure Deliver (table : Table) where
  sca : Number
  /-- TP-MTI, TP-MMS and the like; no user data header -/
  first : UInt8
  isDeliver : first &&& 0x43 = 0
  tpa : Number
  pid : UInt8
  scts : List UInt8
  sctsDigit : ∀ d ∈ scts, 0x30 ≤ d ∧ d ≤ 0x39
  sctsLength : scts.length = 14
  ud : UserData table

def Deliver.pdu {table : Table} (msg : Deliver table) : List UInt8 :=
  hexText [msg.sca.smscLength, 0x91] ++ semiOctets msg.sca.digits ++
    hexText [msg.first, UInt8.ofNat msg.tpa.digits.length, 0x91] ++ semiOctets msg.tpa.digits ++
    hexText [msg.pid, msg.ud.coding.dcs] ++ semiOctets msg.scts ++
    hexText (msg.ud.length :: msg.ud.octets)

/-- The members hold what the message says. -/
structure Deliver.In {table : Table} (msg : Deliver table) (m : Bytes) : Prop where
  sca : (m.shift Pdu.sca).Holds msg.sca.digits
  tpa : (m.shift Pdu.tpa).Holds msg.tpa.digits
  pid : m tpPid = msg.pid
  dcs : m tpDcs = msg.ud.coding.dcs
  scts : (m.shift tpScts).Holds msg.scts
  ud : (m.shift tpUd).Holds msg.ud.text

end Mobile.Sms.Layout
