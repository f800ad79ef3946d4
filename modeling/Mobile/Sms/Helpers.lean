import Mobile.ProofSupport.Image

/-!
# The coding helpers of the SMS manager

The hex, semi-octet and septet helpers of `sms.cc`.  A helper is given what its
pointers reach and yields its writes, relative to `dst`, and its result.  Plain
`char` is unsigned, as on the aarch64 device of the README.
-/

namespace Mobile.Sms.Helpers

open Mobile.ProofSupport.Image

structure Out where
  writes : Writes
  ret : Nat

/-- The loop body of `Encode7Bit`; `dst` itself never moves. -/
structure Encode7 where
  ucLeftLen : UInt8
  writes : Writes
  uDstCnt : Nat

def encode7BitStep (src : Bytes) (s : Encode7) (uSrcCnt : Nat) : Encode7 :=
  let iCurChar := uSrcCnt % 8
  let c := src uSrcCnt
  if iCurChar = 0 then { s with ucLeftLen := c }
  else
    ⟨c >>> UInt8.ofNat iCurChar,
      s.writes ++ [(0, (c <<< UInt8.ofNat (8 - iCurChar)) ||| s.ucLeftLen)], s.uDstCnt + 1⟩

def encode7Bit (src : Bytes) (srcLen : Nat) : Out :=
  let s := (List.range srcLen).foldl (encode7BitStep src) ⟨0, [], 0⟩
  ⟨s.writes, s.uDstCnt⟩

def charNibble (c : UInt8) : UInt8 :=
  if 0x30 ≤ c && c ≤ 0x39 then c - 0x30 else c - 0x41 + 10

/-- `Byte2String` reads printable characters and writes bytes. -/
def byte2String (src : Bytes) (srcLen : Nat) : Out :=
  ⟨(List.range ((srcLen + 1) / 2)).map fun k : Nat =>
      ((k : Int), (charNibble (src (2 * k)) <<< 4) ||| charNibble (src (2 * k + 1))),
    srcLen / 2⟩

/-- The loop of `Decode7Bit`, which reads through `dst` and not through `src`. -/
structure Decode7 where
  pos : Int
  iCurChar : Nat
  ucLeftLen : UInt8
  writes : Writes
  uDstCnt : Nat

def decode7BitStep (dst : Bytes) (s : Decode7) : Decode7 :=
  let c := ((dst.apply s.writes s.pos <<< UInt8.ofNat s.iCurChar) ||| s.ucLeftLen) &&& 0x7f
  let left := c >>> UInt8.ofNat (7 - s.iCurChar)
  let ws := s.writes ++ [(s.pos, c)]
  if s.iCurChar + 1 = 7 then
    -- one more byte, and `dst` moves past the next
    ⟨s.pos + 4, 0, 0, ws ++ [(s.pos + 1, left)], s.uDstCnt + 1⟩
  else ⟨s.pos + 2, s.iCurChar + 1, left, ws, s.uDstCnt + 1⟩

def decode7Bit (dst : Bytes) (srcLen : Nat) : Out :=
  let s := (List.range srcLen).foldl (fun s _ => decode7BitStep dst s) ⟨0, 0, 0, [], 0⟩
  ⟨s.writes ++ [(s.pos, 0)], s.uDstCnt⟩

def tab (n : UInt8) : UInt8 := if n < 10 then 0x30 + n else 0x41 + (n - 10)

/-- `String2Byte` reads bytes and writes printable characters. -/
def string2Byte (src : Bytes) (srcLen : Nat) : Out :=
  ⟨(List.range srcLen).flatMap (fun k : Nat =>
      [(2 * (k : Int), tab (src k >>> 4)), (2 * (k : Int) + 1, tab (src k &&& 0x0f))]) ++ [(2 * (srcLen : Int), 0)],
    srcLen * 2⟩

def swapPairs (src : Bytes) (rounds : Nat) : Writes :=
  (List.range rounds).flatMap fun k : Nat =>
    [(2 * (k : Int), src (2 * k + 1)), (2 * (k : Int) + 1, src (2 * k))]

def invetNumbers (src : Bytes) (srcLen : Nat) : Out :=
  let rounds : Nat := (srcLen + 1) / 2
  if srcLen % 2 = 1 then
    ⟨swapPairs src rounds ++ [(2 * (rounds : Int) - 2, 0x46), (2 * (rounds : Int), 0)], srcLen + 1⟩
  else ⟨swapPairs src rounds ++ [(2 * (rounds : Int), 0)], srcLen⟩

/-- The last character is read back from `dst`. -/
def serializeNumbers (src dst : Bytes) (srcLen : Nat) : Out :=
  let rounds := (srcLen + 1) / 2
  let ws := swapPairs src rounds
  if dst.apply ws (2 * (rounds : Int) - 1) = 0x46 then
    ⟨ws ++ [(2 * (rounds : Int) - 1, 0)], (srcLen + 0xffffffff) % 0x100000000⟩
  else ⟨ws ++ [(2 * (rounds : Int), 0)], srcLen⟩

def memcpy (src : Bytes) (n : Nat) : Writes :=
  (List.range n).map fun k : Nat => ((k : Int), src k)

def encode8Bit (src : Bytes) (srcLen : Nat) : Out := ⟨memcpy src srcLen, srcLen⟩

/-- The terminator goes to the first byte of the copy. -/
def decode8Bit (src : Bytes) (srcLen : Nat) : Out := ⟨memcpy src srcLen ++ [(0, 0)], srcLen⟩

end Mobile.Sms.Helpers
