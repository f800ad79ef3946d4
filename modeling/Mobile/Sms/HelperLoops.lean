import Mobile.ProofSupport.While
import Mobile.Sms.Unicode

/-!
# The loops of the helpers

The loops of `StrUnicode2GB`, `InvetNumbers`, `SerializeNumbers`, `Byte2String`,
`String2Byte` and `Encode7Bit` round by round, with their counters of 32 bits and the
positions they read and write.  Positions are counted from the arguments of the call.
-/

namespace Mobile.Sms.HelperLoops

open Mobile.ProofSupport.Image Mobile.ProofSupport.While Mobile.Sms.Helpers Mobile.Sms.Unicode

/-! ## StrUnicode2GB -/

structure Conversion where
  n : UInt32
  i : Nat
  pSrc : Int
  pDest : Int
  reads : List Int
  writes : Writes

namespace Conversion

def start (n : UInt32) : Conversion := ⟨n, 0, 0, 0, [], []⟩

/-- `*pDest = b` -/
def put (s : Conversion) (b : UInt8) : Conversion :=
  { s with writes := s.writes ++ [(s.pDest, b)] }

/-- `++pDest` -/
def stepDest (s : Conversion) : Conversion := { s with pDest := s.pDest + 1 }

/-- `n -= 2, pSrc += 2, ++i, ++pDest` -/
def next (s : Conversion) : Conversion :=
  { s with n := s.n - 2, pSrc := s.pSrc + 2, i := s.i + 1, pDest := s.pDest + 1 }

end Conversion

def conversionRound (table : Table) (src : Bytes) (s : Conversion) : Conversion :=
  let hz := (src s.pSrc).toUInt16 <<< 8 ||| (src (s.pSrc + 1)).toUInt16
  let s := { s with reads := s.reads ++ [s.pSrc, s.pSrc + 1] }
  let tmphz := unicode2GBcode table hz
  if tmphz = 0 || (tmphz > 0x7f && tmphz < 0xff) then ((s.put 0x2e).stepDest.put 0x2e).next
  else if tmphz ≤ 0x7f then (s.put tmphz.toUInt8).next
  else ((s.put (tmphz >>> 8).toUInt8).stepDest.put tmphz.toUInt8).next

def conversionLoop (table : Table) (src : Bytes) : Loop Conversion where
  test s := 0 < s.n
  body := conversionRound table src

def Conversion.written (s : Conversion) : Writes := s.writes ++ [(s.pDest, 0)]

/-! ## InvetNumbers and SerializeNumbers -/

structure Swap where
  i : UInt32
  src : Int
  dst : Int
  reads : List Int
  writes : Writes

def Swap.start : Swap := ⟨0, 0, 0, [], []⟩

def swapLoop (src : Bytes) (srcLen : UInt32) : Loop Swap where
  test s := s.i < srcLen
  body s :=
    let ch := src s.src
    ⟨s.i + 2, s.src + 2, s.dst + 2, s.reads ++ [s.src, s.src + 1],
      s.writes ++ [(s.dst, src (s.src + 1)), (s.dst + 1, ch)]⟩

structure Swapped where
  reads : List Int
  dstReads : List Int
  writes : Writes
  ret : UInt32

def invetEnd (srcLen : UInt32) (s : Swap) : Swapped :=
  if srcLen &&& 1 ≠ 0 then
    ⟨s.reads, [], s.writes ++ [(s.dst - 2, 0x46), (s.dst, 0)], srcLen + 1⟩
  else ⟨s.reads, [], s.writes ++ [(s.dst, 0)], srcLen⟩

def serializeEnd (dst : Bytes) (srcLen : UInt32) (s : Swap) : Swapped :=
  if dst.apply s.writes (s.dst - 1) = 0x46 then
    ⟨s.reads, [s.dst - 1], s.writes ++ [(s.dst - 1, 0)], srcLen - 1⟩
  else ⟨s.reads, [s.dst - 1], s.writes ++ [(s.dst, 0)], srcLen⟩

def InvetReturns (src : Bytes) (srcLen : UInt32) (out : Swapped) : Prop :=
  ∃ k s, (swapLoop src srcLen).Ends k .start s ∧ out = invetEnd srcLen s

def SerializeReturns (src dst : Bytes) (srcLen : UInt32) (out : Swapped) : Prop :=
  ∃ k s, (swapLoop src srcLen).Ends k .start s ∧ out = serializeEnd dst srcLen s

structure Written where
  writes : Writes
  ret : UInt32

/-! ## Byte2String and String2Byte -/

structure Hex where
  i : UInt32
  src : Int
  dst : Int
  writes : Writes

namespace Hex

def start : Hex := ⟨0, 0, 0, []⟩

/-- `*dst = b` -/
def store (s : Hex) (b : UInt8) : Hex := { s with writes := s.writes ++ [(s.dst, b)] }

/-- `src++` -/
def stepSrc (s : Hex) : Hex := { s with src := s.src + 1 }

/-- `dst++` -/
def stepDst (s : Hex) : Hex := { s with dst := s.dst + 1 }

end Hex

/-- `src` is stepped in the body and once more behind it; `*dst |= ..` reads back what
the round has stored. -/
def byte2StringLoop (src dst : Bytes) (srcLen : UInt32) : Loop Hex where
  test s := s.i < srcLen
  body s :=
    let s := s.store (charNibble (src s.src) <<< 4)
    let s := s.stepSrc
    let s := s.store (dst.apply s.writes s.dst ||| charNibble (src s.src))
    { s.stepSrc.stepDst with i := s.i + 2 }

def string2ByteLoop (src : Bytes) (srcLen : UInt32) : Loop Hex where
  test s := s.i < srcLen
  body s :=
    let s := (s.store (tab (src s.src >>> 4))).stepDst
    let s := (s.store (tab (src s.src &&& 0x0f))).stepDst
    { s.stepSrc with i := s.i + 1 }

def Byte2StringReturns (src dst : Bytes) (srcLen : UInt32) (out : Written) : Prop :=
  ∃ k s, (byte2StringLoop src dst srcLen).Ends k .start s ∧ out = ⟨s.writes, srcLen / 2⟩

def String2ByteReturns (src : Bytes) (srcLen : UInt32) (out : Written) : Prop :=
  ∃ k s, (string2ByteLoop src srcLen).Ends k .start s ∧
    out = ⟨s.writes ++ [(s.dst, 0)], srcLen * 2⟩

/-! ## Encode7Bit -/

structure Packing where
  uSrcCnt : UInt32
  uDstCnt : UInt32
  ucLeftLen : UInt32
  src : Int
  writes : Writes

def Packing.start : Packing := ⟨0, 0, 0, 0, []⟩

/-- The body up to the two increments; `dst` itself never moves. -/
def Packing.char (src : Bytes) (s : Packing) : Packing :=
  let iCurChar := s.uSrcCnt &&& 7
  let c := (src s.src).toUInt32
  if iCurChar = 0 then { s with ucLeftLen := c }
  else
    { s with
      writes := s.writes ++ [(0, ((c <<< (8 - iCurChar)) ||| s.ucLeftLen).toUInt8)]
      ucLeftLen := c >>> iCurChar
      uDstCnt := s.uDstCnt + 1 }

def encode7BitLoop (src : Bytes) (srcLen : UInt32) : Loop Packing where
  test s := s.uSrcCnt < srcLen
  body s :=
    let s := s.char src
    { s with src := s.src + 1, uSrcCnt := s.uSrcCnt + 1 }

def Encode7BitReturns (src : Bytes) (srcLen : UInt32) (out : Written) : Prop :=
  ∃ k s, (encode7BitLoop src srcLen).Ends k .start s ∧ out = ⟨s.writes, s.uDstCnt⟩

end Mobile.Sms.HelperLoops
