import Mobile.Token.Tokenizer
import Mobile.Sms.Helpers

/-!
# The text conversions

`StrGB2Unicode` and `StrUnicode2GB` of `unicode.cc` over a table of rows, each
with its Unicode and its GB code; `kUnicodeGB2312Table` is one such table.
-/

namespace Mobile.Sms.Unicode

open Mobile.ProofSupport.Image Mobile.Token.Scan Mobile.Sms.Helpers
open Mobile.Token.Tokenizer (toInt)

abbrev Table := Array (UInt16 × UInt16)

/-- The search of `Unicode2GBcode`; the first argument bounds its rounds. -/
def searchLoop (table : Table) (unicode : UInt16) : Nat → Int → Int → UInt16
  | 0, _, _ => 0
  | rounds + 1, low, high =>
    if low ≤ high then
      let mid := (low + high) / 2
      let row := table.getD mid.toNat (0, 0)
      if row.1 = unicode then row.2
      else if unicode > row.1 then searchLoop table unicode rounds (mid + 1) high
      else searchLoop table unicode rounds low (mid - 1)
    else 0

def unicode2GBcode (table : Table) (unicode : UInt16) : UInt16 :=
  if unicode = 0x0002 then 0x24
  else if unicode = 0x000a then 0xa
  else if unicode = 0x000d then 0xd
  else if unicode = 0x0040 then 0xA1
  else if (unicode ≥ 0x20 && unicode ≤ 0x5a) || (unicode ≥ 0x61 && unicode ≤ 0x7e) then unicode
  else searchLoop table unicode (table.size + 1) 0 (table.size - 1)

def strUnicode2GBLoop (table : Table) (src : Bytes) :
    Nat → UInt32 → Nat → Int → Writes → Option Out
  | rounds, n, i, pos, ws =>
    if n = 0 then some ⟨ws ++ [(pos, 0)], i⟩ else
    match rounds with
    | 0 => none
    | rounds + 1 =>
      let hz := (src (2 * i)).toUInt16 <<< 8 ||| (src (2 * i + 1)).toUInt16
      let tmphz := unicode2GBcode table hz
      if tmphz = 0 || (tmphz > 0x7f && tmphz < 0xff) then
        strUnicode2GBLoop table src rounds (n - 2) (i + 1) (pos + 2)
          (ws ++ [(pos, 0x2e), (pos + 1, 0x2e)])
      else if tmphz ≤ 0x7f then
        strUnicode2GBLoop table src rounds (n - 2) (i + 1) (pos + 1)
          (ws ++ [(pos, tmphz.toUInt8)])
      else
        strUnicode2GBLoop table src rounds (n - 2) (i + 1) (pos + 2)
          (ws ++ [(pos, (tmphz >>> 8).toUInt8), (pos + 1, tmphz.toUInt8)])

/-- An even `n` takes `n / 2` rounds and an odd one never reaches 0, so that `none`
is a loop without end. -/
def strUnicode2GB (table : Table) (src : Bytes) (n : UInt32) : Option Out :=
  strUnicode2GBLoop table src n.toNat n 0 0 []

/-- The search of `StrGB2Unicode`, which leaves out the last row. -/
def findGB (table : Table) (c d : UInt8) : Option UInt16 :=
  (table.toList.dropLast.find? fun row => row.2 == (c.toUInt16 <<< 8 ||| d.toUInt16)).map (·.1)

def narrow (j : Int) (c : UInt8) : Writes := [(j, 0), (j + 1, c)]

def wide (j : Int) (unicode : UInt16) : Writes :=
  [(j, (unicode >>> 8).toUInt8), (j + 1, unicode.toUInt8)]

def strGB2UnicodeLoop (table : Table) : List UInt8 → Nat → Writes → Out
  | [], j, ws => ⟨ws ++ [((j : Int), 0)], j⟩
  | [c], j, ws =>
    if c < 0x81 then strGB2UnicodeLoop table [] (j + 2) (ws ++ narrow j c)
    else
      -- the terminator is taken for the second byte
      match findGB table c 0 with
      | none => ⟨ws, 0⟩
      | some unicode => strGB2UnicodeLoop table [] (j + 2) (ws ++ wide j unicode)
  | c :: d :: rest, j, ws =>
    if c < 0x81 then strGB2UnicodeLoop table (d :: rest) (j + 2) (ws ++ narrow j c)
    else
      match findGB table c d with
      | none => ⟨ws, 0⟩
      | some unicode => strGB2UnicodeLoop table rest (j + 2) (ws ++ wide j unicode)

/-- The bytes of the characters that begin among the first `n` bytes. -/
def begunWithin : Nat → Line → Line
  | 0, _ => []
  | _, [] => []
  | n + 1, c :: s =>
      if c < 0x81 then c :: begunWithin n s
      else
        match s with
        | [] => [c]
        | d :: rest => c :: d :: begunWithin (n - 1) rest

/-- `StrGB2Unicode` takes the length of the string as an `int`. -/
def scannedBytes (str : Line) : Line := begunWithin (toInt str.length).toNat str

/-- Its parameter `n` is not used.  `none` is also an overflow of the `int` `j`, which
steps behind every write but the terminator. -/
def strGB2Unicode (table : Table) (str : Bytes) (limit : Nat) : Option Out := do
  let len ← str.strlen limit
  let out := strGB2UnicodeLoop table
    (scannedBytes ((List.range len).map fun i : Nat => str i)) 0 []
  if out.writes.all fun w => w.1 < 0x7fffffff then some out else none

end Mobile.Sms.Unicode
