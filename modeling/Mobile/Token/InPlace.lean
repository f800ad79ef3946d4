import Mobile.Token.Tokenizer

/-!
# The tokenizer in place

`AtTokStart` to `AtTokHasMore` of `token.cc` on the memory of the line: the bytes
of its object and the cursor `*p_cur`, an offset into it or the null pointer.
`strsep` cuts the line up by writing terminators.  A result is `none` where the
code reads through the null cursor or outside the object.
-/

namespace Mobile.Token.InPlace

open Mobile.ProofSupport.Memory
open Mobile.Token.Scan
open Mobile.Token.Tokenizer (isSpace digits strtol toInt)

structure Place where
  bytes : List UInt8
  cur : Option Nat
deriving DecidableEq, Repr

namespace Place

def read (s : Place) : Option UInt8 := do
  let i ← s.cur
  s.bytes[i]?

def advance (s : Place) : Place := { s with cur := s.cur.map (· + 1) }

def skip (p : UInt8 → Bool) (s : Place) : Option Place := do
  let i ← s.cur
  let k ← scan p (s.bytes.drop i)
  return { s with cur := some (i + k) }

def text (s : Place) : Option Line := s.cur.map fun i => cString (s.bytes.drop i)

end Place

/-- The C string at an offset, `none` when it has no terminator in the object. -/
def stringAt (bytes : List UInt8) (i : Nat) : Option Line := do
  let n ← strlen (bytes.drop i)
  return (bytes.drop i).take n

/-- `*p_cur = strchr(*p_cur, c)` on a cursor that is not null. -/
def strchr (c : UInt8) (s : Place) : Option Place := do
  let s ← s.skip (fun d => d ≠ 0 && d ≠ c)
  if (← s.read) = c then return s else return { s with cur := none }

/-- `strsep` with one delimiter: the pointer returned and the cursor behind the
delimiter, which becomes a terminator. -/
def strsep (delim : UInt8) (s : Place) : Option (Option Nat × Place) :=
  match s.cur with
  | none => some (none, s)
  | some i => do
    let k ← scan (fun d => d ≠ 0 && d ≠ delim) (s.bytes.drop i)
    if (← s.bytes[i + k]?) = 0 then return (some i, { s with cur := none })
    else return (some i, ⟨s.bytes.set (i + k) 0, some (i + k + 1)⟩)

/-- `0x` before a hexadecimal digit. -/
def skipHexMark : Line → Line
  | 0x30 :: x :: d :: rest =>
    if (x == 0x78 || x == 0x58) && digits 16 [d] ≠ [] then d :: rest else 0x30 :: x :: d :: rest
  | s => s

/-- `(long)strtoul(s, &end, 16)` and whether a number was found: a number that
does not fit gives the largest, a sign negates modulo the range. -/
def strtoul (s : Line) : Int × Bool :=
  let s := s.dropWhile isSpace
  let (neg, s) := match s with
    | 0x2d :: rest => (true, rest)
    | 0x2b :: rest => (false, rest)
    | _ => (false, s)
  let ds := digits 16 (skipHexMark s)
  let n : Nat := ds.foldl (fun n d => 16 * n + d) 0
  let u : Int := if n ≥ 0x10000000000000000 then 0xffffffffffffffff
    else if neg then -n else n
  (u, ds ≠ [])

/-- The stored `int`: the conversion to `long` and then to `int` keeps the low bits. -/
def convert (base : Nat) (tok : Line) : Int × Bool :=
  let (l, found) := if base = 16 then strtoul tok else strtol tok
  (toInt l, found)

def atTokStart (s : Place) : Option (Int × Place) :=
  if s.cur = none then some (-1, s) else do
    let s ← strchr 0x3a s
    if s.cur = none then return (-1, s) else return (0, s.advance)

def skipWhiteSpace (s : Place) : Option Place := s.skip fun c => c ≠ 0 && isSpace c

def skipNextComma (s : Place) : Option Place := do
  let s ← s.skip fun c => c ≠ 0 && c ≠ 0x2c
  if (← s.read) = 0x2c then return s.advance else return s

def nextTok (s : Place) : Option (Option Nat × Place) := do
  let s ← skipWhiteSpace s
  if s.cur = none then return (none, s)
  else if (← s.read) = 0x22 then
    let (ret, s) ← strsep 0x22 s.advance
    let s ← skipNextComma s
    return (ret, s)
  else strsep 0x2c s

/-- The return code, what is stored in `*p_out`, and the place.  The two callers
pass base 10 signed and base 16 unsigned. -/
def atTokNextIntBase (base : Nat) (s : Place) : Option (Int × Option Int × Place) := do
  match ← nextTok s with
  | (none, s) => return (-1, none, s)
  | (some ret, s) =>
    let (l, found) := convert base (← stringAt s.bytes ret)
    return (if found then 0 else -1, some l, s)

def atTokNextInt (s : Place) : Option (Int × Option Int × Place) :=
  if s.cur = none then some (-1, none, s) else atTokNextIntBase 10 s

def atTokNextHexInt (s : Place) : Option (Int × Option Int × Place) :=
  if s.cur = none then some (-1, none, s) else atTokNextIntBase 16 s

/-- `store` tells whether `p_out` is not null. -/
def atTokNextBool (store : Bool) (s : Place) : Option (Int × Option Int × Place) := do
  let (ret, result, s) ← atTokNextInt s
  if ret < 0 then return (-1, none, s)
  else if ¬ (result = some 0 ∨ result = some 1) then return (-1, none, s)
  else return (ret, if store then result else none, s)

/-- The return code, the pointer stored in `*p_out` if one is, and the place. -/
def atTokNextStr (s : Place) : Option (Int × Option (Option Nat) × Place) := do
  let (out, s) ← nextTok s
  return (0, some out, s)

def atTokHasMore (s : Place) : Option Int :=
  if s.cur = none then some 0 else do
    return if (← s.read) = 0 then 0 else 1

end Mobile.Token.InPlace
