import Mobile.Token.Scan

/-!
# The tokenizer

`AtTokStart` to `AtTokNextStr` of `token.cc` on one cursor.  A cursor is the text
it points to, up to the terminator, or the null pointer.  The outer `Option` of a
result is `none` where the code reads through the null cursor.  As on the aarch64
device of the README, `long` has 64 bits and `int` 32.
-/

namespace Mobile.Token.Tokenizer

open Mobile.Token.Scan

abbrev Cursor := Option Line

def isSpace (c : UInt8) : Bool := c == 0x20 || (0x09 ≤ c && c ≤ 0x0d)

def atTokStart : Cursor → Int × Cursor
  | none => (-1, none)
  | some s =>
    -- `strchr(*p_cur, ':')`
    match s.dropWhile (· ≠ 0x3a) with
    | [] => (-1, none)
    | _ :: rest => (0, some rest)

def skipWhiteSpace (cur : Cursor) : Option Line := do
  let s ← cur
  return s.dropWhile isSpace

def skipNextComma (cur : Cursor) : Option Line := do
  let s ← cur
  return (s.dropWhile (· ≠ 0x2c)).drop 1

/-- `strsep` with one delimiter: the token, and the null cursor when there is no
further delimiter. -/
def strsep (s : Line) (delim : UInt8) : Line × Cursor :=
  match s.dropWhile (· ≠ delim) with
  | [] => (s, none)
  | _ :: rest => (s.takeWhile (· ≠ delim), some rest)

def nextTok (cur : Cursor) : Option (Line × Cursor) := do
  match ← skipWhiteSpace cur with
  | 0x22 :: s =>
    let (ret, cur) := strsep s 0x22
    let rest ← skipNextComma cur
    return (ret, some rest)
  | s => return strsep s 0x2c

def digitValue (c : UInt8) : Option Nat :=
  if 0x30 ≤ c && c ≤ 0x39 then some (c.toNat - 0x30)
  else if 0x61 ≤ c && c ≤ 0x7a then some (c.toNat - 0x61 + 10)
  else if 0x41 ≤ c && c ≤ 0x5a then some (c.toNat - 0x41 + 10)
  else none

def digits (base : Nat) (s : Line) : List Nat :=
  (s.map digitValue).takeWhile (fun d => d.any (· < base)) |>.filterMap id

def clampLong (n : Int) : Int := max (-0x8000000000000000) (min n 0x7fffffffffffffff)

/-- `strtol` in base 10: the value and whether a number was found. -/
def strtol (s : Line) : Int × Bool :=
  let s := s.dropWhile isSpace
  let (neg, s) := match s with
    | 0x2d :: rest => (true, rest)
    | 0x2b :: rest => (false, rest)
    | _ => (false, s)
  let ds := digits 10 s
  let n : Nat := ds.foldl (fun n d => 10 * n + d) 0
  (clampLong (if neg then -(n : Int) else n), ds ≠ [])

def toInt (l : Int) : Int := (l + 0x80000000) % 0x100000000 - 0x80000000

/-- The return code, what is stored in `*p_out`, and the cursor. -/
def atTokNextInt (cur : Cursor) : Option (Int × Option Int × Cursor) :=
  if cur = none then some (-1, none, none) else do
    let (tok, cur) ← nextTok cur
    let (l, found) := strtol tok
    return (if found then 0 else -1, some (toInt l), cur)

def atTokNextBool (cur : Cursor) : Option (Int × Option Int × Cursor) := do
  let (ret, result, cur) ← atTokNextInt cur
  if ret < 0 then return (-1, none, cur)
  else if ¬ (result = some 0 ∨ result = some 1) then return (-1, none, cur)
  else return (ret, result, cur)

def atTokNextStr (cur : Cursor) : Option (Int × Line × Cursor) := do
  let (out, cur) ← nextTok cur
  return (0, out, cur)

end Mobile.Token.Tokenizer
