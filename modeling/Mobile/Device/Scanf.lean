import Mobile.Token.Tokenizer

/-!
# Formatted input

`sscanf` with the directives the modem code uses.  A scan stops at the first directive
that does not match, and its result is the values assigned until then: what the remaining
arguments point to keeps its contents.
-/

namespace Mobile.Device.Scanf

open Mobile.Token.Scan
open Mobile.Token.Tokenizer (isSpace digitValue digits clampLong toInt)

inductive Directive
  | char (c : UInt8)
  | space
  /-- `%d` -/
  | int
  /-- `%x` -/
  | hex
  /-- `%s` -/
  | string
  deriving DecidableEq, Repr

inductive Value
  | int (n : Int)
  | hex (n : UInt32)
  | string (s : Line)
  deriving DecidableEq, Repr

def isDigit (base : Nat) (c : UInt8) : Bool := (digitValue c).any (· < base)

def magnitude (base : Nat) (s : Line) : Nat :=
  (digits base s).foldl (fun n d => base * n + d) 0

def scanSign : Line → Bool × Line
  | 0x2d :: s => (true, s)
  | 0x2b :: s => (false, s)
  | s => (false, s)

/-- The number is converted by `strtol` and stored in an `int`. -/
def scanInt (s : Line) : Option (Int × Line) :=
  let (neg, s) := scanSign (s.dropWhile isSpace)
  let n : Int := magnitude 10 s
  if s.takeWhile (isDigit 10) = [] then none
  else some (toInt (clampLong (if neg then -n else n)), s.dropWhile (isDigit 10))

/-- The number is converted by `strtoul` and stored in an `unsigned int`. -/
def toUnsigned (neg : Bool) (n : Nat) : UInt32 :=
  if n ≤ 0xffffffffffffffff then
    if neg then -UInt32.ofNat n else UInt32.ofNat n
  else 0xffffffff

/-- The prefix `0x` or `0X` is a number by itself. -/
def scanHex (s : Line) : Option (UInt32 × Line) :=
  let (neg, s) := scanSign (s.dropWhile isSpace)
  match s with
  | 0x30 :: 0x78 :: s | 0x30 :: 0x58 :: s =>
      some (toUnsigned neg (magnitude 16 s), s.dropWhile (isDigit 16))
  | s =>
      if s.takeWhile (isDigit 16) = [] then none
      else some (toUnsigned neg (magnitude 16 s), s.dropWhile (isDigit 16))

def scanString (s : Line) : Option (Line × Line) :=
  let s := s.dropWhile isSpace
  if s = [] then none
  else some (s.takeWhile (!isSpace ·), s.dropWhile (!isSpace ·))

def sscanf : Line → List Directive → List Value
  | _, [] => []
  | s, .char c :: ds => if s.head? = some c then sscanf s.tail ds else []
  | s, .space :: ds => sscanf (s.dropWhile isSpace) ds
  | s, .int :: ds =>
      match scanInt s with
      | some (n, s) => .int n :: sscanf s ds
      | none => []
  | s, .hex :: ds =>
      match scanHex s with
      | some (n, s) => .hex n :: sscanf s ds
      | none => []
  | s, .string :: ds =>
      match scanString s with
      | some (t, s) => .string t :: sscanf s ds
      | none => []

end Mobile.Device.Scanf
