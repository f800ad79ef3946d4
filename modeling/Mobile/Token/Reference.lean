import Mobile.Token.InPlace

/-!
# The reference tokenizer

`at_tok_start` to `at_tok_hasmore` of the reference RIL's `at_tok.c`, from which
`token.cc` was ported, on the same memory.
-/

namespace Mobile.Token.Reference

open Mobile.Token.InPlace (Place stringAt strchr strsep convert)
open Mobile.Token.Tokenizer (isSpace)

def atTokStart (s : Place) : Option (Int × Place) :=
  if s.cur = none then some (-1, s) else do
    let s ← strchr 0x3a s
    if s.cur = none then return (-1, s) else return (0, s.advance)

def skipWhiteSpace (s : Place) : Option Place :=
  if s.cur = none then some s else s.skip fun c => c ≠ 0 && isSpace c

def skipNextComma (s : Place) : Option Place :=
  if s.cur = none then some s else do
    let s ← s.skip fun c => c ≠ 0 && c ≠ 0x2c
    if (← s.read) = 0x2c then return s.advance else return s

def nextTok (s : Place) : Option (Option Nat × Place) := do
  let s ← skipWhiteSpace s
  if s.cur = none then return (none, s)
  else if (← s.read) = 0x22 then
    let (ret, s) ← strsep 0x22 s.advance
    let s ← skipNextComma s
    return (ret, s)
  else strsep 0x2c s

def atTokNextIntBase (base : Nat) (s : Place) : Option (Int × Option Int × Place) :=
  if s.cur = none then some (-1, none, s) else do
    match ← nextTok s with
    | (none, s) => return (-1, none, s)
    | (some ret, s) =>
      let (l, found) := convert base (← stringAt s.bytes ret)
      return (if found then 0 else -1, some l, s)

def atTokNextInt (s : Place) : Option (Int × Option Int × Place) := atTokNextIntBase 10 s

def atTokNextHexInt (s : Place) : Option (Int × Option Int × Place) := atTokNextIntBase 16 s

def atTokNextBool (store : Bool) (s : Place) : Option (Int × Option Int × Place) := do
  let (ret, result, s) ← atTokNextInt s
  if ret < 0 then return (-1, none, s)
  else if ¬ (result = some 0 ∨ result = some 1) then return (-1, none, s)
  else return (ret, if store then result else none, s)

def atTokNextStr (s : Place) : Option (Int × Option (Option Nat) × Place) :=
  if s.cur = none then some (-1, none, s) else do
    let (out, s) ← nextTok s
    return (0, some out, s)

def atTokHasMore (s : Place) : Option Int :=
  if s.cur = none then some 0 else do
    return if (← s.read) = 0 then 0 else 1

end Mobile.Token.Reference
