import Mobile.Device.Scanf
import Mobile.Device.Types

/-!
# Detecting the modem

`CheckIdSupport`, `CheckUsbDriver` and `MatchModem` of `modem.cc`.  The output of `lsusb`
is the bytes still to be read and the end-of-file mark of the stream.
-/

namespace Mobile.Device.Detect

open Mobile.Token.Scan Mobile.Channel.Types Mobile.Device.Types Mobile.Device.Scanf
open Mobile.ProofSupport.Search (search)

def checkIdLoop (vendorId productId : UInt32) : List ModemInfo → Modem → Bool × Modem
  | [], m => (true, m)
  | info :: rest, m =>
      if productId = info.productId ∧ vendorId = info.vendorId then
        (true, { m with modem := info })
      else
        let m := { m with errno := .driverIdNotSupport }
        if rest = [] then (false, m) else checkIdLoop vendorId productId rest m

def checkIdSupport (vendorId productId : UInt32) (m : Modem) : Bool × Modem :=
  checkIdLoop vendorId productId kUSBModems m

structure Stream where
  rest : List UInt8
  eof : Bool := false
  deriving DecidableEq, Repr

/-- At most `n` bytes, up to a line feed, and whether the line feed is among them. -/
def takeLine : Nat → List UInt8 → List UInt8 × List UInt8 × Bool
  | 0, s => ([], s, false)
  | _, [] => ([], [], false)
  | n + 1, c :: s =>
      if c = lf then ([c], s, true)
      else
        let (line, rest, closed) := takeLine n s
        (c :: line, rest, closed)

/-- `fgets(line, size, fp)`: the bytes stored, or the null pointer.  The mark is set
when the read meets the end of the stream. -/
def fgets (size : Nat) (fp : Stream) : Option Line × Stream :=
  let (line, rest, closed) := takeLine (size - 1) fp.rest
  let eof := !closed && line.length < size - 1
  (if line = [] then none else some line, ⟨rest, fp.eof || eof⟩)

def idFormat : List Directive := [.char 0x49, .char 0x44, .space, .hex, .char 0x3a, .hex]

/-- The ids after a scan: a number that is not read keeps the value of the line before. -/
def storeIds (vendorId productId : UInt32) : List Value → UInt32 × UInt32
  | .hex v :: .hex p :: _ => (v, p)
  | .hex v :: _ => (v, productId)
  | _ => (vendorId, productId)

/-- The loop of `CheckUsbDriver`; `none` when the fuel is used up. -/
def usbLoop : Nat → Stream → UInt32 → UInt32 → Modem → Option (Bool × Modem)
  | 0, _, _, _, _ => none
  | fuel + 1, fp, vendorId, productId, m =>
      let failed := some (false, { m with errno := .driverIdNotSupport })
      if fp.eof then failed
      else
        match fgets 256 fp with
        | (none, _) => failed
        | (some line, fp) =>
            match search (line.takeWhile (· ≠ 0)) (text "ID") with
            | none => usbLoop fuel fp vendorId productId m
            | some p =>
                let (vendorId, productId) := storeIds vendorId productId (sscanf p idFormat)
                -- the source passes the vendor id twice
                match checkIdSupport vendorId vendorId m with
                | (false, m) => usbLoop fuel fp vendorId productId m
                | (true, m) => some (true, m)

/-- `none` for a `popen` that fails. -/
def checkUsbDriver (lsusb : Option (List UInt8)) (m : Modem) : Option (Bool × Modem) :=
  match lsusb with
  | none => some (false, { m with errno := .driverIdNotSupport })
  | some output => usbLoop (output.length + 1) ⟨output, false⟩ 0 0 m

def matchModemLoop (modemStr : Line) : List ModemInfo → Modem → Modem
  | [], m => m
  | info :: rest, m =>
      if (search modemStr info.modemName).isSome ∧ m.modem.productId = info.productId ∧
          m.modem.vendorId = info.vendorId then
        { m with modem := info, errno := .ttyUsbAvailable }
      else matchModemLoop modemStr rest { m with errno := .ttyUsbUnavailable }

def matchModem (modemStr : Line) (m : Modem) : Modem :=
  matchModemLoop modemStr kUSBModems m

end Mobile.Device.Detect
