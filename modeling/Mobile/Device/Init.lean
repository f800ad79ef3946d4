import Mobile.Command.Manager
import Mobile.Device.Detect

/-!
# Bringing up the modem

`CheckSerialMod`, `CheckSerialPort` and `Modem::Init` of `modem.cc`, the last up to the
set-up of the channel.  The system they look at is a parameter.
-/

namespace Mobile.Device.Init

open Mobile.Token.Scan Mobile.Channel.Types Mobile.Device.Types Mobile.Device.Detect
open Mobile.Command.Manager (snprintf)
open Mobile.ProofSupport.Search (search)

/-- What `IsFileExist` says of a path, the contents of a file that `fopen` opens, and the
output of `lsusb` where `popen` does not fail. -/
structure System where
  isFileExist : Line → Bool
  fopen : Line → Option (List UInt8)
  lsusb : Option (List UInt8)

def usbDriverPath : Line := text "/proc/modules"

def namesDriver (line : Line) : Bool :=
  let line := line.takeWhile (· ≠ 0)
  (search line (text "option")).isSome || (search line (text "usb_wwan")).isSome ||
    (search line (text "usbserial")).isSome

/-- The loop of `CheckSerialMod`; `none` when the fuel is used up. -/
def serialModLoop : Nat → Stream → UInt32 → Modem → Option (Bool × Modem)
  | 0, _, _, _ => none
  | fuel + 1, fp, drivers, m =>
      let failed := some (false, { m with errno := .driverNotInstalled })
      if fp.eof then failed
      else
        match fgets 128 fp with
        | (none, _) => failed
        | (some line, fp) =>
            if namesDriver line then
              let drivers := drivers + 1
              if 3 = drivers ∨ 2 = drivers then some (true, m)
              else serialModLoop fuel fp drivers m
            else serialModLoop fuel fp drivers m

/-- Where the file does not open, the code returns `-1`, which is `true`. -/
def checkSerialMod (sys : System) (m : Modem) : Option (Bool × Modem) :=
  let m' := { m with errno := .driverNotInstalled }
  if !sys.isFileExist usbDriverPath then some (false, m')
  else
    match sys.fopen usbDriverPath with
    | none => some (true, m')
    | some modules => serialModLoop (modules.length + 1) ⟨modules, false⟩ 0 m

/-- `TTY_USB_FORMAT` with the number of a port. -/
def ttyUsb (port : UInt8) : Line :=
  let n := port.toNat
  text s!"/dev/ttyUSB{n}"

def checkSerialPort (sys : System) (m : Modem) : Bool × Modem :=
  let ttyPath := snprintf 15 (ttyUsb m.modem.dbgPort)
  if sys.isFileExist ttyPath then (true, m)
  else (false, { m with errno := .ttyUsbNotFound })

def init (sys : System) (m : Modem) : Option (Bool × Modem) := do
  let (installed, m) ← checkSerialMod sys m
  if !installed then return (false, m)
  let (matched, m) ← checkUsbDriver sys.lsusb m
  if !matched then return (false, m)
  let (found, m) := checkSerialPort sys m
  if !found then return (false, m)
  -- here the channel and its managers are set up
  return (true, m)

end Mobile.Device.Init
