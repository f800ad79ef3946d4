import Mobile.Channel.Types
import Mobile.ProofSupport.Search

/-!
# Modems

The enumerations and tables of `modem.h`, `mobile.h`, `errno.h` and `identify.h` that the
detection of a modem uses, and the members of `Modem` it changes.  The pointer `modem_` is
the record it points to.
-/

namespace Mobile.Device.Types

open Mobile.Token.Scan Mobile.Channel.Types

inductive ModemType
  | unkown
  | longsung
  | huawei
  | zte
  | intel
  | simcom
  | nodecom
  | noeway
  | quectel
  deriving DecidableEq, Repr

inductive Operator
  | mobile
  | unicom
  | telcom
  | unkown
  deriving DecidableEq, Repr

inductive NetMode
  | none
  | cdma1x
  | gprs
  | evdo
  | wcdma
  | gswcdma
  | hybrid
  | tdlte
  | fddlte
  | tdscdma
  deriving DecidableEq, Repr

inductive MobileErrno
  | success
  | driverNotInstalled
  | driverIdNotFound
  | driverIdNotSupport
  | ttyUsbNotFound
  | ttyUsbOpenFail
  | ttyUsbUnavailable
  | ttyUsbAvailable
  deriving DecidableEq, Repr

structure ModemInfo where
  vendorId : UInt32
  productId : UInt32
  modemName : Line
  modemType : ModemType
  atPort : UInt8
  dialPort : UInt8
  dbgPort : UInt8
  apnCid : UInt8
  /-- The constructor leaves this member alone: in the static table it is zero. -/
  simOperator : Operator := .mobile
  deriving DecidableEq, Repr

structure Modem where
  errno : MobileErrno
  modem : ModemInfo
  netMode : NetMode
  deriving DecidableEq, Repr

def idVendorLongcheer : UInt32 := 0x1c9e

def idVendorHuawei : UInt32 := 0x12d1

def idProductU8300 : UInt32 := 0x9b05

def idProductU9300C : UInt32 := 0x9b3c

def idProductME909u521 : UInt32 := 0x1573

def idProductME909s821 : UInt32 := 0x15c1

def kUSBModems : List ModemInfo :=
  [⟨idVendorLongcheer, idProductU8300, text "U8300", .longsung, 1, 3, 2, 2, .mobile⟩,
   ⟨idVendorLongcheer, idProductU8300, text "U8300W", .longsung, 1, 3, 2, 2, .mobile⟩,
   ⟨idVendorLongcheer, idProductU8300, text "U8300C", .longsung, 2, 1, 3, 2, .mobile⟩,
   ⟨idVendorLongcheer, idProductU9300C, text "U9300C", .longsung, 2, 1, 3, 2, .mobile⟩,
   ⟨idVendorHuawei, idProductME909u521, text "ME909u_521", .huawei, 4, 2, 1, 0, .mobile⟩,
   ⟨idVendorHuawei, idProductME909s821, text "ME909s-821", .huawei, 4, 2, 1, 0, .mobile⟩,
   ⟨idVendorHuawei, idProductME909s821, text "ME909s_121", .huawei, 4, 2, 1, 0, .mobile⟩]

end Mobile.Device.Types
