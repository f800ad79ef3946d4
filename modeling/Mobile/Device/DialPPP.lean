import Mobile.Device.Init

/-!
# Dialling

`Dial::DialPPP` of `dial.cc`, up to the `execvp` of the child or the return of the parent.
The members of `Dial` are those it uses, with the modem that `modem_` points to; the
result of `vfork` is a parameter.
-/

namespace Mobile.Device.DialPPP

open Mobile.Token.Scan Mobile.Channel.Types Mobile.Device.Types
open Mobile.Device.Init (ttyUsb)
open Mobile.Command.Manager (snprintf)

inductive AuthType
  | none
  | pap
  | chap
  | papChap
  deriving DecidableEq, Repr

structure LocalDialParam where
  oper : Operator
  mode : NetMode
  number : Line
  user : Line
  pass : Line
  apn : Line
  deriving DecidableEq, Repr

def kDefaultDialParam : List LocalDialParam :=
  [⟨.telcom, .evdo, text "#777", text "card", text "card", text ""⟩,
   ⟨.unicom, .wcdma, text "*99#", text "user", text "user", text "3gnet"⟩,
   ⟨.mobile, .tdscdma, text "*98*1#", text "user", text "user", text "cmnet"⟩,
   ⟨.mobile, .tdlte, text "*98*1#", text "card", text "card", text "cmnet"⟩,
   ⟨.telcom, .fddlte, text "*99#", text "user", text "user", text "ctlte"⟩,
   ⟨.unicom, .fddlte, text "*98*1#", text "user", text "user", text "cuinet"⟩,
   ⟨.mobile, .tdlte, text "*98*1#", text "card", text "card", text "cmwap"⟩,
   ⟨.mobile, .tdlte, text "*98*1#", text "card", text "card", text "cmmtm"⟩,
   ⟨.telcom, .evdo, text "#777", text "ctnet@mycdma.cn", text "vnet.mobi", text ""⟩,
   ⟨.telcom, .fddlte, text "*98*1#", text "user", text "user", text "ctm2m"⟩,
   ⟨.telcom, .fddlte, text "*98*1#", text "user", text "user", text "ctnet"⟩,
   ⟨.telcom, .fddlte, text "*98*1#", text "user", text "user", text "ctwap"⟩,
   ⟨.unicom, .fddlte, text "*98*1#", text "user", text "user", text "uninet"⟩,
   ⟨.unicom, .fddlte, text "*98*1#", text "user", text "user", text "uniwap"⟩,
   ⟨.unicom, .fddlte, text "*98*1#", text "user", text "user", text "wonet"⟩]

def kPPPd : Line := text "pppd"
def kModem : Line := text "modem"
def kCrtscts : Line := text "crtscts"
def kDebug : Line := text "debug"
def kNoDetach : Line := text "nodetach"
def kBaudrate : Line := text "115200"
def kConnect : Line := text "connect"
def kNoIpDefault : Line := text "noipdefault"
def kAsyncmap : Line := text "default-asyncmap"
def kLcpMaxKey : Line := text "lcp-max-configure"
def kLcpMaxVal : Line := text "30"
def kDefaultRoute : Line := text "defaultroute"
def kHidePassWord : Line := text "hide-password"
def kNoDeflate : Line := text "nodeflate"
def kNopcomp : Line := text "nopcomp"
def kNovj : Line := text "novj"
def kNovjCcomp : Line := text "novjccomp"
def kMtuKey : Line := text "mtu"
def kMtuVal : Line := text "1400"
def kNoAuth : Line := text "noauth"
def kAuth : Line := text "auth"
def kUser : Line := text "user"
def kPassWord : Line := text "password"
def kRefusePap : Line := text "refuse-pap"
/-- The text of `kRefusePap`. -/
def kRefuseChap : Line := text "refuse-pap"
def kRefuseEap : Line := text "refuse-eap"
def kRequirePap : Line := text "require-pap"
def kRequireChap : Line := text "require-chap"
def kUsePeerDns : Line := text "usepeerdns"
def kLcpEchoIntervalKey : Line := text "lcp-echo-interval"
def kLcpEchoIntervalVal : Line := text "60"
def kLcpEchoFailureKey : Line := text "lcp-echo-failure"
def kLcpEchoFailureVal : Line := text "3"
def kMaxFailKey : Line := text "maxfail"
def kMaxFailVal : Line := text "0"
def kDisconnect : Line := text "disconnect"

/-- The slots of `pppArgv` that are written: a string, or the null pointer `kPPPdEnd`. -/
abbrev Argv := List (Option Line)

/-- `pppArgv[i++] = arg`; `none` behind the last of the 56 slots. -/
def put (argv : Argv) (arg : Option Line) : Option Argv :=
  if argv.length < 56 then some (argv ++ [arg]) else none

def putAll (argv : Argv) (args : List Line) : Option Argv :=
  args.foldlM (fun argv arg => put argv (some arg)) argv

structure Dial where
  modem : Modem
  authType : AuthType
  pppid : Int
  deriving DecidableEq, Repr

inductive DialEnd
  | returned (ret : Bool)
  /-- the child at its `execvp` -/
  | execvp (file : Line) (argv : Argv)
  deriving DecidableEq, Repr

/-- The end, the object, and the codes that `cb` was called with. -/
structure Dialed where
  ending : DialEnd
  dial : Dial
  calls : List Int
  deriving DecidableEq, Repr

def dialParam (m : Modem) : Option LocalDialParam :=
  kDefaultDialParam.find? fun p => m.modem.simOperator = p.oper ∧ m.netMode = p.mode

def chatConnScript (p : LocalDialParam) : Line :=
  snprintf 511 (text "chat -v  TIMEOUT 15 ABORT BUSY  ABORT 'NO ANSWER' '' ATH0 OK AT " ++
    text "'OK-+++\\c-OK' ATDT" ++ p.number ++ text " CONNECT ")

def chatDisconScript : Line :=
  snprintf 511 (text "chat -v ABORT 'BUSY' ABORT 'ERROR' ABORT 'NO DIALTONE' '' '\\K' '' " ++
    text "'+++ATH' SAY '\nPDP context detached\n'")

def portStr (m : Modem) : Line := snprintf 31 (ttyUsb m.modem.dialPort)

def authArgs : AuthType → List Line
  | .none => [kNoAuth]
  | .pap => [kRefuseChap, kRefuseEap, kAuth, kRequirePap]
  | .chap => [kRefusePap, kRefuseEap, kAuth, kRequireChap]
  | .papChap => []

def pppArgv (d : Dial) (p : LocalDialParam) : Option Argv := do
  let argv ← putAll [] [kPPPd, kModem, kCrtscts, kDebug, kNoDetach]
  let argv ← putAll argv [portStr d.modem]
  let argv ← putAll argv [kBaudrate, kConnect, chatConnScript p, kNoIpDefault, kAsyncmap,
    kLcpMaxKey, kLcpMaxVal, kDefaultRoute, kHidePassWord, kNoDeflate, kNopcomp, kNovj, kNovjCcomp]
  let argv ← putAll argv [kMtuKey, kMtuVal]
  let argv ← putAll argv (authArgs d.authType)
  let argv ← putAll argv [kUser, p.user, kPassWord, p.pass]
  let argv ← putAll argv [kUsePeerDns, kLcpEchoIntervalKey, kLcpEchoIntervalVal,
    kLcpEchoFailureKey, kLcpEchoFailureVal, kMaxFailKey, kMaxFailVal, kDisconnect,
    chatDisconScript]
  put argv none

/-- `none` where `pppArgv` is written behind its last slot. -/
def dialPPP (d : Dial) (vfork : Int) : Option Dialed :=
  let d := { d with pppid := -1 }
  match dialParam d.modem with
  | none => some ⟨.returned false, d, [-1]⟩
  | some p => do
      let argv ← pppArgv d p
      let d := { d with pppid := vfork }
      if vfork < 0 then return ⟨.returned false, d, []⟩
      else if vfork = 0 then return ⟨.execvp kPPPd argv, d, []⟩
      -- the process id as a `bool`
      else return ⟨.returned (d.pppid != 0), d, []⟩

end Mobile.Device.DialPPP
